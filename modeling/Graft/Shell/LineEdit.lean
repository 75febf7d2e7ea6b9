import Graft.Pattern.Match
import Graft.Pattern.Parse
import Graft.Shell.Program

/-!
This module contains the editing of a text line by line. Lines are sequences of bytes, of which each
counts as the character with its value.
-/

namespace Graft
namespace Shell

/--
A part of an expression: it is a group that a replacement can refer to, or it is not.
-/
structure Segment where
  isGroup : Bool
  pattern : Pattern
  deriving DecidableEq, Repr, Inhabited

namespace Segment

/--
Read the members of a set up to its closing bracket, at most `count` of them.
-/
def members? : Nat → List Char → Option (CharSet × List Char)
  | 0, _ => none
  | _ + 1, [] => none
  | _ + 1, ']' :: cs => some (.none, cs)
  | count + 1, '[' :: ':' :: cs => do
    let (named, cs) ← Pattern.namedClassAt? (':' :: cs)
    let (others, cs) ← members? count cs
    return (.union named others, cs)
  | count + 1, lo :: '-' :: hi :: cs =>
    if hi = ']' then do
      let (others, cs) ← members? count ('-' :: hi :: cs)
      return (.union (.single lo) others, cs)
    else do
      let (others, cs) ← members? count cs
      return (.union (.range lo hi) others, cs)
  | count + 1, c :: cs => do
    let (others, cs) ← members? count cs
    return (.union (.single c) others, cs)

/--
Read a set, given what follows its opening bracket. A closing bracket right there is a member.
-/
def set? (cs : List Char) : Option (CharSet × List Char) := do
  let (negated, cs) := if cs.head? = some '^' then (true, cs.tail) else (false, cs)
  let (bracket, cs) := if cs.head? = some ']' then (true, cs.tail) else (false, cs)
  let (set, cs) ← members? (cs.length + 1) cs
  let set := if bracket then .union (.single ']') set else set
  return (if negated then .compl set else set, cs)

/--
Read one character or set.
-/
def atom? (first : Bool) : List Char → Option (Pattern × List Char)
  | '.' :: cs => some (.char .all, cs)
  | '[' :: cs => (set? cs).map fun (set, cs) => (.char set, cs)
  | '^' :: cs => some (if first then .anchor .textStart else .char (.single '^'), cs)
  | ['$'] => some (.anchor .textEnd, [])
  | '$' :: '\\' :: ')' :: cs => some (.anchor .textEnd, '\\' :: ')' :: cs)
  | '\\' :: c :: cs =>
    if c = 'n' then some (.char (.single '\n'), cs)
    else if c = 't' then some (.char (.single '\t'), cs)
    else if c = 's' then some (.char .blank, cs)
    else if c = 'w' then some (.char (.inter .word Pattern.asciiOnly), cs)
    else if c.isAlphanum then none
    else some (.char (.single c), cs)
  | c :: cs => some (.char (.single c), cs)
  | [] => none

/--
Read the parts of an expression up to the end of a group or of the text. `pending` is the last atom,
which a repetition would apply to, and `inside` holds the parts of an open group.
-/
def segments? : Nat → Option Pattern → Option Pattern → List Char → Option (List Segment)
  | 0, _, _, _ => none
  | count + 1, pending, inside, cs =>
    let close (p : Pattern) : Option Pattern × List Segment :=
      match inside with
      | some front => (some (.seq front p), [])
      | none => (none, [⟨false, p⟩])
    let flush : Option Pattern × List Segment :=
      match pending with
      | some p => close p
      | none => (inside, [])
    let goOn (p : Pattern) (cs : List Char) : Option (List Segment) := do
      let (inside, done) := close p
      return done ++ (← segments? count none inside cs)
    match cs, pending with
    | [], _ => if inside.isSome then none else some flush.2
    | '*' :: cs, some p => goOn (.rounds true 0 none p) cs
    | '\\' :: '+' :: cs, some p => goOn (.rounds true 1 none p) cs
    | '\\' :: '?' :: cs, some p => goOn (.optional true p) cs
    | '\\' :: '(' :: cs, _ =>
      if inside.isSome then none else do return flush.2 ++ (← segments? count none (some .empty) cs)
    | '\\' :: ')' :: cs, _ => do
      let group ← flush.1
      return ⟨true, group⟩ :: (← segments? count none none cs)
    | cs, _ => do
      let (inside, done) := flush
      let (p, rest) ← atom? (pending.isNone && (inside.isNone || inside = some .empty)) cs
      return done ++ (← segments? count (some p) inside rest)

/--
The lengths that the parts take at the beginning of a text that follows `before`.
-/
def spans? (before : Option Char) (cs : List Char) : List Segment → Option (List Nat)
  | [] => some []
  | s :: rest =>
    ((s.pattern.rows before cs).headD []).findSome? fun n =>
      (spans? ((cs.take n).getLast?.or before) (cs.drop n) rest).map (n :: ·)

def groups : List Segment → List Nat → List Char → List (List Char)
  | s :: rest, n :: ns, cs => (if s.isGroup then [cs.take n] else []) ++ groups rest ns (cs.drop n)
  | _, _, _ => []

end Segment

/--
The text that takes the place of a match. `&` stands for the match and a digit behind a backslash for
a group.
-/
def replacement (hit : List Char) (groups : List (List Char)) : List Char → List Char
  | [] => []
  | '&' :: cs => hit ++ replacement hit groups cs
  | '\\' :: c :: cs =>
    let part :=
      match Text.digitValue? 10 c with
      | some 0 => hit
      | some (n + 1) => groups.getD n []
      | none => [if c = 'n' then '\n' else c]
    part ++ replacement hit groups cs
  | c :: cs => c :: replacement hit groups cs

/--
Replace the first match in a text, or all of them. `skip` characters belong to the last match. The
second part says whether there was one.
-/
def substitute (segments : List Segment) (template : List Char) (everywhere : Bool) :
    Nat → Option Char → List Char → List Char × Bool
  | skip + 1, _, c :: cs => substitute segments template everywhere skip (some c) cs
  | _, before, cs =>
    match Segment.spans? before cs segments with
    | some spans =>
      let n := spans.foldl (· + ·) 0
      let new := replacement (cs.take n) (Segment.groups segments spans cs) template
      if !everywhere then (new ++ cs.drop n, true)
      else
        match n, cs with
        | 0, [] => (new, true)
        | 0, c :: cs =>
          let (rest, _) := substitute segments template everywhere 0 (some c) cs
          (new ++ c :: rest, true)
        | n + 1, c :: cs =>
          let (rest, _) := substitute segments template everywhere n (some c) cs
          (new ++ rest, true)
        | _ + 1, [] => (new, true)
    | none =>
      match cs with
      | [] => ([], false)
      | c :: cs =>
        let (rest, hit) := substitute segments template everywhere 0 (some c) cs
        (c :: rest, hit)

inductive LineEdit where
  | print
  | delete
  | substitute (segments : List Segment) (template : List Char) (everywhere shown : Bool)
  deriving DecidableEq, Repr, Inhabited

namespace LineEdit

/--
Take the characters up to an unescaped delimiter. The backslash in front of one that is escaped goes.
-/
def upTo? (delimiter : Char) : List Char → Option (List Char × List Char)
  | [] => none
  | '\\' :: c :: cs => do
    let (part, rest) ← upTo? delimiter cs
    return ((if c = delimiter then [c] else ['\\', c]) ++ part, rest)
  | c :: cs =>
    if c = delimiter then some ([], cs)
    else (upTo? delimiter cs).map fun (part, rest) => (c :: part, rest)

def read? : List Char → Option (LineEdit × List Char)
  | 'p' :: cs => some (.print, cs)
  | 'd' :: cs => some (.delete, cs)
  | 's' :: delimiter :: cs => do
    let (expression, cs) ← upTo? delimiter cs
    let (template, cs) ← upTo? delimiter cs
    let flags := cs.takeWhile (fun c => c == 'g' || c == 'p')
    let segments ← Segment.segments? (expression.length + 1) none none expression
    return (.substitute segments template (flags.contains 'g') (flags.contains 'p'),
      cs.drop flags.length)
  | _ => none

/--
Read edits that are separated by semicolons or ends of lines, at most `count` of them.
-/
def readAll? : Nat → List Char → Option (List LineEdit)
  | 0, _ => none
  | count + 1, cs =>
    match cs.dropWhile (fun c => c == ' ' || c == ';' || c == '\n') with
    | [] => some []
    | cs => do
      let (edit, rest) ← read? cs
      match rest.dropWhile (· == ' ') with
      | [] => return [edit]
      | c :: rest => if c = ';' ∨ c = '\n' then return edit :: (← readAll? count rest) else none

/--
The lines that come from one line. `quiet` is set if only edits print.
-/
def linesFrom (quiet : Bool) : List LineEdit → List Char → List (List Char)
  | [], line => if quiet then [] else [line]
  | .print :: edits, line => line :: linesFrom quiet edits line
  | .delete :: _, _ => []
  | .substitute segments template everywhere shown :: edits, line =>
    let (line, hit) := Shell.substitute segments template everywhere 0 none line
    (if hit && shown then [line] else []) ++ linesFrom quiet edits line

end LineEdit

/--
The text that edits make of a text. A last line without an end stays without one.
-/
def editText (quiet : Bool) (edits : List LineEdit) (cs : List Char) : List Char :=
  let lines := cs.splitOn '\n'
  let last := lines.getLastD []
  let whole := lines.dropLast.flatMap fun line =>
    (LineEdit.linesFrom quiet edits line).flatMap (· ++ ['\n'])
  if last.isEmpty then whole
  else whole ++ ['\n'].intercalate (LineEdit.linesFrom quiet edits last)

def asChars (bytes : ByteArray) : List Char :=
  bytes.toList.map fun b => Char.ofNat b.toNat

/--
Edit files line by line. The first argument that is no option gives the edits.
-/
def sed (t : Tree) (input : ByteArray) (args : List String) : Outcome :=
  let quiet := args.head? = some "-n"
  let args := if quiet then args.tail else args
  let args := if args.head? = some "-e" then args.tail else args
  match args with
  | [] => .complain "sed: no script specified" 1
  | script :: names =>
    match LineEdit.readAll? (script.utf8ByteSize + 1) (asChars script.toUTF8) with
    | none => .complain "sed: unknown command" 1
    | some edits =>
      let edit (content : ByteArray) : Outcome :=
        let out := editText quiet edits (asChars content)
        .print ⟨(out.map fun c => UInt8.ofNat c.toNat).toArray⟩
      if names.isEmpty then edit input
      else
        names.foldl (fun o name =>
          match t.read ⟨name⟩ with
          | .ok content => { o.andThen (edit content) with input }
          | .error e =>
            { o.andThen (.complain ("sed: can't read " ++ name ++ ": " ++ e.reason) 2) with input })
          { input }

end Shell
end Graft
