import Graft.Pattern.Basic
import Graft.Text.Radix

/-!
This module contains the written form of patterns. Every reader takes the characters that are left and
returns those behind what it has read. Nothing comes back for a pattern that is not well formed;
look-around and references to groups are not part of any pattern.
-/

namespace Graft
namespace Pattern

/--
The switches that a pattern sets for what follows in the same group.
-/
structure Flags where
  ignoreCase : Bool := false
  /-- `^` and `$` stand for the ends of lines. -/
  multiLine : Bool := false
  /-- `.` stands for a line feed as well. -/
  dotAll : Bool := false
  /-- Repetitions are greedy only with `?` behind them. -/
  lazyFirst : Bool := false
  /-- White space and comments do not count. -/
  spaced : Bool := false
  /-- A carriage return belongs to the end of a line. -/
  returns : Bool := false
  /-- Classes hold characters beyond ASCII. -/
  unicode : Bool := true
  deriving DecidableEq, Repr, Inhabited

namespace Flags

/--
Set or clear the switch with a letter.
-/
def set? (f : Flags) (on : Bool) : Char → Option Flags
  | 'i' => some { f with ignoreCase := on }
  | 'm' => some { f with multiLine := on }
  | 's' => some { f with dotAll := on }
  | 'U' => some { f with lazyFirst := on }
  | 'x' => some { f with spaced := on }
  | 'R' => some { f with returns := on }
  | 'u' => some { f with unicode := on }
  | _ => none

end Flags

/--
Drop white space and comments, which end with their line. `comment` is set inside one.
-/
def skipSpace (comment : Bool) : List Char → List Char
  | [] => []
  | c :: cs =>
    if comment then skipSpace (c != '\n') cs
    else if c = '#' then skipSpace true cs
    else if Text.isBlank c then skipSpace false cs
    else c :: cs

def next (f : Flags) (cs : List Char) : List Char :=
  if f.spaced then skipSpace false cs else cs

/--
What an escape or a plain character stands for.
-/
inductive Primitive where
  | literal (c : Char)
  | class (set : CharSet)
  | anchor (condition : Anchor)
  deriving DecidableEq, Repr, Inhabited

def asciiOnly : CharSet := .range '\x00' '\x7f'

/--
The class behind `\d`, `\s`, `\w` or its complement.
-/
def escapeClass? (f : Flags) (c : Char) : Option CharSet :=
  let base? : Option CharSet :=
    match c.toLower with
    | 'd' => some .digit
    | 's' => some .blank
    | 'w' => some .word
    | _ => none
  base?.map fun base =>
    let base := if f.unicode then base else base.inter asciiOnly
    if c.isUpper then .compl base else base

def charOfHex? (digits : List Char) : Option Char := do
  if digits.isEmpty then none
  let n ← digits.foldlM (fun n c => (Text.digitValue? 16 c).map (n * 16 + ·)) 0
  if n.isValidChar then some (Char.ofNat n) else none

/--
Read a code point: between braces, or `count` digits.
-/
def hexEscape? (count : Nat) (cs : List Char) : Option (Primitive × List Char) :=
  match cs with
  | '\x7b' :: rest =>
    match rest.dropWhile (· != '\x7d') with
    | _ :: behind => (charOfHex? (rest.takeWhile (· != '\x7d'))).map (.literal ·, behind)
    | [] => none
  | _ =>
    if cs.length < count then none
    else (charOfHex? (cs.take count)).map (.literal ·, cs.drop count)

/--
Read the name of a word boundary between braces. Braces that begin otherwise are left for a
repetition.
-/
def boundary? (cs : List Char) : Option (Primitive × List Char) :=
  let isNameChar (c : Char) : Bool := c.isAlpha || c == '-'
  match cs with
  | ['\x7b'] => none
  | '\x7b' :: c :: rest =>
    if isNameChar c then
      match (c :: rest).dropWhile isNameChar with
      | '\x7d' :: behind =>
        match String.ofList ((c :: rest).takeWhile isNameChar) with
        | "start" => some (.anchor .wordStart, behind)
        | "end" => some (.anchor .wordEnd, behind)
        | "start-half" => some (.anchor .wordStartHalf, behind)
        | "end-half" => some (.anchor .wordEndHalf, behind)
        | _ => none
      | _ => none
    else some (.anchor .wordBoundary, cs)
  | _ => some (.anchor .wordBoundary, cs)

/--
Read what follows a backslash.
-/
def escape? (f : Flags) : List Char → Option (Primitive × List Char)
  | [] => none
  | c :: cs =>
    match c with
    | 'x' => hexEscape? 2 (next f cs)
    | 'u' => hexEscape? 4 (next f cs)
    | 'U' => hexEscape? 8 (next f cs)
    | 'a' => some (.literal '\x07', cs)
    | 'f' => some (.literal '\x0c', cs)
    | 't' => some (.literal '\t', cs)
    | 'n' => some (.literal '\n', cs)
    | 'r' => some (.literal '\r', cs)
    | 'v' => some (.literal '\x0b', cs)
    | 'A' => some (.anchor .textStart, cs)
    | 'z' => some (.anchor .textEnd, cs)
    | 'b' => boundary? cs
    | 'B' => some (.anchor .noWordBoundary, cs)
    | '<' => some (.anchor .wordStart, cs)
    | '>' => some (.anchor .wordEnd, cs)
    | _ =>
      match escapeClass? f c with
      | some set => some (.class set, cs)
      | none => if c.toNat < 0x80 && !c.isAlphanum then some (.literal c, cs) else none

/-! Classes in brackets. -/

/--
The characters of the classes that are named inside brackets.
-/
def namedClass? : String → Option CharSet
  | "alnum" => some (.union (.range '0' '9') (.union (.range 'A' 'Z') (.range 'a' 'z')))
  | "alpha" => some (.union (.range 'A' 'Z') (.range 'a' 'z'))
  | "ascii" => some asciiOnly
  | "blank" => some (.union (.single '\t') (.single ' '))
  | "cntrl" => some (.union (.range '\x00' '\x1f') (.single '\x7f'))
  | "digit" => some (.range '0' '9')
  | "graph" => some (.range '!' '~')
  | "lower" => some (.range 'a' 'z')
  | "print" => some (.range ' ' '~')
  | "punct" =>
    some (.union (.union (.range '!' '/') (.range ':' '@')) (.union (.range '[' '\x60') (.range '\x7b' '~')))
  | "space" => some (.union (.range '\t' '\r') (.single ' '))
  | "upper" => some (.range 'A' 'Z')
  | "word" =>
    some (.union (.union (.range '0' '9') (.single '_')) (.union (.range 'A' 'Z') (.range 'a' 'z')))
  | "xdigit" => some (.union (.range '0' '9') (.union (.range 'A' 'F') (.range 'a' 'f')))
  | _ => none

/--
Read a named class such as `[:alpha:]` or `[:^alpha:]`, given what follows its first bracket.
-/
def namedClassAt? : List Char → Option (CharSet × List Char)
  | ':' :: cs => do
    let (negated, cs) := if cs.head? = some '^' then (true, cs.tail) else (false, cs)
    let set ← namedClass? (.ofList (cs.takeWhile (· != ':')))
    match cs.dropWhile (· != ':') with
    | ':' :: ']' :: behind => some (if negated then .compl set else set, behind)
    | _ => none
  | _ => none

inductive ClassOp where
  | inter
  | diff
  | symmDiff
  deriving DecidableEq, Repr, Inhabited

/--
Add to a class everything that differs in case only, if case does not count.
-/
def folded (f : Flags) (set : CharSet) : CharSet :=
  if f.ignoreCase then .anyCase set else set

/--
The class on the left of an operator that is waiting, combined with the one on its right.
-/
def combine (f : Flags) (pending : Option (ClassOp × CharSet)) (set : CharSet) : CharSet :=
  match pending with
  | none => set
  | some (.inter, left) => .inter (folded f left) (folded f set)
  | some (.diff, left) => .diff (folded f left) (folded f set)
  | some (.symmDiff, left) => .symmDiff (folded f left) (folded f set)

def member? (f : Flags) : List Char → Option (Primitive × List Char)
  | [] => none
  | '\\' :: cs => escape? f cs
  | c :: cs => some (.literal c, cs)

/--
Read a range or a single member of a class. A `-` in front of `]` or another `-` makes no range.
-/
def range? (f : Flags) (cs : List Char) : Option (CharSet × List Char) := do
  let (first, cs) ← member? f cs
  let cs := next f cs
  let single : Option (CharSet × List Char) :=
    match first with
    | .literal c => some (.single c, cs)
    | .class set => some (set, cs)
    | .anchor _ => none
  match cs with
  | [] => none
  | '-' :: rest =>
    match next f rest with
    | ']' :: _ | '-' :: _ => single
    | [] => none
    | rest => do
      let (last, rest) ← member? f rest
      match first, last with
      | .literal lo, .literal hi => if lo ≤ hi then some (.range lo hi, rest) else none
      | _, _ => none
  | _ => single

def hyphens (f : Flags) : Nat → Bool → List Char → Bool × List Char
  | fuel + 1, _, '-' :: cs => hyphens f fuel true (next f cs)
  | _, seen, cs => (seen, cs)

mutual

/--
Read a class, given what follows its opening bracket.
-/
def class? (f : Flags) : Nat → List Char → Option (CharSet × List Char)
  | 0, _ => none
  | fuel + 1, cs => do
    let cs := next f cs
    let (negated, cs) := if cs.head? = some '^' then (true, next f cs.tail) else (false, cs)
    let (hyphen, cs) := hyphens f cs.length false cs
    let (start, cs) : CharSet × List Char :=
      if hyphen then (.single '-', cs)
      else if cs.head? = some ']' then (.single ']', next f cs.tail)
      else (.none, cs)
    let (set, cs) ← classItems? f fuel none start cs
    let set := folded f set
    return (if negated then .compl set else set, cs)

/--
Read the members of a class up to its closing bracket. `set` holds those read since the last operator.
-/
def classItems? (f : Flags) : Nat → Option (ClassOp × CharSet) → CharSet → List Char →
    Option (CharSet × List Char)
  | 0, _, _, _ => none
  | fuel + 1, pending, set, cs =>
    match next f cs with
    | [] => none
    | ']' :: cs => some (combine f pending set, cs)
    | '&' :: '&' :: cs => classItems? f fuel (some (.inter, combine f pending set)) .none cs
    | '-' :: '-' :: cs => classItems? f fuel (some (.diff, combine f pending set)) .none cs
    | '~' :: '~' :: cs => classItems? f fuel (some (.symmDiff, combine f pending set)) .none cs
    | '[' :: cs =>
      match namedClassAt? cs with
      | some (named, cs) => classItems? f fuel pending (.union set named) cs
      | none => do
        let (inner, cs) ← class? f fuel cs
        classItems? f fuel pending (.union set inner) cs
    | cs => do
      let (item, cs) ← range? f cs
      classItems? f fuel pending (.union set item) cs

end

/-! Repetitions. -/

def count? (cs : List Char) : Option (Nat × List Char) :=
  let cs := cs.dropWhile Text.isBlank
  let digits := cs.takeWhile Char.isDigit
  let n := digits.foldl (fun n c => n * 10 + (c.toNat - '0'.toNat)) 0
  if digits.isEmpty || 0x100000000 ≤ n then none
  else some (n, (cs.drop digits.length).dropWhile Text.isBlank)

/--
Read bounds such as `2,3`, `2,` or `2` with the closing brace.
-/
def bounds? (f : Flags) (cs : List Char) : Option ((Nat × Option Nat) × List Char) := do
  let (min, cs) ← count? (next f cs)
  match cs with
  | '\x7d' :: cs => some ((min, some min), cs)
  | ',' :: cs =>
    match next f cs with
    | '\x7d' :: cs => some ((min, none), cs)
    | cs => do
      let (max, cs) ← count? cs
      match cs with
      | '\x7d' :: cs => if min ≤ max then some ((min, some max), cs) else none
      | _ => none
  | _ => none

/--
Read the operator of a repetition: its bounds and whether it is greedy.
-/
def repetition? (f : Flags) (cs : List Char) : Option ((Nat × Option Nat × Bool) × List Char) := do
  let ((min, max), cs) ← match cs with
    | '?' :: cs => some ((0, some 1), cs)
    | '*' :: cs => some ((0, none), cs)
    | '+' :: cs => some ((1, none), cs)
    | '\x7b' :: cs => bounds? f cs
    | _ => none
  match cs with
  | '?' :: cs => some ((min, max, f.lazyFirst), cs)
  | cs => some ((min, max, !f.lazyFirst), cs)

/-! Groups and sequences. -/

/--
Read flags up to `:` or `)`. `clear` is set behind a `-`, `used` holds the letters so far.
-/
def flags? (f : Flags) (clear : Bool) (used : List Char) : List Char → Option (Flags × List Char)
  | [] => none
  | c :: cs =>
    if c = ':' || c = ')' then if used.head? = some '-' then none else some (f, c :: cs)
    else if c ∈ used then none
    else if c = '-' then flags? f true ('-' :: used) cs
    else do flags? (← f.set? (!clear) c) clear (c :: used) cs

def groupName? (cs : List Char) : Option (List Char × List Char) :=
  let isFirst (c : Char) : Bool := c == '_' || (Text.isWordChar c && !Text.isDigit c)
  let isNameChar (c : Char) : Bool :=
    c == '_' || c == '.' || c == '[' || c == ']' || Text.isWordChar c
  let name := cs.takeWhile (· != '>')
  match cs.dropWhile (· != '>') with
  | [] => none
  | _ :: behind =>
    if name.head?.any isFirst && name.all isNameChar then some (name, behind) else none

def literalPattern (f : Flags) (c : Char) : Pattern :=
  .char (folded f (.single c))

def dot (f : Flags) : CharSet :=
  if f.dotAll then .all
  else if f.returns then .compl (.union (.single '\n') (.single '\r'))
  else .compl (.single '\n')

def ofPrimitive (f : Flags) : Primitive → Pattern
  | .literal c => literalPattern f c
  | .class set => .char set
  | .anchor condition => .anchor condition

/--
The sequence of patterns that were read, the last one first. What only sets flags takes no part in it.
-/
def sequence (items : List (Option Pattern)) : Pattern :=
  match items.filterMap id with
  | [] => .empty
  | last :: front => front.foldl (fun q p => .seq p q) last

/--
What is carried along: the flags for what follows, the names of the groups so far, and whether a
repetition was too large.
-/
structure State where
  flags : Flags := {}
  names : List (List Char) := []
  oversized : Bool := false

/--
Add a repetition to a sequence. One that is too large is only noted.
-/
def State.repeated (s : State) (p : Pattern) (min : Nat) (max : Option Nat) (greedy : Bool) :
    State × Pattern :=
  if (p.size + 1) * (max.getD min) ≤ sizeLimit then (s, p.rounds greedy min max)
  else ({ s with oversized := true }, .empty)

mutual

/--
Read alternatives up to a closing parenthesis or the end.
-/
def alternatives? : Nat → State → List Char → Option (Pattern × State × List Char)
  | 0, _, _ => none
  | fuel + 1, s, cs => do
    let (first, s, cs) ← sequence? fuel s [] cs
    match cs with
    | '|' :: cs => do
      let (others, s, cs) ← alternatives? fuel s cs
      return (.alt first others, s, cs)
    | cs => return (first, s, cs)

/--
Read a sequence up to the next alternative, a closing parenthesis or the end. `items` holds what was
read so far, the last one first.
-/
def sequence? : Nat → State → List (Option Pattern) → List Char →
    Option (Pattern × State × List Char)
  | 0, _, _, _ => none
  | fuel + 1, s, items, cs =>
    match next s.flags cs with
    | [] => some (sequence items, s, [])
    | c :: cs =>
      match c with
      | '|' | ')' => some (sequence items, s, c :: cs)
      | '(' => do
        let (item, s, cs) ← group? fuel s (next s.flags cs)
        sequence? fuel s (item :: items) cs
      | '[' => do
        let (set, cs) ← class? s.flags (cs.length + 1) cs
        sequence? fuel s (some (.char set) :: items) cs
      | '?' | '*' | '+' | '\x7b' => do
        let ((min, max, greedy), cs) ← repetition? s.flags (c :: cs)
        match items with
        | some p :: items =>
          let (s, p) := s.repeated p min max greedy
          sequence? fuel s (some p :: items) cs
        | _ => none
      | '.' => sequence? fuel s (some (.char (dot s.flags)) :: items) cs
      | '^' =>
        let condition := if s.flags.multiLine then Anchor.lineStart else .textStart
        sequence? fuel s (some (.anchor condition) :: items) cs
      | '$' =>
        let condition := if s.flags.multiLine then Anchor.lineEnd else .textEnd
        sequence? fuel s (some (.anchor condition) :: items) cs
      | '\\' => do
        let (primitive, cs) ← escape? s.flags cs
        sequence? fuel s (some (ofPrimitive s.flags primitive) :: items) cs
      | c => sequence? fuel s (some (literalPattern s.flags c) :: items) cs

/--
Read a group, given what follows its opening parenthesis. A group that only sets flags is no pattern.
-/
def group? : Nat → State → List Char → Option (Option Pattern × State × List Char)
  | 0, _, _ => none
  | fuel + 1, s, cs =>
    let inside (s : State) (flags : Flags) (cs : List Char) :
        Option (Option Pattern × State × List Char) := do
      let (p, inner, cs) ← alternatives? fuel { s with flags } cs
      match cs with
      | ')' :: cs => some (some p, { inner with flags := s.flags }, cs)
      | _ => none
    let named (cs : List Char) : Option (Option Pattern × State × List Char) := do
      let (name, cs) ← groupName? cs
      if name ∈ s.names then none else inside { s with names := name :: s.names } s.flags cs
    match cs with
    | '?' :: '=' :: _ | '?' :: '!' :: _ | '?' :: '<' :: '=' :: _ | '?' :: '<' :: '!' :: _ => none
    | '?' :: 'P' :: '<' :: cs => named cs
    | '?' :: '<' :: cs => named cs
    | '?' :: cs => do
      let (flags, behind) ← flags? s.flags false [] cs
      match behind with
      | ':' :: behind => inside s flags behind
      | ')' :: behind => if cs.head? = some ')' then none else some (none, { s with flags }, behind)
      | _ => none
    | cs => inside s s.flags cs

end

/--
Why a pattern cannot be used.
-/
inductive Flaw where
  | malformed
  | tooLarge
  deriving DecidableEq, Repr, Inhabited

def parse (text : String) : Except Flaw Pattern :=
  let cs := text.toList
  match alternatives? (4 * cs.length + 4) {} cs with
  | some (p, s, []) => if s.oversized || sizeLimit < p.size then .error .tooLarge else .ok p
  | _ => .error .malformed

end Pattern
end Graft
