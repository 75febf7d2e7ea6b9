import Graft.Fault

/-!
This module contains patterns for file names and the search for the files that match one.
-/

namespace Graft

inductive GlobToken where
  | char (c : Char)
  /-- `?` -/
  | anyChar
  /-- `*` -/
  | anySequence
  /-- `**` -/
  | anyDirectories
  /-- `[..]`, or `[!..]` if negated. The ranges include their ends. -/
  | oneOf (negated : Bool) (ranges : List (Char × Char))
  deriving DecidableEq, Repr, Inhabited

structure GlobError where
  position : Nat
  reason : String
  deriving DecidableEq, Repr, Inhabited

namespace Glob

def onlyStars : String := "wildcards are either regular `*` or recursive `**`"

def notAComponent : String := "recursive wildcards must form a single path component"

def badRange : String := "invalid range pattern"

/--
The ranges inside brackets: `a-z` is a range, any other character stands for itself.
-/
def rangesOf : List Char → List (Char × Char)
  | lo :: '-' :: hi :: rest => (lo, hi) :: rangesOf rest
  | c :: rest => (c, c) :: rangesOf rest
  | [] => []

/--
The content of brackets and the text behind them. The first character does not close the brackets.
-/
def brackets? : List Char → Option (List Char × List Char)
  | [] => none
  | first :: rest =>
    match rest.dropWhile (· != ']') with
    | [] => none
    | _ :: behind => some (first :: rest.takeWhile (· != ']'), behind)

/--
Read the text of a pattern from a position; `previous` is the character in front of it. At most as
many elements are read as the number says.
-/
def tokens (position : Nat) (previous : Option Char) :
    Nat → List Char → Except GlobError (List GlobToken)
  | _, [] => .ok []
  | 0, _ => .ok []
  | fuel + 1, '?' :: rest => do
    return .anyChar :: (← tokens (position + 1) (some '?') fuel rest)
  | _ + 1, '*' :: '*' :: '*' :: _ => .error ⟨position + 2, onlyStars⟩
  | fuel + 1, '*' :: '*' :: rest => do
    if previous.all (· == '/') then
      match rest with
      | [] => return [.anyDirectories]
      | '/' :: rest => return .anyDirectories :: (← tokens (position + 3) (some '/') fuel rest)
      | _ => .error ⟨position + 2, notAComponent⟩
    else .error ⟨position - 1, notAComponent⟩
  | fuel + 1, '*' :: rest => do
    return .anySequence :: (← tokens (position + 1) (some '*') fuel rest)
  | fuel + 1, '[' :: rest => do
    let (negated, inside) := if rest.head? = some '!' then (true, rest.tail) else (false, rest)
    match brackets? inside with
    | none => .error ⟨position, badRange⟩
    | some (content, behind) =>
      let next := position + (rest.length + 1 - behind.length)
      return .oneOf negated (rangesOf content) :: (← tokens next (some ']') fuel behind)
  | fuel + 1, c :: rest => do
    return .char c :: (← tokens (position + 1) (some c) fuel rest)

def parse (pattern : List Char) : Except GlobError (List GlobToken) :=
  tokens 0 none pattern.length pattern

def acceptsChar (c : Char) : GlobToken → Bool
  | .char d => c = d
  | .oneOf negated ranges => negated != ranges.any fun (lo, hi) => lo ≤ c && c ≤ hi
  | _ => true

/--
Whether a pattern matches a name. A star matches any number of characters.
-/
def accepts : List GlobToken → List Char → Bool
  | [], name => name.isEmpty
  | .anySequence :: tokens, [] | .anyDirectories :: tokens, [] => accepts tokens []
  | .anySequence :: tokens, c :: name | .anyDirectories :: tokens, c :: name =>
    accepts tokens (c :: name) || accepts (.anySequence :: tokens) name
  | _ :: _, [] => false
  | token :: tokens, c :: name => acceptsChar c token && accepts tokens name
termination_by tokens name => (name.length, tokens.length)

def literal? : List GlobToken → Option (List Char)
  | [] => some []
  | .char c :: tokens => (literal? tokens).map (c :: ·)
  | _ => none

/--
A path on the way through the components of a pattern. Without components to match it is a result.
-/
structure Candidate where
  path : Path
  rest : List (List GlobToken)

/--
The candidates that a directory yields for the first of some components, the one to be followed first
at the end. A component without wildcards is looked up at once. Where wildcards remain, every entry
whose name is a text has still to be matched; `.` and `..` are entries only for a component that begins
with a dot.
-/
def expand (t : Tree) : List (List GlobToken) → Path → List Candidate
  | [], p => [⟨p, []⟩]
  | component :: rest, p =>
    let here := p.components = [.current]
    match literal? component with
    | some name =>
      let next := if here then ⟨.ofList name⟩ else p.join ⟨.ofList name⟩
      let special := name = ['.'] || name = ['.', '.']
      if (if special then t.isDirectory p else t.pathExists next) then expand t rest next else []
    | none =>
      match t.at? p with
      | .ok (loc, .directory) =>
        let names := ((t.children loc).filterMap (·.1.text?)).mergeSort fun a b => b ≤ a
        let entries := names.map fun name =>
          let next : Path := if here then ⟨.ofList name⟩ else p.join ⟨.ofList name⟩
          Candidate.mk next (component :: rest)
        let specials := if component.head? = some (.char '.') then ["." , ".."] else []
        entries ++ (specials.filter (accepts component ·.toList)).flatMap fun name =>
          expand t rest (p.join ⟨name⟩)
      | _ => []

/--
The paths that a candidate leads to, at most `fuel` steps away. Below `**` every directory is searched
as well.
-/
def follow (t : Tree) : Nat → Candidate → List Path
  | 0, _ => []
  | fuel + 1, ⟨p, components⟩ =>
    let followAll (candidates : List Candidate) : List Path :=
      candidates.reverse.flatMap (follow t fuel)
    let behind := components.dropWhile (· == [.anyDirectories])
    let below := if behind.length < components.length && t.isDirectory p then
      expand t ([.anyDirectories] :: behind) p else []
    match behind with
    | [] => if components.isEmpty || t.isDirectory p then p :: followAll below else []
    | component :: rest =>
      match p.fileName? with
      | none => followAll below
      | some name =>
        if !accepts component name then followAll below
        else if rest.isEmpty then p :: followAll below
        else followAll (expand t rest p) ++ followAll below

def dropTerminator (pieces : List (List Char)) : List (List Char) :=
  if pieces.getLast? = some [] then pieces.dropLast else pieces

/--
The paths that match a pattern, in the order in which they are found. A pattern that ends with a
separator matches directories only.
-/
def search (t : Tree) (pattern : Path) : Except GlobError (List Path) := do
  let cs := pattern.text.toList
  discard <| parse cs
  let (start, relative) : Path × List Char :=
    if pattern.isAbsolute then (⟨"/"⟩, cs.tail) else (⟨"."⟩, cs)
  let components ← (dropTerminator (relative.splitOn '/')).mapM parse
  let components := if relative.isEmpty then components ++ [[]] else components
  -- Every step takes up a component or goes down a directory, through a limited number of links.
  let fuel := (t.entries.size + 2) * 42 + components.length + 1
  let found := (expand t components start).reverse.flatMap (follow t fuel)
  return if cs.getLast? = some '/' then found.filter t.isDirectory else found

end Glob

namespace Tree

def dropRepeats : List Path → List Path
  | p :: q :: rest => if p.sameAs q then dropRepeats (p :: rest) else p :: dropRepeats (q :: rest)
  | paths => paths

/--
The files that match one of the patterns, which are read from `base`, each once and in the order of
their paths.
-/
def globFiles (t : Tree) (base : Path) (patterns : List String) : Except Fault (List Path) := do
  let found ← patterns.mapM fun pattern =>
    (Glob.search t (base.join ⟨pattern⟩)).mapError fun e =>
      Fault.globPattern pattern e.position e.reason
  return dropRepeats ((found.flatten.filter t.isFile).mergeSort Path.le)

end Tree
end Graft
