/-!
This module contains paths of the file system. A path keeps the text it was built from; which file
it leads to depends on its components alone.
-/

namespace Graft

structure Path where
  text : String
  deriving DecidableEq, Repr, Inhabited

inductive Component where
  /-- The root of the file system, as a first step. -/
  | root
  /-- `.`, as a first step. -/
  | current
  /-- `..` -/
  | parent
  | name (name : List Char)
  deriving DecidableEq, Repr, Inhabited

namespace Component

def rank : Component → Nat
  | .root => 0
  | .current => 1
  | .parent => 2
  | .name _ => 3

def lt : Component → Component → Bool
  | .name a, .name b => a < b
  | a, b => a.rank < b.rank

/--
The component that a piece between two separators stands for. An empty piece and `.` stand for
none.
-/
def ofPiece? (piece : List Char) : Option Component :=
  if piece.isEmpty || piece = ['.'] then none
  else if piece = ['.', '.'] then some .parent
  else some (.name piece)

def text : Component → List Char
  | .root => ['/']
  | .current => ['.']
  | .parent => ['.', '.']
  | .name n => n

end Component

namespace Path

/--
A path without its beginning: the pieces between separators, behind the root or a leading `.`.
-/
structure Body where
  /-- `root`, `current` or nothing. -/
  start : Option Component
  pieces : List (List Char)

namespace Body

def ofText (cs : List Char) : Body :=
  match cs.splitOn '/' with
  | [] :: piece :: pieces => ⟨some .root, piece :: pieces⟩
  | ['.'] :: pieces => ⟨some .current, pieces⟩
  | pieces => ⟨none, pieces⟩

def text (b : Body) : List Char :=
  match b.start with
  | some .root => '/' :: ['/'].intercalate b.pieces
  | some start => ['/'].intercalate (start.text :: b.pieces)
  | none => ['/'].intercalate b.pieces

def components (b : Body) : List Component :=
  b.start.toList ++ b.pieces.filterMap Component.ofPiece?

def trimEnd (b : Body) : Body :=
  { b with pieces := (b.pieces.reverse.dropWhile fun p => (Component.ofPiece? p).isNone).reverse }

/--
The path without its last component, or nothing if it has none or is the root. The pieces in front
of that component stay as they are.
-/
def parent? (b : Body) : Option Body :=
  match b.trimEnd.pieces.reverse with
  | _ :: front => some { b with pieces := front.reverse }.trimEnd
  | [] =>
    match b.start with
    | some .current => some ⟨none, []⟩
    | _ => none

/--
Drop pieces from the front until `n` components are gone, and then those that stand for none.
-/
def dropPieces : Nat → List (List Char) → List (List Char)
  | 0, pieces => pieces.dropWhile fun p => (Component.ofPiece? p).isNone
  | _ + 1, [] => []
  | n + 1, piece :: pieces =>
    if (Component.ofPiece? piece).isNone then dropPieces (n + 1) pieces else dropPieces n pieces

def dropComponents (n : Nat) (b : Body) : Body :=
  if n = 0 then b else ⟨none, dropPieces (n - b.start.toList.length) b.pieces⟩

end Body

def body (p : Path) : Body :=
  .ofText p.text.toList

def ofBody (b : Body) : Path :=
  ⟨.ofList b.text⟩

/--
The components of a path. Repeated separators, a separator at the end and `.` are left out; only a
leading `.` counts.
-/
def components (p : Path) : List Component :=
  p.body.components

def sameAs (p q : Path) : Bool :=
  p.components = q.components

def isAbsolute (p : Path) : Bool :=
  p.text.toList.head? == some '/'

/--
A path read from the place `p`. An absolute path stands for itself; otherwise one separator joins
the two texts, unless the first is empty or ends with one.
-/
def join (p q : Path) : Path :=
  if q.isAbsolute || p.text.isEmpty then q
  else if p.text.toList.getLast? == some '/' then ⟨p.text ++ q.text⟩
  else ⟨p.text ++ "/" ++ q.text⟩

def parent? (p : Path) : Option Path :=
  p.body.parent?.map .ofBody

def fileName? (p : Path) : Option (List Char) :=
  match p.components.getLast? with
  | some (.name name) => some name
  | _ => none

/--
A path that stays below the place it is read from: it has neither a root nor `..`.
-/
def isContained (p : Path) : Bool :=
  p.components.all fun
    | .current | .name _ => true
    | .root | .parent => false

/--
What is left of a path behind the components of `base`, if it begins with them.
-/
def stripBase? (p base : Path) : Option Path :=
  if base.components.isPrefixOf p.components then
    some (.ofBody (p.body.dropComponents base.components.length).trimEnd)
  else none

/--
A file name in front of its last `.`. A `.` at its beginning does not count.
-/
def stemOf (name : List Char) : List Char :=
  let reversed := name.reverse
  match reversed.dropWhile (· != '.') with
  | [] => name
  | _ :: stem => if stem.isEmpty then name else stem.reverse

/--
The path with the extension of its file name replaced. Without a file name it stays as it is.
-/
def withExtension (p : Path) (extension : String) : Path :=
  match p.fileName? with
  | none => p
  | some name =>
    let kept := p.body.trimEnd.text
    let stem := kept.take (kept.length - name.length + (stemOf name).length)
    ⟨.ofList stem ++ if extension.isEmpty then "" else "." ++ extension⟩

def ofComponents (components : List Component) : Path :=
  components.foldl (fun p c => p.join ⟨.ofList c.text⟩) ⟨""⟩

/--
The components that lead from one place to another. `common` holds as long as all components so far
are shared, and a shared component is skipped. The place to start from cannot be left through `..`.
-/
def componentsFrom (common : Bool) : List Component → List Component → Option (List Component)
  | [], [] => some []
  | [], a :: path => some (a :: path)
  | _ :: base, [] => (componentsFrom false base []).map (.parent :: ·)
  | b :: base, a :: path =>
    if common && a = b then componentsFrom true base path
    else if b = .current then (componentsFrom false base path).map (a :: ·)
    else if b = .parent then none
    else some (.parent :: base.map (fun _ => .parent) ++ a :: path)

/--
The path that leads from `base` to `p`. If there is none, `p` itself.
-/
def relativeTo (p base : Path) : Path :=
  if p.isAbsolute != base.isAbsolute then p
  else
    match componentsFrom true base.components p.components with
    | some components => ofComponents components
    | none => p

/--
Paths compare component by component.
-/
def lt (p q : Path) : Bool :=
  go p.components q.components
where
  go : List Component → List Component → Bool
    | _, [] => false
    | [], _ :: _ => true
    | a :: as, b :: bs => a.lt b || (a = b && go as bs)

def le (p q : Path) : Bool :=
  !q.lt p

end Path
end Graft
