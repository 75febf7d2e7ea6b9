import Graft.FileName
import Graft.Path
import Graft.Register

/-!
This module contains file trees: what stands at which place, how a path leads to a place, and the
operations that read, write and create.
-/

namespace Graft

/--
Why the file system refuses an operation.
-/
inductive FileError where
  | notFound
  | permissionDenied
  | alreadyExists
  | notADirectory
  | isADirectory
  | nameTooLong
  | tooManyLinks
  | notUtf8
  | nulInPath
  | other (message : String)
  deriving DecidableEq, Repr, Inhabited

namespace FileError

def reason : FileError → String
  | .notFound => "No such file or directory"
  | .permissionDenied => "Permission denied"
  | .alreadyExists => "File exists"
  | .notADirectory => "Not a directory"
  | .isADirectory => "Is a directory"
  | .nameTooLong => "File name too long"
  | .tooManyLinks => "Too many levels of symbolic links"
  | .notUtf8 => "stream did not contain valid UTF-8"
  | .nulInPath => "file name contained an unexpected NUL byte"
  | .other message => message

/--
The number by which the operating system knows the cause.
-/
def number? : FileError → Option Nat
  | .notFound => some 2
  | .permissionDenied => some 13
  | .alreadyExists => some 17
  | .notADirectory => some 20
  | .isADirectory => some 21
  | .nameTooLong => some 36
  | .tooManyLinks => some 40
  | .notUtf8 | .nulInPath | .other _ => none

def message (e : FileError) : String :=
  match e.number? with
  | some n => e.reason ++ " (os error " ++ toString n ++ ")"
  | none => e.reason

end FileError

instance decEqContent : DecidableEq ByteArray := fun a b =>
  decidable_of_iff (a.data = b.data) (by cases a; cases b; simp)

/--
What stands at a place. A link holds the path that it leads to.
-/
inductive Entry where
  | file (content : ByteArray)
  | directory
  | link (target : Path)
  deriving DecidableEq, Inhabited

/--
A place in the file system: the names that lead to it from the root.
-/
abbrev Location := List FileName

def Location.ofTexts (names : List String) : Location :=
  names.map fun name => .ofText name.toList

@[simp]
theorem Location.ofTexts_eq_nil_iff {names : List String} : ofTexts names = [] ↔ names = [] :=
  List.map_eq_nil_iff

/--
A file tree together with the directory that relative paths start from.
-/
structure Tree where
  entries : Register Location Entry
  current : Location
  deriving Inhabited

namespace Tree

/--
The entry at a place. The root is a directory.
-/
def lookup (t : Tree) (loc : Location) : Option Entry :=
  if loc = [] then some .directory else t.entries.get? loc

def put (t : Tree) (loc : Location) (e : Entry) : Tree :=
  { t with entries := t.entries.update loc fun _ => e }

@[simp]
theorem current_put (t : Tree) (loc : Location) (e : Entry) : (t.put loc e).current = t.current :=
  rfl

theorem lookup_put {t : Tree} {loc : Location} (h : loc ≠ []) (e : Entry) (loc' : Location) :
    (t.put loc e).lookup loc' = if loc' = loc then some e else t.lookup loc' := by
  by_cases h' : loc' = []
  . subst h'
    simp [lookup, Ne.symm h]
  . simp [lookup, put, h', Register.get?_update]

/--
Where a path leads.
-/
inductive Target where
  /-- An entry that is no link. -/
  | found (loc : Location) (e : Entry)
  /-- A free place in a directory. `slash` is set if separators follow its name. -/
  | free (loc : Location) (slash : Bool)
  deriving Inhabited

def start (from_ : Location) (p : Path) : Location :=
  if p.isAbsolute then [] else from_

/--
Follow the pieces of a path from a place. `follow` continues behind a link, with the link's own path
and the pieces that are left.
-/
def walkPieces (t : Tree) (follow : Location → List (List Char) → Except FileError Target)
    (loc : Location) : List (List Char) → Except FileError Target
  | [] =>
    match t.lookup loc with
    | some e => .ok (.found loc e)
    | none => .error .notFound
  | piece :: rest =>
    if t.lookup loc = some .directory then
      match Component.ofPiece? piece with
      | some (.name name) =>
        if (String.ofList name).utf8ByteSize > 255 then .error .nameTooLong
        else
          let next := loc ++ [.ofText name]
          match t.lookup next with
          | none =>
            if rest.all (·.isEmpty) then .ok (.free next !rest.isEmpty) else .error .notFound
          | some (.link target) =>
            if target.text.isEmpty then .error .notFound
            else follow (start loc target) (target.text.toList.splitOn '/' ++ rest)
          | some _ => t.walkPieces follow next rest
      | some .parent => t.walkPieces follow loc.dropLast rest
      | _ => t.walkPieces follow loc rest
    else .error .notADirectory

def walk (t : Tree) : Nat → Location → List (List Char) → Except FileError Target
  | 0, loc, pieces => t.walkPieces (fun _ _ => .error .tooManyLinks) loc pieces
  | links + 1, loc, pieces => t.walkPieces (t.walk links) loc pieces

def resolve (t : Tree) (p : Path) : Except FileError Target :=
  if p.text.isEmpty then .error .notFound
  else if p.text.toList.contains '\x00' then .error .nulInPath
  else if p.text.utf8ByteSize ≥ 4096 then .error .nameTooLong
  else t.walk 40 (start t.current p) (p.text.toList.splitOn '/')

def at? (t : Tree) (p : Path) : Except FileError (Location × Entry) := do
  match ← t.resolve p with
  | .found loc e => .ok (loc, e)
  | .free .. => .error .notFound

def isFile (t : Tree) (p : Path) : Bool :=
  match t.at? p with
  | .ok (_, .file _) => true
  | _ => false

def isDirectory (t : Tree) (p : Path) : Bool :=
  match t.at? p with
  | .ok (_, .directory) => true
  | _ => false

def pathExists (t : Tree) (p : Path) : Bool :=
  (t.at? p).toOption.isSome

def read (t : Tree) (p : Path) : Except FileError ByteArray := do
  match ← t.at? p with
  | (_, .file content) => .ok content
  | _ => .error .isADirectory

def readText (t : Tree) (p : Path) : Except FileError String := do
  match String.fromUTF8? (← t.read p) with
  | some text => .ok text
  | none => .error .notUtf8

/--
The tree with the content of one file computed from its content so far. A file that is not there is
created with the content computed from nothing.
-/
def modify (t : Tree) (p : Path) (f : ByteArray → ByteArray) : Except FileError Tree := do
  match ← t.resolve p with
  | .found loc (.file content) => .ok (t.put loc (.file (f content)))
  | .found .. => .error .isADirectory
  | .free _ true => .error .isADirectory
  | .free loc false => .ok (t.put loc (.file (f ByteArray.empty)))

def write (t : Tree) (p : Path) (content : ByteArray) : Except FileError Tree :=
  t.modify p fun _ => content

def append (t : Tree) (p : Path) (content : ByteArray) : Except FileError Tree :=
  t.modify p (· ++ content)

/--
The tree after one directory is created. The place has to be free, and a link is not followed.
-/
def makeDirectory (t : Tree) (p : Path) : Except FileError Tree := do
  match p.parent?, p.fileName? with
  | some parent, some name =>
    match ← t.at? (if parent.text.isEmpty then ⟨"."⟩ else parent) with
    | (loc, .directory) =>
      if (String.ofList name).utf8ByteSize > 255 then .error .nameTooLong
      else if (t.lookup (loc ++ [.ofText name])).isSome then .error .alreadyExists
      else .ok (t.put (loc ++ [.ofText name]) .directory)
    | _ => .error .notADirectory
  | _, _ =>
    discard <| t.at? p
    .error .alreadyExists

def ancestors : Nat → Path → List Path
  | 0, _ => []
  | n + 1, p => p :: (p.parent?.map (ancestors n)).getD []

/--
Create the first of a list of ancestors. If its parent is missing, that one is created before it, and
stays if the first cannot be created. A directory that is there already is good enough.
-/
def makeFirst (t : Tree) : List Path → Except FileError Unit × Tree
  | [] => (.error (.other "failed to create whole tree"), t)
  | p :: ancestors =>
    if p.text.isEmpty then (.ok (), t)
    else
      match t.makeDirectory p with
      | .ok t => (.ok (), t)
      | .error .notFound =>
        match t.makeFirst ancestors with
        | (.error e, t) => (.error e, t)
        | (.ok (), t) =>
          match t.makeDirectory p with
          | .ok t => (.ok (), t)
          | .error e => if t.isDirectory p then (.ok (), t) else (.error e, t)
      | .error e => if t.isDirectory p then (.ok (), t) else (.error e, t)

/--
Create a directory, and all directories on the way to it.
-/
def makeDirectories (t : Tree) (p : Path) : Except FileError Unit × Tree :=
  t.makeFirst (ancestors (p.components.length + 1) p)

def children (t : Tree) (loc : Location) : List (FileName × Entry) :=
  t.entries.entries.filterMap fun (place, e) =>
    match place.getLast? with
    | some name => if place.dropLast = loc then some (name, e) else none
    | none => none

def files (t : Tree) : List (Location × ByteArray) :=
  t.entries.entries.filterMap fun (place, e) =>
    match e with
    | .file content => some (place, content)
    | _ => none

/--
The regular files that are new or have another content than in an earlier tree.
-/
def changesSince (t before : Tree) : List (Location × ByteArray) :=
  t.files.filter fun (place, content) => before.lookup place != some (.file content)

def pathOf (place : Location) : Path :=
  ⟨"/" ++ "/".intercalate (place.map fun name => .ofList name.shown)⟩

end Tree
end Graft
