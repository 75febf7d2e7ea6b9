import Graft.Fault
import Graft.Tree

/-!
This module contains the search for source files below a directory.
-/

namespace Graft

/--
The path of what a walk came upon: the path at which the walk began, and the names that lead on from
there.
-/
structure FoundPath where
  root : Path
  names : Location := []
  deriving DecidableEq, Repr, Inhabited

namespace FoundPath

/--
The path as a text. Names that are no texts cannot be told from it.
-/
def path (p : FoundPath) : Path :=
  p.names.foldl (fun path name => path.join ⟨.ofList name.shown⟩) p.root

/--
Paths from one root are in the order of their names.
-/
def le (p q : FoundPath) : Bool :=
  !(q.names < p.names)

end FoundPath

namespace Tree

/--
The files with one of the suffixes below a place, at most `depth` directories down, by the names that
lead to them. Hidden names are passed over, and links are not followed.
-/
def filesBelow (t : Tree) (suffixes : List String) : Nat → Location → List Location
  | 0, _ => []
  | depth + 1, loc =>
    (t.children loc).flatMap fun (name, e) =>
      if name.isHidden then []
      else
        match e with
        | .file _ => if name.hasSuffix suffixes then [[name]] else []
        | .directory => (t.filesBelow suffixes depth (loc ++ [name])).map (name :: ·)
        | .link _ => []

/--
Whether a path names a link itself.
-/
def isLink (t : Tree) (p : Path) : Bool :=
  match p.fileName?, p.parent? with
  | some name, some parent =>
    match t.at? (if parent.text.isEmpty then ⟨"."⟩ else parent) with
    | .ok (loc, _) =>
      match t.lookup (loc ++ [.ofText name]) with
      | some (.link _) => p.text.toList.getLast? != some '/'
      | _ => false
    | .error _ => false
  | _, _ => false

/--
All files below `root` whose name ends with one of the suffixes, in the order of their paths. The
root itself may be hidden or a link to a directory, and it may be a file.
-/
def sourceFiles (t : Tree) (root : Path) (suffixes : List String) : Except Fault (List FoundPath) :=
  match t.at? root with
  | .error cause => .error (.walkDirectory root root cause)
  | .ok (loc, .directory) =>
    .ok (((t.filesBelow suffixes (t.entries.size + 1) loc).map (⟨root, ·⟩)).mergeSort FoundPath.le)
  | .ok _ =>
    let name := FileName.ofText (root.fileName?.getD root.text.toList)
    .ok (if name.hasSuffix suffixes && !t.isLink root then [⟨root, []⟩] else [])

end Tree
end Graft
