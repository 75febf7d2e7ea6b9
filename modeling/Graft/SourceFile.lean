import Graft.Json
import Graft.SourcePath

/-!
This module contains source files as reports show them: a path, the tree it belongs to, what it
defines and which headers it still misses.
-/

namespace Graft

/--
The tree a file belongs to.
-/
inductive Ecosystem where
  /-- The established tree that headers and symbols are taken from. -/
  | donor
  /-- The tree under construction. -/
  | target
  deriving DecidableEq, Repr, Inhabited

def Ecosystem.name : Ecosystem → String
  | .donor => "donor"
  | .target => "target"

def insertSorted (s : String) : List String → List String
  | [] => [s]
  | t :: rest => if s < t then s :: t :: rest else if s = t then t :: rest else t :: insertSorted s rest

theorem mem_insertSorted {s t : String} {ss : List String} :
    t ∈ insertSorted s ss ↔ t = s ∨ t ∈ ss := by
  induction ss with
  | nil => simp [insertSorted]
  | cons u rest ih =>
    simp only [insertSorted]
    split
    . simp
    . split
      . next h =>
        subst h
        simp
      . simp only [List.mem_cons, ih]
        constructor
        . rintro (h | h | h) <;> simp [h]
        . rintro (h | h | h) <;> simp [h]

/--
A file identified by the normal form of its path. Both lists are ascending and hold every entry
once.
-/
structure SourceFile where
  path : String
  ecosystem : Ecosystem
  definitions : List String
  unresolvedIncludes : List String
  deriving DecidableEq, Repr, Inhabited

namespace SourceFile

def ofPath (path : String) (ecosystem : Ecosystem) : SourceFile :=
  ⟨SourcePath.normalize path, ecosystem, [], []⟩

def addDefinition (file : SourceFile) (key : String) : SourceFile :=
  { file with definitions := insertSorted key file.definitions }

def addUnresolvedInclude (file : SourceFile) (header : String) : SourceFile :=
  { file with unresolvedIncludes := insertSorted header file.unresolvedIncludes }

def toJson (file : SourceFile) : Json :=
  .obj [
    ("path", .str file.path),
    ("ecosystem", .str file.ecosystem.name),
    ("definitions", .strings file.definitions),
    ("unresolved_includes", .strings file.unresolvedIncludes)]

end SourceFile
end Graft
