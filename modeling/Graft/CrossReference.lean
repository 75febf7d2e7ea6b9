import Graft.DefinitionIndex
import Graft.Distinct

/-!
This module contains the comparison of the definitions in two trees, file by file.
-/

namespace Graft

/--
Where a key of the candidate index is found.
-/
inductive Side where
  /-- In both indexes. -/
  | matched
  /-- In the candidate index only. -/
  | exclusive
  deriving DecidableEq, Repr, Inhabited

def Side.name : Side → String
  | .matched => "matched"
  | .exclusive => "exclusive"

structure CrossEntry where
  key : String
  side : Side
  candidateOwners : List String
  referenceOwners : List String
  deriving DecidableEq, Repr, Inhabited

namespace CrossEntry

def toJson (e : CrossEntry) : Json :=
  .obj [
    ("key", .str e.key),
    ("side", .str e.side.name),
    ("candidate_owners", .strings e.candidateOwners),
    ("reference_owners", .strings e.referenceOwners)]

end CrossEntry

structure FileCrossReference where
  file : SourceFile
  matched : List CrossEntry
  exclusive : List CrossEntry
  deriving DecidableEq, Repr, Inhabited

namespace FileCrossReference

def toJson (f : FileCrossReference) : Json :=
  .obj [
    ("file", f.file.toJson),
    ("matches", .arr (f.matched.map (·.toJson))),
    ("exclusive", .arr (f.exclusive.map (·.toJson)))]

def matchLines (verbose : Bool) (e : CrossEntry) : List String :=
  ("  match      " ++ e.key) :: e.referenceOwners.map ("             reference: " ++ ·)
    ++ if verbose then e.candidateOwners.map ("             candidate: " ++ ·) else []

/--
The lines for one file. A file without matches is left out unless `verbose` is set.
-/
def lines (verbose : Bool) (f : FileCrossReference) : List String :=
  if f.matched.isEmpty && !verbose then []
  else
    f.file.path :: f.matched.flatMap (matchLines verbose)
      ++ (if verbose then f.exclusive.map ("  exclusive  " ++ ·.key) else [])
      ++ [""]

end FileCrossReference

structure CrossReference where
  files : List FileCrossReference
  /-- The number of files with a match. -/
  conflictFiles : Nat
  matchedKeys : Nat
  exclusiveKeys : Nat
  deriving DecidableEq, Repr, Inhabited

namespace CrossReference

/--
A key with its owners on both sides. It is matched if the reference side has an owner.
-/
def entry (reference candidate : DefinitionIndex) (key : String) : CrossEntry where
  key
  side := if (reference.lookup key).isEmpty then .exclusive else .matched
  candidateOwners := candidate.lookup key
  referenceOwners := reference.lookup key

/--
The distinct keys that a file declares, in order of declaration.
-/
def fileEntries (reference candidate : DefinitionIndex) (file : String) : FileCrossReference :=
  let entries := (distinct (candidate.declaredBy file)).map (entry reference candidate)
  {
    file := candidate.sourceFile file .donor
    matched := entries.filter (·.side = .matched)
    exclusive := entries.filter (·.side = .exclusive)
  }

def empty : CrossReference := ⟨[], 0, 0, 0⟩

/--
Add a file to a report, and what it declares to the numbers.
-/
def addFile (r : CrossReference) (f : FileCrossReference) : CrossReference where
  files := r.files ++ [f]
  conflictFiles := if f.matched.isEmpty then r.conflictFiles else r.conflictFiles + 1
  matchedKeys := r.matchedKeys + f.matched.length
  exclusiveKeys := r.exclusiveKeys + f.exclusive.length

def ofIndexes (reference candidate : DefinitionIndex) : CrossReference :=
  candidate.files.foldl (fun r file => r.addFile (fileEntries reference candidate file)) empty

def toJson (r : CrossReference) : Json :=
  .obj [
    ("files", .arr (r.files.map (·.toJson))),
    ("conflict_files", .num r.conflictFiles),
    ("matched_keys", .num r.matchedKeys),
    ("exclusive_keys", .num r.exclusiveKeys)]

def format (r : CrossReference) (verbose : Bool) : String :=
  let totals := [
    "conflict files: " ++ toString r.conflictFiles,
    "matched keys: " ++ toString r.matchedKeys,
    "exclusive keys: " ++ toString r.exclusiveKeys]
  String.join ((r.files.flatMap (FileCrossReference.lines verbose) ++ totals).map (· ++ "\n"))

end CrossReference
end Graft
