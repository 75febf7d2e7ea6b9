import Graft.Closure.Error
import Graft.Diagnostics.Event

/-!
This module contains the copying of donor headers into the target tree, with a log that only grows.
-/

namespace Graft

/--
How donor headers are placed into the target tree.
-/
structure MaterializePolicy where
  /-- What the name of a copied file begins with, in front of its name in the donor tree. -/
  namePrefix : Option String := none
  /-- Whether a file that the run has not written may be replaced. -/
  allowOverwrite : Bool := false
  deriving DecidableEq, Repr, Inhabited

inductive CopyAction where
  | copied
  /-- The target held the same content already. -/
  | alreadyPresent
  | overwritten
  deriving DecidableEq, Repr, Inhabited

namespace CopyAction

def word : CopyAction → String
  | .copied => "copied"
  | .alreadyPresent => "present"
  | .overwritten => "overwritten"

def reportName : CopyAction → String
  | .copied => "copied"
  | .alreadyPresent => "already-present"
  | .overwritten => "overwritten"

end CopyAction

structure MaterializedHeader where
  iteration : Nat
  header : String
  requestedBy : String
  donorPath : Path
  targetPath : Path
  sha256 : String
  action : CopyAction
  deriving DecidableEq, Repr, Inhabited

namespace MaterializedHeader

def logLine (r : MaterializedHeader) : String :=
  "\t".intercalate [toString r.iteration, r.action.word, r.header, r.donorPath.text,
    r.targetPath.text, r.sha256, r.requestedBy] ++ "\n"

def toJson (r : MaterializedHeader) : Json :=
  .obj [
    ("iteration", .num r.iteration),
    ("header", .str r.header),
    ("requested_by", .str r.requestedBy),
    ("donor_path", .str r.donorPath.text),
    ("target_path", .str r.targetPath.text),
    ("sha256", .str r.sha256),
    ("action", .str r.action.reportName)]

end MaterializedHeader

/--
Where a header is taken from and where it goes.
-/
structure HeaderPaths where
  donor : Path
  target : Path
  deriving DecidableEq, Repr, Inhabited

/--
What a run copies from and to, and what it has done so far.
-/
structure Materializer where
  donorRoot : Path
  targetRoot : Path
  policy : MaterializePolicy := {}
  /-- What a record keeps of the content of a header. -/
  digest : ByteArray → String
  /-- Every record is appended to this file as well. -/
  logFile : Option Path := none
  /-- The records, oldest first. -/
  log : List MaterializedHeader := []
  /-- The target files that were written. -/
  written : List Path := []
  deriving Inhabited

namespace Materializer

/--
The two paths of a header. Its directory is kept under both roots. A header that is absolute, has a
`..` or names no file is refused.
-/
def pathsFor (m : Materializer) (request : MissingInclude) : Except ClosureError HeaderPaths :=
  let header : Path := ⟨request.header⟩
  match header.isContained, header.fileName? with
  | true, some name =>
    let directory := header.parent?.getD ⟨""⟩
    let targetName := m.policy.namePrefix.getD "" ++ .ofList name
    .ok {
      donor := (m.donorRoot.join directory).join ⟨.ofList name⟩
      target := (m.targetRoot.join directory).join ⟨targetName⟩ }
  | _, _ => .error (.unsafeHeaderPath request.header request.sourceFile)

def hasWritten (m : Materializer) (p : Path) : Bool :=
  m.written.any (·.sameAs p)

/--
What the content of a header calls for at its target path.
-/
def actionFor (m : Materializer) (t : Tree) (header : String) (target : Path)
    (content : ByteArray) : Except ClosureError CopyAction :=
  if t.pathExists target then
    match t.read target with
    | .error cause => .error (.fileError target cause)
    | .ok existing =>
      if existing = content then .ok .alreadyPresent
      else if m.policy.allowOverwrite && !m.hasWritten target then .ok .overwritten
      else .error (.alreadyExistsDiffers header target)
  else .ok .copied

/--
Look up a requested header without changing anything: the record to be made and the header's content.
-/
def decide (m : Materializer) (t : Tree) (request : MissingInclude) (iteration : Nat) :
    Except ClosureError (MaterializedHeader × ByteArray) := do
  let paths ← m.pathsFor request
  if t.isFile paths.donor then
    match t.read paths.donor with
    | .error cause => .error (.fileError paths.donor cause)
    | .ok content =>
      let action ← m.actionFor t request.header paths.target content
      return ({
        iteration
        header := request.header
        requestedBy := request.sourceFile
        donorPath := paths.donor
        targetPath := paths.target
        sha256 := m.digest content
        action }, content)
  else .error (.donorMissing request.header request.sourceFile paths.donor iteration)

/--
Write a file and the directories above it. An error leaves the tree as far as it came.
-/
def place (t : Tree) (target : Path) (change : Tree → Path → Except FileError Tree) :
    Except ClosureError Unit × Tree :=
  let parent := target.parent?.getD ⟨""⟩
  match t.makeDirectories parent with
  | (.error cause, t) => (.error (.fileError parent cause), t)
  | (.ok (), t) =>
    match change t target with
    | .error cause => (.error (.fileError target cause), t)
    | .ok t => (.ok (), t)

/--
Write a header to its target path, unless it is there already.
-/
def copy (m : Materializer) (t : Tree) (r : MaterializedHeader) (content : ByteArray) :
    Except ClosureError Unit × Materializer × Tree :=
  if r.action = .alreadyPresent then (.ok (), m, t)
  else
    match place t r.targetPath (·.write · content) with
    | (.error e, t) => (.error e, m, t)
    | (.ok (), t) => (.ok (), { m with written := r.targetPath :: m.written }, t)

def appendLog (m : Materializer) (t : Tree) (r : MaterializedHeader) :
    Except ClosureError Unit × Tree :=
  match m.logFile with
  | none => (.ok (), t)
  | some file => place t file (·.append · r.logLine.toUTF8)

def materialize (m : Materializer) (t : Tree) (request : MissingInclude) (iteration : Nat) :
    Except ClosureError MaterializedHeader × Materializer × Tree :=
  match m.decide t request iteration with
  | .error e => (.error e, m, t)
  | .ok (r, content) =>
    match m.copy t r content with
    | (.error e, m, t) => (.error e, m, t)
    | (.ok (), m, t) =>
      match m.appendLog t r with
      | (.error e, t) => (.error e, m, t)
      | (.ok (), t) => (.ok r, { m with log := m.log ++ [r] }, t)

end Materializer
end Graft
