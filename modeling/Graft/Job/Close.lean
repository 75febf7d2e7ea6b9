import Graft.Digest.Sha256
import Graft.Job.Basic
import Graft.Settings

/-!
This module contains the job of closing the target tree under its includes.
-/

namespace Graft
namespace Job

/--
The donor tree and the target tree, both of which have to be directories.
-/
def trees (s : Settings) : Job (Path × Path) :=
  look fun t => do
    let some donor := s.trees.donor | .error .noDonorTree
    let some target := s.trees.target | .error .noTargetTree
    if !t.isDirectory donor then .error (.notADonorTree donor)
    else if !t.isDirectory target then .error (.notATargetTree target)
    else .ok (donor, target)

/--
Close the target tree with a tool. A run that stalls has failed.
-/
def closeWith (s : Settings) (m : Materializer) (tool : Tool σ) (state : σ) : Job ClosureReport :=
  fun t =>
    match Closure.close s.wording s.stallThreshold tool m t state with
    | none => (.error (.fault .passLimit), t)
    | some ending => ((ending.result >>= (·.result)).mapError .closure, ending.tree)

/--
Close the target tree with the build command or with saved logs in its place.
-/
def close (h : Host) (s : Settings) (fromLog : List Path) (writeLog : Bool) : Job ClosureReport := do
  let (donorRoot, targetRoot) ← trees s
  let logFile ← if writeLog then (some <| targetRoot.join ·) <$> look fun _ => s.auditLog else pure none
  let m : Materializer := {
    donorRoot, targetRoot, policy := s.materializePolicy, digest := Sha256.hex, logFile }
  if fromLog.isEmpty then
    match Command.ofList? s.build.command with
    | none => throw (.fault .noBuildCommand)
    | some c => closeWith s m (.ofCommand h.launch) { c with environment := s.build.environment }
  else closeWith s m SavedLogs.tool { paths := fromLog }

end Job
end Graft
