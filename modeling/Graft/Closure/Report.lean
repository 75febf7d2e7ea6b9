import Graft.Closure.Materializer
import Graft.SourceFile

/-!
This module contains the outcome of a closure run.
-/

namespace Graft

inductive ClosureState where
  /-- The tool had nothing more to say before the build was done. -/
  | building
  /-- The last pass missed no header. -/
  | converged
  /-- The last passes asked only for headers that had been copied before. -/
  | stalled
  deriving DecidableEq, Repr, Inhabited

def ClosureState.name : ClosureState → String
  | .building => "building"
  | .converged => "converged"
  | .stalled => "stalled"

/--
The header that a stalled run kept asking for.
-/
structure StallInfo where
  header : String
  requestedBy : String
  /-- The pass on which the run stalled. -/
  iteration : Nat
  /-- The number of passes in a row without a new header. -/
  repeatPasses : Nat
  deriving DecidableEq, Repr, Inhabited

namespace StallInfo

def toJson (s : StallInfo) : Json :=
  .obj [
    ("header", .str s.header),
    ("requested_by", .str s.requestedBy),
    ("iteration", .num s.iteration),
    ("repeat_passes", .num s.repeatPasses)]

end StallInfo

structure ClosureReport where
  state : ClosureState
  iterations : Nat
  /-- The records of all headers that were handled, in order. -/
  materialized : List MaterializedHeader
  stalled : Option StallInfo
  /-- The files that missed headers on the last pass. -/
  pending : List SourceFile
  ambiguousLines : Nat
  deriving DecidableEq, Repr, Inhabited

namespace ClosureReport

def result (r : ClosureReport) : Except ClosureError ClosureReport :=
  match r.stalled with
  | some s => .error (.stalled s.header s.requestedBy s.iteration s.repeatPasses)
  | none => .ok r

def toJson (r : ClosureReport) : Json :=
  .obj [
    ("state", .str r.state.name),
    ("iterations", .num r.iterations),
    ("materialized", .arr (r.materialized.map (·.toJson))),
    ("stalled", .optional StallInfo.toJson r.stalled),
    ("pending", .arr (r.pending.map (·.toJson))),
    ("ambiguous_lines", .num r.ambiguousLines)]

def headline (r : ClosureReport) : String :=
  let handled := toString r.materialized.length ++ " header(s) materialized"
  let passes := toString r.iterations ++ " pass(es)"
  match r.state with
  | .building => "closure incomplete: replay ended after " ++ passes ++ ", " ++ handled
  | state => "closure " ++ state.name ++ " after " ++ passes ++ ": " ++ handled

/--
The lines for a record. The target root is left out of the path.
-/
def recordLines (target : Path) (verbose : Bool) (r : MaterializedHeader) : List String :=
  let shown := (r.targetPath.stripBase? target).getD r.targetPath
  let action := r.action.word
  ["  [" ++ toString r.iteration ++ "] " ++ action.pushn ' ' (11 - action.length) ++ " " ++ shown.text]
    ++ if verbose then
      ["      requested by " ++ r.requestedBy, "      sha256 " ++ r.sha256]
    else []

def pendingLines (file : SourceFile) : List String :=
  ("  pending " ++ file.path) :: file.unresolvedIncludes.map ("      " ++ ·)

def format (r : ClosureReport) (target : Path) (verbose : Bool) : String :=
  let skipped :=
    if r.ambiguousLines > 0 then
      ["  " ++ toString r.ambiguousLines ++ " diagnostic line(s) skipped as ambiguous (see --verbose)"]
    else []
  let lines := r.headline :: r.materialized.flatMap (recordLines target verbose)
    ++ r.pending.flatMap pendingLines ++ skipped
  String.join (lines.map (· ++ "\n"))

end ClosureReport
end Graft
