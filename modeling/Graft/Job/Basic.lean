import Graft.Process.Command
import Graft.Resolve.Error

/-!
This module contains the jobs that a user can have done in a project: what they need from outside, how
they fail, and their steps.
-/

namespace Graft

/--
Why a job fails.
-/
inductive Failure where
  | fault (e : Fault)
  | closure (e : ClosureError)
  | resolve (e : ResolveError)
  deriving DecidableEq, Repr

namespace Failure

def format (color : Bool) : Failure → String
  | .fault e => "error: " ++ e.message ++ "\n"
  | .closure e => e.notice.format color
  | .resolve e => e.notice.format color

end Failure

/--
What a job needs apart from the tree.
-/
structure Host where
  launch : Launcher
  /-- The program that goes by a name. -/
  findProgram : String → Option Path
  environment : Environment

/--
A computation that may read and change the tree, and may fail. What was done to the tree before a
failure stays done.
-/
abbrev Job (α : Type) := ExceptT Failure (StateM Tree) α

namespace Job

def runIn (job : Job α) (t : Tree) : Except Failure α × Tree :=
  job t

def look (f : Tree → Except Fault α) : Job α := fun t =>
  match f t with
  | .ok a => (.ok a, t)
  | .error e => (.error (.fault e), t)

def step (f : Tree → Except ε α × Tree) (wrap : ε → Failure) : Job α := fun t =>
  match f t with
  | (.ok a, t) => (.ok a, t)
  | (.error e, t) => (.error (wrap e), t)

/--
Write a text to a file if one is named.
-/
def saveTo (output : Option Path) (text : String) : Job Unit :=
  match output with
  | none => return
  | some p => step (·.save p text) .fault

end Job
end Graft
