import Graft.CommandLine.Request
import Graft.Job.Close
import Graft.Job.Resolve
import Graft.Settings.Reader

/-!
This module contains the execution of requests: the configurations they use, what they print, and the
exit status.
-/

namespace Graft
namespace CommandLine

structure Setting extends Host where
  /-- The home directory of the user. -/
  home : Option Path
  /-- Whether error messages go to a terminal. -/
  terminal : Bool

/--
What a run of the program leaves behind besides the tree.
-/
structure Printed where
  stdout : String := ""
  stderr : String := ""
  status : Nat := 0
  deriving DecidableEq, Repr, Inhabited

def projectConfig : Path := ⟨"kport.toml"⟩

def userConfig (home : Path) : Path :=
  (home.join ⟨".kport"⟩).join ⟨"config.toml"⟩

/--
The settings of a request. A configuration that was named has to be there, the others need not.
-/
def settings (c : Setting) (r : Request) : Job Settings := do
  let t ← get
  match r.config with
  | some p => if !t.isFile p then throw (.fault (.configNotFound p))
  | none => pure ()
  let files := (c.home.map userConfig).toList ++ [r.config.getD projectConfig]
  return (← Job.look fun t => Settings.loadAll t files).merge r.overrides

def jsonText (j : Json) : String :=
  j.pretty 0 ++ "\n"

def execute (c : Setting) (r : Request) : Job Printed := do
  let color := c.terminal && !r.noColor
  match r.action with
  | .close fromLog writeLog json =>
    let s ← settings c r
    let report ← Job.close c.toHost s fromLog writeLog
    return { stdout :=
      if json then jsonText report.toJson else report.format (s.trees.target.getD ⟨"."⟩) r.verbose }
  | .resolve fromLog output json =>
    let s ← settings c r
    let report ← Job.resolve c.toHost s fromLog output
    return {
      stdout := if json then jsonText report.toJson else report.format output
      stderr := String.join (report.ambiguous.map fun a => a.notice.format color) }
  | .crossReference reference candidate json =>
    let s ← settings c r
    let report ← Job.crossReference c.toHost s reference candidate
    return { stdout := if json then jsonText report.toJson else report.format r.verbose }
  | .stubs required handled output =>
    let text ← Job.stubs required handled output
    return { stdout := if output.isSome then "" else text }
  | .index root format output =>
    let s ← settings c r
    let text ← Job.index c.toHost s root format output
    return { stdout := if output.isSome then "" else text }

def usage : String :=
  "usage: kport [-v] [--no-color] [--config FILE] (close | resolve | xref | stubs | index) ...\n"

/--
Run the program with its arguments. The status is 1 if the request fails, and 2 if there is none.
-/
def run (c : Setting) (args : List String) (t : Tree) : Printed × Tree :=
  match Request.ofArguments? (c.environment.get? "KPORT_CONFIG") args with
  | none => ({ stderr := usage, status := 2 }, t)
  | some r =>
    match (execute c r).runIn t with
    | (.ok printed, t) => (printed, t)
    | (.error e, t) => ({ stderr := e.format (c.terminal && !r.noColor), status := 1 }, t)

end CommandLine
end Graft
