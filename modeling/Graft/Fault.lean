import Graft.Closure.Error

/-!
This module contains everything that can go wrong outside the copying of headers and the resolution
of symbols: files, commands, configurations.
-/

namespace Graft

inductive Fault where
  | readFile (path : Path) (cause : FileError)
  | writeFile (path : Path) (cause : FileError)
  | createDirectory (path : Path) (cause : FileError)
  | walkDirectory (root path : Path) (cause : FileError)
  /-- A pattern for file names that cannot be read; the position is where the error is noticed. -/
  | globPattern (pattern : String) (position : Nat) (reason : String)
  /-- A program that cannot be started. -/
  | spawn (program : String) (cause : FileError)
  /-- A command that ended with an exit status other than zero, or by a signal. -/
  | commandFailed (command : String) (status : Option Nat) (stderr : String)
  | emptyCommand
  /-- A replay that was asked for more than its logs. -/
  | replayed (logs : Nat)
  | extraction (file : Path) (cause : Fault)
  | stripPattern (pattern : String)
  /-- A pattern that would take too much room. -/
  | largePattern (pattern : String)
  | noExtractCommand
  | noBuildCommand
  | noDonorTree
  | noTargetTree
  | notADonorTree (path : Path)
  | notATargetTree (path : Path)
  | noSymbolSource
  | noSymbolLister
  | readConfig (path : Path) (cause : FileError)
  | parseConfig (path : Path)
  | configNotFound (path : Path)
  /-- An audit log that would not be inside the target tree. -/
  | auditLogPath (path : Path)
  /-- The number of passes does not fit the counter. -/
  | passLimit
  | other (message : String)
  deriving DecidableEq, Repr, Inhabited

namespace Fault

def statusText : Option Nat → String
  | some status => "Some(" ++ toString status ++ ")"
  | none => "None"

def message : Fault → String
  | .readFile path cause => "failed to read file: " ++ path.text ++ ": " ++ cause.message
  | .writeFile path cause => "failed to write file: " ++ path.text ++ ": " ++ cause.message
  | .createDirectory path cause =>
    "failed to create directory: " ++ path.text ++ ": " ++ cause.message
  | .walkDirectory root path cause =>
    "failed to walk directory: " ++ root.text ++ ": IO error for operation on " ++ path.text ++ ": "
      ++ cause.message ++ ": " ++ cause.message
  | .globPattern pattern position reason =>
    "invalid glob pattern: " ++ pattern ++ ": Pattern syntax error near position "
      ++ toString position ++ ": " ++ reason
  | .spawn program cause => "failed to spawn `" ++ program ++ "`: " ++ cause.message
  | .commandFailed command status stderr =>
    "`" ++ command ++ "` failed with exit code " ++ statusText status ++ "\n" ++ stderr
  | .emptyCommand => "empty tool command"
  | .replayed logs => "all " ++ toString logs ++ " saved log(s) have been replayed"
  | .extraction file cause =>
    "failed to extract definitions from " ++ file.text ++ ": " ++ cause.message
  | .stripPattern pattern => "invalid strip pattern `" ++ pattern ++ "`: regex parse error"
  | .largePattern pattern =>
    "invalid strip pattern `" ++ pattern
      ++ "`: Compiled regex exceeds size limit of 10485760 bytes."
  | .noExtractCommand => "no extraction command configured; set `[extract] command` in kport.toml"
  | .noBuildCommand => "no build command configured\n" ++ Advice.buildCommand
  | .noDonorTree => "no donor tree configured\n" ++ Advice.noConfig
  | .noTargetTree => "no target tree configured\n" ++ Advice.noConfig
  | .notADonorTree path => "donor tree `" ++ path.text ++ "` is not a directory"
  | .notATargetTree path => "target tree `" ++ path.text ++ "` is not a directory"
  | .noSymbolSource =>
    "no symbol source configured; set `[link] symbols`, `[link] objects` or `[extract] command`\n"
      ++ Advice.objects
  | .noSymbolLister => "`nm` not found in PATH\n" ++ Advice.nm
  | .readConfig path cause => "failed to read config file: " ++ path.text ++ ": " ++ cause.message
  | .parseConfig path => "failed to parse config file: " ++ path.text ++ ": TOML parse error"
  | .configNotFound path => "config file `" ++ path.text ++ "` not found"
  | .auditLogPath path =>
    "`closure.log` must be a relative path inside the target tree, got `" ++ path.text ++ "`"
  | .passLimit => "the number of passes exceeds the counter"
  | .other message => message

end Fault

namespace Tree

def load (t : Tree) (p : Path) : Except Fault String :=
  (t.readText p).mapError (.readFile p)

/--
Write a text to a file, below directories that are created as needed.
-/
def save (t : Tree) (p : Path) (text : String) : Except Fault Unit × Tree :=
  let parent := p.parent?.getD ⟨""⟩
  match if t.pathExists parent then (.ok (), t) else t.makeDirectories parent with
  | (.error cause, t) => (.error (.createDirectory parent cause), t)
  | (.ok (), t) =>
    match t.write p text.toUTF8 with
    | .error cause => (.error (.writeFile p cause), t)
    | .ok t => (.ok (), t)

end Tree
end Graft
