/-!
This module contains the messages shown to a user: a headline, the file involved, lines of context
and numbered suggestions.
-/

namespace Graft

inductive Severity where
  | error
  | warning
  | note
  | help
  deriving DecidableEq, Repr, Inhabited

namespace Severity

def name : Severity → String
  | .error => "error"
  | .warning => "warning"
  | .note => "note"
  | .help => "help"

/--
The parameter of the terminal sequence for the severity's colour.
-/
def colorCode : Severity → String
  | .error => "31"
  | .warning => "33"
  | .note => "36"
  | .help => "32"

/--
The name, in bold and in its colour if `color` is set.
-/
def label (color : Bool) (severity : Severity) : String :=
  if color then "\x1b[1;" ++ severity.colorCode ++ "m" ++ severity.name ++ "\x1b[0m"
  else severity.name

end Severity

structure Notice where
  severity : Severity
  message : String
  location : Option String := none
  context : List String := []
  suggestions : List String := []
  deriving DecidableEq, Repr, Inhabited

namespace Notice

/--
The suggestions as a numbered list; without any, nothing.
-/
def suggestionList (color : Bool) (suggestions : List String) : List String :=
  if suggestions.isEmpty then []
  else
    ["", Severity.help.label color ++ ": consider:"]
      ++ (suggestions.zipIdx 1).map fun (suggestion, i) => "  " ++ toString i ++ ". " ++ suggestion

def lines (color : Bool) (n : Notice) : List String :=
  [n.severity.label color ++ ": " ++ n.message]
    ++ n.location.toList.map ("  --> " ++ ·)
    ++ n.context.map ("  → " ++ ·)
    ++ suggestionList color n.suggestions

def format (color : Bool) (n : Notice) : String :=
  String.join ((n.lines color).map (· ++ "\n"))

end Notice

/-! Advice that several messages share. -/

namespace Advice

/-- A header is not in the donor tree. -/
def donorRoot : String :=
  "help: Check `[trees] donor` in kport.toml or pass `--donor <DIR>`"

/-- A build keeps asking for one header. -/
def stalled : String :=
  "help: The header was copied but the build still cannot find it; check the build's include paths"

/-- A user wants to see every pass. -/
def verbose : String :=
  "help: Run `kport close --verbose` to see every pass"

/-- A target file would be replaced. -/
def overwrite : String :=
  "help: Set `allow_overwrite = true` under `[closure]` to replace pre-existing files"

/-- A header clashes with a file of the target tree. -/
def namePrefix : String :=
  "help: Set `prefix` under `[closure]` to copy headers under a new name"

/-- The build tool does not run. -/
def buildCommand : String :=
  "help: Check `[build] command` in kport.toml or pass `--build-cmd`"

/-- The link tool does not run. -/
def linkCommand : String :=
  "help: Check `[link] command` in kport.toml or pass `--link-cmd`"

/-- Saved tool output can take a tool's place. -/
def fromLog : String :=
  "help: Save the tool output to a file and pass `--from-log <FILE>`"

/-- An object file cannot be read. -/
def nm : String :=
  "help: Set `[link] nm` to an `nm` that understands the object format"

/-- No object files match. -/
def objects : String :=
  "help: Build the donor objects first, or adjust `[link] objects` globs"

/-- There is no project configuration. -/
def noConfig : String :=
  "help: Create a kport.toml with `[trees]` donor and target"

/-- A symbol is defined by several files. -/
def oneCandidate : String :=
  "help: stub only one candidate and drop the others from the manifest"

end Advice
end Graft
