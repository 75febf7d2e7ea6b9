import Graft.Process.Command

/-!
This module contains build and link tools. Whatever a tool does, only the text that it prints is
looked at.
-/

namespace Graft

/--
The text that a tool printed, and its exit status if it ran as a process and ended by itself.
-/
structure ToolOutput where
  text : String
  status : Option Nat := none
  deriving DecidableEq, Repr, Inhabited

/--
A tool with an inner state. Calling it in a directory yields its output; the call may change its
state and the tree.
-/
structure Tool (σ : Type) where
  /-- No further call can yield anything. -/
  exhausted : σ → Bool
  invoke : σ → Path → Tree → Except Fault ToolOutput × σ × Tree

namespace Tool

/--
The text of a command's two outputs: diagnostics come on the second one, which begins on a line of
its own.
-/
def combine (stdout stderr : String) : String :=
  if stdout.isEmpty || stdout.toList.getLast? == some '\n' then stdout ++ stderr
  else stdout ++ "\n" ++ stderr

def ofCommand (launch : Launcher) : Tool Command where
  exhausted _ := false
  invoke c cwd t :=
    match c.run launch (some cwd) t with
    | (.error e, t) => (.error e, c, t)
    | (.ok output, t) =>
      let text := combine (Text.decode output.stdout) (Text.decode output.stderr)
      (.ok { text, status := output.status }, c, t)

end Tool

/--
Saved logs that take the place of a tool, one for each call.
-/
structure SavedLogs where
  paths : List Path
  next : Nat := 0
  deriving DecidableEq, Repr, Inhabited

namespace SavedLogs

def describe (logs : SavedLogs) : String :=
  "saved log " ++ ", ".intercalate (logs.paths.map (·.text))

def isExhausted (logs : SavedLogs) : Bool :=
  logs.paths.length ≤ logs.next

/--
Read the next log. A log that cannot be read is passed over nevertheless.
-/
def read (logs : SavedLogs) (t : Tree) : Except Fault ToolOutput × SavedLogs :=
  match logs.paths[logs.next]? with
  | none => (.error (.replayed logs.paths.length), logs)
  | some path => ((t.load path).map ({ text := · }), { logs with next := logs.next + 1 })

def tool : Tool SavedLogs where
  exhausted := isExhausted
  invoke logs _ t :=
    let (output, logs) := logs.read t
    (output, logs, t)

end SavedLogs
end Graft
