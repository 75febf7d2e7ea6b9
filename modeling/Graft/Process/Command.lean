import Graft.Fault
import Graft.Process.Environment
import Graft.Text.Utf8

/-!
This module contains commands and what is known about one that ran. How a command runs is left to a
launcher.
-/

namespace Graft

structure Command where
  program : String
  arguments : List String := []
  environment : Environment := .empty
  deriving DecidableEq, Repr, Inhabited

/--
What a command printed, and its exit status unless a signal ended it.
-/
structure CommandOutput where
  stdout : ByteArray
  stderr : ByteArray
  status : Option Nat
  deriving DecidableEq, Inhabited

/--
The way commands run: in a directory of a tree, which they may change. The current directory serves
if none is given.
-/
abbrev Launcher :=
  Command → Option Path → Tree → Except FileError CommandOutput × Tree

namespace Command

def ofList? : List String → Option Command
  | [] => none
  | program :: arguments => some { program, arguments }

def display (c : Command) : String :=
  " ".intercalate (c.program :: c.arguments)

def run (launch : Launcher) (c : Command) (cwd : Option Path) (t : Tree) :
    Except Fault CommandOutput × Tree :=
  match launch c cwd t with
  | (.ok output, t) => (.ok output, t)
  | (.error cause, t) => (.error (.spawn c.program cause), t)

def runChecked (launch : Launcher) (c : Command) (cwd : Option Path) (t : Tree) :
    Except Fault CommandOutput × Tree :=
  match c.run launch cwd t with
  | (.ok output, t) =>
    if output.status = some 0 then (.ok output, t)
    else (.error (.commandFailed c.display output.status (Text.decode output.stderr)), t)
  | (.error e, t) => (.error e, t)

end Command
end Graft
