import Graft.Process.Command
import Graft.Shell.LineEdit
import Graft.Shell.Parse
import Graft.Shell.Session
import Graft.Text.Affix

/-!
This module contains the execution of shell scripts over a file tree, and a launcher for the commands
that need nothing else. All of it is a function of the tree, so whole runs can be computed.
-/

namespace Graft
namespace Shell

inductive Flow where
  | goOn
  /-- The shell ends with the status of its state. -/
  | exit
  /-- A signal ends the shell. -/
  | killed (signal : Nat)
  deriving DecidableEq, Repr, Inhabited

def signals : List (String × Nat) := [
  ("HUP", 1), ("INT", 2), ("QUIT", 3), ("ILL", 4), ("TRAP", 5), ("ABRT", 6), ("BUS", 7), ("FPE", 8),
  ("KILL", 9), ("USR1", 10), ("SEGV", 11), ("USR2", 12), ("PIPE", 13), ("ALRM", 14), ("TERM", 15),
  ("CHLD", 17), ("CONT", 18), ("URG", 23), ("WINCH", 28)]

def harmless : List Nat := [0, 17, 18, 23, 28]

def signal? (s : String) : Option Nat :=
  s.toNat?.or ((signals.find? (·.1 = s)).map (·.2))

def Session.take (s : Session) (o : Outcome) : Session :=
  let s := o.chunks.foldl (fun s (isError, bytes) => s.writeTo (if isError then s.err else s.out) bytes) s
  { s with status := o.status, input := o.input }

/--
Send a signal to the shell itself.
-/
def kill (s : Session) (args : List String) : Session × Flow :=
  let sent? : Option (Nat × List String) :=
    match args with
    | "-s" :: name :: rest => (signal? name).map (·, rest)
    | arg :: rest =>
      match arg.toList with
      | '-' :: name => (signal? (.ofList name)).map (·, rest)
      | _ => some (15, args)
    | [] => none
  match sent? with
  | some (n, [target]) =>
    if target ≠ Session.processNumber then (s.complain "kill: No such process" 1, .goOn)
    else if harmless.contains n then ({ s with status := 0 }, .goOn)
    else (s, .killed n)
  | _ => (s.complain "kill: usage: kill [-s sigspec | -signum] [pid]..." 2, .goOn)

/--
The commands that change the state of the shell.
-/
def builtin? (s : Session) (args : List String) : String → Option (Session × Flow)
  | ":" => some ({ s with status := 0 }, .goOn)
  | "exit" =>
    match args.head?.map String.toNat? with
    | none => some (s, .exit)
    | some (some n) => some ({ s with status := n % 256 }, .exit)
    | some none => some (s.complain ("exit: Illegal number: " ++ args.headD "") 2, .exit)
  | "cd" =>
    match s.tree.at? ⟨args.headD "."⟩ with
    | .ok (place, .directory) =>
      some ({ s with tree := { s.tree with current := place }, status := 0 }, .goOn)
    | _ => some (s.complain ("cd: can't cd to " ++ args.headD "") 2, .goOn)
  | "export" =>
    let environment := args.foldl (fun e arg =>
      let name := arg.toList.takeWhile (· != '=')
      match arg.toList.dropWhile (· != '=') with
      | _ :: value => e.set (.ofList name) (.ofList value)
      | [] => e) s.environment
    some ({ s with environment, status := 0 }, .goOn)
  | "shift" => some ({ s with arguments := s.arguments.tail, status := 0 }, .goOn)
  | "kill" => some (kill s args)
  | _ => none

/--
The programs that only print. A shell has its own `echo`.
-/
def program? (inShell : Bool) (s : Session) (args : List String) (name : String) : Option Outcome :=
  let keep (o : Outcome) : Outcome := { o with input := s.input }
  match name with
  | "true" => some (keep {})
  | "false" => some (keep { status := 1 })
  | "echo" => some (keep (echo inShell args))
  | "printf" => some (keep (printf args))
  | "test" | "[" => some (keep (test s.tree name args))
  | "cat" => some (cat s.tree s.input args)
  | "sed" => some (sed s.tree s.input args)
  | _ => none

/--
The place that the bytes of a path lead to. Links are not followed.
-/
def placeOf (t : Tree) (path : List UInt8) : Location :=
  let pieces := (path.splitOn 47).filter fun piece => !piece.isEmpty && piece != [46]
  (if path.head? = some 47 then [] else t.current) ++ pieces.map FileName.mk

/--
Give a file, or a directory with all below it, another name that is free.
-/
def rename? (t : Tree) : List (List UInt8) → Option Tree
  | [source, target] =>
    let (source, target) := (placeOf t source, placeOf t target)
    let free := t.lookup target.dropLast = some .directory && (t.lookup target).isNone
    if (t.lookup source).isSome && free && !source.isPrefixOf target then
      some { t with entries := ⟨t.entries.entries.map fun (place, e) =>
        if source.isPrefixOf place then (target ++ place.drop source.length, e) else (place, e)⟩ }
    else none
  | _ => none

def mv (s : Session) (paths : List (List UInt8)) : Session :=
  match rename? s.tree paths with
  | some tree => { s with tree, status := 0 }
  | none => { s.writeTo s.err "mv: cannot move\n".toUTF8 with status := 1 }

def inputWords (s : Session) : List (List UInt8) :=
  (s.input.toList.splitOnP fun b => b == 32 || b == 9 || b == 10).filter (!·.isEmpty)

def programName (name : String) : String :=
  let cs := name.toList
  match (Text.stripStart? "/usr/bin/".toList cs).or (Text.stripStart? "/bin/".toList cs) with
  | some rest => .ofList rest
  | none => name

/--
Run a shell with its arguments, inside the state of the caller. `runText` runs the text of a script.
-/
def startShell (runText : Session → String → Session × Flow) (s : Session) (args : List String) :
    Session × Flow :=
  let inner : Except (String × Nat) (String × String × List String) :=
    match args with
    | [] => .ok ("", "sh", [])
    | ["-c"] => .error ("0: -c requires an argument", 2)
    | "-c" :: text :: rest => .ok (text, rest.headD "sh", rest.tail)
    | file :: rest =>
      match s.tree.readText ⟨file⟩ with
      | .ok text => .ok (text, file, rest)
      | .error e => .error ("0: cannot open " ++ file ++ ": " ++ e.reason, 2)
  match inner with
  | .error (message, status) =>
    ({ s.writeTo s.err ("sh: " ++ message ++ "\n").toUTF8 with status }, .goOn)
  | .ok (text, name, arguments) =>
    let (after, flow) := runText { s with name, arguments, status := 0 } text
    let status := match flow with
      | .killed signal => 128 + signal
      | _ => after.status
    ({ s with
        tree := { after.tree with current := s.tree.current }
        collected := after.collected
        input := after.input
        status }, flow)

/--
Run a command that is no part of the shell. The flow is that of the command itself.
-/
def external? (runText : Session → String → Session × Flow) (inShell : Bool) (s : Session)
    (name : String) (args : List String) : Option (Session × Flow) :=
  let base := programName name
  if base = "sh" then some (startShell runText s args)
  else if base = "mv" then some (mv s (args.map (·.toUTF8.toList)), .goOn)
  else if base = "xargs" && args = ["mv"] then
    some (mv { s with input := .empty } (inputWords s), .goOn)
  else (program? (inShell && base == name) s args base).map fun o => (s.take o, .goOn)

/--
Run the parts of a script.
-/
def run (runText : Session → String → Session × Flow) : Script → Session → Session × Flow
  | .skip, s => (s, .goOn)
  | .simple assignments words redirects, s =>
    let environment := assignments.foldl (fun e (name, value) => e.set name (s.expandWhole value)) s.environment
    match s.redirectAll redirects with
    | .error message => (s.complain message 2, .goOn)
    | .ok inner =>
      match words.flatMap s.expand with
      | [] => ({ inner.restore s redirects with environment, status := 0 }, .goOn)
      | name :: args =>
        match builtin? inner args name with
        | some (after, flow) => (after.restore s redirects, flow)
        | none =>
          match external? runText true { inner with environment } name args with
          | some (after, _) => ({ after.restore s redirects with environment := s.environment }, .goOn)
          | none =>
            let after :=
              if name.toList.contains '/' && s.tree.pathExists ⟨name⟩ then
                inner.complain (name ++ ": Permission denied") 126
              else inner.complain (name ++ ": not found") 127
            (after.restore s redirects, .goOn)
  | .group body redirects, s =>
    match s.redirectAll redirects with
    | .error message => (s.complain message 2, .goOn)
    | .ok inner =>
      let (after, flow) := run runText body inner
      (after.restore s redirects, flow)
  | .subshell body redirects, s =>
    match s.redirectAll redirects with
    | .error message => (s.complain message 2, .goOn)
    | .ok inner =>
      let (after, flow) := run runText body inner
      (leave s (after.restore s redirects), match flow with | .exit => .goOn | flow => flow)
  | .conditional test yes no redirects, s =>
    match s.redirectAll redirects with
    | .error message => (s.complain message 2, .goOn)
    | .ok inner =>
      let (after, flow) :=
        match run runText test inner with
        | (mid, .goOn) =>
          if mid.status = 0 then run runText yes { mid with status := 0 }
          else run runText no { mid with status := 0 }
        | ending => ending
      (after.restore s redirects, flow)
  | .sequence first second, s =>
    match run runText first s with
    | (mid, .goOn) => run runText second mid
    | ending => ending
  | .both first second, s =>
    match run runText first s with
    | (mid, .goOn) => if mid.status = 0 then run runText second mid else (mid, .goOn)
    | ending => ending
  | .either first second, s =>
    match run runText first s with
    | (mid, .goOn) => if mid.status = 0 then (mid, .goOn) else run runText second mid
    | ending => ending
  | .negate body, s =>
    match run runText body s with
    | (after, .goOn) => ({ after with status := if after.status = 0 then 1 else 0 }, .goOn)
    | ending => ending
  | .pipe source sink, s =>
    let index := s.collected.length
    let (mid, flow) := run runText source
      { s with out := .collected index, collected := s.collected ++ [.empty] }
    match flow with
    | .killed signal => (mid, .killed signal)
    | _ =>
      let piped := mid.collected.getD index .empty
      let mid := leave s mid
      let (after, flow) := run runText sink
        { mid with collected := mid.collected.take index, input := piped, out := s.out }
      ({ leave s after with input := s.input }, match flow with | .exit => .goOn | flow => flow)
where
  /-- The state behind a subshell: only the tree, the status and what was printed remain. -/
  leave (before after : Session) : Session :=
    { after with
      tree := { after.tree with current := before.tree.current }
      environment := before.environment
      arguments := before.arguments
      out := before.out
      err := before.err }

def runText : Nat → Session → String → Session × Flow
  | 0, s, _ => (s.complain "too many shells" 2, .goOn)
  | depth + 1, s, text =>
    match Script.parse? text with
    | some script => run (runText depth) script s
    | none => (s.complain "Syntax error" 2, .exit)

def depthLimit : Nat := 16

def directory (t : Tree) : Option Path → Except FileError Location
  | none => .ok t.current
  | some p => do
    match ← t.at? p with
    | (place, .directory) => .ok place
    | _ => .error .notADirectory

/--
Whether a program or an argument holds a character that no command line can hold.
-/
def hasNul (c : Command) : Bool :=
  (c.program :: c.arguments).any (·.toList.contains '\x00')

/--
A launcher for the programs of this library. A file of the tree is never executable.
-/
def launcher (base : Environment) : Launcher := fun c cwd t =>
  if hasNul c then (.error (.other "nul byte found in provided data"), t)
  else
    match directory t cwd with
    | .error e => (.error e, t)
    | .ok place =>
      let s : Session := {
        tree := { t with current := place }
        environment := base.union c.environment
        name := "sh"
        arguments := [] }
      match external? (runText depthLimit) false s c.program c.arguments with
      | some (after, flow) =>
        let status := match flow with
          | .killed _ => none
          | _ => some after.status
        (.ok ⟨after.collected.getD 0 .empty, after.collected.getD 1 .empty, status⟩,
          { after.tree with current := t.current })
      | none =>
        if c.program.toList.contains '/' then
          match s.tree.at? ⟨c.program⟩ with
          | .ok _ => (.error .permissionDenied, t)
          | .error e => (.error e, t)
        else (.error .notFound, t)

def provides (name : String) : Bool :=
  (external? (fun s _ => (s, .goOn)) false default name []).isSome

end Shell
end Graft
