import Graft.Process.Environment
import Graft.Shell.Script
import Graft.Tree

/-!
This module contains the state of a shell: where its streams lead, its parameters, and how words and
redirections depend on them.
-/

namespace Graft
namespace Shell

inductive Sink where
  /-- One of the streams that are collected. -/
  | collected (index : Nat)
  | file (place : Location)
  | nowhere
  deriving DecidableEq, Repr, Inhabited

structure Session where
  tree : Tree
  environment : Environment
  /-- The name by which the script goes. -/
  name : String
  arguments : List String
  status : Nat := 0
  input : ByteArray := .empty
  out : Sink := .collected 0
  err : Sink := .collected 1
  /-- What was written to the streams that are collected: output, error messages, then pipes. -/
  collected : List ByteArray := [.empty, .empty]
  deriving Inhabited

namespace Session

def processNumber : String := "4242"

def value (s : Session) (name : String) : String :=
  match name with
  | "#" => toString s.arguments.length
  | "?" => toString s.status
  | "$" => processNumber
  | "@" | "*" => " ".intercalate s.arguments
  | "0" => s.name
  | _ =>
    match name.toNat? with
    | some n => s.arguments.getD (n - 1) ""
    | none => (s.environment.get? name).getD ""

/--
Fields while words are split: those that are complete, the last one first, and the one that is growing
if there is one.
-/
structure Fields where
  done : List (List Char) := []
  current : Option (List Char) := none
  deriving DecidableEq, Repr, Inhabited

namespace Fields

def add (f : Fields) (cs : List Char) : Fields :=
  { f with current := some (f.current.getD [] ++ cs) }

def close (f : Fields) : Fields :=
  match f.current with
  | some field => { done := field :: f.done }
  | none => f

def addSplit (f : Fields) (cs : List Char) : Fields :=
  cs.foldl (fun f c => if c = ' ' ∨ c = '\t' ∨ c = '\n' then f.close else f.add [c]) f

def addSeparate (f : Fields) : List String → Fields
  | [] => f
  | [s] => f.add s.toList
  | s :: rest => addSeparate (f.add s.toList).close rest

def toList (f : Fields) : List String :=
  f.close.done.reverse.map .ofList

end Fields

def expand (s : Session) (w : Word) : List String :=
  (w.foldl (fun (f : Fields) piece =>
    match piece with
    | .text cs | .quoted cs => f.add cs
    | .parameter "@" true => f.addSeparate s.arguments
    | .parameter name true => f.add (s.value name).toList
    | .parameter name false => f.addSplit (s.value name).toList) {}).toList

def expandWhole (s : Session) (w : Word) : String :=
  .ofList (w.flatMap fun
    | .text cs | .quoted cs => cs
    | .parameter name _ => (s.value name).toList)

def writeTo (s : Session) (sink : Sink) (bytes : ByteArray) : Session :=
  match sink with
  | .collected index => { s with collected := s.collected.modify index (· ++ bytes) }
  | .file place =>
    match s.tree.lookup place with
    | some (.file content) => { s with tree := s.tree.put place (.file (content ++ bytes)) }
    | _ => s
  | .nowhere => s

def complain (s : Session) (message : String) (status : Nat) : Session :=
  { s.writeTo s.err (s.name ++ ": 1: " ++ message ++ "\n").toUTF8 with status }

/--
Lead a stream to a sink. There are no other streams than output and error messages.
-/
def lead? (s : Session) (stream : Nat) (sink : Sink) : Option Session :=
  match stream with
  | 1 => some { s with out := sink }
  | 2 => some { s with err := sink }
  | _ => none

/--
Open a file for a stream.
-/
def openFile (s : Session) (stream : Nat) (target : String)
    (prepare : Tree → Path → Except FileError Tree) : Except String Session :=
  let p : Path := ⟨target⟩
  let opened : Except FileError (Session × Sink) := do
    if target = "/dev/null" then return (s, .nowhere)
    let tree ← prepare s.tree p
    let (place, _) ← tree.at? p
    return ({ s with tree }, .file place)
  match opened with
  | .ok (s, sink) =>
    match s.lead? stream sink with
    | some s => .ok s
    | none => .error (toString stream ++ ": Bad file descriptor")
  | .error .notFound => .error ("cannot create " ++ target ++ ": Directory nonexistent")
  | .error e => .error ("cannot create " ++ target ++ ": " ++ e.reason)

/--
The state with a redirection in force.
-/
def redirect (s : Session) (r : Redirect) : Except String Session :=
  let target := s.expandWhole r.target
  match r.kind with
  | .output => s.openFile r.stream target fun t p => t.write p .empty
  | .append => s.openFile r.stream target fun t p => t.append p .empty
  | .input =>
    if target = "/dev/null" then .ok { s with input := .empty }
    else
      match s.tree.read ⟨target⟩ with
      | .ok content => .ok { s with input := content }
      | .error .notFound => .error ("cannot open " ++ target ++ ": No such file")
      | .error e => .error ("cannot open " ++ target ++ ": " ++ e.reason)
  | .duplicate =>
    let sink? : Option Sink :=
      match target with
      | "1" => some s.out
      | "2" => some s.err
      | "-" => some .nowhere
      | _ => none
    match sink?.bind (s.lead? r.stream) with
    | some s => .ok s
    | none => .error (target ++ ": Bad file descriptor")

def redirectAll (s : Session) (redirects : List Redirect) : Except String Session :=
  redirects.foldlM redirect s

def restore (after before : Session) (redirects : List Redirect) : Session :=
  { after with
    out := before.out
    err := before.err
    input := if redirects.any (·.kind = .input) then before.input else after.input }

end Session
end Shell
end Graft
