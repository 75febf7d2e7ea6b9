/-!
This module contains shell scripts: simple commands, what they are combined to, and how their words are
written.
-/

namespace Graft
namespace Shell

inductive Piece where
  | text (s : List Char)
  /-- Text between quotes or behind a backslash. -/
  | quoted (s : List Char)
  /-- The value of a parameter. Without quotes it is split at white space. -/
  | parameter (name : String) (inQuotes : Bool)
  deriving DecidableEq, Repr, Inhabited

abbrev Word := List Piece

namespace Word

def plain? (w : Word) : Option String := do
  let parts ← w.mapM fun
    | .text s => some s
    | _ => none
  return .ofList parts.flatten

end Word

inductive RedirectKind where
  | input
  | output
  | append
  /-- The target is the number of another stream. -/
  | duplicate
  deriving DecidableEq, Repr, Inhabited

/--
A stream of a command that is led elsewhere.
-/
structure Redirect where
  stream : Nat
  kind : RedirectKind
  target : Word
  deriving DecidableEq, Repr, Inhabited

inductive Script where
  | skip
  /-- A command with its arguments, and variables that are set for it. -/
  | simple (assignments : List (String × Word)) (words : List Word) (redirects : List Redirect)
  | group (body : Script) (redirects : List Redirect)
  /-- A group that leaves no trace in the state of the shell. -/
  | subshell (body : Script) (redirects : List Redirect)
  | conditional (test yes no : Script) (redirects : List Redirect)
  | sequence (first second : Script)
  /-- The second part runs if the first one succeeds. -/
  | both (first second : Script)
  /-- The second part runs if the first one fails. -/
  | either (first second : Script)
  | negate (body : Script)
  | pipe (source sink : Script)
  deriving DecidableEq, Repr, Inhabited

end Shell
end Graft
