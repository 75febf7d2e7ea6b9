/-!
This module contains the splitting of command line arguments into options and words.
-/

namespace Graft
namespace CommandLine

/--
How often an option may be given, and whether a value belongs to it.
-/
inductive Arity where
  /-- No value, once. -/
  | flag
  /-- A value, once. -/
  | single
  /-- A value each time. -/
  | many
  deriving DecidableEq, Repr, Inhabited

/--
An option: its name behind two hyphens and, if it has one, its letter behind a single one.
-/
structure OptionSpec where
  name : String
  letter : Option Char := none
  arity : Arity
  deriving DecidableEq, Repr, Inhabited

/--
The options and words that were given, in order.
-/
structure Given where
  flags : List String := []
  values : List (String × String) := []
  words : List String := []
  deriving DecidableEq, Repr, Inhabited

namespace Given

def valuesOf (g : Given) (name : String) : List String :=
  g.values.filterMap fun (n, value) => if n = name then some value else none

def value? (g : Given) (name : String) : Option String :=
  (g.valuesOf name).head?

def has (g : Given) (name : String) : Bool :=
  g.flags.contains name

/--
Add a flag. It must not be there yet.
-/
def addFlag? (g : Given) (spec : OptionSpec) : Option Given :=
  if spec.arity = .flag && !g.has spec.name then some { g with flags := g.flags ++ [spec.name] }
  else none

def addValue? (g : Given) (spec : OptionSpec) (value : String) : Option Given :=
  if spec.arity = .many || (spec.arity = .single && (g.value? spec.name).isNone) then
    some { g with values := g.values ++ [(spec.name, value)] }
  else none

end Given

/--
Whether an argument can be the value of the option in front of it. Anything that looks like an option
itself cannot.
-/
def isValue (arg : String) : Bool :=
  arg = "-" || arg.toList.head? != some '-'

inductive Taken where
  | done (g : Given)
  /-- A value of the option has to follow. -/
  | pending (g : Given) (spec : OptionSpec)
  deriving DecidableEq, Repr, Inhabited

/--
Take an option with its full name, the part behind the hyphens given. A value may be attached to it.
-/
def takeLong? (specs : List OptionSpec) (g : Given) (body : List Char) : Option Taken := do
  let name := String.ofList (body.takeWhile (· != '='))
  let spec ← specs.find? (·.name = name)
  match body.dropWhile (· != '=') with
  | _ :: value => (g.addValue? spec (.ofList value)).map .done
  | [] => if spec.arity = .flag then (g.addFlag? spec).map .done else some (.pending g spec)

/--
Take options by their letters. What follows the letter of an option with a value is the value.
-/
def takeLetters? (specs : List OptionSpec) (g : Given) : List Char → Option Taken
  | [] => some (.done g)
  | c :: cs => do
    let spec ← specs.find? (·.letter = some c)
    if spec.arity = .flag then takeLetters? specs (← g.addFlag? spec) cs
    else
      match cs with
      | [] => some (.pending g spec)
      | '=' :: value => (g.addValue? spec (.ofList value)).map .done
      | value => (g.addValue? spec (.ofList value)).map .done

/--
Split arguments. If `untilWord` is set, splitting stops in front of the first word. The second part is
what is left.
-/
def split? (specs : List OptionSpec) (untilWord : Bool) : Given → List String →
    Option (Given × List String)
  | g, [] => some (g, [])
  | g, arg :: rest =>
    match arg.toList with
    | ['-', '-'] => if untilWord then none else some ({ g with words := g.words ++ rest }, [])
    | '-' :: c :: cs => do
      let taken ← if c = '-' then takeLong? specs g cs else takeLetters? specs g (c :: cs)
      match taken, rest with
      | .done g, rest => split? specs untilWord g rest
      | .pending _ _, [] => none
      | .pending g spec, value :: rest =>
        if isValue value then split? specs untilWord (← g.addValue? spec value) rest else none
    | _ =>
      if untilWord then some (g, arg :: rest)
      else split? specs untilWord { g with words := g.words ++ [arg] } rest

end CommandLine
end Graft
