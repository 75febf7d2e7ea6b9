import Graft.CommandLine.Arguments
import Graft.Listing
import Graft.Settings

/-!
This module contains the requests that arguments stand for.
-/

namespace Graft
namespace CommandLine

inductive Action where
  | close (fromLog : List Path) (writeLog json : Bool)
  | resolve (fromLog output : Option Path) (json : Bool)
  | crossReference (reference candidate : Path) (json : Bool)
  | stubs (required handled : Path) (output : Option Path)
  | index (root : Path) (format : ListingFormat) (output : Option Path)
  deriving DecidableEq, Repr, Inhabited

structure Request where
  verbose : Bool
  noColor : Bool
  /-- The configuration of the project, if it is not at its usual place. -/
  config : Option Path
  /-- Settings that take precedence over all configurations. -/
  overrides : Settings
  action : Action
  deriving DecidableEq, Repr, Inhabited

def sharedOptions : List OptionSpec := [
  { name := "verbose", letter := some 'v', arity := .flag },
  { name := "no-color", arity := .flag },
  { name := "config", arity := .single }]

/--
The options of a command and the number of its words.
-/
def options? : String → Option (List OptionSpec × Nat)
  | "close" => some ([
      { name := "donor", arity := .single },
      { name := "target", arity := .single },
      { name := "build-cmd", arity := .many },
      { name := "from-log", arity := .many },
      { name := "stall-threshold", arity := .single },
      { name := "prefix", arity := .single },
      { name := "allow-overwrite", arity := .flag },
      { name := "no-log", arity := .flag },
      { name := "json", arity := .flag }], 0)
  | "resolve" => some ([
      { name := "donor", arity := .single },
      { name := "target", arity := .single },
      { name := "link-cmd", arity := .many },
      { name := "from-log", arity := .single },
      { name := "symbols", arity := .single },
      { name := "objects", arity := .many },
      { name := "output", letter := some 'o', arity := .single },
      { name := "json", arity := .flag }], 0)
  | "xref" => some ([{ name := "json", arity := .flag }], 2)
  | "stubs" => some ([{ name := "output", letter := some 'o', arity := .single }], 2)
  | "index" => some ([
      { name := "format", arity := .single },
      { name := "output", letter := some 'o', arity := .single }], 1)
  | _ => none

def path? (text : String) : Option Path :=
  if text.isEmpty then none else some ⟨text⟩

/--
A number of 64 bits. A plus sign may stand in front.
-/
def count? (text : String) : Option Nat := do
  let digits := match text.toList with
    | '+' :: cs => cs
    | cs => cs
  if digits.isEmpty then none
  let n := Text.ofDigits 10 (← digits.mapM (Text.digitValue? 10))
  if n < 0x10000000000000000 then some n else none

namespace Given

/--
The value of an option, read by `read?`. An option that is not given has none.
-/
def optional? (g : Given) (name : String) (read? : String → Option α) : Option (Option α) :=
  match g.value? name with
  | none => some none
  | some text => (read? text).map some

end Given

def trees? (g : Given) : Option TreeSettings := do
  return { donor := ← g.optional? "donor" path?, target := ← g.optional? "target" path? }

def format? : String → Option ListingFormat
  | "triples" => some .triples
  | "json" => some .json
  | _ => none

def action? (g : Given) : String → Option (Action × Settings)
  | "close" => do
    let fromLog ← (g.valuesOf "from-log").mapM path?
    let overrides : Settings := {
      trees := ← trees? g
      build := { command := g.valuesOf "build-cmd" }
      closure := {
        stallThreshold := ← g.optional? "stall-threshold" count?
        namePrefix := g.value? "prefix"
        allowOverwrite := if g.has "allow-overwrite" then some true else none } }
    return (.close fromLog (!g.has "no-log") (g.has "json"), overrides)
  | "resolve" => do
    let overrides : Settings := {
      trees := ← trees? g
      link := {
        command := g.valuesOf "link-cmd"
        objects := g.valuesOf "objects"
        symbols := ← g.optional? "symbols" path? } }
    let action := .resolve (← g.optional? "from-log" path?) (← g.optional? "output" path?) (g.has "json")
    return (action, overrides)
  | "xref" => do
    let [reference, candidate] ← g.words.mapM path? | none
    return (.crossReference reference candidate (g.has "json"), {})
  | "stubs" => do
    let [required, handled] ← g.words.mapM path? | none
    return (.stubs required handled (← g.optional? "output" path?), {})
  | "index" => do
    let [root] ← g.words.mapM path? | none
    let format := (← g.optional? "format" format?).getD .triples
    return (.index root format (← g.optional? "output" path?), {})
  | _ => none

/--
The path given for the configuration, with the one in the environment behind it.
-/
def config? (g : Given) (fromEnvironment : Option String) : Option (Option Path) :=
  match (g.value? "config").or fromEnvironment with
  | none => some none
  | some text => (path? text).map some

namespace Request

/--
The request that arguments stand for; `configVariable` is the configuration that the environment names.
Arguments that stand for none are not understood at all.
-/
def ofArguments? (configVariable : Option String) (args : List String) : Option Request := do
  let (before, rest) ← split? sharedOptions true {} args
  let command :: rest := rest | none
  let (specs, words) ← options? command
  let (g, _) ← split? (sharedOptions ++ specs) false {} rest
  if g.words.length ≠ words then none
  let outer ← config? before configVariable
  let inner ← config? g configVariable
  let (action, overrides) ← action? g command
  return {
    verbose := before.has "verbose" || g.has "verbose"
    noColor := before.has "no-color" || g.has "no-color"
    config := if (g.value? "config").isSome then inner else outer
    overrides
    action }

end Request
end CommandLine
end Graft
