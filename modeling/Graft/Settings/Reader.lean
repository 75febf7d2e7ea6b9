import Graft.Settings
import Graft.Toml.Document

/-!
This module contains the reading of settings from configuration texts. A value of the wrong kind makes
a text unreadable, names that mean nothing do no harm.
-/

namespace Graft
namespace Toml
namespace Value

/--
The items of a list. Tables under headers in double brackets form a list as well.
-/
def items? : Value → Option (List Value)
  | .array items => some items
  | .rows tables => some (tables.map (.table .header ·))
  | _ => none

/--
The fields of a table. A date or time counts as a table with a single field of a reserved name.
-/
def fields? : Value → Option Table
  | .table _ fields => some fields
  | .moment m => some (Table.set .empty "$__toml_private_datetime" (.string (.ofList m.text)))
  | _ => none

def string? : Value → Option String
  | .string s => some s
  | _ => none

def boolean? : Value → Option Bool
  | .boolean b => some b
  | _ => none

def natural? : Value → Option Nat
  | .integer n => if 0 ≤ n then some n.toNat else none
  | _ => none

def path? (v : Value) : Option Path :=
  v.string?.map (⟨·⟩)

def strings? (v : Value) : Option (List String) := do
  (← v.items?).mapM string?

def environment? (v : Value) : Option Environment := do
  let entries ← (← v.fields?).entries.mapM fun (name, v) => v.string?.map (name, ·)
  return .ofList entries

/--
Access to the fields of a record: by their names in a table, or by their positions in a list.
-/
def record? (names : List String) (v : Value) : Option (String → Option Value) :=
  match v.fields?, v.items? with
  | some fields, _ => some fields.get?
  | none, some items => some fun name => items[names.idxOf name]?
  | none, none => none

end Value
end Toml

open Toml

def optionalField (read? : Value → Option α) (v : Option Value) : Option (Option α) :=
  match v with
  | none => some none
  | some v => (read? v).map some

def defaultField [Inhabited α] (read? : Value → Option α) (v : Option Value) : Option α :=
  match v with
  | none => some default
  | some v => read? v

def TreeSettings.ofValue? (v : Value) : Option TreeSettings := do
  let field ← v.record? ["donor", "target"]
  return {
    donor := ← optionalField Value.path? (field "donor")
    target := ← optionalField Value.path? (field "target") }

def BuildSettings.ofValue? (v : Value) : Option BuildSettings := do
  let field ← v.record? ["command", "env"]
  return {
    command := ← defaultField Value.strings? (field "command")
    environment := ← defaultField Value.environment? (field "env") }

def LinkSettings.ofValue? (v : Value) : Option LinkSettings := do
  let field ← v.record?
    ["command", "objects", "nm", "source_extension", "symbols", "header_suffixes"]
  return {
    command := ← defaultField Value.strings? (field "command")
    objects := ← defaultField Value.strings? (field "objects")
    nm := ← optionalField Value.path? (field "nm")
    sourceExtension := ← optionalField Value.string? (field "source_extension")
    symbols := ← optionalField Value.path? (field "symbols")
    headerSuffixes := ← optionalField Value.strings? (field "header_suffixes") }

def ClosureSettings.ofValue? (v : Value) : Option ClosureSettings := do
  let field ← v.record? ["stall_threshold", "prefix", "allow_overwrite", "log"]
  return {
    stallThreshold := ← optionalField Value.natural? (field "stall_threshold")
    namePrefix := ← optionalField Value.string? (field "prefix")
    allowOverwrite := ← optionalField Value.boolean? (field "allow_overwrite")
    log := ← optionalField Value.path? (field "log") }

def GrammarSettings.ofValue? (v : Value) : Option GrammarSettings := do
  let field ← v.record?
    ["error_markers", "missing_include_suffixes", "undefined_tokens", "blank_separated_symbols"]
  return {
    errorMarkers := ← optionalField Value.strings? (field "error_markers")
    missingIncludeSuffixes := ← optionalField Value.strings? (field "missing_include_suffixes")
    undefinedTokens := ← optionalField Value.strings? (field "undefined_tokens")
    blankSeparatedSymbols := ← optionalField Value.boolean? (field "blank_separated_symbols") }

/--
An action is given by its name, or by a table whose only field has that name and is empty.
-/
def StripAction.ofValue? : Value → Option StripAction
  | .string name => StripAction.ofName? name
  | .table _ ⟨[(name, v)]⟩ =>
    let isEmpty : Bool := match v with
      | .table _ fields => fields.size = 0
      | .array items => items.isEmpty
      | _ => false
    if isEmpty then StripAction.ofName? name else none
  | _ => none

def StripRule.ofValue? (v : Value) : Option StripRule := do
  let field ← v.record? ["pattern", "rule"]
  return {
    pattern := ← (← field "pattern").string?
    rule := (← optionalField StripAction.ofValue? (field "rule")).getD .strip }

def ExtractionSettings.ofValue? (v : Value) : Option ExtractionSettings := do
  let field ← v.record? ["command", "suffixes", "strip"]
  return {
    command := ← defaultField Value.strings? (field "command")
    suffixes := ← optionalField Value.strings? (field "suffixes")
    strip := ← defaultField (fun v => do (← v.items?).mapM StripRule.ofValue?) (field "strip") }

namespace Settings

/--
The settings in a table.
-/
def ofTable? (t : Table) : Option Settings := do
  return {
    trees := ← defaultField TreeSettings.ofValue? (t.get? "trees")
    build := ← defaultField BuildSettings.ofValue? (t.get? "build")
    link := ← defaultField LinkSettings.ofValue? (t.get? "link")
    closure := ← defaultField ClosureSettings.ofValue? (t.get? "closure")
    grammar := ← defaultField GrammarSettings.ofValue? (t.get? "grammar")
    extraction := ← defaultField ExtractionSettings.ofValue? (t.get? "extract") }

def load (t : Tree) (file : Path) : Except Fault Settings := do
  let text ← (t.readText file).mapError (.readConfig file)
  match (Toml.parse text).bind ofTable? with
  | some s => .ok s
  | none => .error (.parseConfig file)

/--
The settings in the files among some that exist, of which later ones take precedence.
-/
def loadAll (t : Tree) (files : List Path) : Except Fault Settings :=
  (files.filter t.pathExists).foldlM (fun s file => (load t file).map s.merge) {}

end Settings
end Graft
