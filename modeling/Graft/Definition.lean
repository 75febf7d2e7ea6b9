import Graft.Json
import Graft.Text.Blank

/-!
This module contains definitions found in C sources and their written form, one line with three
fields.
-/

namespace Graft

inductive DefinitionKind where
  | function
  | typedef
  | struct
  | macroName
  deriving DecidableEq, Repr, Inhabited

namespace DefinitionKind

def tag : DefinitionKind → String
  | .function => "funcdef"
  | .typedef => "typedef"
  | .struct => "struct"
  | .macroName => "macro"

def reportName : DefinitionKind → String
  | .function => "function"
  | .typedef => "typedef"
  | .struct => "struct"
  | .macroName => "macro"

/--
Read a kind, in upper or lower case. Case is a matter of ASCII letters here: the only other
characters with an ASCII letter as their lower case yield `k` or a letter with a dot above, which no
spelling contains.
-/
def ofText? (text : String) : Option DefinitionKind :=
  let lower := text.toList.map Char.toLower
  if lower = "funcdef".toList ∨ lower = "function".toList ∨ lower = "func".toList then some .function
  else if lower = "typedef".toList ∨ lower = "type".toList then some .typedef
  else if lower = "struct".toList then some .struct
  else if lower = "macro".toList ∨ lower = "define".toList then some .macroName
  else none

def unknownMessage (text : String) : String :=
  "invalid definition kind '" ++ text ++ "', valid values: funcdef, typedef, struct, macro"

@[simp]
theorem ofText?_tag (kind : DefinitionKind) : ofText? kind.tag = some kind := by
  cases kind <;> rfl

end DefinitionKind

structure Definition where
  kind : DefinitionKind
  name : String
  owningFile : String
  deriving DecidableEq, Repr, Inhabited

namespace Definition

def keyOf (kind : DefinitionKind) (name : String) : String :=
  kind.tag ++ "." ++ name

def key (d : Definition) : String :=
  keyOf d.kind d.name

/--
Read one line of a listing: `file kind name`. Blank lines, comments behind `#`, unknown kinds and
lines with fewer fields give nothing; further fields are ignored.
-/
def ofTripleChars? (line : List Char) : Option Definition :=
  match Text.words line with
  | file :: kind :: name :: _ =>
    if file.head? = some '#' then none
    else (DefinitionKind.ofText? (.ofList kind)).map (⟨·, .ofList name, .ofList file⟩)
  | _ => none

def ofTriple? (line : String) : Option Definition :=
  ofTripleChars? line.toList

def toTriple (d : Definition) : String :=
  d.owningFile ++ "\t" ++ d.kind.tag ++ "\t" ++ d.name

def toJson (d : Definition) : Json :=
  .obj [
    ("kind", .str d.kind.reportName),
    ("name", .str d.name),
    ("owning_file", .str d.owningFile)]

end Definition
end Graft
