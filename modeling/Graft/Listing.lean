import Graft.DefinitionIndex

/-!
This module contains the written forms of the definitions in a tree.
-/

namespace Graft

inductive ListingFormat where
  /-- One line for each definition, which an index can be read from. -/
  | triples
  /-- The index as a JSON object. -/
  | json
  deriving DecidableEq, Repr, Inhabited

namespace ListingFormat

def render (definitions : List Definition) : ListingFormat → String
  | .triples => String.join (definitions.map (·.toTriple ++ "\n"))
  | .json => (DefinitionIndex.ofDefinitions definitions).toJson.pretty 0 ++ "\n"

end ListingFormat
end Graft
