/-!
This module contains the wording by which diagnostics of compilers and linkers are recognized.
-/

namespace Graft

/--
The literal wording of a toolchain.
-/
structure Grammar where
  /-- What introduces an error after its location, tried in order. -/
  errorMarkers : List String
  /-- What ends a message about a missing header, tried in order. -/
  missingIncludeSuffixes : List String
  /-- The words that a message about an undefined symbol contains, all of them. -/
  undefinedTokens : List String
  /-- Whether the second word after a blank line can be a symbol. -/
  blankSeparatedSymbols : Bool
  deriving DecidableEq, Repr

namespace Grammar

def default : Grammar where
  errorMarkers := ["fatal error:", "error:"]
  missingIncludeSuffixes := ["No such file or directory", "file not found"]
  undefinedTokens := ["undefined", "reference"]
  blankSeparatedSymbols := true

instance : Inhabited Grammar := ⟨default⟩

end Grammar
end Graft
