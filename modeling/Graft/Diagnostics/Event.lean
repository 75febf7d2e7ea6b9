import Graft.Json
import Graft.Symbol

/-!
This module contains what a line of tool output can tell: a header is missing, a symbol is
undefined, or the line only looks as if it told one of these.
-/

namespace Graft

/--
A header that the compiler could not find.
-/
structure MissingInclude where
  /-- The file with the failing include directive. -/
  sourceFile : String
  /-- The header as the directive spells it. -/
  header : String
  deriving DecidableEq, Repr, Inhabited

inductive Event where
  | missingInclude (request : MissingInclude)
  | undefinedSymbol (symbol : Symbol)
  deriving DecidableEq, Repr, Inhabited

namespace Event

def toJson : Event → Json
  | .missingInclude request => .obj [
      ("kind", .str "missing-include"),
      ("source_file", .str request.sourceFile),
      ("header", .str request.header)]
  | .undefinedSymbol symbol => .obj [
      ("kind", .str "undefined-symbol"),
      ("symbol", .str symbol.name)]

end Event

/--
Why a line that looks like a diagnostic tells nothing.
-/
inductive Doubt where
  /-- A missing header without a file and a line number in front. -/
  | noLocation
  /-- No marker of an error follows the location. -/
  | noMarker
  | emptyHeader
  /-- The line ends with the words that announce a symbol. -/
  | noSymbol
  | onlyDecoration
  /-- The word in the symbol's place ends with a colon. -/
  | isLocation (token : String)
  | notASymbol (token : String)
  deriving DecidableEq, Repr, Inhabited

namespace Doubt

def message : Doubt → String
  | .noLocation => "missing `<file>:<line>:` location"
  | .noMarker => "no error marker after location"
  | .emptyHeader => "empty header name"
  | .noSymbol => "no symbol after undefined reference"
  | .onlyDecoration => "symbol token is only decoration"
  | .isLocation token => "`" ++ token ++ "` is a location, not a symbol"
  | .notASymbol token => "`" ++ token ++ "` is not a symbol name"

end Doubt

/--
What one recognizer finds on one line.
-/
inductive Verdict where
  | event (event : Event)
  | ambiguous (doubt : Doubt)
  | noMatch
  deriving DecidableEq, Repr, Inhabited

end Graft
