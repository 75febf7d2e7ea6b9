/-!
This module contains the division of a text into lines.
-/

namespace Graft
namespace Text

def dropReturn (cs : List Char) : List Char :=
  if cs.getLast? = some '\r' then cs.dropLast else cs

/--
The lines of a text that was cut at its line feeds. Every piece but the last was closed by a line
feed, which takes one carriage return in front of it along; the last piece is a line only if it
holds something.
-/
def linesOfPieces : List (List Char) → List (List Char)
  | [] => []
  | [last] => if last.isEmpty then [] else [last]
  | piece :: pieces => dropReturn piece :: linesOfPieces pieces

def lines (cs : List Char) : List (List Char) :=
  linesOfPieces (cs.splitOn '\n')

def lineTexts (s : String) : List String :=
  (lines s.toList).map .ofList

end Text
end Graft
