import Graft.Text.Blank

/-!
This module contains the identity of a source file: the normal form of its path.
-/

namespace Graft
namespace SourcePath

def unify (path : List Char) : List Char :=
  (Text.trim path).map fun c => if c == '\\' then '/' else c

/--
The parts of a path that tell it from others: all but the empty ones and `.`.
-/
def parts (path : List Char) : List (List Char) :=
  (path.splitOn '/').filter fun part => !part.isEmpty && part != ['.']

def isAbsolute (path : List Char) : Bool :=
  path.head? == some '/'

def ofParts (absolute : Bool) (parts : List (List Char)) : List Char :=
  (if absolute then ['/'] else []) ++ ['/'].intercalate parts

/--
The normal form of a path: one `/` between two parts, no `.` among them. Parts `..` are kept.
-/
def normalize (path : String) : String :=
  let unified := unify path.toList
  .ofList (ofParts (isAbsolute unified) (parts unified))

end SourcePath
end Graft
