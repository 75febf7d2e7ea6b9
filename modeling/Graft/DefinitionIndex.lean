import Graft.Definition
import Graft.Register
import Graft.SourceFile
import Graft.Text.Affix
import Graft.Text.Line

/-!
This module contains the index of definitions. Many files can own one definition, such as a
structure declared in a header and once more in a compatibility header, so a key leads to a list of
owners.
-/

namespace Graft

/--
Definitions by key and by file, both in the order in which they were first seen.
-/
structure DefinitionIndex where
  /-- The files that own a key, in order of insertion, neighbours distinct. -/
  byKey : Register String (List String)
  /-- The keys that a file declares, in order of declaration, repetitions included. -/
  byFile : Register String (List String)
  deriving Repr

namespace DefinitionIndex

def empty : DefinitionIndex := ⟨.empty, .empty⟩

instance : Inhabited DefinitionIndex := ⟨empty⟩

def appendOwner (owners : List String) (file : String) : List String :=
  if owners.getLast? = some file then owners else owners ++ [file]

def insert (index : DefinitionIndex) (file : String) (kind : DefinitionKind) (name : String) :
    DefinitionIndex :=
  let file := SourcePath.normalize file
  let key := Definition.keyOf kind name
  {
    byKey := index.byKey.update key fun owners => appendOwner (owners.getD []) file
    byFile := index.byFile.update file fun keys => keys.getD [] ++ [key]
  }

def ofDefinitions (definitions : List Definition) : DefinitionIndex :=
  definitions.foldl (fun index d => index.insert d.owningFile d.kind d.name) empty

def ofListing (text : String) : DefinitionIndex :=
  ofDefinitions ((Text.lines text.toList).filterMap Definition.ofTripleChars?)

def lookup (index : DefinitionIndex) (key : String) : List String :=
  (index.byKey.get? key).getD []

def contains (index : DefinitionIndex) (key : String) : Bool :=
  index.byKey.contains key

def keys (index : DefinitionIndex) : List String :=
  index.byKey.keys

def sortedKeys (index : DefinitionIndex) : List String :=
  index.keys.foldr insertSorted []

def files (index : DefinitionIndex) : List String :=
  index.byFile.keys

/--
The keys that a file declares, in order of declaration, repetitions included.
-/
def declaredBy (index : DefinitionIndex) (file : String) : List String :=
  (index.byFile.get? (SourcePath.normalize file)).getD []

def sourceFile (index : DefinitionIndex) (file : String) (ecosystem : Ecosystem) : SourceFile :=
  (index.declaredBy file).foldl .addDefinition (.ofPath file ecosystem)

def functionName? (key : String) : Option String :=
  (Text.stripStart? (Definition.keyOf .function "").toList key.toList).map .ofList

def functions (index : DefinitionIndex) : List (String × List String) :=
  index.keys.filterMap fun key => (functionName? key).map (·, index.lookup key)

def size (index : DefinitionIndex) : Nat :=
  index.byKey.size

def toJson (index : DefinitionIndex) : Json :=
  .obj (index.keys.map fun key => (key, .strings (index.lookup key)))

end DefinitionIndex
end Graft
