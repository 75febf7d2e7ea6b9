import Graft.DefinitionIndex

/-!
This module contains the table of the files that define a linker symbol.
-/

namespace Graft

/--
For every symbol the files that define it, both in the order in which they were first seen.
-/
structure SymbolTable where
  files : Register String (List String)
  deriving Repr

namespace SymbolTable

def empty : SymbolTable := ⟨.empty⟩

instance : Inhabited SymbolTable := ⟨empty⟩

def addOwner (owners : List String) (file : String) : List String :=
  if file ∈ owners then owners else owners ++ [file]

def insert (table : SymbolTable) (symbol file : String) : SymbolTable :=
  ⟨table.files.update symbol fun owners => addOwner (owners.getD []) (SourcePath.normalize file)⟩

def owners (table : SymbolTable) (symbol : String) : List String :=
  (table.files.get? symbol).getD []

def size (table : SymbolTable) : Nat :=
  table.files.size

/--
What one line of a listing contributes: a symbol and the file that defines it. A line with a file,
a kind and a name counts if it is about a function; any other line holds a file and a symbol.
Comments begin with `#`.
-/
def listedSymbol? (line : List Char) : Option (String × String) :=
  match Text.words line with
  | file :: symbol :: _ =>
    if file.head? = some '#' then none
    else
      match Definition.ofTripleChars? line with
      | some d => if d.kind = .function then some (d.name, d.owningFile) else none
      | none => some (.ofList symbol, .ofList file)
  | _ => none

def insertAll (table : SymbolTable) (symbols : List (String × String)) : SymbolTable :=
  symbols.foldl (fun table (symbol, file) => table.insert symbol file) table

def ofListing (text : String) : SymbolTable :=
  empty.insertAll ((Text.lines text.toList).filterMap listedSymbol?)

def ofIndex (index : DefinitionIndex) : SymbolTable :=
  empty.insertAll (index.functions.flatMap fun (name, owners) => owners.map (name, ·))

/--
The letters by which a symbol lister marks global symbols that an object defines.
-/
def definedLetters : List Char :=
  ['T', 'D', 'B', 'R', 'S', 'G', 'V', 'W', 'C']

/--
The symbol that a line of a symbol lister defines. Its kind is the second of three fields or more, or
the first of two; its name is the field after that.
-/
def definedSymbol? (line : List Char) : Option String :=
  let symbol (kind name : List Char) :=
    match kind with
    | [letter] => if letter ∈ definedLetters then some (String.ofList name) else none
    | _ => none
  match Text.words line with
  | _ :: kind :: name :: _ => symbol kind name
  | [kind, name] => symbol kind name
  | _ => none

def addObject (table : SymbolTable) (file output : String) : SymbolTable :=
  table.insertAll (((Text.lines output.toList).filterMap definedSymbol?).map (·, file))

end SymbolTable
end Graft
