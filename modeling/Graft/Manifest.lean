import Graft.Json
import Graft.Symbol
import Graft.Text.Line

/-!
This module contains manifests, which say for every file which symbols it has to supply, and their
written form: blocks of a file line and indented symbol lines, each closed by a blank line.
-/

namespace Graft

/--
A file and the symbols it has to supply, oldest first.
-/
structure ManifestEntry where
  definingFile : String
  symbols : List Symbol
  deriving DecidableEq, Repr, Inhabited

namespace ManifestEntry

def addSymbol (entry : ManifestEntry) (symbol : Symbol) : ManifestEntry :=
  if symbol ∈ entry.symbols then entry else { entry with symbols := entry.symbols ++ [symbol] }

def lines (entry : ManifestEntry) : List String :=
  entry.definingFile :: entry.symbols.map fun symbol => "\t" ++ symbol.name

def toJson (entry : ManifestEntry) : Json :=
  .obj [
    ("defining_file", .str entry.definingFile),
    ("symbols", .strings (entry.symbols.map (·.name)))]

end ManifestEntry

def renderBlock (lines : List String) : String :=
  String.join (lines.map (· ++ "\n")) ++ "\n"

/--
Entries in the order in which their files were first added.
-/
structure Manifest where
  entries : List ManifestEntry
  deriving DecidableEq, Repr, Inhabited

namespace Manifest

def empty : Manifest := ⟨[]⟩

def position? (m : Manifest) (file : String) : Option Nat :=
  m.entries.findIdx? (·.definingFile == file)

def get? (m : Manifest) (file : String) : Option ManifestEntry :=
  (m.position? file).bind (m.entries[·]?)

/--
Add a symbol under a file. A new file comes last, a symbol is listed once for each file.
-/
def push (m : Manifest) (file : String) (symbol : Symbol) : Manifest :=
  match m.position? file with
  | some i => ⟨m.entries.modify i (·.addSymbol symbol)⟩
  | none => ⟨m.entries ++ [⟨file, [symbol]⟩]⟩

def size (m : Manifest) : Nat :=
  m.entries.length

def render (m : Manifest) : String :=
  String.join (m.entries.map (renderBlock ·.lines))

def toJson (m : Manifest) : Json :=
  .obj [("entries", .arr (m.entries.map (·.toJson)))]

end Manifest

/--
One block of a written manifest, kept as it stands.
-/
structure ManifestBlock where
  fileLine : String
  details : List String
  deriving DecidableEq, Repr, Inhabited

namespace ManifestBlock

def file (block : ManifestBlock) : String :=
  Text.trimmed block.fileLine

def render (block : ManifestBlock) : String :=
  renderBlock (block.fileLine :: block.details)

def toJson (block : ManifestBlock) : Json :=
  .obj [
    ("file_line", .str block.fileLine),
    ("file", .str block.file),
    ("details", .strings block.details),
    ("rendered", .str block.render)]

/--
Gather lines into blocks. The first line that is not blank opens a block, the lines up to the next
blank one are its details.
-/
def ofLines (lines : List String) : List ManifestBlock :=
  go none lines
where
  go (current : Option ManifestBlock) : List String → List ManifestBlock
    | [] => current.toList
    | line :: rest =>
      if Text.isBlankText line then current.toList ++ go none rest
      else
        match current with
        | none => go (some ⟨line, []⟩) rest
        | some block => go (some { block with details := block.details ++ [line] }) rest

def parse (text : String) : List ManifestBlock :=
  ofLines (Text.lineTexts text)

def remaining (required handled : String) : List ManifestBlock :=
  let done := (parse handled).map (·.file)
  (parse required).filter fun block => block.file ∉ done

def renderAll (blocks : List ManifestBlock) : String :=
  String.join (blocks.map (·.render))

/--
What is left of the manifest `required` without the files of the manifest `handled`.
-/
def difference (required handled : String) : String :=
  renderAll (remaining required handled)

end ManifestBlock
end Graft
