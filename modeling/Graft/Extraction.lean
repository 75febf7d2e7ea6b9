import Graft.DefinitionIndex
import Graft.NameCleanup
import Graft.Pattern.Parse
import Graft.Process.Command
import Graft.Tree.Walk

/-!
This module contains the extraction of definitions from source files. An external tool prints a kind
and a name on each line for one file; the names are cleaned up and attributed to the file.
-/

namespace Graft

structure StripRule where
  pattern : String
  rule : StripAction
  deriving DecidableEq, Repr, Inhabited

namespace StripRule

def toJson (r : StripRule) : Json :=
  .obj [("pattern", .str r.pattern), ("rule", .str r.rule.name)]

def read (r : StripRule) : Except Fault NameCleanup.Step :=
  match Pattern.parse r.pattern with
  | .ok pattern => .ok ⟨pattern.search, r.rule⟩
  | .error .malformed => .error (.stripPattern r.pattern)
  | .error .tooLarge => .error (.largePattern r.pattern)

end StripRule

namespace Extraction

/--
The definition on one line of the tool's output. A line without a name and one with an unknown kind
tell nothing.
-/
def definitionOn? (cleanup : List NameCleanup.Step) (file : String) (line : List Char) :
    Option Definition := do
  let (kind, name) ← Text.splitAtBlank? (Text.trim line)
  let kind ← DefinitionKind.ofText? (.ofList kind)
  let name ← NameCleanup.cleanBy? cleanup name
  return ⟨kind, .ofList name, file⟩

def parse (cleanup : List NameCleanup.Step) (file output : String) : List Definition :=
  (Text.lines output.toList).filterMap (definitionOn? cleanup file)

/--
What a tool prints for a file.
-/
abbrev Extractor := FoundPath → Tree → Except Fault String × Tree

def ofCommand (launch : Launcher) (c : Command) : Extractor := fun file t =>
  match { c with arguments := c.arguments ++ [file.path.text] }.runChecked launch none t with
  | (.ok output, t) => (.ok (Text.decode output.stdout), t)
  | (.error e, t) => (.error e, t)

def extractFile (extract : Extractor) (cleanup : List NameCleanup.Step) (root : Path)
    (file : FoundPath) (t : Tree) : Except Fault (List Definition) × Tree :=
  match extract file t with
  | (.ok output, t) =>
    (.ok (parse cleanup (SourcePath.normalize (file.path.relativeTo root).text) output), t)
  | (.error e, t) => (.error (.extraction file.path e), t)

/--
The definitions in a list of files, up to the first file that fails.
-/
def extractAll (extract : Extractor) (cleanup : List NameCleanup.Step) (root : Path) :
    List FoundPath → Tree → Except Fault (List Definition) × Tree
  | [], t => (.ok [], t)
  | file :: files, t =>
    match extractFile extract cleanup root file t with
    | (.error e, t) => (.error e, t)
    | (.ok definitions, t) =>
      match extractAll extract cleanup root files t with
      | (.error e, t) => (.error e, t)
      | (.ok more, t) => (.ok (definitions ++ more), t)

end Extraction
end Graft
