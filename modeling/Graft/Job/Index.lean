import Graft.CrossReference
import Graft.Job.Basic
import Graft.Listing
import Graft.Settings
import Graft.Tree.Walk

/-!
This module contains the jobs around indexes of definitions: taking them from a tree, loading them, and
comparing two of them.
-/

namespace Graft
namespace Job

def extraction (s : Settings) : Except Fault (Command × List NameCleanup.Step) := do
  match Command.ofList? s.extraction.command with
  | none => .error .noExtractCommand
  | some c => return (c, ← s.extraction.strip.mapM StripRule.read)

def extractFiles (h : Host) (extractor : Command × List NameCleanup.Step) (root : Path)
    (files : List FoundPath) : Job (List Definition) :=
  step (Extraction.extractAll (Extraction.ofCommand h.launch extractor.1) extractor.2 root files) .fault

def sourceFiles (s : Settings) (root : Path) : Job (List FoundPath) :=
  look (·.sourceFiles root s.sourceSuffixes)

/--
The definitions in the files below `root` whose name ends with one of the suffixes.
-/
def extractTree (extract : Extraction.Extractor) (cleanup : List NameCleanup.Step) (root : Path)
    (suffixes : List String) : Job (List Definition) := do
  let files ← look (·.sourceFiles root suffixes)
  step (Extraction.extractAll extract cleanup root files) .fault

def indexTree (h : Host) (s : Settings) (root : Path) : Job DefinitionIndex := do
  let files ← sourceFiles s root
  let extractor ← look fun _ => extraction s
  return .ofDefinitions (← extractFiles h extractor root files)

/--
Load an index: from a listing, or from a source tree if the path leads to a directory.
-/
def loadIndex (h : Host) (s : Settings) (path : Path) : Job DefinitionIndex := do
  if (← get).isDirectory path then indexTree h s path
  else return .ofListing (← look (·.load path))

def crossReference (h : Host) (s : Settings) (reference candidate : Path) : Job CrossReference := do
  let reference ← loadIndex h s reference
  let candidate ← loadIndex h s candidate
  return .ofIndexes reference candidate

/--
Write down the definitions in a source tree.
-/
def index (h : Host) (s : Settings) (root : Path) (format : ListingFormat) (output : Option Path) :
    Job String := do
  let extractor ← look fun _ => extraction s
  let extract := Extraction.ofCommand h.launch extractor.1
  let text := format.render (← extractTree extract extractor.2 root s.sourceSuffixes)
  saveTo output text
  return text

end Job
end Graft
