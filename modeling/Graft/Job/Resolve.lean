import Graft.Job.Index
import Graft.Tree.Glob

/-!
This module contains the jobs around undefined symbols: finding out which files define symbols, linking,
and telling which files still lack stubs.
-/

namespace Graft
namespace Job

def symbolLister? (h : Host) : Option Path :=
  ((h.environment.get? "NM").bind h.findProgram).or (["nm", "llvm-nm", "gnm"].findSome? h.findProgram)

/--
The name by which the symbols of an object file are known: that of its source file.
-/
def sourceName (root object : Path) (sourceExtension : String) : String :=
  SourcePath.normalize ((object.relativeTo root).withExtension sourceExtension).text

/--
Record the symbols of object files, up to the first one that cannot be read.
-/
def scanFiles (h : Host) (root nm : Path) (sourceExtension : String) (table : SymbolTable) :
    List Path → Job SymbolTable
  | [] => return table
  | object :: objects => do
    let output ← step ({ program := nm.text, arguments := [object.text] : Command }.runChecked h.launch none)
      fun e => .resolve (.symbolScan object e.message)
    let file := sourceName root object sourceExtension
    scanFiles h root nm sourceExtension (table.addObject file (Text.decode output.stdout)) objects

def scanObjects (h : Host) (root : Path) (patterns : List String) (nm : Path)
    (sourceExtension : String) : Job SymbolTable := do
  match (← get).globFiles root patterns with
  | .error e => throw (.resolve (.symbolScan root e.message))
  | .ok [] => throw (.resolve (.noSymbolSources patterns))
  | .ok objects => scanFiles h root nm sourceExtension .empty objects

/--
The symbols of the donor tree: from a listing, from its object files, or from its source files.
-/
def symbolTable (h : Host) (s : Settings) : Job SymbolTable := do
  match s.link.symbols with
  | some listing => return .ofListing (← look (·.load listing))
  | none =>
    match s.trees.donor with
    | none => throw (.fault .noDonorTree)
    | some donor =>
      if !s.link.objects.isEmpty then
        match s.link.nm.or (symbolLister? h) with
        | none => throw (.fault .noSymbolLister)
        | some nm => scanObjects h donor s.link.objects nm s.sourceExtension
      else if !s.extraction.command.isEmpty then
        return .ofIndex (← indexTree h s donor)
      else throw (.fault .noSymbolSource)

/--
The output of the link step: from a saved log, or from the link command run in the target tree.
-/
def linkOutput (h : Host) (s : Settings) (fromLog : Option Path) : Job String := do
  let failed (e : Fault) : Failure := .resolve (.linkTool e.message)
  match fromLog with
  | some log => step (fun t => (t.load log, t)) failed
  | none =>
    match Command.ofList? s.link.command with
    | none => throw (.resolve (.linkTool "no link command configured"))
    | some c =>
      let output ← step (fun t =>
        let (output, _, t) := (Tool.ofCommand h.launch).invoke c (s.trees.target.getD ⟨"."⟩) t
        (output, t)) failed
      return output.text

def resolve (h : Host) (s : Settings) (fromLog output : Option Path) : Job ResolveReport := do
  let table ← symbolTable h s
  let resolver : Resolver := ⟨s.wording, table, s.headerSuffixes⟩
  let report := resolver.resolve (← linkOutput h s fromLog)
  saveTo output report.manifest.render
  return report

def stubs (required handled : Path) (output : Option Path) : Job String := do
  let required ← look (·.load required)
  let handled ← look (·.load handled)
  let text := ManifestBlock.difference required handled
  saveTo output text
  return text

end Job
end Graft
