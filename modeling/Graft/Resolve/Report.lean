import Graft.Diagnostics.Report
import Graft.Distinct
import Graft.Manifest
import Graft.Notice
import Graft.Path
import Graft.Resolve.SymbolTable

/-!
This module contains the resolution of undefined symbols to the files that define them.
-/

namespace Graft

/--
A symbol that several files define, and these files. Each of them has it in its manifest entry.
-/
structure AmbiguousOwner where
  symbol : Symbol
  candidates : List String
  deriving DecidableEq, Repr, Inhabited

namespace AmbiguousOwner

def notice (a : AmbiguousOwner) : Notice where
  severity := .warning
  message := "`" ++ a.symbol.name ++ "` is defined by " ++ toString a.candidates.length ++ " files"
  context := a.candidates.map ("candidate: " ++ ·)
  suggestions := [Advice.oneCandidate]

def toJson (a : AmbiguousOwner) : Json :=
  .obj [("symbol", .str a.symbol.name), ("candidates", .strings a.candidates)]

end AmbiguousOwner

structure ResolveReport where
  /-- The undefined symbols, each once, in the order in which they were first seen. -/
  symbols : List Symbol
  manifest : Manifest
  ambiguous : List AmbiguousOwner
  /-- The symbols that no file defines. -/
  unresolved : List Symbol
  /-- The number of ambiguous lines in the output of the link tool. -/
  ambiguousLines : Nat
  deriving DecidableEq, Repr, Inhabited

namespace ResolveReport

/--
Take up one symbol with the files that may supply it.
-/
def addSymbol (r : ResolveReport) (symbol : Symbol) (candidates : List String) : ResolveReport :=
  match candidates with
  | [] => { r with unresolved := r.unresolved ++ [symbol] }
  | [file] => { r with manifest := r.manifest.push file symbol }
  | files => { r with
      manifest := files.foldl (·.push · symbol) r.manifest
      ambiguous := r.ambiguous ++ [⟨symbol, files⟩] }

def toJson (r : ResolveReport) : Json :=
  .obj [
    ("symbols", .strings (r.symbols.map (·.name))),
    ("manifest", r.manifest.toJson),
    ("ambiguous", .arr (r.ambiguous.map (·.toJson))),
    ("unresolved", .strings (r.unresolved.map (·.name))),
    ("ambiguous_lines", .num r.ambiguousLines)]

/--
The report for the terminal. A manifest that was written to a file is not shown.
-/
def format (r : ResolveReport) (output : Option Path) : String :=
  let manifest :=
    match output with
    | some path =>
      toString r.symbols.length ++ " undefined symbol(s) in " ++ toString r.manifest.size
        ++ " file(s), manifest written to " ++ path.text ++ "\n"
    | none => r.manifest.render
  let unresolved :=
    if r.unresolved.isEmpty then ""
    else "unresolved:\n" ++ String.join (r.unresolved.map fun symbol => "\t" ++ symbol.name ++ "\n")
  manifest ++ unresolved

end ResolveReport

/--
What symbols are resolved with.
-/
structure Resolver where
  grammar : Grammar
  table : SymbolTable
  /-- Files with these endings supply no symbols. -/
  headerSuffixes : List String

namespace Resolver

def defaultHeaderSuffixes : List String :=
  [".h", ".hh", ".hpp", ".hxx"]

def isHeader (r : Resolver) (file : String) : Bool :=
  r.headerSuffixes.any (Text.endsWith file)

def candidates (r : Resolver) (symbol : Symbol) : List String :=
  (r.table.owners symbol.name).filter (!r.isHeader ·)

def resolve (r : Resolver) (text : String) : ResolveReport :=
  let parsed := r.grammar.parse text
  let symbols := distinct parsed.undefinedSymbols
  let start : ResolveReport := ⟨symbols, .empty, [], [], parsed.ambiguous.length⟩
  symbols.foldl (fun report symbol => report.addSymbol symbol (r.candidates symbol)) start

end Resolver
end Graft
