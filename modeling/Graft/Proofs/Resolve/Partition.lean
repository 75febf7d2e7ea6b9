import Graft.Proofs.Manifest
import Graft.Resolve.Report
import Mathlib.Data.List.Infix
import Mathlib.Data.List.Nodup

/-!
This module contains what a resolution says of every undefined symbol: whether no file, one file or
several files supply it, and the manifest entries of those files.
-/

namespace Graft

namespace SymbolTable

theorem owners_insert (table : SymbolTable) (symbol symbol' file : String) :
    (table.insert symbol file).owners symbol'
      =
    if symbol' = symbol then addOwner (table.owners symbol) (SourcePath.normalize file)
    else table.owners symbol' := by
  unfold insert owners
  rw [Register.get?_update]
  split <;> rfl

theorem nodup_addOwner {owners : List String} (h : owners.Nodup) (file : String) :
    (addOwner owners file).Nodup := by
  unfold addOwner
  split
  . exact h
  . next hnew =>
    rw [← List.concat_eq_append, List.nodup_concat]
    exact ⟨hnew, h⟩

theorem nodup_owners_insertAll {table : SymbolTable} (h : ∀ symbol, (table.owners symbol).Nodup)
    (inserts : List (String × String)) (symbol : String) :
    ((table.insertAll inserts).owners symbol).Nodup := by
  unfold insertAll
  induction inserts generalizing table with
  | nil => apply h
  | cons insert rest ih =>
    rw [List.foldl_cons]
    apply ih
    intro symbol'
    rw [owners_insert]
    split
    . apply nodup_addOwner
      apply h
    . apply h

/--
The owners of a symbol that end in none of the suffixes, in the order of the table.
-/
def suppliers (table : SymbolTable) (suffixes : List String) (symbol : Symbol) : List String :=
  (table.owners symbol.name).filter fun file => ∀ suffix ∈ suffixes, ¬ suffix.toList <:+ file.toList

end SymbolTable

/--
A report sorts the symbols by the files that supply them.
-/
structure ResolveReport.Partitions (report : ResolveReport) (events : List Symbol)
    (suppliers : Symbol → List String) : Prop where
  symbols : report.symbols = firstBy id events
  distinct : ∀ symbol, (suppliers symbol).Nodup
  unresolved : report.unresolved = report.symbols.filter fun symbol => suppliers symbol = []
  ambiguous : report.ambiguous
    = (report.symbols.filter fun symbol => 2 ≤ (suppliers symbol).length).map
      fun symbol => ⟨symbol, suppliers symbol⟩
  /-- A file comes where a walk through the symbols and their files first meets it. -/
  files : report.manifest.entries.map (·.definingFile)
    = firstBy id (report.symbols.flatMap suppliers)
  single : (report.manifest.entries.map (·.definingFile)).Nodup
  supplied : ∀ entry ∈ report.manifest.entries,
    entry.symbols = report.symbols.filter fun symbol => entry.definingFile ∈ suppliers symbol
  pairs : ∀ file symbol,
    (∃ entry ∈ report.manifest.entries, entry.definingFile = file ∧ symbol ∈ entry.symbols)
      ↔ symbol ∈ report.symbols ∧ file ∈ suppliers symbol
  once : (report.manifest.entries.flatMap fun entry =>
    entry.symbols.map (entry.definingFile, ·)).Nodup

namespace ResolveReport

def supplies (suppliers : Symbol → List String) (symbols : List Symbol) : List (String × Symbol) :=
  symbols.flatMap fun symbol => (suppliers symbol).map (·, symbol)

section Supplies

variable {suppliers : Symbol → List String}

theorem map_fst_supplies (symbols : List Symbol) :
    (supplies suppliers symbols).map (·.1) = symbols.flatMap suppliers := by
  simp [supplies, List.map_flatMap, Function.comp_def]

theorem symbolsUnder_supplies (hdistinct : ∀ symbol, (suppliers symbol).Nodup)
    {symbols : List Symbol} (hsymbols : symbols.Nodup) (file : String) :
    symbolsUnder (supplies suppliers symbols) file
      =
    symbols.filter fun symbol => file ∈ suppliers symbol := by
  have hunder : ((supplies suppliers symbols).filter (·.1 = file)).map (·.2)
      = symbols.filter fun symbol => file ∈ suppliers symbol := by
    induction symbols with
    | nil => rfl
    | cons symbol rest ih =>
      have hsymbol : (((suppliers symbol).map (·, symbol)).filter (·.1 = file)).map (·.2)
          = if file ∈ suppliers symbol then [symbol] else [] := by
        rw [List.filter_map, List.map_map]
        simp only [Function.comp_def]
        rw [List.filter_eq, (hdistinct symbol).count]
        split <;> simp
      rw [List.nodup_cons] at hsymbols
      unfold supplies at ih ⊢
      rw [List.flatMap_cons, List.filter_append, List.map_append, hsymbol, ih hsymbols.2,
        List.filter_cons]
      split <;> simp_all
  unfold symbolsUnder
  rw [hunder]
  apply firstBy_id_eq_self
  apply hsymbols.filter

end Supplies

section AddSymbol

variable (report : ResolveReport) (symbol : Symbol) (files : List String)

theorem symbols_addSymbol : (report.addSymbol symbol files).symbols = report.symbols := by
  unfold addSymbol
  split <;> rfl

theorem unresolved_addSymbol :
    (report.addSymbol symbol files).unresolved
      =
    report.unresolved ++ if files = [] then [symbol] else [] := by
  unfold addSymbol
  split <;> simp_all

theorem ambiguous_addSymbol :
    (report.addSymbol symbol files).ambiguous
      =
    report.ambiguous ++ if 2 ≤ files.length then [⟨symbol, files⟩] else [] := by
  unfold addSymbol
  split
  . simp
  . simp
  . next hempty hsingle =>
    cases files with
    | nil => contradiction
    | cons file rest =>
      cases rest with
      | nil => exact absurd rfl (hsingle file)
      | cons => simp

theorem manifest_addSymbol :
    (report.addSymbol symbol files).manifest = files.foldl (·.push · symbol) report.manifest := by
  unfold addSymbol
  split <;> rfl

end AddSymbol

structure TakesUp (report : ResolveReport) (suppliers : Symbol → List String)
    (symbols : List Symbol) : Prop where
  unresolved : report.unresolved = symbols.filter fun symbol => suppliers symbol = []
  ambiguous : report.ambiguous
    = (symbols.filter fun symbol => 2 ≤ (suppliers symbol).length).map
      fun symbol => ⟨symbol, suppliers symbol⟩
  manifest : report.manifest = .ofAdditions (supplies suppliers symbols)

theorem TakesUp.addSymbol {report : ResolveReport} {suppliers : Symbol → List String}
    {symbols : List Symbol} (h : report.TakesUp suppliers symbols) (symbol : Symbol) :
    (report.addSymbol symbol (suppliers symbol)).TakesUp suppliers (symbols ++ [symbol]) where
  unresolved := by
    rw [unresolved_addSymbol, h.unresolved, List.filter_append, List.filter_singleton]
    simp
  ambiguous := by
    rw [ambiguous_addSymbol, h.ambiguous, List.filter_append, List.map_append,
      List.filter_singleton]
    by_cases hseveral : 2 ≤ (suppliers symbol).length <;> simp [hseveral]
  manifest := by
    rw [manifest_addSymbol, h.manifest]
    unfold supplies Manifest.ofAdditions
    rw [List.flatMap_append, List.foldl_append, List.flatMap_singleton, List.foldl_map]

theorem TakesUp.foldl {report : ResolveReport} {suppliers : Symbol → List String}
    {done : List Symbol} (h : report.TakesUp suppliers done) (symbols : List Symbol) :
    (symbols.foldl (fun report symbol => report.addSymbol symbol (suppliers symbol)) report).TakesUp
      suppliers (done ++ symbols) := by
  induction symbols generalizing report done with
  | nil => simpa using h
  | cons symbol rest ih =>
    rw [List.foldl_cons, List.append_cons]
    apply ih
    apply h.addSymbol

theorem symbols_foldl_addSymbol (report : ResolveReport) (suppliers : Symbol → List String)
    (symbols : List Symbol) :
    (symbols.foldl (fun report symbol => report.addSymbol symbol (suppliers symbol)) report).symbols
      =
    report.symbols := by
  induction symbols generalizing report with
  | nil => rfl
  | cons symbol rest ih => rw [List.foldl_cons, ih, symbols_addSymbol]

theorem TakesUp.partitions {report : ResolveReport} {events : List Symbol}
    {suppliers : Symbol → List String} (h : report.TakesUp suppliers report.symbols)
    (hsymbols : report.symbols = firstBy id events)
    (hdistinct : ∀ symbol, (suppliers symbol).Nodup) :
    report.Partitions events suppliers := by
  have hnodup : report.symbols.Nodup := by
    rw [hsymbols]
    apply nodup_firstBy_id
  have hentries := Manifest.entries_ofAdditions (supplies suppliers report.symbols)
  rw [← h.manifest, map_fst_supplies] at hentries
  have hfiles : report.manifest.entries.map (·.definingFile)
      = firstBy id (report.symbols.flatMap suppliers) := by
    rw [hentries, List.map_map]
    apply List.map_id
  have hsupplied : ∀ entry ∈ report.manifest.entries,
      entry.symbols
        = report.symbols.filter fun symbol => entry.definingFile ∈ suppliers symbol := by
    rw [hentries]
    intro entry hentry
    obtain ⟨file, _, rfl⟩ := List.mem_map.mp hentry
    apply symbolsUnder_supplies hdistinct hnodup
  have hsingle : (report.manifest.entries.map (·.definingFile)).Nodup := by
    rw [hfiles]
    apply nodup_firstBy_id
  refine ⟨hsymbols, hdistinct, h.unresolved, h.ambiguous, hfiles, hsingle, hsupplied, ?_, ?_⟩
  . intro file symbol
    constructor
    . rintro ⟨entry, hentry, rfl, hsymbol⟩
      rw [hsupplied entry hentry, List.mem_filter] at hsymbol
      simpa using hsymbol
    . rintro ⟨hsymbol, hfile⟩
      have hmem : file ∈ report.manifest.entries.map (·.definingFile) := by
        rw [hfiles, mem_firstBy_id]
        exact List.mem_flatMap.mpr ⟨symbol, hsymbol, hfile⟩
      obtain ⟨entry, hentry, rfl⟩ := List.mem_map.mp hmem
      refine ⟨entry, hentry, rfl, ?_⟩
      rw [hsupplied entry hentry, List.mem_filter]
      simpa using ⟨hsymbol, hfile⟩
  . rw [List.nodup_flatMap]
    constructor
    . intro entry hentry
      apply List.Nodup.map
      . intro symbol symbol' heq
        simpa using heq
      . rw [hsupplied entry hentry]
        apply hnodup.filter
    . -- Pairs of different entries have different files.
      rw [List.Nodup, List.pairwise_map] at hsingle
      apply hsingle.imp
      intro entry entry' hne
      simp only [Function.onFun, List.disjoint_left, List.mem_map]
      rintro pair ⟨symbol, _, rfl⟩ ⟨symbol', _, heq⟩
      exact hne (congrArg Prod.fst heq).symm

end ResolveReport

namespace Resolver

theorem candidates_eq_suppliers (r : Resolver) (symbol : Symbol) :
    r.candidates symbol = r.table.suppliers r.headerSuffixes symbol := by
  unfold candidates SymbolTable.suppliers isHeader Text.endsWith
  apply List.filter_congr
  intro file _
  rw [Bool.eq_iff_iff]
  simp

/--
Whatever was entered in the table, a resolution sorts the undefined symbols of a text by the files
that supply them.
-/
theorem resolve_partitions (g : Grammar) (inserts : List (String × String)) (suffixes : List String)
    (text : String) :
    (resolve ⟨g, SymbolTable.empty.insertAll inserts, suffixes⟩ text).Partitions
      (g.parse text).undefinedSymbols
      ((SymbolTable.empty.insertAll inserts).suppliers suffixes) := by
  generalize htable : SymbolTable.empty.insertAll inserts = table
  have hdistinct : ∀ symbol, (table.suppliers suffixes symbol).Nodup := by
    intro symbol
    rw [← htable]
    apply List.Nodup.filter
    apply SymbolTable.nodup_owners_insertAll
    simp [SymbolTable.owners, SymbolTable.empty]
  unfold resolve
  simp only [candidates_eq_suppliers, distinct_eq_firstBy]
  apply ResolveReport.TakesUp.partitions _ _ hdistinct
  . rw [ResolveReport.symbols_foldl_addSymbol]
    rw [← List.nil_append (firstBy id (g.parse text).undefinedSymbols)]
    apply ResolveReport.TakesUp.foldl
    exact ⟨rfl, rfl, rfl⟩
  . rw [ResolveReport.symbols_foldl_addSymbol]

end Resolver
end Graft
