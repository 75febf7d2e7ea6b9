import Graft.Proofs.Diagnostics.Symbols
import Graft.Proofs.Listing
import Graft.Proofs.ManifestBlock
import Graft.Proofs.Resolve.Partition
import Graft.Proofs.SourcePath

/-!
This module contains that the manifest of a resolution is read back from its text: its files and
symbols are words, so that no line of it is blank or broken.
-/

namespace Graft

namespace SymbolTable

theorem mem_owners_insertAll {table : SymbolTable} {inserts : List (String × String)}
    {symbol file : String} :
    file ∈ (table.insertAll inserts).owners symbol
      ↔
    file ∈ table.owners symbol
      ∨ ∃ file', (symbol, file') ∈ inserts ∧ SourcePath.normalize file' = file := by
  unfold insertAll
  induction inserts generalizing table with
  | nil => simp
  | cons insert rest ih =>
    obtain ⟨symbol', file'⟩ := insert
    have hadd : file ∈ (table.insert symbol' file').owners symbol
        ↔ file ∈ table.owners symbol ∨ symbol = symbol' ∧ SourcePath.normalize file' = file := by
      rw [owners_insert]
      by_cases hsymbol : symbol = symbol'
      . subst hsymbol
        unfold addOwner
        by_cases hold : SourcePath.normalize file' ∈ table.owners symbol
        . simp only [↓reduceIte, hold, true_and, iff_self_or]
          rintro rfl
          exact hold
        . simp [hold, eq_comm]
      . simp [hsymbol]
    rw [List.foldl_cons, ih, hadd, or_assoc]
    apply or_congr_right
    simp only [List.mem_cons, Prod.mk.injEq]
    constructor
    . rintro (⟨rfl, rfl⟩ | ⟨other, hmem, rfl⟩)
      . exact ⟨file', Or.inl ⟨rfl, rfl⟩, rfl⟩
      . exact ⟨other, Or.inr hmem, rfl⟩
    . rintro ⟨other, ⟨rfl, rfl⟩ | hmem, rfl⟩
      . exact Or.inl ⟨rfl, rfl⟩
      . exact Or.inr ⟨other, hmem, rfl⟩

def listed (text : String) : List (String × String) :=
  (Text.lines text.toList).filterMap listedSymbol?

theorem isWord_of_mem_listed {text symbol file : String} (h : (symbol, file) ∈ listed text) :
    Text.IsWord file.toList := by
  obtain ⟨line, _, hline⟩ := List.mem_filterMap.mp h
  have hword : ∀ word ∈ Text.words line, Text.IsWord word :=
    fun _ hmem => Text.isWord_of_mem_words hmem
  unfold listedSymbol? at hline
  split at hline
  . next file' symbol' _ hwords =>
    rw [hwords] at hword
    split at hline
    . contradiction
    . split at hline
      . next d htriple =>
        split at hline
        . cases hline
          exact (Definition.isWord_of_ofTripleChars? htriple).1
        . contradiction
      . cases hline
        rw [String.toList_ofList]
        apply hword
        simp
  . contradiction

end SymbolTable

theorem mem_symbolsUnder {additions : List (String × Symbol)} {file : String} {symbol : Symbol} :
    symbol ∈ symbolsUnder additions file ↔ (file, symbol) ∈ additions := by
  unfold symbolsUnder
  rw [mem_firstBy_id, List.mem_map]
  simp

theorem isWorded_of_mem_ofAdditions {additions : List (String × Symbol)} {entry : ManifestEntry}
    (hwords : ∀ added ∈ additions,
      Text.IsWord added.1.toList ∧ Text.IsWord added.2.name.toList)
    (h : entry ∈ (Manifest.ofAdditions additions).entries) :
    entry.IsWorded := by
  rw [Manifest.entries_ofAdditions] at h
  obtain ⟨file, hfile, rfl⟩ := List.mem_map.mp h
  rw [mem_firstBy_id] at hfile
  obtain ⟨added, hadded, rfl⟩ := List.mem_map.mp hfile
  constructor
  . exact (hwords added hadded).1
  . intro symbol hsymbol
    exact (hwords _ (mem_symbolsUnder.mp hsymbol)).2

namespace Resolver

theorem manifest_resolve (r : Resolver) (text : String) :
    (r.resolve text).manifest
      =
    .ofAdditions (ResolveReport.supplies r.candidates
      (distinct (r.grammar.parse text).undefinedSymbols)) := by
  unfold resolve
  dsimp only
  generalize distinct (r.grammar.parse text).undefinedSymbols = symbols
  generalize hstart : (⟨symbols, .empty, [], [], _⟩ : ResolveReport) = start
  have htakes : start.TakesUp r.candidates [] := by
    rw [← hstart]
    exact ⟨rfl, rfl, rfl⟩
  exact (htakes.foldl symbols).manifest

theorem isWorded_of_mem_manifest {r : Resolver} {text : String} {entry : ManifestEntry}
    (hfiles : ∀ symbol, ∀ file ∈ r.candidates symbol, Text.IsWord file.toList)
    (h : entry ∈ (r.resolve text).manifest.entries) :
    entry.IsWorded := by
  rw [manifest_resolve] at h
  apply isWorded_of_mem_ofAdditions _ h
  intro added hadded
  obtain ⟨symbol, hsymbol, hadded⟩ := List.mem_flatMap.mp hadded
  obtain ⟨file, hfile, rfl⟩ := List.mem_map.mp hadded
  rw [mem_distinct] at hsymbol
  exact ⟨hfiles symbol file hfile, Grammar.isWord_of_mem_undefinedSymbols hsymbol⟩

theorem isWord_of_mem_candidates {g : Grammar} {listing : String} {suffixes : List String}
    (hfiles : ∀ entry ∈ SymbolTable.listed listing, SourcePath.normalize entry.2 ≠ "")
    (symbol : Symbol) (file : String)
    (h : file ∈ (⟨g, .ofListing listing, suffixes⟩ : Resolver).candidates symbol) :
    Text.IsWord file.toList := by
  have howner :
      file ∈ SymbolTable.owners (.insertAll .empty (SymbolTable.listed listing)) symbol.name :=
    (List.mem_filter.mp h).1
  rw [SymbolTable.mem_owners_insertAll] at howner
  rcases howner with howner | ⟨file', hlisted, rfl⟩
  . exact absurd howner List.not_mem_nil
  . apply SourcePath.isWord_normalize (SymbolTable.isWord_of_mem_listed hlisted)
    exact hfiles (symbol.name, file') hlisted

/--
The text of a manifest has one block for each entry, and without the blocks of another manifest it
is the text of the entries for the other files.
-/
theorem manifest_reads_back (g : Grammar) (listing : String) (suffixes : List String)
    (text : String)
    (hfiles : ∀ entry ∈ SymbolTable.listed listing, SourcePath.normalize entry.2 ≠ "") :
    let m := (resolve ⟨g, .ofListing listing, suffixes⟩ text).manifest
    (ManifestBlock.parse m.render).map (fun block => (block.file, block.details))
        = m.entries.map (fun entry =>
            (entry.definingFile, entry.symbols.map fun symbol => "\t" ++ symbol.name))
      ∧ ∀ handled, ManifestBlock.difference m.render handled
        = Manifest.render ⟨m.entries.filter fun entry =>
            entry.definingFile ∉ (ManifestBlock.parse handled).map (·.file)⟩ := by
  intro m
  have hworded : ∀ entry ∈ m.entries, entry.IsWorded := by
    intro entry hentry
    apply isWorded_of_mem_manifest _ hentry
    exact isWord_of_mem_candidates hfiles
  exact ⟨Manifest.parse_render hworded, Manifest.difference_render hworded⟩

def mbufListing : String :=
  "./kern//uipc_mbuf.c m_get\nnet/if.c funcdef m_get\nsys/mbuf.h m_get\n"
    ++ "kern/uipc_mbuf.c m_free\nnet/if.c struct ifnet\n"

def mbufLink : String :=
  "if.c:(.text+0x2a): undefined reference to \x60m_get'\n\n  U m_free\nld: \x60m_free' missing\n"

theorem manifest_reads_back_mbuf :
    (∀ entry ∈ SymbolTable.listed mbufListing, SourcePath.normalize entry.2 ≠ "")
      ∧ let m :=
          (resolve ⟨.default, .ofListing mbufListing, defaultHeaderSuffixes⟩ mbufLink).manifest
        (ManifestBlock.parse m.render).map (fun block => (block.file, block.details))
            = m.entries.map (fun entry =>
                (entry.definingFile, entry.symbols.map fun symbol => "\t" ++ symbol.name))
          ∧ ManifestBlock.difference m.render "  net/if.c\n\n"
            = Manifest.render ⟨m.entries.filter fun entry =>
                entry.definingFile ∉ (ManifestBlock.parse "  net/if.c\n\n").map (·.file)⟩
          ∧ m.entries.map (·.definingFile) = ["kern/uipc_mbuf.c", "net/if.c"] := by
  have hfiles : ∀ entry ∈ SymbolTable.listed mbufListing, SourcePath.normalize entry.2 ≠ "" := by
    decide +kernel
  obtain ⟨hblocks, hdifference⟩ :=
    manifest_reads_back .default mbufListing defaultHeaderSuffixes mbufLink hfiles
  refine ⟨hfiles, hblocks, hdifference _, ?_⟩
  decide +kernel

end Resolver
end Graft
