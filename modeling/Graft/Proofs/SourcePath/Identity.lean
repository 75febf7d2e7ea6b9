import Graft.Proofs.Closure.Pending
import Graft.Proofs.Resolve.ReadBack

/-!
This module contains when two paths have one normal form: they are spellings of one path. Whatever is
kept by normal form has one entry for all spellings of a path, and never one entry for two paths.
-/

namespace Graft
namespace SourcePath

/--
A path without the white space around it, with `/` as its only separator.
-/
def slashed (path : String) : List Char :=
  (Text.trim path.toList).map fun c => if c = '\\' then '/' else c

/--
Two paths that differ in nothing but white space around them, the kind of their separators, and
pieces that are empty or `.`.
-/
structure Respells (path path' : String) : Prop where
  root : (slashed path).head? = some '/' ↔ (slashed path').head? = some '/'
  names : namedPieces (slashed path) = namedPieces (slashed path')

theorem unify_toList (path : String) : unify path.toList = slashed path := by
  unfold unify slashed
  simp only [beq_iff_eq]

theorem parts_eq_namedPieces (path : List Char) : parts path = namedPieces path := by
  unfold parts namedPieces
  apply List.filter_congr
  intro piece _
  rw [Bool.eq_iff_iff]
  simp

theorem isPart_of_mem_namedPieces {path : String} {part : List Char}
    (h : part ∈ namedPieces (slashed path)) : IsPart part := by
  rw [← unify_toList, ← parts_eq_namedPieces] at h
  exact isPart_of_mem_parts h

theorem toList_normalize (path : String) :
    (normalize path).toList
      =
    ofParts (isAbsolute (slashed path)) (namedPieces (slashed path)) := by
  unfold normalize
  dsimp only
  rw [String.toList_ofList, unify_toList, parts_eq_namedPieces]

theorem ofParts_inj {absolute absolute' : Bool} {ps qs : List (List Char)}
    (hps : ∀ part ∈ ps, IsPart part) (hqs : ∀ part ∈ qs, IsPart part) :
    ofParts absolute ps = ofParts absolute' qs ↔ absolute = absolute' ∧ ps = qs := by
  constructor
  . intro h
    have habsolute := congrArg isAbsolute h
    have hparts := congrArg parts h
    rw [isAbsolute_ofParts hps, isAbsolute_ofParts hqs] at habsolute
    rw [parts_ofParts hps, parts_ofParts hqs] at hparts
    exact ⟨habsolute, hparts⟩
  . rintro ⟨rfl, rfl⟩
    rfl

theorem normalize_eq_normalize_iff {path path' : String} :
    normalize path = normalize path' ↔ Respells path path' := by
  rw [← String.toList_inj, toList_normalize, toList_normalize,
    ofParts_inj (fun _ => isPart_of_mem_namedPieces) (fun _ => isPart_of_mem_namedPieces),
    Bool.eq_iff_iff]
  unfold isAbsolute
  rw [beq_iff_eq, beq_iff_eq]
  constructor
  . rintro ⟨hroot, hnames⟩
    exact ⟨hroot, hnames⟩
  . rintro ⟨hroot, hnames⟩
    exact ⟨hroot, hnames⟩

/--
Entries for some paths, kept by normal form: one for all spellings of a path.
-/
structure Merges (paths entries : List String) : Prop where
  nodup : entries.Nodup
  entry : ∀ e, e ∈ entries ↔ ∃ path ∈ paths, normalize path = e
  merged : ∀ path ∈ paths, ∀ path' ∈ paths,
    entries.idxOf (normalize path) = entries.idxOf (normalize path') ↔ Respells path path'

theorem merges_of_mem {paths entries : List String} (hnodup : entries.Nodup)
    (hentry : ∀ e, e ∈ entries ↔ ∃ path ∈ paths, normalize path = e) :
    Merges paths entries := by
  refine ⟨hnodup, hentry, ?_⟩
  intro path hpath path' hpath'
  have hmem := (hentry _).mpr ⟨path, hpath, rfl⟩
  rw [List.idxOf_inj hmem, normalize_eq_normalize_iff]

end SourcePath

theorem SymbolTable.merges_owners (inserts : List (String × String)) (symbol : String) :
    SourcePath.Merges ((inserts.filter (·.1 = symbol)).map (·.2))
      ((empty.insertAll inserts).owners symbol) := by
  apply SourcePath.merges_of_mem
  . apply nodup_owners_insertAll
    simp [owners, empty]
  . intro file
    rw [mem_owners_insertAll]
    simp [owners, empty]

namespace Resolver

def suppliedPaths (r : Resolver) (inserts : List (String × String)) (text : String) : List String :=
  (inserts.filter fun (symbol, path) =>
    ⟨symbol⟩ ∈ (r.grammar.parse text).undefinedSymbols
      ∧ r.isHeader (SourcePath.normalize path) = false).map (·.2)

theorem merges_manifest (g : Grammar) (inserts : List (String × String)) (suffixes : List String)
    (text : String) :
    SourcePath.Merges
      (suppliedPaths ⟨g, SymbolTable.empty.insertAll inserts, suffixes⟩ inserts text)
      ((resolve ⟨g, SymbolTable.empty.insertAll inserts, suffixes⟩ text).manifest.entries.map
        (·.definingFile)) := by
  generalize hresolver : (⟨g, SymbolTable.empty.insertAll inserts, suffixes⟩ : Resolver) = r
  have hfiles : (r.resolve text).manifest.entries.map (·.definingFile)
      = firstBy id ((distinct (r.grammar.parse text).undefinedSymbols).flatMap r.candidates) := by
    rw [manifest_resolve, Manifest.entries_ofAdditions, ResolveReport.map_fst_supplies,
      List.map_map]
    apply List.map_id
  rw [hfiles]
  apply SourcePath.merges_of_mem
  . apply nodup_firstBy_id
  . intro file
    have howner : ∀ symbol : Symbol, file ∈ r.table.owners symbol.name
        ↔ ∃ path, (symbol.name, path) ∈ inserts ∧ SourcePath.normalize path = file := by
      intro symbol
      rw [← hresolver]
      dsimp only
      rw [SymbolTable.mem_owners_insertAll]
      simp [SymbolTable.owners, SymbolTable.empty]
    rw [mem_firstBy_id, List.mem_flatMap]
    unfold candidates suppliedPaths
    simp only [mem_distinct, List.mem_filter, howner, Bool.not_eq_true', List.mem_map,
      decide_eq_true_eq, Prod.exists]
    constructor
    . rintro ⟨symbol, hsymbol, ⟨path, hinsert, rfl⟩, hheader⟩
      exact ⟨path, ⟨symbol.name, path, ⟨hinsert, hsymbol, hheader⟩, rfl⟩, rfl⟩
    . rintro ⟨path, ⟨symbol, _, ⟨hinsert, hsymbol, hheader⟩, rfl⟩, rfl⟩
      exact ⟨⟨symbol⟩, hsymbol, ⟨_, hinsert, rfl⟩, hheader⟩

end Resolver

theorem Closure.merges_pendingFiles (requests : List MissingInclude) :
    SourcePath.Merges (requests.map (·.sourceFile)) ((pendingFiles requests).map (·.path)) := by
  rw [(pending_pendingFiles requests).paths]
  apply SourcePath.merges_of_mem
  . apply nodup_firstBy_id
  . intro file
    rw [mem_firstBy_id]
    simp [MissingInclude.file]

/--
The normal form of a path is its identity: two paths share it exactly if they are spellings of one
path, and so do the owners of a symbol, the files of a manifest and the unfinished files of a pass.
-/
theorem SourcePath.normalize_identifies :
    (∀ path path', normalize path = normalize path' ↔ Respells path path')
      ∧ (∀ inserts symbol, Merges ((inserts.filter (·.1 = symbol)).map (·.2))
        ((SymbolTable.empty.insertAll inserts).owners symbol))
      ∧ (∀ g inserts suffixes text,
        Merges
          (Resolver.suppliedPaths ⟨g, SymbolTable.empty.insertAll inserts, suffixes⟩ inserts text)
          ((Resolver.resolve ⟨g, SymbolTable.empty.insertAll inserts, suffixes⟩
            text).manifest.entries.map (·.definingFile)))
      ∧ ∀ requests, Merges (requests.map (·.sourceFile))
        ((Closure.pendingFiles requests).map (·.path)) :=
  ⟨fun _ _ => normalize_eq_normalize_iff, SymbolTable.merges_owners, Resolver.merges_manifest,
    Closure.merges_pendingFiles⟩

end Graft
