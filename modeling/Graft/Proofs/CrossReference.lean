import Graft.CrossReference
import Graft.Proofs.DefinitionIndex
import Graft.Proofs.Listing
import Graft.Proofs.SourcePath
import Mathlib.Algebra.GroupWithZero.Nat

/-!
This module contains that a comparison of two listings loses no key: the keys of every candidate
file are divided into those of the reference index and those of the candidate index alone.
-/

namespace Graft

def Definition.listed (text : String) : List Definition :=
  (Text.lines text.toList).filterMap ofTripleChars?

def CrossEntry.exchanged (e : CrossEntry) : CrossEntry :=
  { e with candidateOwners := e.referenceOwners, referenceOwners := e.candidateOwners }

namespace CrossReference

def allMatched (r : CrossReference) : List CrossEntry :=
  r.files.flatMap (·.matched)

/--
A report divides the keys of the candidate definitions, file by file.
-/
structure Divides (report : CrossReference) (reference candidate : DefinitionIndex)
    (definitions : List Definition) : Prop where
  files : report.files.map (·.file.path) = candidate.files
  firstSeen : candidate.files = firstBy id (definitions.map (·.entry.1))
  single : (report.files.map (·.file.path)).Nodup
  declared : ∀ file ∈ candidate.files,
    candidate.declaredBy file = DefinitionIndex.keysIn definitions file
  matched : ∀ f ∈ report.files, f.matched
    = ((firstBy id (candidate.declaredBy f.file.path)).filter (reference.contains ·)).map
      fun key => ⟨key, .matched, candidate.lookup key, reference.lookup key⟩
  exclusive : ∀ f ∈ report.files, f.exclusive
    = ((firstBy id (candidate.declaredBy f.file.path)).filter (!reference.contains ·)).map
      fun key => ⟨key, .exclusive, candidate.lookup key, reference.lookup key⟩
  /-- A key is listed under exactly the files that own it. -/
  owned : ∀ file key,
    (∃ f ∈ report.files, f.file.path = file ∧ ∃ e ∈ f.matched ++ f.exclusive, e.key = key)
      ↔ file ∈ candidate.lookup key
  matchedKeys : report.matchedKeys = (report.files.map (·.matched.length)).sum
  exclusiveKeys : report.exclusiveKeys = (report.files.map (·.exclusive.length)).sum
  conflictFiles : report.conflictFiles = (report.files.filter (·.matched ≠ [])).length

theorem foldl_addFile (fs : List FileCrossReference) (r : CrossReference) :
    fs.foldl addFile r
      =
    ⟨r.files ++ fs, r.conflictFiles + (fs.filter (·.matched ≠ [])).length,
      r.matchedKeys + (fs.map (·.matched.length)).sum,
      r.exclusiveKeys + (fs.map (·.exclusive.length)).sum⟩ := by
  induction fs generalizing r with
  | nil => simp
  | cons f fs ih =>
    have hconflict : (r.addFile f).conflictFiles + (fs.filter (·.matched ≠ [])).length
        = r.conflictFiles + ((f :: fs).filter (·.matched ≠ [])).length := by
      unfold addFile
      cases hmatched : f.matched with
      | nil => simp [hmatched]
      | cons e es =>
        simp [hmatched]
        omega
    rw [List.foldl_cons, ih, hconflict]
    simp [addFile, Nat.add_assoc]

theorem ofIndexes_eq (reference candidate : DefinitionIndex) :
    ofIndexes reference candidate
      =
    let files := candidate.files.map (fileEntries reference candidate)
    ⟨files, (files.filter (·.matched ≠ [])).length, (files.map (·.matched.length)).sum,
      (files.map (·.exclusive.length)).sum⟩ := by
  have hfold := foldl_addFile (candidate.files.map (fileEntries reference candidate)) empty
  rw [List.foldl_map] at hfold
  unfold ofIndexes
  rw [hfold]
  simp [empty]

theorem mem_files_ofIndexes {reference candidate : DefinitionIndex} {f : FileCrossReference} :
    f ∈ (ofIndexes reference candidate).files
      ↔
    ∃ file ∈ candidate.files, fileEntries reference candidate file = f := by
  rw [ofIndexes_eq]
  exact List.mem_map

theorem path_sourceFile (index : DefinitionIndex) (file : String) (ecosystem : Ecosystem) :
    (index.sourceFile file ecosystem).path = SourcePath.normalize file := by
  have hadd : ∀ (keys : List String) (source : SourceFile),
      (keys.foldl SourceFile.addDefinition source).path = source.path := by
    intro keys
    induction keys with
    | nil =>
      intro source
      rfl
    | cons key keys ih =>
      intro source
      rw [List.foldl_cons, ih]
      rfl
  apply hadd

section FileEntries

variable (reference candidate : DefinitionIndex)

theorem filter_side {reference : DefinitionIndex}
    (hreference : ∀ key, reference.contains key ↔ reference.lookup key ≠ [])
    (candidate : DefinitionIndex) (keys : List String) (side : Side) :
    (keys.map (entry reference candidate)).filter (·.side = side)
      =
    (keys.filter fun key => (side = .matched) = reference.contains key).map
      fun key => ⟨key, side, candidate.lookup key, reference.lookup key⟩ := by
  have hside : ∀ key, (entry reference candidate key).side = side
      ↔ (side = .matched) = reference.contains key := by
    intro key
    unfold entry
    dsimp only
    rw [eq_iff_iff, hreference]
    cases hlookup : reference.lookup key <;> cases side <;> simp
  rw [List.filter_map]
  have hkept : keys.filter ((fun e : CrossEntry => decide (e.side = side))
        ∘ entry reference candidate)
      = keys.filter fun key => (side = .matched) = reference.contains key := by
    apply List.filter_congr
    intro key _
    rw [Function.comp_apply, decide_eq_decide]
    apply hside
  rw [hkept]
  apply List.map_congr_left
  intro key hkey
  rw [List.mem_filter, decide_eq_true_eq, ← hside] at hkey
  rw [← hkey.2]
  rfl

theorem mem_keys_fileEntries {file key : String} :
    (∃ e ∈ (fileEntries reference candidate file).matched
        ++ (fileEntries reference candidate file).exclusive, e.key = key)
      ↔
    key ∈ candidate.declaredBy file := by
  have hentries : ∀ e, e ∈ (fileEntries reference candidate file).matched
        ++ (fileEntries reference candidate file).exclusive
      ↔ ∃ key ∈ candidate.declaredBy file, entry reference candidate key = e := by
    intro e
    unfold fileEntries
    dsimp only
    rw [List.mem_append, List.mem_filter, List.mem_filter, ← and_or_left, List.mem_map]
    simp only [mem_distinct, decide_eq_true_eq, and_iff_left_iff_imp]
    intro _
    cases e.side <;> simp
  constructor
  . rintro ⟨e, he, rfl⟩
    obtain ⟨key, hkey, rfl⟩ := (hentries e).mp he
    exact hkey
  . intro hkey
    exact ⟨entry reference candidate key, (hentries _).mpr ⟨key, hkey, rfl⟩, rfl⟩

end FileEntries

section Definitions

variable {ds : List Definition} (hstable : ∀ d ∈ ds, SourcePath.normalize d.entry.1 = d.entry.1)

include hstable

theorem normalize_of_mem_files {file : String}
    (h : file ∈ (DefinitionIndex.ofDefinitions ds).files) :
    SourcePath.normalize file = file := by
  rw [DefinitionIndex.files_ofDefinitions, mem_firstBy_id] at h
  obtain ⟨d, hd, rfl⟩ := List.mem_map.mp h
  exact hstable d hd

theorem exists_file_of_mem_files {reference : DefinitionIndex} {f : FileCrossReference}
    (h : f ∈ (ofIndexes reference (.ofDefinitions ds)).files) :
    ∃ file ∈ (DefinitionIndex.ofDefinitions ds).files, f.file.path = file
      ∧ f = fileEntries reference (.ofDefinitions ds) file := by
  obtain ⟨file, hfile, rfl⟩ := mem_files_ofIndexes.mp h
  refine ⟨file, hfile, ?_, rfl⟩
  exact (path_sourceFile _ _ _).trans (normalize_of_mem_files hstable hfile)

theorem mem_declaredBy_iff {file key : String}
    (h : file ∈ (DefinitionIndex.ofDefinitions ds).files) :
    key ∈ (DefinitionIndex.ofDefinitions ds).declaredBy file
      ↔
    file ∈ (DefinitionIndex.ofDefinitions ds).lookup key := by
  rw [DefinitionIndex.declaredBy_ofDefinitions, normalize_of_mem_files hstable h,
    DefinitionIndex.mem_lookup_ofDefinitions]
  unfold DefinitionIndex.keysIn
  simp only [List.mem_map, List.mem_filter, decide_eq_true_eq, Prod.ext_iff, and_assoc]
  rfl

theorem divides_ofDefinitions {reference : DefinitionIndex}
    (hreference : ∀ key, reference.contains key ↔ reference.lookup key ≠ []) :
    (ofIndexes reference (.ofDefinitions ds)).Divides reference (.ofDefinitions ds) ds := by
  have hfiles : (ofIndexes reference (.ofDefinitions ds)).files.map (·.file.path)
      = (DefinitionIndex.ofDefinitions ds).files := by
    rw [ofIndexes_eq, List.map_map]
    apply Eq.trans _ (List.map_id _)
    apply List.map_congr_left
    intro file hfile
    exact (path_sourceFile _ _ _).trans (normalize_of_mem_files hstable hfile)
  have hseen := DefinitionIndex.files_ofDefinitions ds
  constructor
  . exact hfiles
  . exact hseen
  . rw [hfiles, hseen]
    apply nodup_firstBy_id
  . intro file hfile
    rw [DefinitionIndex.declaredBy_ofDefinitions, normalize_of_mem_files hstable hfile]
  . intro f hf
    obtain ⟨file, hfile, hpath, rfl⟩ := exists_file_of_mem_files hstable hf
    rw [hpath]
    unfold fileEntries
    dsimp only
    rw [filter_side hreference, distinct_eq_firstBy]
    simp
  . intro f hf
    obtain ⟨file, hfile, hpath, rfl⟩ := exists_file_of_mem_files hstable hf
    rw [hpath]
    unfold fileEntries
    dsimp only
    rw [filter_side hreference, distinct_eq_firstBy]
    simp
  . intro file key
    constructor
    . rintro ⟨f, hf, rfl, hkey⟩
      obtain ⟨file, hfile, hpath, rfl⟩ := exists_file_of_mem_files hstable hf
      rw [hpath, ← mem_declaredBy_iff hstable hfile]
      exact (mem_keys_fileEntries _ _).mp hkey
    . intro howner
      have hfile : file ∈ (DefinitionIndex.ofDefinitions ds).files := by
        obtain ⟨d, hd, hentry⟩ := DefinitionIndex.mem_lookup_ofDefinitions.mp howner
        rw [hseen, mem_firstBy_id, List.mem_map]
        exact ⟨d, hd, congrArg Prod.fst hentry⟩
      refine ⟨_, mem_files_ofIndexes.mpr ⟨file, hfile, rfl⟩, ?_, ?_⟩
      . exact (path_sourceFile _ _ _).trans (normalize_of_mem_files hstable hfile)
      . rw [mem_keys_fileEntries, mem_declaredBy_iff hstable hfile]
        exact howner
  . rw [ofIndexes_eq]
  . rw [ofIndexes_eq]
  . rw [ofIndexes_eq]

end Definitions

theorem Divides.mem_allMatched {report : CrossReference} {reference candidate : DefinitionIndex}
    {ds : List Definition} (h : report.Divides reference candidate ds)
    (hcandidate : ∀ key, candidate.contains key ↔ candidate.lookup key ≠ []) {e : CrossEntry} :
    e ∈ report.allMatched
      ↔
    reference.contains e.key ∧ candidate.contains e.key
      ∧ e = ⟨e.key, .matched, candidate.lookup e.key, reference.lookup e.key⟩ := by
  unfold allMatched
  rw [List.mem_flatMap]
  constructor
  . rintro ⟨f, hf, he⟩
    have howned := (h.owned f.file.path e.key).mp
      ⟨f, hf, rfl, e, List.mem_append_left _ he, rfl⟩
    rw [h.matched f hf, List.mem_map] at he
    obtain ⟨key, hkey, rfl⟩ := he
    exact ⟨(List.mem_filter.mp hkey).2, (hcandidate key).mpr (List.ne_nil_of_mem howned), rfl⟩
  . rintro ⟨hreference, hcontained, he⟩
    obtain ⟨file, hfile⟩ := List.exists_mem_of_ne_nil _ ((hcandidate e.key).mp hcontained)
    obtain ⟨f, hf, -, e', he', hkey⟩ := (h.owned file e.key).mpr hfile
    refine ⟨f, hf, ?_⟩
    rcases List.mem_append.mp he' with hmatched | hexclusive
    . have hfound := hmatched
      rw [h.matched f hf, List.mem_map] at hfound
      obtain ⟨key, -, rfl⟩ := hfound
      rw [he, ← hkey]
      exact hmatched
    . -- No key of the reference index is exclusive.
      rw [h.exclusive f hf, List.mem_map] at hexclusive
      obtain ⟨key, hmem, rfl⟩ := hexclusive
      cases hkey
      rw [List.mem_filter, hreference] at hmem
      exact absurd hmem.2 Bool.false_ne_true

theorem Divides.exclusive_eq_nil {report : CrossReference} {index : DefinitionIndex}
    {ds : List Definition} (h : report.Divides index index ds)
    (hcontains : ∀ key, index.contains key ↔ index.lookup key ≠ []) {f : FileCrossReference}
    (hf : f ∈ report.files) : f.exclusive = [] := by
  rw [List.eq_nil_iff_forall_not_mem]
  intro e he
  have howner := (h.owned f.file.path e.key).mp ⟨f, hf, rfl, e, List.mem_append_right _ he, rfl⟩
  have hcontained := (hcontains e.key).mpr (List.ne_nil_of_mem howner)
  rw [h.exclusive f hf, List.mem_map] at he
  obtain ⟨key, hmem, rfl⟩ := he
  rw [List.mem_filter, hcontained] at hmem
  exact absurd hmem.2 Bool.false_ne_true

theorem stable_listed (text : String) :
    ∀ d ∈ Definition.listed text, SourcePath.normalize d.entry.1 = d.entry.1 := by
  intro d hd
  obtain ⟨line, -, hread⟩ := List.mem_filterMap.mp hd
  exact SourcePath.normalize_normalize_of_isWord (Definition.isWord_of_ofTripleChars? hread).1

theorem divides_ofListing (reference candidate : String) :
    (ofIndexes (.ofListing reference) (.ofListing candidate)).Divides (.ofListing reference)
      (.ofListing candidate) (Definition.listed candidate) :=
  divides_ofDefinitions (stable_listed candidate)
    (fun _ => DefinitionIndex.contains_ofDefinitions)

/--
The comparison of two listings divides the keys of the candidate files, swapping the listings
exchanges the owners of the same matched keys, and a listing has no key that it lacks itself.
-/
theorem ofListing_divides_exchanges (reference candidate : String) :
    (ofIndexes (.ofListing reference) (.ofListing candidate)).Divides (.ofListing reference)
        (.ofListing candidate) (Definition.listed candidate)
      ∧ (∀ e, e ∈ (ofIndexes (.ofListing reference) (.ofListing candidate)).allMatched
          ↔ e.exchanged ∈ (ofIndexes (.ofListing candidate) (.ofListing reference)).allMatched)
      ∧ (∀ f ∈ (ofIndexes (.ofListing candidate) (.ofListing candidate)).files, f.exclusive = [])
      ∧ (ofIndexes (.ofListing candidate) (.ofListing candidate)).exclusiveKeys = 0 := by
  have howned : ∀ text key, (DefinitionIndex.ofListing text).contains key
      ↔ (DefinitionIndex.ofListing text).lookup key ≠ [] :=
    fun _ _ => DefinitionIndex.contains_ofDefinitions
  have hself : ∀ f ∈ (ofIndexes (.ofListing candidate) (.ofListing candidate)).files,
      f.exclusive = [] :=
    fun _ hf => (divides_ofListing candidate candidate).exclusive_eq_nil (howned candidate) hf
  refine ⟨divides_ofListing reference candidate, ?_, hself, ?_⟩
  . intro e
    rw [(divides_ofListing reference candidate).mem_allMatched (howned candidate),
      (divides_ofListing candidate reference).mem_allMatched (howned reference)]
    obtain ⟨key, side, candidateOwners, referenceOwners⟩ := e
    simp only [CrossEntry.exchanged, CrossEntry.mk.injEq, true_and]
    tauto
  . rw [(divides_ofListing candidate candidate).exclusiveKeys, List.sum_eq_zero_iff_forall_eq_nat]
    intro n hn
    obtain ⟨f, hf, rfl⟩ := List.mem_map.mp hn
    rw [hself f hf]
    rfl

end CrossReference
end Graft
