import Graft.Proofs.CrossReference
import Graft.Proofs.Resolve.Partition

/-!
This module contains what a symbol table says of the pairs that it was built from, and that a listing
of definitions leads to the same table as the index of these definitions.
-/

namespace Graft

namespace Register

variable {κ α : Type} [DecidableEq κ]

theorem entries_eq_filterMap {r : Register κ α} (h : r.keys.Nodup) :
    r.entries = r.keys.filterMap fun k => (r.get? k).map (k, ·) := by
  unfold keys get? at *
  generalize r.entries = entries at *
  induction entries with
  | nil => rfl
  | cons entry rest ih =>
    obtain ⟨k, a⟩ := entry
    rw [List.map_cons, List.nodup_cons] at h
    have hrest : (rest.map (·.1)).filterMap (fun k' => (get?.go k' ((k, a) :: rest)).map (k', ·))
        = (rest.map (·.1)).filterMap (fun k' => (get?.go k' rest).map (k', ·)) := by
      apply List.filterMap_congr
      intro k' hk'
      have hne : k ≠ k' := by
        rintro rfl
        exact h.1 hk'
      rw [get?.go, if_neg hne]
    rw [List.map_cons, List.filterMap_cons, hrest, ← ih h.2]
    simp [get?.go]

theorem ext_get? {r r' : Register κ α} (hnodup : r.keys.Nodup) (hkeys : r.keys = r'.keys)
    (h : ∀ k, r.get? k = r'.get? k) :
    r = r' := by
  have hentries : r.entries = r'.entries := by
    rw [entries_eq_filterMap hnodup, entries_eq_filterMap (hkeys ▸ hnodup), hkeys]
    simp only [h]
  cases r
  cases r'
  exact congrArg Register.mk hentries

end Register

namespace SymbolTable

theorem insertAll_concat (table : SymbolTable) (inserts : List (String × String))
    (insert : String × String) :
    table.insertAll (inserts ++ [insert]) = (table.insertAll inserts).insert insert.1 insert.2 := by
  unfold insertAll
  rw [List.foldl_append]
  rfl

theorem symbols_insertAll (inserts : List (String × String)) :
    (empty.insertAll inserts).files.keys = firstBy id (inserts.map (·.1)) := by
  induction inserts using List.reverseRecOn with
  | nil => rfl
  | append_singleton inserts insert ih =>
    rw [insertAll_concat, List.map_append, List.map_singleton, firstBy_id_concat, ← ih]
    unfold SymbolTable.insert
    rw [Register.keys_update, ih]
    simp only [mem_firstBy_id]

theorem owners_insertAll (inserts : List (String × String)) (symbol : String) :
    (empty.insertAll inserts).owners symbol
      =
    firstBy id ((inserts.filter (·.1 = symbol)).map fun insert =>
      SourcePath.normalize insert.2) := by
  induction inserts using List.reverseRecOn with
  | nil => rfl
  | append_singleton inserts insert ih =>
    rw [insertAll_concat, owners_insert, List.filter_append, List.map_append]
    by_cases hsymbol : insert.1 = symbol
    . have hlast : ([insert].filter (·.1 = symbol)).map (fun insert =>
          SourcePath.normalize insert.2) = [SourcePath.normalize insert.2] := by
        simp [hsymbol]
      rw [if_pos hsymbol.symm, hlast, firstBy_id_concat, hsymbol, ih]
      unfold addOwner
      simp only [mem_firstBy_id]
    . have hlast : ([insert].filter (·.1 = symbol)).map (fun insert =>
          SourcePath.normalize insert.2) = [] := by
        simp [hsymbol]
      rw [if_neg (Ne.symm hsymbol), hlast, List.append_nil, ih]

theorem ext {table table' : SymbolTable} (hnodup : table.files.keys.Nodup)
    (hsymbols : table.files.keys = table'.files.keys)
    (howners : ∀ symbol, table.owners symbol = table'.owners symbol) :
    table = table' := by
  have hfiles : table.files = table'.files := by
    apply Register.ext_get? hnodup hsymbols
    intro symbol
    have hequal := howners symbol
    unfold owners at hequal
    have hnone := @Register.get?_eq_none_iff _ _ _ table.files symbol
    have hnone' := @Register.get?_eq_none_iff _ _ _ table'.files symbol
    rw [← hsymbols, ← hnone] at hnone'
    cases hget : table.files.get? symbol with
    | none => rw [hnone'.mpr hget]
    | some files =>
      cases hget' : table'.files.get? symbol with
      | none =>
        rw [hnone'.mp hget'] at hget
        contradiction
      | some files' =>
        rw [hget, hget'] at hequal
        exact congrArg some hequal
  cases table
  cases table'
  exact congrArg SymbolTable.mk hfiles

theorem filter_flatMap_pairs {names : List String} (h : names.Nodup) (files : String → List String)
    (name : String) :
    (names.flatMap fun name => (files name).map (name, ·)).filter (·.1 = name)
      =
    if name ∈ names then (files name).map (name, ·) else [] := by
  induction names with
  | nil => rfl
  | cons first rest ih =>
    rw [List.nodup_cons] at h
    rw [List.flatMap_cons, List.filter_append, ih h.2]
    by_cases hname : first = name
    . subst hname
      rw [if_neg h.1, if_pos List.mem_cons_self, List.append_nil, List.filter_eq_self]
      simp
    . have hfirst : ((files first).map (first, ·)).filter (·.1 = name) = [] := by
        simp [hname]
      rw [hfirst, List.nil_append]
      simp [Ne.symm hname]

section Definitions

variable (ds : List Definition)

def ownedFunctions : List (String × String) :=
  (DefinitionIndex.ofDefinitions ds).functions.flatMap fun (name, owners) => owners.map (name, ·)

theorem symbols_ownedFunctions :
    firstBy id ((ownedFunctions ds).map (·.1))
      =
    firstBy id ((DefinitionIndex.functionsIn ds).map (·.1)) := by
  unfold ownedFunctions
  rw [DefinitionIndex.functions_ofDefinitions, List.flatMap_map, List.map_flatMap]
  simp only [List.map_map, Function.comp_def]
  rw [firstBy_id_flatMap_const, firstBy_id_eq_self (nodup_firstBy_id _)]
  intro name hname
  rw [mem_firstBy_id] at hname
  exact DefinitionIndex.mem_functionsIn_iff.mp hname

theorem owners_ownedFunctions (name : String) :
    (ownedFunctions ds).filter (·.1 = name)
      =
    ((DefinitionIndex.ofDefinitions ds).lookup (Definition.keyOf .function name)).map (name, ·) := by
  unfold ownedFunctions
  rw [DefinitionIndex.functions_ofDefinitions, List.flatMap_map,
    filter_flatMap_pairs (nodup_firstBy_id _)
      fun name => (DefinitionIndex.ofDefinitions ds).lookup (Definition.keyOf .function name)]
  simp only [mem_firstBy_id, DefinitionIndex.mem_functionsIn_iff]
  split
  . rfl
  . next hnil =>
    rw [not_not] at hnil
    rw [hnil, List.map_nil]

variable {ds}

theorem ofIndex_ofDefinitions (hstable : ∀ d ∈ ds, SourcePath.normalize d.entry.1 = d.entry.1) :
    ofIndex (.ofDefinitions ds) = empty.insertAll (DefinitionIndex.functionsIn ds) := by
  change empty.insertAll (ownedFunctions ds) = _
  apply ext
  . rw [symbols_insertAll]
    apply nodup_firstBy_id
  . rw [symbols_insertAll, symbols_insertAll, symbols_ownedFunctions]
  . intro name
    have hnormal : ((DefinitionIndex.ofDefinitions ds).lookup (Definition.keyOf .function name)).map
          SourcePath.normalize
        = (DefinitionIndex.ofDefinitions ds).lookup (Definition.keyOf .function name) := by
      apply Eq.trans _ (List.map_id _)
      apply List.map_congr_left
      intro file hfile
      obtain ⟨d, hd, hentry⟩ := DefinitionIndex.mem_lookup_ofDefinitions.mp hfile
      have hfile : d.entry.1 = file := congrArg Prod.fst hentry
      rw [← hfile, id, hstable d hd]
    rw [owners_insertAll, owners_insertAll, owners_ownedFunctions, List.map_map,
      DefinitionIndex.files_functionsIn, ← DefinitionIndex.firstBy_lookup_ofDefinitions]
    change firstBy id (List.map SourcePath.normalize _) = _
    rw [hnormal]

end Definitions

/--
A line of a listing of definitions: it is blank, a comment, or a definition.
-/
def IsDefinitionLine (line : List Char) : Prop :=
  Text.trim line = [] ∨ (Text.trim line).head? = some '#'
    ∨ (Definition.ofTripleChars? line).isSome

instance (line : List Char) : Decidable (IsDefinitionLine line) :=
  inferInstanceAs (Decidable (_ ∨ _ ∨ _))

theorem listedSymbol?_of_isDefinitionLine {line : List Char} (h : IsDefinitionLine line) :
    listedSymbol? line = (Definition.ofTripleChars? line).bind (·.function?) := by
  unfold listedSymbol?
  cases hwords : Text.words line with
  | nil => simp [Definition.ofTripleChars?, hwords]
  | cons file fields =>
    rw [IsDefinitionLine, Text.head?_trim hwords] at h
    rcases h with hblank | hcomment | hdefinition
    . -- A blank line has no word.
      rw [← Text.words_trim, hblank] at hwords
      contradiction
    . unfold Definition.ofTripleChars?
      rw [hwords]
      rcases fields with _ | ⟨symbol, _ | ⟨name, rest⟩⟩ <;> simp [hcomment]
    . obtain ⟨d, hd⟩ := Option.isSome_iff_exists.mp hdefinition
      have hfields := hd
      unfold Definition.ofTripleChars? at hfields
      rw [hwords] at hfields
      split at hfields
      . next hsplit =>
        cases hsplit
        split at hfields
        . contradiction
        . next hcomment =>
          rw [hd]
          dsimp only
          rw [if_neg hcomment]
          rfl
      . contradiction

/--
A listing of definitions leads to one table, read line by line or through the index of what it lists.
-/
theorem ofListing_eq_ofIndex {text : String}
    (h : ∀ line ∈ Text.lines text.toList, IsDefinitionLine line) :
    ofListing text = ofIndex (.ofListing text) := by
  have hlines : (Text.lines text.toList).filterMap listedSymbol?
      = DefinitionIndex.functionsIn (Definition.listed text) := by
    unfold DefinitionIndex.functionsIn Definition.listed
    rw [List.filterMap_filterMap]
    apply List.filterMap_congr
    intro line hline
    exact listedSymbol?_of_isDefinitionLine (h line hline)
  unfold ofListing
  rw [hlines]
  exact (ofIndex_ofDefinitions (CrossReference.stable_listed text)).symm

def socketListing : String :=
  "#\n\n./s.c funcdef bind\nu.c FUNC bind\r\n s.c func bind int\nh struct bind\n"

theorem ofListing_eq_ofIndex_socket :
    (∀ line ∈ Text.lines socketListing.toList, IsDefinitionLine line)
      ∧ ofListing socketListing = ofIndex (.ofListing socketListing)
      ∧ (ofListing socketListing).owners "bind" = ["s.c", "u.c"] := by
  have hlines : ∀ line ∈ Text.lines socketListing.toList, IsDefinitionLine line := by
    decide +kernel
  exact ⟨hlines, ofListing_eq_ofIndex hlines, by decide +kernel⟩

end SymbolTable
end Graft
