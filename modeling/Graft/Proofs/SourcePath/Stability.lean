import Graft.Proofs.CrossReference
import Graft.Proofs.SourcePath.Identity
import Mathlib.Tactic.TFAE

/-!
This module contains which paths have a normal form that is its own normal form. An index finds the
keys of a file again, and a comparison lists them, exactly if the file was entered under such a path.
-/

namespace Graft
namespace SourcePath

/--
What a normal form keeps of a path has no white space at its ends: a relative path does not keep a
first name that begins with it, nor any path a last name that ends with it.
-/
structure IsTight (path : String) : Prop where
  first : (slashed path).head? ≠ some '/' →
    ∀ name ∈ (namedPieces (slashed path)).head?, ∀ c ∈ name.head?, Text.isBlank c = false
  last : ∀ name ∈ (namedPieces (slashed path)).getLast?, ∀ c ∈ name.getLast?, Text.isBlank c = false

theorem normalize_sublist (path : String) : (normalize path).toList.Sublist (slashed path) := by
  rw [toList_normalize]
  unfold ofParts isAbsolute namedPieces
  generalize slashed path = text
  by_cases hroot : text.head? = some '/'
  . obtain ⟨rest, rfl⟩ := List.head?_eq_some_iff.mp hroot
    rw [splitOn_cons_self, List.filter_cons_of_neg (by simp)]
    have hrest := intercalate_sublist '/'
      (List.filter_sublist (p := fun piece => decide (piece ≠ [] ∧ piece ≠ ['.']))
        (l := rest.splitOn '/'))
    rw [List.intercalate_splitOn] at hrest
    exact hrest.cons_cons '/'
  . have htext := intercalate_sublist '/'
      (List.filter_sublist (p := fun piece => decide (piece ≠ [] ∧ piece ≠ ['.']))
        (l := text.splitOn '/'))
    rw [List.intercalate_splitOn] at htext
    simpa [hroot] using htext

theorem trim_eq_of_normalize_eq {path : String} (h : normalize path = path) :
    Text.trim path.toList = path.toList := by
  apply (Text.trim_sublist path.toList).eq_of_length
  have hlength := (normalize_sublist path).length_le
  unfold slashed at hlength
  rw [h, List.length_map] at hlength
  exact Nat.le_antisymm (Text.trim_sublist path.toList).length_le hlength

section OfParts

variable {ps : List (List Char)} (h : ∀ part ∈ ps, IsPart part)

include h

theorem head?_ofParts (absolute : Bool) :
    (ofParts absolute ps).head? = if absolute then some '/' else ps.head?.bind List.head? := by
  unfold ofParts
  cases absolute with
  | true => rfl
  | false =>
    cases ps with
    | nil => rfl
    | cons part rest => exact head?_intercalate '/' (h part List.mem_cons_self).nonempty rest

theorem getLast?_ofParts (absolute : Bool) :
    (ofParts absolute ps).getLast?
      =
    if ps = [] then (if absolute then some '/' else none) else ps.getLast?.bind List.getLast? := by
  unfold ofParts
  cases ps using List.reverseRecOn with
  | nil => cases absolute <;> rfl
  | append_singleton front part =>
    have hlast := getLast?_intercalate '/' (h part (by simp)).nonempty front
    have hne : ['/'].intercalate (front ++ [part]) ≠ [] := by
      intro hnil
      rw [hnil, List.getLast?_nil] at hlast
      exact (h part (by simp)).nonempty (List.getLast?_eq_none_iff.mp hlast.symm)
    rw [List.getLast?_append_of_ne_nil _ hne, hlast]
    simp

end OfParts

theorem isBare_normalize_iff {path : String} :
    Text.IsBare Text.isBlank (normalize path).toList ↔ IsTight path := by
  have hparts : ∀ part ∈ namedPieces (slashed path), IsPart part :=
    fun _ => isPart_of_mem_namedPieces
  have hbare : ∀ char? : Option Char,
      char?.all (!Text.isBlank ·) = true ↔ ∀ c ∈ char?, Text.isBlank c = false := by
    intro char?
    cases char? <;> simp
  have habsolute : isAbsolute (slashed path) = true ↔ (slashed path).head? = some '/' := by
    unfold isAbsolute
    rw [beq_iff_eq]
  have hslash : Text.isBlank '/' = false := by decide
  unfold Text.IsBare
  rw [toList_normalize, head?_ofParts hparts, getLast?_ofParts hparts, hbare, hbare]
  constructor
  . rintro ⟨hfirst, hlast⟩
    constructor
    . intro hrelative name hname c hc
      rw [if_neg (mt habsolute.mp hrelative)] at hfirst
      exact hfirst c (Option.mem_bind_iff.mpr ⟨name, hname, hc⟩)
    . intro name hname c hc
      have hne : namedPieces (slashed path) ≠ [] := List.ne_nil_of_mem (List.mem_of_getLast? hname)
      rw [if_neg hne] at hlast
      exact hlast c (Option.mem_bind_iff.mpr ⟨name, hname, hc⟩)
  . rintro ⟨hfirst, hlast⟩
    constructor
    . intro c hc
      split at hc
      . cases hc
        exact hslash
      . next hrelative =>
        obtain ⟨name, hname, hc⟩ := Option.mem_bind_iff.mp hc
        exact hfirst (mt habsolute.mpr hrelative) name hname c hc
    . intro c hc
      split at hc
      . split at hc
        . cases hc
          exact hslash
        . contradiction
      . obtain ⟨name, hname, hc⟩ := Option.mem_bind_iff.mp hc
        exact hlast name hname c hc

/--
Exactly the tight paths have a normal form that stays as it is.
-/
theorem normalize_normalize_iff {path : String} :
    normalize (normalize path) = normalize path ↔ IsTight path := by
  rw [← isBare_normalize_iff]
  constructor
  . intro h
    exact Text.isBare_of_trim_eq_self (trim_eq_of_normalize_eq h)
  . intro h
    exact normalize_normalize (Text.trim_of_isBare h)

end SourcePath

namespace DefinitionIndex

variable {path : String}

/--
An index finds all keys that were entered for a path under its normal form.
-/
def Finds (path : String) : Prop :=
  ∀ ds : List Definition, (∃ d ∈ ds, d.owningFile = path) →
    (ofDefinitions ds).declaredBy (SourcePath.normalize path) ≠ []
      ∧ (ofDefinitions ds).declaredBy (SourcePath.normalize path)
        = keysIn ds (SourcePath.normalize path)

def single (path : String) : DefinitionIndex :=
  ofDefinitions [⟨.macroName, "A", path⟩]

theorem mem_keysIn {ds : List Definition} {d : Definition} (hd : d ∈ ds) :
    d.key ∈ keysIn ds (SourcePath.normalize d.owningFile) := by
  unfold keysIn
  exact List.mem_map_of_mem (List.mem_filter.mpr ⟨hd, decide_eq_true rfl⟩)

theorem declaredBy_single_of_ne
    (h : SourcePath.normalize (SourcePath.normalize path) ≠ SourcePath.normalize path) :
    (single path).declaredBy (SourcePath.normalize path) = [] := by
  unfold single
  rw [declaredBy_ofDefinitions]
  simp [keysIn, Definition.entry, Ne.symm h]

theorem finds_iff :
    Finds path ↔ SourcePath.normalize (SourcePath.normalize path) = SourcePath.normalize path := by
  constructor
  . intro hfinds
    by_contra hne
    exact (hfinds _ ⟨_, List.mem_singleton_self _, rfl⟩).1 (declaredBy_single_of_ne hne)
  . rintro hstable ds ⟨d, hd, rfl⟩
    rw [declaredBy_ofDefinitions, hstable]
    exact ⟨List.ne_nil_of_mem (mem_keysIn hd), rfl⟩

end DefinitionIndex

namespace CrossReference

variable {path : String}

/--
Whatever the reference index is, a comparison lists all keys that were entered for a path in the
candidate index under its normal form.
-/
def Lists (path : String) : Prop :=
  ∀ (reference : DefinitionIndex) (ds : List Definition), (∃ d ∈ ds, d.owningFile = path) →
    ∃ f ∈ (ofIndexes reference (.ofDefinitions ds)).files, f.file.path = SourcePath.normalize path
      ∧ ∀ key, key ∈ DefinitionIndex.keysIn ds (SourcePath.normalize path)
        ↔ ∃ e ∈ f.matched ++ f.exclusive, e.key = key

theorem lists_iff :
    Lists path ↔ SourcePath.normalize (SourcePath.normalize path) = SourcePath.normalize path := by
  constructor
  . intro hlists
    -- The one file of this index is shown under the normal form of its normal form.
    obtain ⟨f, hf, hpath, _⟩ :=
      hlists .empty [⟨.macroName, "A", path⟩] ⟨_, List.mem_singleton_self _, rfl⟩
    obtain ⟨file, hfile, rfl⟩ := mem_files_ofIndexes.mp hf
    rw [DefinitionIndex.files_ofDefinitions, mem_firstBy_id, List.map_singleton,
      List.mem_singleton] at hfile
    subst hfile
    exact (path_sourceFile _ _ _).symm.trans hpath
  . rintro hstable reference ds ⟨d, hd, rfl⟩
    have hfile : SourcePath.normalize d.owningFile ∈ (DefinitionIndex.ofDefinitions ds).files := by
      rw [DefinitionIndex.files_ofDefinitions, mem_firstBy_id]
      exact List.mem_map_of_mem (f := fun d => d.entry.1) hd
    refine ⟨_, mem_files_ofIndexes.mpr ⟨_, hfile, rfl⟩, ?_, ?_⟩
    . exact (path_sourceFile _ _ _).trans hstable
    . intro key
      rw [mem_keys_fileEntries, DefinitionIndex.declaredBy_ofDefinitions, hstable]

end CrossReference

namespace SourcePath

/--
The tight paths are those with a stable normal form, and just these can be relied on in an index:
elsewhere a file has no keys under the very name that the index gives it.
-/
theorem stable_tfae (path : String) :
    [normalize (normalize path) = normalize path, IsTight path, DefinitionIndex.Finds path,
      CrossReference.Lists path].TFAE := by
  tfae_have 1 ↔ 2 := normalize_normalize_iff
  tfae_have 3 ↔ 1 := DefinitionIndex.finds_iff
  tfae_have 4 ↔ 1 := CrossReference.lists_iff
  tfae_finish

/--
A first name that begins with white space behind `./`: the index loses the keys of the file.
-/
theorem not_stable_space :
    normalize (normalize "./ a") ≠ normalize "./ a"
      ∧ (DefinitionIndex.single "./ a").files = [" a"]
      ∧ (DefinitionIndex.single "./ a").declaredBy " a" = []
      ∧ (CrossReference.ofIndexes .empty (.single "./ a")).files.map
          (fun f => f.matched ++ f.exclusive)
        = [[]] := by
  decide +kernel

end SourcePath
end Graft
