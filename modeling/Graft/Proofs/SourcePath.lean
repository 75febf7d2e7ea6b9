import Graft.Proofs.Pieces
import Graft.Proofs.Text.Words
import Graft.SourcePath

/-!
This module contains what the normal form of a path depends on and which characters it keeps.
-/

namespace Graft
namespace SourcePath

theorem normalize_eq_of_trim_eq {path path' : String}
    (h : Text.trim path.toList = Text.trim path'.toList) :
    normalize path = normalize path' := by
  unfold normalize unify
  rw [h]

theorem mem_unify_of_isBlank {c : Char} (hc : Text.isBlank c = true) {path : List Char} :
    c ∈ unify path ↔ c ∈ Text.trim path := by
  unfold unify
  rw [List.mem_map]
  constructor
  . rintro ⟨d, hd, rfl⟩
    split at hc
    . contradiction
    . next hslash =>
      rw [if_neg hslash]
      exact hd
  . intro hmem
    refine ⟨c, hmem, ?_⟩
    rw [if_neg]
    rintro hslash
    rw [beq_iff_eq] at hslash
    subst hslash
    contradiction

theorem mem_normalize_of_isBlank {c : Char} (hc : Text.isBlank c = true) {path : String} :
    c ∈ (normalize path).toList ↔ c ∈ Text.trim path.toList := by
  have hslash : c ≠ '/' := by
    rintro rfl
    contradiction
  have hdot : c ≠ '.' := by
    rintro rfl
    contradiction
  unfold normalize ofParts
  rw [← mem_unify_of_isBlank hc, String.toList_ofList, List.mem_append,
    mem_intercalate_of_ne hslash]
  have hroot : c ∉ (if isAbsolute (unify path.toList) then ['/'] else []) := by
    split <;> simp [hslash]
  simp only [hroot, false_or]
  rw [← mem_splitOn_of_ne hslash]
  unfold parts
  constructor
  . rintro ⟨part, hpart, hmem⟩
    exact ⟨part, (List.mem_filter.mp hpart).1, hmem⟩
  . rintro ⟨part, hpart, hmem⟩
    refine ⟨part, List.mem_filter.mpr ⟨hpart, ?_⟩, hmem⟩
    rw [Bool.and_eq_true, Bool.not_eq_true', List.isEmpty_eq_false_iff, bne_iff_ne]
    constructor
    . rintro rfl
      simp at hmem
    . rintro rfl
      simp [hdot] at hmem

theorem isWord_normalize {path : String} (h : Text.IsWord path.toList) (hne : normalize path ≠ "") :
    Text.IsWord (normalize path).toList := by
  refine ⟨by simpa using hne, ?_⟩
  intro c hc
  by_contra hblank
  rw [Bool.not_eq_false] at hblank
  rw [mem_normalize_of_isBlank hblank,
    Text.trim_of_words_eq_singleton (Text.words_of_isWord h)] at hc
  have := h.2 c hc
  simp [hblank] at this

theorem length_words_le_one_of_normalize_eq {path path' : String}
    (h : normalize path = normalize path') (hword : Text.IsWord path'.toList) :
    (Text.words path.toList).length ≤ 1 := by
  apply Text.length_words_le_one
  intro c hc
  by_contra hblank
  rw [Bool.not_eq_false] at hblank
  rw [← mem_normalize_of_isBlank hblank, h, mem_normalize_of_isBlank hblank,
    Text.trim_of_words_eq_singleton (Text.words_of_isWord hword)] at hc
  have := hword.2 c hc
  simp [hblank] at this

structure IsPart (part : List Char) : Prop where
  nonempty : part ≠ []
  dot : part ≠ ['.']
  slash : '/' ∉ part
  backslash : '\\' ∉ part

theorem isPart_of_mem_parts {path part : List Char} (h : part ∈ parts (unify path)) :
    IsPart part := by
  obtain ⟨hsplit, hkept⟩ := List.mem_filter.mp h
  rw [Bool.and_eq_true, Bool.not_eq_true', List.isEmpty_eq_false_iff, bne_iff_ne] at hkept
  refine ⟨hkept.1, hkept.2, not_mem_of_mem_splitOn hsplit, ?_⟩
  intro hmem
  have hunified : '\\' ∈ unify path := (mem_splitOn_of_ne (by decide)).mp ⟨part, hsplit, hmem⟩
  obtain ⟨c, _, hc⟩ := List.mem_map.mp hunified
  split at hc
  . contradiction
  . next hne =>
    rw [hc] at hne
    contradiction

section OfParts

variable {ps : List (List Char)} (h : ∀ part ∈ ps, IsPart part) (absolute : Bool)

include h

theorem parts_ofParts : parts (ofParts absolute ps) = ps := by
  have hsplit : (((['/'].intercalate ps).splitOn '/').filter
      fun part => !part.isEmpty && part != ['.']) = ps := by
    cases ps with
    | nil => rfl
    | cons part rest =>
      rw [List.splitOn_intercalate _ (fun part hpart => (h part hpart).slash) (by simp),
        List.filter_eq_self]
      intro part hpart
      simp [(h part hpart).nonempty, (h part hpart).dot]
  unfold parts ofParts
  cases absolute with
  | false => exact hsplit
  | true =>
    simp only [↓reduceIte, List.cons_append, List.nil_append]
    rw [splitOn_cons_self, List.filter_cons_of_neg (by simp), hsplit]

theorem isAbsolute_ofParts : isAbsolute (ofParts absolute ps) = absolute := by
  unfold isAbsolute ofParts
  cases absolute with
  | true => rfl
  | false =>
    cases ps with
    | nil => rfl
    | cons part rest =>
      have hpart := h part (by simp)
      obtain ⟨c, cs, rfl⟩ := List.exists_cons_of_ne_nil hpart.nonempty
      have hc : c ≠ '/' := by
        rintro rfl
        exact hpart.slash List.mem_cons_self
      cases rest <;> simp [hc]

theorem not_mem_ofParts : '\\' ∉ ofParts absolute ps := by
  unfold ofParts
  rw [List.mem_append, mem_intercalate_of_ne (by decide)]
  rintro (hroot | ⟨part, hpart, hmem⟩)
  . cases absolute <;> simp at hroot
  . exact (h part hpart).backslash hmem

end OfParts

theorem normalize_normalize {path : String}
    (h : Text.trim (normalize path).toList = (normalize path).toList) :
    normalize (normalize path) = normalize path := by
  have hparts : ∀ part ∈ parts (unify path.toList), IsPart part :=
    fun _ hpart => isPart_of_mem_parts hpart
  generalize htext : (normalize path).toList = text at h
  have hofParts : text = ofParts (isAbsolute (unify path.toList)) (parts (unify path.toList)) := by
    rw [← htext]
    exact String.toList_ofList
  have hunify : unify text = text := by
    unfold unify
    rw [h]
    apply Eq.trans _ (List.map_id text)
    apply List.map_congr_left
    intro c hc
    rw [if_neg, id]
    intro hslash
    rw [beq_iff_eq] at hslash
    rw [hslash, hofParts] at hc
    exact not_mem_ofParts hparts _ hc
  have hnormal : normalize (normalize path)
      = .ofList (ofParts (isAbsolute (unify (normalize path).toList))
          (parts (unify (normalize path).toList))) := rfl
  rw [hnormal, htext, hunify, hofParts, isAbsolute_ofParts hparts, parts_ofParts hparts,
    ← hofParts, ← htext, String.ofList_toList]

theorem normalize_normalize_of_isWord {path : String} (h : Text.IsWord path.toList) :
    normalize (normalize path) = normalize path := by
  apply normalize_normalize
  by_cases hempty : normalize path = ""
  . rw [hempty]
    rfl
  . exact Text.trim_of_words_eq_singleton (Text.words_of_isWord (isWord_normalize h hempty))

end SourcePath
end Graft
