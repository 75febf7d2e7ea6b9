import Mathlib.Data.List.Basic

/-!
This module contains the pieces of a list between separators: how they change when something is
added to the list, and which entries they have.
-/

namespace Graft

variable {α : Type} {sep : α}

theorem mem_intercalate_of_ne {a : α} (ha : a ≠ sep) {pieces : List (List α)} :
    a ∈ [sep].intercalate pieces ↔ ∃ piece ∈ pieces, a ∈ piece := by
  induction pieces with
  | nil => simp
  | cons piece pieces ih =>
    cases pieces with
    | nil => simp
    | cons piece' pieces =>
      rw [List.intercalate_cons_cons, List.mem_append, List.mem_append, ih, List.mem_singleton]
      simp [ha]

theorem head?_intercalate (sep : α) {piece : List α} (hne : piece ≠ []) (pieces : List (List α)) :
    ([sep].intercalate (piece :: pieces)).head? = piece.head? := by
  cases pieces with
  | nil => rw [List.intercalate_singleton]
  | cons piece' pieces =>
    rw [List.intercalate_cons_cons, List.append_assoc, List.head?_append_of_ne_nil _ hne]

theorem getLast?_intercalate (sep : α) {piece : List α} (hne : piece ≠ []) (pieces : List (List α)) :
    ([sep].intercalate (pieces ++ [piece])).getLast? = piece.getLast? := by
  induction pieces with
  | nil => rw [List.nil_append, List.intercalate_singleton]
  | cons piece' pieces ih =>
    have hjoin : [sep].intercalate (piece' :: (pieces ++ [piece]))
        = piece' ++ [sep] ++ [sep].intercalate (pieces ++ [piece]) := by
      cases pieces <;> exact List.intercalate_cons_cons
    have hlast : [sep].intercalate (pieces ++ [piece]) ≠ [] := by
      intro hnil
      rw [hnil, List.getLast?_nil] at ih
      exact hne (List.getLast?_eq_none_iff.mp ih.symm)
    rw [List.cons_append, hjoin, List.getLast?_append_of_ne_nil _ hlast, ih]

theorem intercalate_sublist (sep : α) {ps qs : List (List α)} (h : ps.Sublist qs) :
    ([sep].intercalate ps).Sublist ([sep].intercalate qs) := by
  induction h with
  | slnil => exact List.Sublist.refl _
  | @cons ps qs q h ih =>
    cases qs with
    | nil =>
      rw [List.sublist_nil.mp h]
      simp
    | cons q' qs =>
      rw [List.intercalate_cons_cons]
      exact ih.trans (List.sublist_append_right _ _)
  | @cons_cons ps qs q h ih =>
    cases qs with
    | nil =>
      rw [List.sublist_nil.mp h]
    | cons q' qs =>
      rw [List.intercalate_cons_cons]
      cases ps with
      | nil =>
        rw [List.intercalate_singleton, List.append_assoc]
        exact List.sublist_append_left _ _
      | cons p ps =>
        rw [List.intercalate_cons_cons]
        exact ih.append_left _

variable [BEq α] [LawfulBEq α]

theorem splitOn_cons_self (sep : α) (as : List α) :
    (sep :: as).splitOn sep = [] :: as.splitOn sep := by
  rw [List.splitOn_cons_eq_if_modifyHead]
  simp

theorem exists_splitOn_cons {a : α} (ha : a ≠ sep) (as : List α) :
    ∃ first rest, as.splitOn sep = first :: rest
      ∧ (a :: as).splitOn sep = (a :: first) :: rest := by
  obtain ⟨first, rest, h⟩ := List.exists_cons_of_ne_nil (List.splitOn_ne_nil sep as)
  refine ⟨first, rest, h, ?_⟩
  rw [List.splitOn_cons_eq_if_modifyHead, h]
  simp [ha]

theorem not_mem_of_mem_splitOn {as piece : List α} (h : piece ∈ as.splitOn sep) :
    sep ∉ piece := by
  induction as generalizing piece with
  | nil => simp_all
  | cons a as ih =>
    by_cases ha : a = sep
    . subst ha
      rw [splitOn_cons_self] at h
      cases h with
      | head => simp
      | tail _ h => exact ih h
    . obtain ⟨first, rest, has, hsplit⟩ := exists_splitOn_cons ha as
      rw [hsplit] at h
      rw [has] at ih
      cases h with
      | head =>
        have := ih (List.mem_cons_self)
        simp [this, Ne.symm ha]
      | tail _ h => exact ih (List.mem_cons_of_mem _ h)

theorem exists_splitOn_append {bs : List α} (hbs : sep ∉ bs) (as : List α) :
    ∃ front last, as.splitOn sep = front ++ [last]
      ∧ (as ++ bs).splitOn sep = front ++ [last ++ bs] := by
  induction as with
  | nil => exact ⟨[], [], rfl, by simp [List.splitOn_eq_singleton hbs]⟩
  | cons a as ih =>
    obtain ⟨front, last, has, hsplit⟩ := ih
    by_cases ha : a = sep
    . subst ha
      refine ⟨[] :: front, last, ?_, ?_⟩
      . rw [splitOn_cons_self, has]
        rfl
      . rw [List.cons_append, splitOn_cons_self, hsplit]
        rfl
    . obtain ⟨first, rest, hfirst, hwhole⟩ := exists_splitOn_cons ha as
      obtain ⟨first', rest', hfirst', hwhole'⟩ := exists_splitOn_cons ha (as ++ bs)
      cases front with
      | nil =>
        refine ⟨[], a :: last, ?_, ?_⟩
        . simp_all
        . rw [List.cons_append, hwhole']
          simp_all
      | cons piece front =>
        refine ⟨(a :: piece) :: front, last, ?_, ?_⟩
        . simp_all
        . rw [List.cons_append, hwhole']
          simp_all

theorem mem_splitOn_of_ne {a : α} (ha : a ≠ sep) {as : List α} :
    (∃ piece ∈ as.splitOn sep, a ∈ piece) ↔ a ∈ as := by
  rw [← mem_intercalate_of_ne ha, List.intercalate_splitOn]

/--
The pieces of a path that name something: all but the empty ones and `.`.
-/
def namedPieces (path : List Char) : List (List Char) :=
  (path.splitOn '/').filter fun piece => piece ≠ [] ∧ piece ≠ ['.']

end Graft
