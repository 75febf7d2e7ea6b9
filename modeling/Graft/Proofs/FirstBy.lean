import Graft.Distinct
import Mathlib.Data.Finset.Card
import Mathlib.Data.List.Induction

/-!
This module contains the entries of a list that are the first ones with their key, in the order of
the list.
-/

namespace Graft

variable {α β : Type}

section

variable [DecidableEq β]

/--
The entries with a key that no earlier entry has.
-/
def firstBy (key : α → β) (as : List α) : List α :=
  (as.zipIdx.filter fun (a, i) => key a ∉ (as.take i).map key).map (·.1)

@[simp]
theorem firstBy_nil (key : α → β) : firstBy key [] = [] := rfl

theorem firstBy_concat (key : α → β) (as : List α) (a : α) :
    firstBy key (as ++ [a]) = firstBy key as ++ if key a ∈ as.map key then [] else [a] := by
  unfold firstBy
  rw [List.zipIdx_append, List.filter_append, List.map_append]
  congr 1
  . -- The entries in front of an earlier one are still the same.
    congr 1
    apply List.filter_congr
    rintro ⟨b, i⟩ hmem
    have hi : i < 0 + as.length := List.snd_lt_add_of_mem_zipIdx hmem
    dsimp only
    rw [List.take_append_of_le_length (by omega)]
  . by_cases h : key a ∈ as.map key
    . simp_all
    . simp_all

theorem mem_map_firstBy {key : α → β} {as : List α} {k : β} :
    k ∈ (firstBy key as).map key ↔ k ∈ as.map key := by
  induction as using List.reverseRecOn with
  | nil => simp
  | append_singleton as a ih =>
    rw [firstBy_concat, List.map_append, List.mem_append, ih, List.map_append, List.mem_append]
    split
    . next h =>
      simp only [List.map_nil, List.not_mem_nil, or_false, List.map_singleton, List.mem_singleton,
        iff_self_or]
      rintro rfl
      exact h
    . rfl

theorem nodup_map_firstBy (key : α → β) (as : List α) : ((firstBy key as).map key).Nodup := by
  induction as using List.reverseRecOn with
  | nil => simp
  | append_singleton as a ih =>
    rw [firstBy_concat]
    split
    . rw [List.append_nil]
      exact ih
    . next h =>
      rw [List.map_append, List.map_singleton, List.nodup_append]
      refine ⟨ih, by simp, ?_⟩
      rintro k hk k' hk' rfl
      rw [mem_map_firstBy] at hk
      rw [List.mem_singleton] at hk'
      subst hk'
      exact h hk

theorem firstBy_sublist (key : α → β) (as : List α) : (firstBy key as).Sublist as := by
  induction as using List.reverseRecOn with
  | nil => simp
  | append_singleton as a ih =>
    rw [firstBy_concat]
    split
    . rw [List.append_nil]
      apply ih.trans (List.sublist_append_left _ _)
    . apply ih.append_right

theorem newBy_cons_of_mem {key : α → β} {seen : List β} {a : α} (h : key a ∈ seen) (as : List α) :
    newBy key seen (a :: as) = newBy key seen as :=
  if_pos h

theorem newBy_cons_of_not_mem {key : α → β} {seen : List β} {a : α} (h : key a ∉ seen)
    (as : List α) :
    newBy key seen (a :: as) = a :: newBy key (key a :: seen) as :=
  if_neg h

theorem newBy_congr {key : α → β} {seen seen' : List β} (h : ∀ k, k ∈ seen ↔ k ∈ seen')
    (as : List α) :
    newBy key seen as = newBy key seen' as := by
  induction as generalizing seen seen' with
  | nil => rfl
  | cons a as ih =>
    unfold newBy
    by_cases hmem : key a ∈ seen
    . rw [if_pos hmem, if_pos ((h _).mp hmem)]
      apply ih h
    . rw [if_neg hmem, if_neg (mt (h _).mpr hmem)]
      congr 1
      apply ih
      simp [h]

theorem firstBy_append (key : α → β) (as bs : List α) :
    firstBy key (as ++ bs) = firstBy key as ++ newBy key (as.map key) bs := by
  induction bs generalizing as with
  | nil => simp [newBy]
  | cons b bs ih =>
    rw [List.append_cons, ih, firstBy_concat, newBy]
    -- What is seen behind `b` is the same on both sides, in another order.
    have hseen : newBy key ((as ++ [b]).map key) bs = newBy key (key b :: as.map key) bs := by
      apply newBy_congr
      intro k
      simp [or_comm]
    rw [hseen]
    split
    . next hmem =>
      rw [List.append_nil]
      congr 1
      apply newBy_congr
      intro k
      rw [List.mem_cons, or_iff_right_iff_imp]
      rintro rfl
      exact hmem
    . rw [List.append_assoc, List.singleton_append]

theorem newBy_nil_left (key : α → β) (as : List α) : newBy key [] as = firstBy key as :=
  (firstBy_append key [] as).symm

theorem newBy_map {γ : Type} (key : α → β) (f : γ → α) (seen : List β) (cs : List γ) :
    newBy key seen (cs.map f) = (newBy (fun c => key (f c)) seen cs).map f := by
  induction cs generalizing seen with
  | nil => rfl
  | cons c cs ih =>
    simp only [List.map_cons, newBy, ih]
    split <;> rfl

theorem mem_map_newBy {key : α → β} {seen : List β} {as : List α} {k : β} :
    k ∈ (newBy key seen as).map key ↔ k ∈ as.map key ∧ k ∉ seen := by
  induction as generalizing seen with
  | nil => simp [newBy]
  | cons a as ih =>
    unfold newBy
    split
    . next hseen =>
      rw [ih, List.map_cons, List.mem_cons]
      constructor
      . intro h
        exact ⟨Or.inr h.1, h.2⟩
      . rintro ⟨rfl | hrest, hnew⟩
        . contradiction
        . exact ⟨hrest, hnew⟩
    . next hnew =>
      rw [List.map_cons, List.mem_cons, ih, List.map_cons, List.mem_cons, List.mem_cons]
      by_cases hkey : k = key a
      . simp [hkey, hnew]
      . simp [hkey]

theorem nodup_map_newBy (key : α → β) (seen : List β) (as : List α) :
    ((newBy key seen as).map key).Nodup := by
  induction as generalizing seen with
  | nil => simp [newBy]
  | cons a as ih =>
    unfold newBy
    split
    . apply ih
    . rw [List.map_cons, List.nodup_cons, mem_map_newBy]
      refine ⟨?_, ih _⟩
      simp

theorem newBy_subset (key : α → β) (seen : List β) (as : List α) : newBy key seen as ⊆ as := by
  induction as generalizing seen with
  | nil => exact List.nil_subset _
  | cons a as ih =>
    unfold newBy
    split
    . exact List.subset_cons_of_subset _ (ih _)
    . exact List.cons_subset_cons _ (ih _)

theorem newBy_eq_nil_iff {key : α → β} {seen : List β} {as : List α} :
    newBy key seen as = [] ↔ ∀ a ∈ as, key a ∈ seen := by
  constructor
  . intro h a ha
    by_contra hnew
    have := mem_map_newBy.mpr ⟨List.mem_map_of_mem ha, hnew⟩
    rw [h] at this
    contradiction
  . intro h
    rw [← List.map_eq_nil_iff (f := key), List.eq_nil_iff_forall_not_mem]
    intro k hk
    obtain ⟨hmem, hnew⟩ := mem_map_newBy.mp hk
    obtain ⟨a, ha, rfl⟩ := List.mem_map.mp hmem
    exact hnew (h a ha)

end

section

variable [DecidableEq α]

@[simp]
theorem mem_firstBy_id {as : List α} {a : α} : a ∈ firstBy id as ↔ a ∈ as := by
  have := @mem_map_firstBy α α _ id as a
  simpa using this

theorem nodup_firstBy_id (as : List α) : (firstBy id as).Nodup := by
  have := nodup_map_firstBy id as
  simpa using this

theorem firstBy_id_concat (as : List α) (a : α) :
    firstBy id (as ++ [a]) = if a ∈ as then firstBy id as else firstBy id as ++ [a] := by
  rw [firstBy_concat]
  split <;> simp_all

theorem firstBy_id_perm {as bs : List α} (h : as.Perm bs) :
    (firstBy id as).Perm (firstBy id bs) := by
  rw [List.perm_ext_iff_of_nodup (nodup_firstBy_id _) (nodup_firstBy_id _)]
  intro a
  rw [mem_firstBy_id, mem_firstBy_id, h.mem_iff]

theorem length_firstBy_id (as : List α) : (firstBy id as).length = as.toFinset.card := by
  rw [← List.toFinset_card_of_nodup (nodup_firstBy_id as)]
  congr 1
  ext a
  rw [List.mem_toFinset, List.mem_toFinset, mem_firstBy_id]

theorem firstBy_id_eq_self {as : List α} (h : as.Nodup) : firstBy id as = as := by
  induction as using List.reverseRecOn with
  | nil => rfl
  | append_singleton as a ih =>
    rw [List.nodup_append] at h
    have hnew : a ∉ as := by
      intro hmem
      exact h.2.2 a hmem a (by simp) rfl
    rw [firstBy_id_concat, if_neg hnew, ih h.1]

/--
Repetitions right behind an entry are left out.
-/
theorem firstBy_id_append_replicate (as : List α) (a : α) (n : Nat) :
    firstBy id (as ++ List.replicate (n + 1) a) = firstBy id (as ++ [a]) := by
  induction n with
  | zero => rfl
  | succ n ih =>
    rw [List.replicate_succ', ← List.append_assoc, firstBy_id_concat, if_pos, ih]
    simp

theorem firstBy_id_flatMap_const {f : α → List β} {as : List α} (h : ∀ a ∈ as, f a ≠ []) :
    firstBy id (as.flatMap fun a => (f a).map fun _ => a) = firstBy id as := by
  induction as using List.reverseRecOn with
  | nil => rfl
  | append_singleton as a ih =>
    have hmem : a ∈ (as.flatMap fun a => (f a).map fun _ => a) ↔ a ∈ as := by
      simp only [List.mem_flatMap, List.mem_map]
      constructor
      . rintro ⟨a', ha', _, _, rfl⟩
        exact ha'
      . intro ha
        obtain ⟨b, hb⟩ := List.exists_mem_of_ne_nil _ (h a (by simp [ha]))
        exact ⟨a, ha, b, hb, rfl⟩
    obtain ⟨n, hlength⟩ := Nat.exists_eq_add_one.mpr (List.length_pos_iff.mpr (h a (by simp)))
    rw [List.flatMap_append, List.flatMap_singleton, List.map_const', hlength,
      firstBy_id_append_replicate, firstBy_id_concat, firstBy_id_concat]
    simp only [hmem]
    rw [ih fun a' ha' => h a' (by simp [ha'])]

theorem distinct_concat (as : List α) (a : α) :
    distinct (as ++ [a]) = if a ∈ as then distinct as else distinct as ++ [a] := by
  induction as with
  | nil => simp [distinct]
  | cons b as ih =>
    simp only [List.cons_append, distinct, ih, List.mem_cons]
    by_cases hb : a = b
    . subst hb
      split <;> simp
    . by_cases ha : a ∈ as <;> simp [ha, hb]

theorem distinct_eq_firstBy (as : List α) : distinct as = firstBy id as := by
  induction as using List.reverseRecOn with
  | nil => rfl
  | append_singleton as a ih => rw [distinct_concat, firstBy_id_concat, ih]

end

theorem filterMap_firstBy [DecidableEq α] [DecidableEq β] {f : α → Option β}
    (hinj : ∀ a a' b, f a = some b → f a' = some b → a = a') (as : List α) :
    (firstBy id as).filterMap f = firstBy id (as.filterMap f) := by
  induction as using List.reverseRecOn with
  | nil => rfl
  | append_singleton as a ih =>
    rw [firstBy_id_concat, List.filterMap_append]
    cases hf : f a with
    | none =>
      have hlast : [a].filterMap f = [] := by simp [hf]
      rw [hlast, List.append_nil, ← ih]
      split <;> simp [hf]
    | some b =>
      have hlast : [a].filterMap f = [b] := by simp [hf]
      have hmem : b ∈ as.filterMap f ↔ a ∈ as := by
        rw [List.mem_filterMap]
        constructor
        . rintro ⟨a', ha', hb⟩
          rw [hinj a a' b hf hb]
          exact ha'
        . intro ha
          exact ⟨a, ha, hf⟩
      rw [hlast, firstBy_id_concat, ← ih]
      simp only [hmem]
      split <;> simp [hf]

end Graft
