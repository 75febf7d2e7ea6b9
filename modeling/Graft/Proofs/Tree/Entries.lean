import Graft.Proofs.Tree.Connected
import Mathlib.Data.List.Nodup
import Mathlib.Data.List.Perm.Subperm

/-!
This module contains trees by their entries. What stands at a place does not depend on the order in
which the tree holds its entries, and neither does where a path leads.
-/

namespace Graft
namespace Register

variable {κ α : Type} [DecidableEq κ]

theorem get?_eq_some_iff {r : Register κ α} (h : r.keys.Nodup) {k : κ} {a : α} :
    r.get? k = some a ↔ (k, a) ∈ r.entries := by
  obtain ⟨entries⟩ := r
  unfold keys at h
  unfold get?
  dsimp only at h ⊢
  induction entries with
  | nil => simp [get?.go]
  | cons e rest ih =>
    rw [List.map_cons, List.nodup_cons] at h
    unfold get?.go
    by_cases hk : e.1 = k
    . have hrest : (k, a) ∉ rest := by
        intro hmem
        rw [hk] at h
        exact h.1 (List.mem_map_of_mem hmem)
      rw [if_pos hk, List.mem_cons, or_iff_left hrest, ← hk, Option.some_inj, eq_comm]
      exact ⟨fun ha => by rw [ha], fun he => (Prod.ext_iff.mp he).2⟩
    . have hne : (k, a) ≠ e := by
        rintro rfl
        exact hk rfl
      rw [if_neg hk, ih h.2, List.mem_cons, or_iff_right hne]

end Register

namespace Tree

structure IsProper (t : Tree) : Prop where
  nodup : t.entries.keys.Nodup
  connected : t.IsConnected

structure SameEntries (t t' : Tree) : Prop where
  nodup : t.entries.keys.Nodup
  perm : t'.entries.entries.Perm t.entries.entries
  current : t'.current = t.current

section Lookup

variable {t : Tree} {loc names : Location}

theorem lookup_eq_some_iff (h : t.entries.keys.Nodup) (hloc : loc ≠ []) {e : Entry} :
    t.lookup loc = some e ↔ (loc, e) ∈ t.entries.entries := by
  unfold lookup
  rw [if_neg hloc, Register.get?_eq_some_iff h]

theorem child_eq_some_iff {place : Location} {e : Entry} {child : FileName × Entry} :
    (match place.getLast? with
      | some name => if place.dropLast = loc then some (name, e) else none
      | none => none) = some child
      ↔
    place = loc ++ [child.1] ∧ e = child.2 := by
  constructor
  . intro h
    split at h
    . next last hlast =>
      split at h
      . next hfront =>
        cases h
        rw [← hfront]
        exact ⟨(List.dropLast_append_getLast? _ hlast).symm, rfl⟩
      . contradiction
    . contradiction
  . rintro ⟨rfl, rfl⟩
    simp

theorem mem_children (h : t.entries.keys.Nodup) {child : FileName × Entry} :
    child ∈ t.children loc ↔ t.lookup (loc ++ [child.1]) = some child.2 := by
  unfold children
  rw [lookup_eq_some_iff h (by simp), List.mem_filterMap]
  constructor
  . rintro ⟨⟨place, e⟩, hmem, hchild⟩
    obtain ⟨rfl, rfl⟩ := child_eq_some_iff.mp hchild
    exact hmem
  . intro hmem
    exact ⟨_, hmem, child_eq_some_iff.mpr ⟨rfl, rfl⟩⟩

theorem pairwise_children (h : t.entries.keys.Nodup) (loc : Location) :
    (t.children loc).Pairwise fun child child' => child.1 ≠ child'.1 := by
  unfold children
  rw [List.pairwise_filterMap]
  unfold Register.keys at h
  rw [List.nodup_iff_pairwise_ne, List.pairwise_map] at h
  apply h.imp
  intro entry entry' hne child hchild child' hchild' hname
  apply hne
  rw [(child_eq_some_iff.mp hchild).1, (child_eq_some_iff.mp hchild').1, hname]

theorem IsConnected.lookup_front (h : t.IsConnected) (hnames : names ≠ [])
    (hsome : (t.lookup (loc ++ names)).isSome) :
    t.lookup loc = some .directory := by
  induction names using List.reverseRecOn with
  | nil => contradiction
  | append_singleton names name ih =>
    rw [← List.append_assoc] at hsome
    have hdirectory := h _ _ hsome
    cases names with
    | nil => rwa [List.append_nil] at hdirectory
    | cons => exact ih (List.cons_ne_nil _ _) (by rw [hdirectory]; rfl)

theorem IsConnected.length_le (h : t.IsConnected) (hsome : (t.lookup (loc ++ names)).isSome) :
    names.length ≤ t.entries.size := by
  let places := (List.range names.length).map fun i => loc ++ names.take (i + 1)
  have hnodup : places.Nodup := by
    apply List.nodup_range.map_on
    intro i hi j hj heq
    rw [List.mem_range] at hi hj
    have hlength := congrArg List.length heq
    rw [List.length_append, List.length_append, List.length_take, List.length_take] at hlength
    omega
  have hsubset : places ⊆ t.entries.keys := by
    intro place hplace
    obtain ⟨i, hi, rfl⟩ := List.mem_map.mp hplace
    rw [List.mem_range] at hi
    have hne : names.take (i + 1) ≠ [] := by
      rw [← List.length_pos_iff, List.length_take]
      omega
    apply mem_keys_of_lookup (List.append_ne_nil_of_right_ne_nil _ hne)
    by_cases hrest : names.drop (i + 1) = []
    . rw [← List.take_append_drop (i + 1) names, hrest, List.append_nil] at hsome
      exact hsome
    . rw [← List.take_append_drop (i + 1) names, ← List.append_assoc] at hsome
      rw [h.lookup_front hrest hsome]
      rfl
  have hle := (List.subperm_of_subset hnodup hsubset).length_le
  rw [List.length_map, List.length_range] at hle
  unfold Register.keys at hle
  rwa [List.length_map] at hle

end Lookup

section Congr

variable {t t' : Tree} (h : ∀ loc, t'.lookup loc = t.lookup loc)

include h

theorem walkPieces_congr (follow : Location → List (List Char) → Except FileError Target)
    (loc : Location) (pieces : List (List Char)) :
    t'.walkPieces follow loc pieces = t.walkPieces follow loc pieces := by
  induction pieces generalizing loc with
  | nil =>
    unfold walkPieces
    rw [h]
  | cons piece rest ih =>
    unfold walkPieces
    simp only [h, ih]

theorem walk_congr (links : Nat) (loc : Location) (pieces : List (List Char)) :
    t'.walk links loc pieces = t.walk links loc pieces := by
  induction links generalizing loc pieces with
  | zero => exact walkPieces_congr h _ _ _
  | succ links ih =>
    unfold walk
    rw [walkPieces_congr h, funext₂ ih]

theorem at?_congr (hcurrent : t'.current = t.current) (p : Path) : t'.at? p = t.at? p := by
  unfold at? resolve
  rw [hcurrent, walk_congr h]

end Congr

namespace SameEntries

variable {t t' : Tree} (h : t.SameEntries t')

include h

theorem keys : t'.entries.keys.Perm t.entries.keys :=
  h.perm.map _

theorem nodup' : t'.entries.keys.Nodup :=
  h.keys.nodup_iff.mpr h.nodup

theorem lookup (loc : Location) : t'.lookup loc = t.lookup loc := by
  by_cases hloc : loc = []
  . rw [hloc]
    rfl
  . rw [Option.ext_iff]
    intro e
    rw [lookup_eq_some_iff h.nodup' hloc, lookup_eq_some_iff h.nodup hloc, h.perm.mem_iff]

theorem at? (p : Path) : t'.at? p = t.at? p :=
  at?_congr h.lookup h.current p

theorem readText (p : Path) : t'.readText p = t.readText p := by
  unfold Tree.readText read
  rw [h.at?]

theorem isProper (ht : t.IsProper) : t'.IsProper where
  nodup := h.nodup'
  connected := by
    intro loc name
    rw [h.lookup, h.lookup]
    exact ht.connected loc name

end SameEntries

end Tree
end Graft
