import Graft.Proofs.Path.Steps

/-!
This module contains the place of a path relative to that of its parent, and paths that stay below
the place they are read from.
-/

namespace Graft
namespace Path
namespace Body

theorem isSome_of_trimEnd_concat {b : Body} {front : List (List Char)} {last : List Char}
    (h : b.trimEnd.pieces = front ++ [last]) :
    (Component.ofPiece? last).isSome := by
  let p : List Char → Bool := fun piece => (Component.ofPiece? piece).isNone
  have htrim : b.pieces.rdropWhile p = front ++ [last] := h
  have hne : b.pieces.rdropWhile p ≠ [] := by simp [htrim]
  have hlast := List.rdropWhile_last_not p b.pieces hne
  simpa [htrim, p, Option.isSome_iff_ne_none] using hlast

theorem trimEnd_start (b : Body) : b.trimEnd.start = b.start := rfl

theorem Readable.trimEnd {b : Body} (h : b.Readable) : b.trimEnd.Readable := by
  apply h.of_prefix (prefix_trimEnd b)

theorem exists_concat_of_getLast? {b : Body} (hb : b.trimEnd.Readable) {n : List Char}
    (h : b.components.getLast? = some (.name n)) :
    ∃ front, b.trimEnd.pieces = front ++ [n] ∧ Component.ofPiece? n = some (.name n) := by
  rw [← components_trimEnd] at h
  cases hpieces : b.trimEnd.pieces using List.reverseRecOn with
  | nil =>
    unfold components at h
    rw [hpieces] at h
    rcases hb.start with hstart | hstart | hstart <;> simp [hstart] at h
  | append_singleton front last =>
    obtain ⟨c, hc⟩ := Option.isSome_iff_exists.mp (isSome_of_trimEnd_concat hpieces)
    have : c = .name n := by
      simpa [components, hpieces, hc, List.getLast?_append] using h
    subst this
    have := Component.eq_of_ofPiece? hc
    subst this
    exact ⟨front, rfl, hc⟩

end Body

/--
A path with a file name has a parent, which has all its components but that name.
-/
theorem exists_parent_body {p : Path} {n : List Char} (h : p.fileName? = some n) :
    ∃ b : Body, p.parent? = some (.ofBody b) ∧ b.Readable
      ∧ p.components = b.components ++ [.name n]
      ∧ '/' ∉ n ∧ Component.ofPiece? n = some (.name n) := by
  have hread : p.body.trimEnd.Readable := Body.readable_trimEnd_ofText _
  have hlast : p.body.components.getLast? = some (.name n) := by
    unfold fileName? components at h
    split at h
    . simp_all
    . contradiction
  obtain ⟨front, hpieces, hn⟩ := Body.exists_concat_of_getLast? hread hlast
  let parent : Body := { p.body with pieces := front }
  have hparent : parent.Readable := hread.of_prefix ⟨[n], hpieces.symm⟩
  refine ⟨parent.trimEnd, ?_, hparent.trimEnd, ?_, ?_, hn⟩
  . unfold parent? Body.parent?
    simp [hpieces, parent]
  . unfold components
    rw [Body.components_trimEnd, ← Body.components_trimEnd p.body]
    simp [Body.components, hpieces, hn, parent, Body.trimEnd_start]
  . apply hread.slash
    simp [hpieces]

theorem exists_parent {p : Path} {n : List Char} (h : p.fileName? = some n) :
    ∃ parent, p.parent? = some parent ∧ '/' ∉ n ∧ Component.ofPiece? n = some (.name n)
      ∧ ∀ here, p.locate here = parent.locate here ++ [.ofText n] := by
  obtain ⟨b, hparent, hread, hcomponents, hslash, hn⟩ := exists_parent_body h
  refine ⟨.ofBody b, hparent, hslash, hn, ?_⟩
  intro here
  rw [Body.locate_ofBody hread]
  unfold locate
  rw [hcomponents, List.foldl_append]
  rfl

theorem exists_names {cs : List Component} (h : ∀ c ∈ cs, ∃ n, c = .name n) :
    ∃ names : List (List Char), cs = names.map .name := by
  induction cs with
  | nil => exact ⟨[], rfl⟩
  | cons c cs ih =>
    rw [List.forall_mem_cons] at h
    obtain ⟨n, rfl⟩ := h.1
    obtain ⟨names, rfl⟩ := ih h.2
    exact ⟨n :: names, rfl⟩

theorem foldl_follow_names (here : Location) (names : List (List Char)) :
    (names.map Component.name).foldl Component.follow here = here ++ names.map .ofText := by
  induction names generalizing here with
  | nil => simp
  | cons n names ih =>
    rw [List.map_cons, List.foldl_cons, ih]
    simp [Component.follow]

theorem locate_of_steps {p : Path} {names : List (List Char)} (h : ¬ p.isAbsolute)
    (hsteps : p.steps = names.map .name) (here : Location) :
    p.locate here = here ++ names.map .ofText := by
  rw [locate_eq_steps, hsteps, foldl_follow_names]
  simp [Tree.start, h]

theorem steps_parent_of_isContained {p parent : Path} {n : List Char} (h : p.isContained)
    (hname : p.fileName? = some n) (hparent : p.parent? = some parent) :
    ¬ parent.isAbsolute ∧ ∃ names : List (List Char), parent.steps = names.map .name := by
  obtain ⟨b, hparent', hread, hcomponents, _⟩ := exists_parent_body hname
  rw [hparent, Option.some_inj] at hparent'
  subst hparent'
  have hcontained : ∀ c ∈ b.components, c = .current ∨ ∃ n, c = .name n := by
    intro c hc
    have hmem : c ∈ p.components := by
      rw [hcomponents]
      exact List.mem_append_left _ hc
    have := List.all_eq_true.mp h c hmem
    cases c <;> simp_all
  have habsolute : ¬ (ofBody b).isAbsolute := by
    rw [Body.isAbsolute_ofBody hread]
    intro hroot
    have := hcontained .root (by simp [Body.components, hroot])
    simp at this
  have hsteps : ∀ c ∈ (ofBody b).steps, ∃ n, c = .name n := by
    intro c hc
    have hmem : c ∈ b.components := by
      rw [Body.steps_ofBody hread] at hc
      exact List.mem_append_right _ hc
    rcases hcontained c hmem with rfl | hn
    . exact absurd hc (not_mem_steps _).2
    . exact hn
  exact ⟨habsolute, exists_names hsteps⟩

theorem locate_of_isContained {p : Path} (h : p.isContained) (here : Location) :
    p.locate here = here ++ p.locate [] := by
  unfold isContained at h
  unfold locate
  generalize p.components = components at h ⊢
  induction components using List.reverseRecOn with
  | nil => simp
  | append_singleton cs c ih =>
    rw [List.all_append, Bool.and_eq_true] at h
    obtain ⟨hcs, hc⟩ := h
    rw [List.foldl_append, List.foldl_append, ih hcs]
    cases c with
    | root => simp at hc
    | current => simp [Component.follow]
    | parent => simp at hc
    | name n => simp [Component.follow]

end Path
end Graft
