import Graft.Proofs.Path.Steps
import Graft.Proofs.Tree.Files

/-!
This module contains paths that are written differently but have the same components. In a tree
without links they lead to the same target, unless the text of one of them is refused.
-/

namespace Graft

theorem Component.text_of_ofPiece? {piece : List Char} {c : Component}
    (h : ofPiece? piece = some c) :
    c.text = piece := by
  unfold ofPiece? at h
  split at h
  . contradiction
  . split at h
    . next hdots =>
      cases h
      exact hdots.symm
    . cases h
      rfl

def Path.EndsWithName (p : Path) : Prop :=
  ∃ n, (p.text.toList.splitOn '/').getLast? = some n ∧ Component.ofPiece? n = some (.name n)

theorem Path.EndsWithName.join {q : Path} (h : q.EndsWithName) (p : Path) :
    (p.join q).EndsWithName := by
  by_cases hright : q.isAbsolute ∨ p.text = ""
  . rw [join_eq_right hright]
    exact h
  . rw [not_or] at hright
    obtain ⟨front, htext, _⟩ := exists_text_join hright.2 hright.1
    obtain ⟨n, hlast, hn⟩ := h
    refine ⟨n, ?_, hn⟩
    rw [htext, List.splitOn_append_cons_self,
      List.getLast?_append_of_ne_nil _ (List.splitOn_ne_nil _ _), hlast]

namespace Tree

theorem walkPieces_of_not_directory {t : Tree}
    {follow : Location → List (List Char) → Except FileError Target} {loc : Location}
    {pieces : List (List Char)} (hpieces : pieces ≠ []) (h : t.lookup loc ≠ some .directory) :
    t.walkPieces follow loc pieces = .error .notADirectory := by
  cases pieces with
  | nil => contradiction
  | cons piece rest =>
    unfold walkPieces
    rw [if_neg h]

theorem walkPieces_eq_steps {t : Tree} (hlinks : t.NoLinks)
    {follow : Location → List (List Char) → Except FileError Target} {loc : Location}
    {pieces : List (List Char)} {n : List Char} (hlast : pieces.getLast? = some n)
    (hn : Component.ofPiece? n = some (.name n)) :
    t.walkPieces follow loc pieces
      =
    t.walkPieces follow loc ((pieces.filterMap Component.ofPiece?).map Component.text) := by
  induction pieces generalizing loc with
  | nil => contradiction
  | cons piece rest ih =>
    cases rest with
    | nil =>
      have hpiece : piece = n := by simpa using hlast
      subst hpiece
      rw [List.filterMap_cons_some hn]
      rfl
    | cons piece' rest =>
      rw [List.getLast?_cons_cons] at hlast
      generalize hrest : piece' :: rest = rest' at *
      have hne : rest' ≠ [] := by simp [← hrest]
      have hmem : n ∈ (rest'.filterMap Component.ofPiece?).map Component.text := by
        rw [List.mem_map]
        refine ⟨.name n, List.mem_filterMap.mpr ⟨n, List.mem_of_getLast? hlast, hn⟩, rfl⟩
      have hnempty : n ≠ [] := by
        rintro rfl
        contradiction
      rcases hpiece : Component.ofPiece? piece with _ | c
      . rw [List.filterMap_cons_none hpiece, ← ih hlast]
        conv_lhs => unfold walkPieces
        rw [hpiece]
        split
        . rfl
        . next hdirectory => rw [walkPieces_of_not_directory hne hdirectory]
      . rw [List.filterMap_cons_some hpiece, List.map_cons, Component.text_of_ofPiece? hpiece]
        unfold walkPieces
        rw [hpiece]
        split
        . cases c with
          | root => apply ih hlast
          | current => apply ih hlast
          | parent => apply ih hlast
          | name name =>
            dsimp only
            split
            . rfl
            . split
              . -- Something with a name is left to walk in both cases.
                rw [if_neg, if_neg]
                . simp only [List.all_eq_true, not_forall]
                  exact ⟨n, hmem, by simpa using hnempty⟩
                . simp only [List.all_eq_true, not_forall]
                  exact ⟨n, List.mem_of_getLast? hlast, by simpa using hnempty⟩
              . next hlink => exact absurd hlink (hlinks _ _)
              . apply ih hlast
        . rfl

/--
A path is found where another one with the same components is, or its text is refused in any tree.
-/
theorem resolve_of_sameAs {p q : Path} (hp : p.EndsWithName) (hq : q.EndsWithName)
    (hsame : q.sameAs p) :
    (∃ e, ∀ t : Tree, t.resolve q = .error e)
      ∨ ∀ (t : Tree) target, t.NoLinks → t.resolve p = .ok target → t.resolve q = .ok target := by
  by_cases hempty : q.text.isEmpty
  . left
    refine ⟨.notFound, ?_⟩
    intro t
    unfold resolve
    rw [if_pos hempty]
  . by_cases hnul : q.text.toList.contains '\x00'
    . left
      refine ⟨.nulInPath, ?_⟩
      intro t
      unfold resolve
      rw [if_neg hempty, if_pos hnul]
    . by_cases hlong : q.text.utf8ByteSize ≥ 4096
      . left
        refine ⟨.nameTooLong, ?_⟩
        intro t
        unfold resolve
        rw [if_neg hempty, if_neg hnul, if_pos hlong]
      . right
        intro t target hlinks h
        have hsteps := Path.steps_eq_of_sameAs hsame
        have hstart : start t.current q = start t.current p := by
          unfold start
          rw [Path.isAbsolute_eq_of_sameAs hsame]
        obtain ⟨n, hlast, hn⟩ := hp
        obtain ⟨n', hlast', hn'⟩ := hq
        unfold resolve at h ⊢
        rw [if_neg hempty, if_neg hnul, if_neg hlong]
        split at h
        . contradiction
        . split at h
          . contradiction
          . split at h
            . contradiction
            . unfold walk at h ⊢
              rw [walkPieces_eq_steps hlinks hlast hn] at h
              rw [walkPieces_eq_steps hlinks hlast' hn', hstart]
              unfold Path.steps at hsteps
              rw [hsteps]
              exact h

end Tree
end Graft
