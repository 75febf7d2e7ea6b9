import Graft.Proofs.FileName
import Graft.Tree.Walk

/-!
This module contains the order of the paths that a walk comes upon, which is the lexicographic order
of their names.
-/

namespace Graft

namespace FoundPath

theorem le_iff {p q : FoundPath} : p.le q ↔ p.names ≤ q.names := by
  unfold le
  rw [Bool.not_eq_true', decide_eq_false_iff_not, not_lt]

theorem pairwise_lt_mergeSort {paths : List FoundPath}
    (h : paths.Pairwise fun p q => p.names ≠ q.names) :
    (paths.mergeSort le).Pairwise fun p q => p.names < q.names := by
  have hle : (paths.mergeSort le).Pairwise fun p q => p.le q := by
    apply List.pairwise_mergeSort
    . intro p q r hpq hqr
      rw [le_iff] at *
      exact hpq.trans hqr
    . intro p q
      rw [Bool.or_eq_true, le_iff, le_iff]
      exact le_total _ _
  have hne : (paths.mergeSort le).Pairwise fun p q => p.names ≠ q.names :=
    (List.Perm.pairwise_iff Ne.symm (List.mergeSort_perm paths le)).mpr h
  apply (hle.and hne).imp
  rintro p q ⟨hle, hne⟩
  exact lt_of_le_of_ne (le_iff.mp hle) hne

theorem eq_of_pairwise_lt {paths paths' : List FoundPath}
    (h : paths.Pairwise fun p q => p.names < q.names)
    (h' : paths'.Pairwise fun p q => p.names < q.names) (hmem : ∀ p, p ∈ paths ↔ p ∈ paths') :
    paths = paths' := by
  have hnodup : ∀ paths : List FoundPath,
      paths.Pairwise (fun p q => p.names < q.names) → paths.Nodup := by
    intro paths h
    apply h.imp
    rintro p _ hlt rfl
    exact lt_irrefl _ hlt
  apply List.Perm.eq_of_pairwise _ h h'
  . rw [List.perm_ext_iff_of_nodup (hnodup _ h) (hnodup _ h')]
    exact hmem
  . intro p q _ _ hpq hqp
    exact absurd hpq hqp.not_gt

end FoundPath
end Graft
