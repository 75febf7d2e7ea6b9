import Graft.Closure.Materializer
import Graft.Proofs.Path.Parent

/-!
This module contains the places of a header under both roots. The directory of a header is entered
from each root in the same way; what the name prefix adds to it is read as a path from there.
-/

namespace Graft

def MaterializePolicy.namePrefixText (policy : MaterializePolicy) : String :=
  policy.namePrefix.getD ""

namespace Path

theorem ofPiece?_append {n : List Char} (h : Component.ofPiece? n = some (.name n))
    (last : List Char) :
    Component.ofPiece? (last ++ n) = some (.name (last ++ n)) := by
  have hne : n ≠ [] ∧ n ≠ ['.'] ∧ n ≠ ['.', '.'] := by
    refine ⟨?_, ?_, ?_⟩
    all_goals
      rintro rfl
      simp [Component.ofPiece?] at h
  apply Component.ofPiece?_of_ne
  . simp [hne.1]
  . intro hdot
    rcases List.append_eq_singleton_iff.mp hdot with ⟨_, hn⟩ | ⟨_, hn⟩
    . exact hne.2.1 hn
    . exact hne.1 hn
  . intro hdots
    rcases List.append_eq_cons_iff.mp hdots with ⟨_, hn⟩ | ⟨front, _, hn⟩
    . exact hne.2.2 hn
    . rcases List.append_eq_singleton_iff.mp hn.symm with ⟨_, hn⟩ | ⟨_, hn⟩
      . exact hne.2.1 hn
      . exact hne.1 hn

end Path

namespace Materializer

/--
The directories that a prefix leads through before the last piece of it, which becomes a part of the
file name.
-/
def prefixPieces (namePrefix : String) : List (List Char) :=
  (namePrefix.toList.splitOn '/').dropLast

def prefixName (namePrefix : String) : List Char :=
  ((namePrefix.toList.splitOn '/').getLast?).getD []

def prefixPlace (namePrefix : String) (here : Location) : Location :=
  Path.trace (Tree.start here ⟨namePrefix⟩) (prefixPieces namePrefix)

theorem splitOn_prefixed (namePrefix : String) {n : List Char} (hslash : '/' ∉ n) :
    (namePrefix ++ .ofList n).toList.splitOn '/'
      =
    prefixPieces namePrefix ++ [prefixName namePrefix ++ n] := by
  obtain ⟨front, last, hlast, hsplit⟩ := exists_splitOn_append hslash namePrefix.toList
  rw [String.toList_append, String.toList_ofList, hsplit]
  simp [prefixPieces, prefixName, hlast]

theorem isAbsolute_prefixed (namePrefix : String) {n : List Char} (hslash : '/' ∉ n) :
    (⟨namePrefix ++ .ofList n⟩ : Path).isAbsolute = (⟨namePrefix⟩ : Path).isAbsolute := by
  unfold Path.isAbsolute
  rw [String.toList_append, String.toList_ofList]
  cases namePrefix.toList with
  | nil =>
    have : n.head? ≠ some '/' := by
      intro h
      exact hslash (List.mem_of_head? h)
    simpa using this
  | cons => simp

theorem locate_prefixed (namePrefix : String) {n : List Char} (here : Location) (hslash : '/' ∉ n)
    (hn : Component.ofPiece? n = some (.name n)) :
    Path.locate here ⟨namePrefix ++ .ofList n⟩
      =
    prefixPlace namePrefix here ++ [.ofText (prefixName namePrefix ++ n)] := by
  rw [Path.locate_eq_trace, splitOn_prefixed namePrefix hslash, Path.trace_append,
    Path.trace_name _ (Path.ofPiece?_append hn _)]
  unfold prefixPlace Tree.start
  rw [isAbsolute_prefixed namePrefix hslash]

theorem not_isAbsolute_of_not_mem {namePrefix : String} (h : '/' ∉ namePrefix.toList) :
    ¬ (⟨namePrefix⟩ : Path).isAbsolute := by
  unfold Path.isAbsolute
  simp only [beq_iff_eq]
  intro hhead
  exact h (List.mem_of_head? hhead)

theorem prefixPlace_of_not_mem {namePrefix : String} (h : '/' ∉ namePrefix.toList)
    (here : Location) :
    prefixPlace namePrefix here = here := by
  unfold prefixPlace prefixPieces
  rw [List.splitOn_eq_singleton h]
  simp [Tree.start, not_isAbsolute_of_not_mem h]

theorem prefixName_of_not_mem {namePrefix : String} (h : '/' ∉ namePrefix.toList) :
    prefixName namePrefix = namePrefix.toList := by
  unfold prefixName
  rw [List.splitOn_eq_singleton h]
  rfl

theorem pathsFor_of_isContained {m : Materializer} {request : MissingInclude} {directory : Path}
    {n : List Char} (hcontained : (⟨request.header⟩ : Path).isContained)
    (hname : (⟨request.header⟩ : Path).fileName? = some n)
    (hparent : (⟨request.header⟩ : Path).parent? = some directory) :
    m.pathsFor request
      =
    .ok {
      donor := (m.donorRoot.join directory).join ⟨.ofList n⟩
      target := (m.targetRoot.join directory).join ⟨m.policy.namePrefixText ++ .ofList n⟩ } := by
  unfold pathsFor
  simp only [hcontained, hname, hparent]
  rfl

theorem pathsFor_eq_ok {m : Materializer} {request : MissingInclude} {paths : HeaderPaths}
    (h : m.pathsFor request = .ok paths) :
    ∃ (front : Location) (n : List Char),
      (∀ here, Path.locate here ⟨request.header⟩ = here ++ front ++ [.ofText n])
        ∧ (∀ here, paths.donor.locate here = m.donorRoot.locate here ++ front ++ [.ofText n])
        ∧ (∀ here, paths.target.locate here
            =
          prefixPlace m.policy.namePrefixText (m.targetRoot.locate here ++ front)
            ++ [.ofText (prefixName m.policy.namePrefixText ++ n)]) := by
  unfold pathsFor at h
  dsimp only at h
  split at h
  . next n hcontained hname =>
    cases h
    obtain ⟨parent, hparent, hslash, hn, hlocate⟩ := Path.exists_parent hname
    have hfront : ∀ here, parent.locate here = here ++ parent.locate [] := by
      intro here
      have := Path.locate_of_isContained hcontained here
      rw [hlocate here, hlocate [], ← List.append_assoc] at this
      exact List.append_cancel_right this
    refine ⟨parent.locate [], n, ?_, ?_, ?_⟩
    . intro here
      rw [hlocate, hfront]
    . intro here
      rw [Path.locate_join, Path.locate_join, hparent, Path.locate_piece _ hslash hn]
      dsimp only [Option.getD_some]
      rw [hfront]
    . intro here
      rw [Path.locate_join, Path.locate_join, hparent]
      dsimp only [Option.getD_some]
      rw [hfront]
      apply locate_prefixed _ _ hslash hn
  . contradiction

end Materializer
end Graft
