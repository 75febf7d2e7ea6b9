import Graft.Proofs.Tree.Directories
import Graft.Proofs.Tree.Growth

/-!
This module contains trees in which everything stands in a directory. If such a tree grows until a
path leads to a file, and the file was there already, the path has led to it before, unless the path
leaves through `..` a directory that was not there.
-/

namespace Graft
namespace Tree

def IsConnected (t : Tree) : Prop :=
  ∀ loc name, (t.lookup (loc ++ [name])).isSome → t.lookup loc = some .directory

/--
What the path leaves through `..` is a directory.
-/
def LeavesDirectories (t : Tree) (p : Path) : Prop :=
  ∀ front back, p.steps = front ++ .parent :: back →
    t.lookup (front.foldl Component.follow (start t.current p)) = some .directory

def Reaches (t : Tree) (p : Path) : Prop :=
  (t.fileAt? (t.locate p)).isSome → t.pathExists p

theorem isConnected_of_forall_entries {t : Tree}
    (h : ∀ entry ∈ t.entries.entries, t.lookup entry.1.dropLast = some .directory) :
    t.IsConnected := by
  intro loc name hsome
  have hkey : loc ++ [name] ∈ t.entries.keys :=
    mem_keys_of_lookup (List.concat_ne_nil _ _) hsome
  obtain ⟨entry, hentry, heq⟩ := List.mem_map.mp hkey
  have hdirectory := h entry hentry
  rw [heq, List.dropLast_concat] at hdirectory
  exact hdirectory

theorem leavesDirectories_of_not_mem {p : Path} (h : .parent ∉ p.steps) (t : Tree) :
    t.LeavesDirectories p := by
  intro front back hsplit
  rw [hsplit] at h
  simp at h

section Walk

variable {t t' : Tree} {follow follow' : Location → List (List Char) → Except FileError Target}
variable {loc loc' : Location} {pieces : List (List Char)}

/--
Something stands at every place that a walk comes through on its way to a place where something is.
-/
theorem isSome_lookup_of_trace (hconnected : t.IsConnected)
    (hleaves : ∀ front back, pieces.filterMap Component.ofPiece? = front ++ .parent :: back →
      t.lookup (front.foldl Component.follow loc) = some .directory)
    (h : (t.lookup (Path.trace loc pieces)).isSome) :
    (t.lookup loc).isSome := by
  induction pieces generalizing loc with
  | nil => exact h
  | cons piece rest ih =>
    rw [Path.trace_cons] at h
    rcases Component.ofPiece?_cases piece with hpiece | hpiece | hpiece
    . rw [List.filterMap_cons_none hpiece] at hleaves
      rw [Path.trace_none loc hpiece] at h
      exact ih hleaves h
    . rw [List.filterMap_cons_some hpiece] at hleaves
      have hdirectory := hleaves [] _ rfl
      rw [List.foldl_nil] at hdirectory
      rw [hdirectory]
      rfl
    . rw [List.filterMap_cons_some hpiece] at hleaves
      rw [Path.trace_name loc hpiece] at h
      have hnext : (t.lookup (loc ++ [.ofText piece])).isSome := by
        apply ih _ h
        intro front back hsplit
        exact hleaves (.name piece :: front) back (by rw [hsplit]; rfl)
      rw [hconnected loc _ hnext]
      rfl

theorem Grows.directory_of_isSome (h : t.Grows t') (hlinks : t.NoLinks)
    (hdirectory : t'.lookup loc = some .directory) (hsome : (t.lookup loc).isSome) :
    t.lookup loc = some .directory := by
  obtain ⟨e, he⟩ := Option.isSome_iff_exists.mp hsome
  cases e with
  | directory => exact he
  | link target => exact absurd he (hlinks loc target)
  | file content =>
    have hfile := h.file loc (by rw [fileAt?_eq_some_iff.mpr he]; rfl)
    simp [fileAt?, hdirectory] at hfile

theorem walkPieces_of_grown (h : t.Grows t') (hlinks : t.NoLinks) (hconnected : t.IsConnected)
    (hleaves : ∀ front back, pieces.filterMap Component.ofPiece? = front ++ .parent :: back →
      t.lookup (front.foldl Component.follow loc) = some .directory)
    (hsome : (t.lookup (Path.trace loc pieces)).isSome) {e' : Entry}
    (hwalk : t'.walkPieces follow' loc pieces = .ok (.found loc' e')) :
    ∃ e, t.walkPieces follow loc pieces = .ok (.found (Path.trace loc pieces) e) := by
  induction pieces generalizing loc with
  | nil =>
    obtain ⟨e, he⟩ := Option.isSome_iff_exists.mp hsome
    rw [Path.trace_nil] at he
    refine ⟨e, ?_⟩
    unfold walkPieces
    rw [he]
    rfl
  | cons piece rest ih =>
    have hhere := isSome_lookup_of_trace hconnected hleaves hsome
    unfold walkPieces at hwalk
    split at hwalk
    . next hdirectory =>
      unfold walkPieces
      rw [if_pos (h.directory_of_isSome hlinks hdirectory hhere)]
      rw [Path.trace_cons] at hsome ⊢
      rcases Component.ofPiece?_cases piece with hpiece | hpiece | hpiece
      . rw [List.filterMap_cons_none hpiece] at hleaves
        rw [Path.trace_none loc hpiece] at hsome ⊢
        rw [hpiece] at hwalk ⊢
        exact ih hleaves hsome hwalk
      . rw [List.filterMap_cons_some hpiece] at hleaves
        rw [Path.trace_parent loc hpiece] at hsome ⊢
        rw [hpiece] at hwalk ⊢
        apply ih _ hsome hwalk
        intro front back hsplit
        exact hleaves (.parent :: front) back (by rw [hsplit]; rfl)
      . rw [List.filterMap_cons_some hpiece] at hleaves
        rw [Path.trace_name loc hpiece] at hsome ⊢
        have hleaves' : ∀ front back,
            rest.filterMap Component.ofPiece? = front ++ .parent :: back →
            t.lookup (front.foldl Component.follow (loc ++ [.ofText piece])) = some .directory := by
          intro front back hsplit
          exact hleaves (.name piece :: front) back (by rw [hsplit]; rfl)
        -- What the later walk comes through was there before.
        obtain ⟨e, hnext⟩ :=
          Option.isSome_iff_exists.mp (isSome_lookup_of_trace hconnected hleaves' hsome)
        have hnot : ∀ target, e ≠ .link target := by
          rintro target rfl
          exact hlinks _ _ hnext
        obtain ⟨e₁, hnext', hnot'⟩ := h.lookup hnext hnot
        rw [hpiece] at hwalk ⊢
        dsimp only at hwalk ⊢
        rw [hnext'] at hwalk
        rw [hnext]
        split at hwalk
        . contradiction
        . next hsize =>
          rw [if_neg hsize]
          split at hwalk
          . contradiction
          . next target heq => exact absurd (Option.some.inj heq) (hnot' target)
          . exact ih hleaves' hsome hwalk
    . contradiction

end Walk

section Reach

variable {t t' : Tree} {p : Path}

theorem reaches_of_grows (h : t.Grows t') (hlinks : t.NoLinks) (hconnected : t.IsConnected)
    (hleaves : t.LeavesDirectories p) {loc : Location} {e : Entry}
    (hat : t'.at? p = .ok (loc, e)) :
    t.Reaches p := by
  intro hfile
  obtain ⟨content, hcontent⟩ := Option.isSome_iff_exists.mp hfile
  have hlookup := fileAt?_eq_some_iff.mp hcontent
  have hplace : t.locate p = Path.trace (start t.current p) (p.text.toList.splitOn '/') :=
    Path.locate_eq_trace t.current p
  have hsome : (t.lookup (t.locate p)).isSome := by
    rw [hlookup]
    rfl
  rw [hplace] at hsome
  obtain ⟨hempty, hnul, hlong, follow', hwalk⟩ := walkPieces_of_at? hat
  rw [h.current] at hwalk
  have hfound : t.at? p = .ok (t.locate p, .file content) := by
    apply at?_eq_of_walkPieces hempty hnul hlong
    intro follow
    have hearlier : ∃ e, t.walkPieces follow (start t.current p) (p.text.toList.splitOn '/')
        = .ok (.found (Path.trace (start t.current p) (p.text.toList.splitOn '/')) e) :=
      walkPieces_of_grown h hlinks hconnected hleaves hsome hwalk
    rw [← hplace] at hearlier
    obtain ⟨e, he⟩ := hearlier
    obtain ⟨-, hstands⟩ := walkPieces_standsAt hlinks he
    rw [← hplace, hlookup, Option.some_inj] at hstands
    rw [he, hstands]
  unfold pathExists
  rw [hfound]
  rfl

end Reach

end Tree
end Graft
