import Graft.Proofs.Path.Parent
import Graft.Proofs.Tree.Spelling

/-!
This module contains the directories above a path: if the path leads somewhere, they are all there,
and in a tree without links to create them once more changes nothing.
-/

namespace Graft
namespace Path
namespace Body

theorem text_ofText (cs : List Char) : (ofText cs).text = cs := by
  by_cases hroot : cs.head? = some '/'
  . obtain ⟨rest, rfl⟩ := List.head?_eq_some_iff.mp hroot
    rw [ofText_slash_cons]
    unfold text
    dsimp only
    rw [List.intercalate_splitOn]
  . rcases ofText_eq_or hroot with heq | ⟨pieces, hsplit, heq⟩
    . rw [heq]
      unfold text
      dsimp only
      rw [List.intercalate_splitOn]
    . rw [heq]
      unfold text
      dsimp only [Component.text]
      rw [← hsplit, List.intercalate_splitOn]

theorem intercalate_prefix {front pieces : List (List Char)} (h : front <+: pieces) :
    ['/'].intercalate front <+: ['/'].intercalate pieces := by
  induction front generalizing pieces with
  | nil => exact List.nil_prefix
  | cons piece front ih =>
    obtain ⟨rest, rfl, hrest⟩ := List.cons_prefix_iff.mp h
    cases front with
    | nil =>
      cases rest with
      | nil => exact List.prefix_rfl
      | cons piece' rest =>
        rw [List.intercalate_singleton, List.intercalate_cons_cons, List.append_assoc]
        exact List.prefix_append _ _
    | cons piece' front =>
      obtain ⟨rest', rfl, -⟩ := List.cons_prefix_iff.mp hrest
      rw [List.intercalate_cons_cons, List.intercalate_cons_cons, List.prefix_append_right_inj]
      exact ih hrest

theorem text_prefix {b : Body} {front : List (List Char)} (h : front <+: b.pieces) :
    text { b with pieces := front } <+: b.text := by
  unfold text
  dsimp only
  split
  . exact List.cons_prefix_cons.mpr ⟨rfl, intercalate_prefix h⟩
  . exact intercalate_prefix (List.cons_prefix_cons.mpr ⟨rfl, h⟩)
  . exact intercalate_prefix h

theorem filterMap_trimEnd (b : Body) :
    b.trimEnd.pieces.filterMap Component.ofPiece? = b.pieces.filterMap Component.ofPiece? :=
  List.append_cancel_left (components_trimEnd b)

end Body

theorem steps_eq_body (p : Path) : p.steps = p.body.pieces.filterMap Component.ofPiece? := by
  have hcomponents := components_eq_steps p
  unfold components Body.components at hcomponents
  exact (List.append_cancel_left hcomponents).symm

/--
The text of a parent begins that of the path, and its steps are all but the last of them. Only a
path that is nothing but dots has no last step.
-/
theorem parent?_eq_some {p q : Path} (h : p.parent? = some q) :
    q.text.toList <+: p.text.toList
      ∧ ((q.text = "" ∧ ¬ p.isAbsolute)
        ∨ q.isAbsolute = p.isAbsolute ∧ ∃ c, p.steps = q.steps ++ [c]) := by
  have htext : p.body.text = p.text.toList := Body.text_ofText _
  unfold parent? at h
  obtain ⟨b, hb, rfl⟩ := Option.map_eq_some_iff.mp h
  unfold ofBody
  rw [String.toList_ofList]
  unfold Body.parent? at hb
  split at hb
  . next last front hpieces =>
    cases hb
    rw [List.reverse_eq_cons_iff] at hpieces
    have hread : p.body.trimEnd.Readable := Body.readable_trimEnd_ofText _
    let parent : Body := { p.body with pieces := front.reverse }
    have hparent : parent.trimEnd.Readable :=
      (hread.of_prefix ⟨[last], hpieces.symm⟩).trimEnd
    constructor
    . have hprefix : parent.trimEnd.pieces <+: p.body.pieces := by
        apply (Body.prefix_trimEnd parent).trans
        apply List.IsPrefix.trans _ (Body.prefix_trimEnd p.body)
        exact ⟨[last], hpieces.symm⟩
      rw [← htext]
      exact Body.text_prefix hprefix
    . right
      constructor
      . rw [Bool.eq_iff_iff, ← start_eq_root_iff (p := p)]
        exact Body.isAbsolute_ofBody hparent
      . obtain ⟨c, hc⟩ := Option.isSome_iff_exists.mp (Body.isSome_of_trimEnd_concat hpieces)
        refine ⟨c, ?_⟩
        have hsteps := Body.steps_ofBody hparent
        unfold ofBody at hsteps
        rw [hsteps, Body.filterMap_trimEnd, steps_eq_body, ← Body.filterMap_trimEnd, hpieces,
          List.filterMap_append, List.filterMap_cons_some hc]
        rfl
  . split at hb
    . next hstart =>
      cases hb
      refine ⟨List.nil_prefix, Or.inl ⟨rfl, ?_⟩⟩
      rw [← start_eq_root_iff, hstart]
      simp
    . contradiction

end Path

namespace Tree

section Walk

variable {t : Tree} {follow follow' : Location → List (List Char) → Except FileError Target}
variable {loc : Location}

theorem at?_eq_of_walkPieces {p : Path} (hempty : p.text ≠ "") (hnul : '\x00' ∉ p.text.toList)
    (hlong : p.text.utf8ByteSize < 4096) {e : Entry}
    (h : ∀ follow, t.walkPieces follow (start t.current p) (p.text.toList.splitOn '/')
      = .ok (.found loc e)) :
    t.at? p = .ok (loc, e) := by
  unfold at? resolve
  rw [if_neg (by simpa using hempty), if_neg (by simpa using hnul), if_neg (by omega)]
  unfold walk
  rw [h]
  rfl

theorem walkPieces_of_at? {p : Path} {e : Entry} (h : t.at? p = .ok (loc, e)) :
    p.text ≠ "" ∧ '\x00' ∉ p.text.toList ∧ p.text.utf8ByteSize < 4096
      ∧ ∃ follow, t.walkPieces follow (start t.current p) (p.text.toList.splitOn '/')
        = .ok (.found loc e) := by
  unfold at? resolve at h
  obtain ⟨target, hresolve, h⟩ := Except.exists_of_bind_eq_ok h
  cases target with
  | free => contradiction
  | found =>
    cases h
    split at hresolve
    . contradiction
    . next hempty =>
      split at hresolve
      . contradiction
      . next hnul =>
        split at hresolve
        . contradiction
        . next hlong =>
          unfold walk at hresolve
          exact ⟨by simpa using hempty, by simpa using hnul, by omega, _, hresolve⟩

theorem at?_current (hdirectory : t.lookup t.current = some .directory) :
    t.at? ⟨"."⟩ = .ok (t.current, .directory) := by
  apply at?_eq_of_walkPieces
  . decide
  . decide
  . decide
  . intro follow
    have hstart : start t.current ⟨"."⟩ = t.current := by
      unfold start
      rw [if_neg (by decide)]
    have hpieces : ".".toList.splitOn '/' = [['.']] := by decide
    rw [hstart, hpieces]
    unfold walkPieces
    rw [if_pos hdirectory]
    unfold walkPieces
    rw [hdirectory]
    rfl

theorem locate_named (p : Path) :
    t.locate (if p.text.isEmpty then ⟨"."⟩ else p) = t.locate p := by
  split
  . next hempty =>
    have hp : p = ⟨""⟩ := by
      rw [String.isEmpty_iff] at hempty
      rw [← hempty]
    rw [hp, locate, locate, Path.locate_empty, Path.locate_eq_trace]
    rfl
  . rfl

theorem walkPieces_skip (follow : Location → List (List Char) → Except FileError Target)
    (hdirectory : t.lookup loc = some .directory) (front : List (List Char)) :
    (front.filterMap Component.ofPiece? = []
        ∧ t.walkPieces follow loc front = .ok (.found loc .directory))
      ∨ ∃ piece rest c, Component.ofPiece? piece = some c
        ∧ front.filterMap Component.ofPiece? = c :: rest.filterMap Component.ofPiece?
        ∧ t.walkPieces follow loc front = t.walkPieces follow loc (piece :: rest) := by
  induction front with
  | nil =>
    left
    unfold walkPieces
    rw [hdirectory]
    exact ⟨rfl, rfl⟩
  | cons piece rest ih =>
    cases hpiece : Component.ofPiece? piece with
    | some c => exact Or.inr ⟨piece, rest, c, hpiece, List.filterMap_cons_some hpiece, rfl⟩
    | none =>
      have hskip : t.walkPieces follow loc (piece :: rest) = t.walkPieces follow loc rest := by
        rw [walkPieces, if_pos hdirectory, hpiece]
      rw [List.filterMap_cons_none hpiece, hskip]
      exact ih

/--
Where pieces lead somewhere, those in front of their last component lead to a directory.
-/
def Fronts (follow follow' : Location → List (List Char) → Except FileError Target) : Prop :=
  ∀ loc pieces front loc' e c back, follow loc pieces = .ok (.found loc' e) →
    pieces.filterMap Component.ofPiece? = front.filterMap Component.ofPiece? ++ c :: back →
    ∃ place, follow' loc front = .ok (.found place .directory)

theorem Fronts.walkPieces (hfollow : Fronts follow follow') :
    Fronts (t.walkPieces follow) (t.walkPieces follow') := by
  intro loc pieces front loc' e c back h hsteps
  induction pieces generalizing loc front with
  | nil => simp at hsteps
  | cons piece rest ih =>
    unfold Tree.walkPieces at h
    split at h
    . next hdirectory =>
      cases hpiece : Component.ofPiece? piece with
      | none =>
        rw [hpiece] at h
        rw [List.filterMap_cons_none hpiece] at hsteps
        exact ih _ _ h hsteps
      | some d =>
        rw [hpiece] at h
        rw [List.filterMap_cons_some hpiece] at hsteps
        rcases walkPieces_skip follow' hdirectory front with
          ⟨hnil, hwalk⟩ | ⟨piece', rest', d', hpiece', hfront, hwalk⟩
        . exact ⟨loc, hwalk⟩
        . rw [hfront, List.cons_append, List.cons.injEq] at hsteps
          obtain ⟨rfl, hsteps⟩ := hsteps
          rw [hwalk, Tree.walkPieces, if_pos hdirectory, hpiece']
          rcases Component.ofPiece?_cases piece with hcase | hcase | hcase
          . rw [hpiece] at hcase
            contradiction
          . rw [hpiece] at hcase
            cases hcase
            exact ih _ _ h hsteps
          . rw [hpiece] at hcase
            cases hcase
            dsimp only at h ⊢
            split at h
            . contradiction
            . next hsize =>
              rw [if_neg hsize]
              split at h
              . split at h <;> cases h
              . split at h
                . contradiction
                . next htext =>
                  rw [if_neg htext]
                  apply hfollow _ _ _ _ _ c back h
                  rw [List.filterMap_append, List.filterMap_append, hsteps, List.append_assoc]
              . exact ih _ _ h hsteps
    . contradiction

theorem fronts_walk (t : Tree) (links : Nat) : Fronts (t.walk links) (t.walk links) := by
  induction links with
  | zero =>
    apply Fronts.walkPieces
    intro _ _ _ _ _ _ _ h
    contradiction
  | succ links ih => exact ih.walkPieces

theorem walk_of_at? {p : Path} {e : Entry} (h : t.at? p = .ok (loc, e)) :
    p.text ≠ "" ∧ '\x00' ∉ p.text.toList ∧ p.text.utf8ByteSize < 4096
      ∧ t.walk 40 (start t.current p) (p.text.toList.splitOn '/') = .ok (.found loc e) := by
  unfold at? resolve at h
  obtain ⟨target, hresolve, h⟩ := Except.exists_of_bind_eq_ok h
  cases target with
  | free => contradiction
  | found =>
    cases h
    split at hresolve
    . contradiction
    . next hempty =>
      split at hresolve
      . contradiction
      . next hnul =>
        split at hresolve
        . contradiction
        . next hlong => exact ⟨by simpa using hempty, by simpa using hnul, by omega, hresolve⟩

theorem at?_of_walk {p : Path} {e : Entry} (hempty : p.text ≠ "") (hnul : '\x00' ∉ p.text.toList)
    (hlong : p.text.utf8ByteSize < 4096)
    (h : t.walk 40 (start t.current p) (p.text.toList.splitOn '/') = .ok (.found loc e)) :
    t.at? p = .ok (loc, e) := by
  unfold at? resolve
  rw [if_neg (by simpa using hempty), if_neg (by simpa using hnul), if_neg (by omega), h]
  rfl

theorem exists_at?_parent {p q : Path} {e : Entry} (hat : t.at? p = .ok (loc, e))
    (hparent : p.parent? = some q) :
    ∃ place, t.at? (if q.text.isEmpty then ⟨"."⟩ else q) = .ok (place, .directory) := by
  obtain ⟨⟨back, hback⟩, hsteps⟩ := Path.parent?_eq_some hparent
  obtain ⟨hempty, hnul, hlong, hwalk⟩ := walk_of_at? hat
  by_cases hq : q.text = ""
  . have hrelative : ¬ p.isAbsolute := by
      rcases hsteps with hsteps | ⟨habsolute, -⟩
      . exact hsteps.2
      . rw [← habsolute]
        simp [Path.isAbsolute, hq]
    have hstart : start t.current p = t.current := by
      unfold start
      rw [if_neg hrelative]
    have hdirectory : t.lookup t.current = some .directory := by
      by_contra hdirectory
      unfold walk at hwalk
      rw [hstart, walkPieces_of_not_directory (List.splitOn_ne_nil _ _) hdirectory] at hwalk
      contradiction
    refine ⟨t.current, ?_⟩
    rw [if_pos (by simpa using hq)]
    exact at?_current hdirectory
  . rcases hsteps with ⟨hsteps, -⟩ | ⟨habsolute, c, hsteps⟩
    . contradiction
    . have hstart : start t.current q = start t.current p := by
        unfold start
        rw [habsolute]
      obtain ⟨place, hplace⟩ := fronts_walk t 40 _ _ (q.text.toList.splitOn '/') _ _ c [] hwalk
        hsteps
      rw [if_neg (by simpa using hq)]
      refine ⟨place, at?_of_walk hq ?_ ?_ ?_⟩
      . intro hmem
        rw [← hback] at hnul
        exact hnul (List.mem_append_left _ hmem)
      . have htext : p.text = q.text ++ .ofList back := by
          rw [← String.toList_inj, String.toList_append, String.toList_ofList, hback]
        rw [htext, String.utf8ByteSize_append] at hlong
        omega
      . rw [hstart]
        exact hplace

theorem isDirectory_iff {p : Path} :
    t.isDirectory p = true ↔ ∃ place, t.at? p = .ok (place, .directory) := by
  unfold isDirectory
  split
  . next place hat => simp [hat]
  . next hnone =>
    simp only [Bool.false_eq_true, false_iff, not_exists]
    exact hnone

/--
If directories could not all be created, the last of them is missing or nothing has changed.
-/
theorem makeFirst_ancestors_eq_error {n : Nat} {p : Path} {cause : FileError} {t' : Tree}
    (h : t.makeFirst (ancestors n p) = (.error cause, t')) :
    t' = t ∨ (p.text ≠ "" ∧ t'.isDirectory p = false) := by
  induction n generalizing p t cause t' with
  | zero =>
    cases h
    exact Or.inl rfl
  | succ n ih =>
    unfold ancestors makeFirst at h
    split at h
    . cases h
    . next hempty =>
      have hnamed : p.text ≠ "" := by simpa using hempty
      split at h
      . cases h
      . split at h
        . next hfirst =>
          cases h
          cases hparent : p.parent? with
          | none =>
            rw [hparent] at hfirst
            cases hfirst
            exact Or.inl rfl
          | some q =>
            rw [hparent] at hfirst
            rcases ih hfirst with hsame | ⟨hq, hmissing⟩
            . exact Or.inl hsame
            . refine Or.inr ⟨hnamed, ?_⟩
              by_contra hdirectory
              rw [Bool.not_eq_false] at hdirectory
              obtain ⟨place, hat⟩ := isDirectory_iff.mp hdirectory
              have habove := exists_at?_parent hat hparent
              rw [if_neg (by simpa using hq), ← isDirectory_iff, hmissing] at habove
              contradiction
        . split at h
          . cases h
          . split at h
            . cases h
            . next hmissing =>
              cases h
              exact Or.inr ⟨hnamed, by simpa using hmissing⟩
      . split at h
        . cases h
        . cases h
          exact Or.inl rfl

theorem makeDirectories_eq_error {p : Path} {cause : FileError} {t' : Tree}
    (h : t.makeDirectories p = (.error cause, t')) :
    t' = t ∨ (p.text ≠ "" ∧ t'.isDirectory p = false) :=
  makeFirst_ancestors_eq_error h

variable (hlinks : t.NoLinks)

include hlinks

theorem makeDirectory_eq_error {p : Path} {e : Entry} (hat : t.at? p = .ok (loc, e)) :
    ∃ cause, t.makeDirectory p = .error cause ∧ cause ≠ .notFound := by
  unfold makeDirectory
  split
  . next parent name hparent hname =>
    obtain ⟨place, hplace⟩ := exists_at?_parent hat hparent
    have hexists : (t.lookup (place ++ [.ofText name])).isSome := by
      obtain ⟨parent', hparent', -, -, hlocate⟩ := Path.exists_parent hname
      rw [hparent, Option.some_inj] at hparent'
      subst hparent'
      obtain ⟨rfl, -⟩ := at?_eq_ok hlinks hplace
      obtain ⟨-, hlookup⟩ := at?_eq_ok hlinks hat
      rw [locate_named, locate, ← hlocate, ← locate, hlookup]
      rfl
    rw [hplace]
    by_cases hsize : (String.ofList name).utf8ByteSize > 255
    . refine ⟨.nameTooLong, ?_, by simp⟩
      exact if_pos hsize
    . refine ⟨.alreadyExists, ?_, by simp⟩
      exact (if_neg hsize).trans (if_pos hexists)
  . rw [hat]
    exact ⟨.alreadyExists, rfl, by simp⟩

theorem makeDirectories_eq_self {p : Path} (hat : t.at? p = .ok (loc, .directory)) :
    t.makeDirectories p = (.ok (), t) := by
  obtain ⟨cause, hmake, hne⟩ := makeDirectory_eq_error hlinks hat
  unfold makeDirectories ancestors makeFirst
  rw [hmake]
  split
  . rfl
  . split
    . contradiction
    . next heq =>
      cases heq
      contradiction
    . next heq =>
      cases heq
      rw [if_pos]
      unfold isDirectory
      rw [hat]

theorem makeDirectories_parent {p : Path} {e : Entry} (hat : t.at? p = .ok (loc, e)) :
    t.makeDirectories (p.parent?.getD ⟨""⟩) = (.ok (), t) := by
  have hempty : t.makeDirectories ⟨""⟩ = (.ok (), t) := rfl
  cases hparent : p.parent? with
  | none => exact hempty
  | some parent =>
    obtain ⟨place, hplace⟩ := exists_at?_parent hat hparent
    rw [Option.getD_some]
    split at hplace
    . next htext =>
      rw [String.isEmpty_iff] at htext
      have hparent : parent = ⟨""⟩ := by rw [← htext]
      rw [hparent, hempty]
    . exact makeDirectories_eq_self hlinks hplace

end Walk

end Tree
end Graft
