import Graft.Proofs.Tree.Files

/-!
This module contains trees that grow: directories and links stay as they are, and files stay files,
whatever their content. A path that led somewhere leads there for good.
-/

namespace Graft
namespace Tree

/--
The second tree is the first after files were written and free places were filled.
-/
structure Grows (t t' : Tree) : Prop where
  current : t'.current = t.current
  link : ∀ loc target, t.lookup loc = some (.link target) → t'.lookup loc = some (.link target)
  directory : ∀ loc, t.lookup loc = some .directory → t'.lookup loc = some .directory
  file : ∀ loc, (t.fileAt? loc).isSome → (t'.fileAt? loc).isSome

structure Writes (t t' : Tree) (p : Path) (loc : Location) (content : ByteArray) : Prop where
  grows : t.Grows t'
  found : t'.at? p = .ok (loc, .file content)
  others : ∀ loc', loc' ≠ loc → t'.fileAt? loc' = t.fileAt? loc'

def Target.place : Target → Location
  | .found loc _ => loc
  | .free loc _ => loc

namespace Grows

variable {t t' t'' : Tree}

theorem refl (t : Tree) : t.Grows t :=
  ⟨rfl, fun _ _ => id, fun _ => id, fun _ => id⟩

theorem trans (h : t.Grows t') (h' : t'.Grows t'') : t.Grows t'' where
  current := h'.current.trans h.current
  link loc target hlink := h'.link loc target (h.link loc target hlink)
  directory loc hloc := h'.directory loc (h.directory loc hloc)
  file loc hloc := h'.file loc (h.file loc hloc)

theorem put {loc : Location} {e : Entry} (hloc : loc ≠ [])
    (h : t.lookup loc = none
      ∨ ∃ existing content, t.lookup loc = some (.file existing) ∧ e = .file content) :
    t.Grows (t.put loc e) where
  current := rfl
  link loc' target hlink := by
    rw [lookup_put hloc, if_neg]
    . exact hlink
    . rintro rfl
      simp [hlink] at h
  directory loc' hdirectory := by
    rw [lookup_put hloc, if_neg]
    . exact hdirectory
    . rintro rfl
      simp [hdirectory] at h
  file loc' hfile := by
    rw [fileAt?_put hloc]
    split
    . next heq =>
      rcases h with hfree | ⟨existing, content, _, rfl⟩
      . simp [heq, fileAt?, hfree] at hfile
      . rfl
    . exact hfile

theorem lookup (h : t.Grows t') {loc : Location} {e : Entry} (hlookup : t.lookup loc = some e)
    (he : ∀ target, e ≠ .link target) :
    ∃ e', t'.lookup loc = some e' ∧ ∀ target, e' ≠ .link target := by
  cases e with
  | directory => exact ⟨_, h.directory loc hlookup, by simp⟩
  | link target => exact absurd rfl (he target)
  | file content =>
    have hfile := h.file loc (by rw [fileAt?_eq_some_iff.mpr hlookup]; rfl)
    obtain ⟨content', hcontent'⟩ := Option.isSome_iff_exists.mp hfile
    exact ⟨_, fileAt?_eq_some_iff.mp hcontent', by simp⟩

end Grows

theorem makeFirst_grows {t t' : Tree} {paths : List Path} {result : Except FileError Unit}
    (h : t.makeFirst paths = (result, t')) :
    t.Grows t' := by
  apply makeFirst_induct Grows.refl _ _ h
  . intro _ _ _ h h'
    exact h.trans h'
  . intro _ _ hfree
    exact Grows.put (ne_nil_of_lookup_eq_none hfree) (Or.inl hfree)

section Walk

variable {t t' : Tree} {follow follow' : Location → List (List Char) → Except FileError Target}
variable {loc : Location} {pieces : List (List Char)} {target : Target}

theorem walkPieces_standsAt_place
    (hfollow : ∀ loc pieces, follow loc pieces = .ok target → target.StandsAt t target.place)
    (h : t.walkPieces follow loc pieces = .ok target) :
    target.StandsAt t target.place := by
  induction pieces generalizing loc with
  | nil =>
    unfold walkPieces at h
    split at h
    . next hlookup =>
      cases h
      exact ⟨rfl, hlookup⟩
    . contradiction
  | cons piece rest ih =>
    unfold walkPieces at h
    split at h
    . rcases Component.ofPiece?_cases piece with hpiece | hpiece | hpiece
      . rw [hpiece] at h
        apply ih h
      . rw [hpiece] at h
        apply ih h
      . rw [hpiece] at h
        dsimp only at h
        split at h
        . contradiction
        . split at h
          . next hfree =>
            split at h
            . cases h
              exact ⟨rfl, hfree⟩
            . contradiction
          . split at h
            . contradiction
            . apply hfollow _ _ h
          . apply ih h
    . contradiction

theorem walk_standsAt_place {links : Nat} (h : t.walk links loc pieces = .ok target) :
    target.StandsAt t target.place := by
  induction links generalizing loc pieces with
  | zero =>
    unfold walk at h
    apply walkPieces_standsAt_place _ h
    intro _ _ hfollow
    contradiction
  | succ links ih =>
    unfold walk at h
    apply walkPieces_standsAt_place _ h
    intro _ _ hfollow
    exact ih hfollow

/--
A walk in a tree that has grown ends at the same place, and finds what stands there now.
-/
theorem walkPieces_of_grows (h : t.Grows t') (hslash : ∀ free, target ≠ .free free true) {e : Entry}
    (hlookup : t'.lookup target.place = some e) (he : ∀ path, e ≠ .link path)
    (hfollow : ∀ loc pieces, follow loc pieces = .ok target →
      follow' loc pieces = .ok (.found target.place e))
    (hwalk : t.walkPieces follow loc pieces = .ok target) :
    t'.walkPieces follow' loc pieces = .ok (.found target.place e) := by
  induction pieces generalizing loc with
  | nil =>
    unfold walkPieces at hwalk ⊢
    split at hwalk
    . cases hwalk
      dsimp only [Target.place] at hlookup ⊢
      rw [hlookup]
    . contradiction
  | cons piece rest ih =>
    unfold walkPieces at hwalk ⊢
    split at hwalk
    . next hdirectory =>
      rw [if_pos (h.directory loc hdirectory)]
      rcases Component.ofPiece?_cases piece with hpiece | hpiece | hpiece
      . rw [hpiece] at hwalk ⊢
        apply ih hwalk
      . rw [hpiece] at hwalk ⊢
        apply ih hwalk
      . rw [hpiece] at hwalk ⊢
        dsimp only at hwalk ⊢
        split at hwalk
        . contradiction
        . next hsize =>
          rw [if_neg hsize]
          split at hwalk
          . split at hwalk
            . cases hwalk
              -- No separator follows the name, so nothing is left of the path.
              have hrest : rest = [] := by
                by_contra hne
                exact hslash (loc ++ [.ofText piece]) (by simp [hne])
              subst hrest
              dsimp only [Target.place] at hlookup ⊢
              rw [hlookup]
              split
              . contradiction
              . next path heq => exact absurd (Option.some.inj heq) (he path)
              . unfold walkPieces
                rw [hlookup]
            . contradiction
          . next path hlink =>
            rw [h.link _ _ hlink]
            dsimp only
            split at hwalk
            . contradiction
            . next hempty =>
              rw [if_neg hempty]
              exact hfollow _ _ hwalk
          . next e₁ hnot hnext =>
            obtain ⟨e₂, hnext', hnot'⟩ := h.lookup hnext hnot
            rw [hnext']
            split
            . contradiction
            . next path heq => exact absurd (Option.some.inj heq) (hnot' path)
            . apply ih hwalk
    . contradiction

theorem walk_of_grows (h : t.Grows t') (hslash : ∀ free, target ≠ .free free true) {e : Entry}
    (hlookup : t'.lookup target.place = some e) (he : ∀ path, e ≠ .link path) {links : Nat}
    (hwalk : t.walk links loc pieces = .ok target) :
    t'.walk links loc pieces = .ok (.found target.place e) := by
  induction links generalizing loc pieces with
  | zero =>
    unfold walk at hwalk ⊢
    apply walkPieces_of_grows h hslash hlookup he _ hwalk
    intro _ _ hfollow
    contradiction
  | succ links ih =>
    unfold walk at hwalk ⊢
    apply walkPieces_of_grows h hslash hlookup he _ hwalk
    intro _ _ hfollow
    exact ih hfollow

end Walk

section Reach

variable {t t' : Tree}

theorem resolve_standsAt_place {p : Path} {target : Target} (h : t.resolve p = .ok target) :
    target.StandsAt t target.place := by
  unfold resolve at h
  split at h
  . contradiction
  . split at h
    . contradiction
    . split at h
      . contradiction
      . exact walk_standsAt_place h

theorem at?_of_resolve (h : t.Grows t') {p : Path} {target : Target}
    (hresolve : t.resolve p = .ok target) (hslash : ∀ free, target ≠ .free free true) {e : Entry}
    (hlookup : t'.lookup target.place = some e) (he : ∀ path, e ≠ .link path) :
    t'.at? p = .ok (target.place, e) := by
  have hfound : t'.resolve p = .ok (.found target.place e) := by
    unfold resolve at hresolve ⊢
    split at hresolve
    . contradiction
    . next hempty =>
      split at hresolve
      . contradiction
      . next hnul =>
        split at hresolve
        . contradiction
        . next hlong =>
          rw [if_neg hempty, if_neg hnul, if_neg hlong, h.current]
          exact walk_of_grows h hslash hlookup he hresolve
  unfold at?
  rw [hfound]
  rfl

theorem read_of_grows (hlinks : t.NoLinks) (h : t.Grows t') {p : Path}
    {content content' : ByteArray} (hread : t.read p = .ok content)
    (hfile : t'.fileAt? (t.locate p) = some content') :
    t'.read p = .ok content' := by
  obtain ⟨loc, hat⟩ := at?_of_read hread
  obtain ⟨rfl, -⟩ := at?_eq_ok hlinks hat
  unfold at? at hat
  obtain ⟨target, hresolve, hat⟩ := Except.exists_of_bind_eq_ok hat
  cases target with
  | found loc' e =>
    cases hat
    have hlookup := fileAt?_eq_some_iff.mp hfile
    exact read_of_at? (at?_of_resolve h hresolve (by simp) hlookup (by simp))
  | free => contradiction

theorem Writes.read {p : Path} {loc : Location} {content : ByteArray}
    (h : t.Writes t' p loc content) :
    t'.read p = .ok content :=
  read_of_at? h.found

theorem exists_put_of_modify {p : Path} {f : ByteArray → ByteArray} (h : t.modify p f = .ok t') :
    ∃ target, t.resolve p = .ok target ∧ (∀ free, target ≠ .free free true) ∧ target.place ≠ []
      ∧ (t.lookup target.place = none ∨ ∃ existing, t.lookup target.place = some (.file existing))
      ∧ t' = t.put target.place (.file (f ((t.fileAt? target.place).getD .empty))) := by
  unfold modify at h
  obtain ⟨target, hresolve, h⟩ := Except.exists_of_bind_eq_ok h
  have hstands := resolve_standsAt_place hresolve
  refine ⟨target, hresolve, ?_⟩
  split at h
  . next loc existing =>
    cases h
    obtain ⟨-, hlookup⟩ := hstands
    dsimp only [Target.place] at hlookup ⊢
    refine ⟨by simp, ne_nil_of_lookup_eq_file hlookup, Or.inr ⟨existing, hlookup⟩, ?_⟩
    rw [fileAt?_eq_some_iff.mpr hlookup]
    rfl
  . contradiction
  . contradiction
  . next loc =>
    cases h
    obtain ⟨-, hlookup⟩ := hstands
    dsimp only [Target.place] at hlookup ⊢
    refine ⟨by simp, ne_nil_of_lookup_eq_none hlookup, Or.inl hlookup, ?_⟩
    simp [fileAt?, hlookup]

theorem modify_writes {p : Path} {f : ByteArray → ByteArray} (h : t.modify p f = .ok t') :
    ∃ loc existing, t.Writes t' p loc (f existing) := by
  obtain ⟨target, hresolve, hslash, hne, hlookup, rfl⟩ := exists_put_of_modify h
  have hgrows : t.Grows (t.put target.place
      (.file (f ((t.fileAt? target.place).getD .empty)))) := by
    apply Grows.put hne
    apply hlookup.imp_right
    rintro ⟨existing, hexisting⟩
    exact ⟨existing, _, hexisting, rfl⟩
  refine ⟨target.place, (t.fileAt? target.place).getD .empty, hgrows, ?_,
    (ChangesOnly.put_file hne _).file⟩
  apply at?_of_resolve hgrows hresolve hslash _ (by simp)
  rw [lookup_put hne, if_pos rfl]

end Reach

end Tree
end Graft
