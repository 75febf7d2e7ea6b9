import Graft.Proofs.Tree.Growth

/-!
This module contains the places that paths are bound for, whether or not anything is on the way. They
depend on the links of a tree alone, so that writing a file does not change where another one is.
-/

namespace Graft
namespace Tree

/--
Follow the pieces of a path. Whatever stands on the way, unless it is a link, is passed.
-/
def destinationPieces (t : Tree) (follow : Location → List (List Char) → Option Location)
    (loc : Location) : List (List Char) → Option Location
  | [] => some loc
  | piece :: rest =>
    match Component.ofPiece? piece with
    | some (.name name) =>
      match t.lookup (loc ++ [.ofText name]) with
      | some (.link target) => follow (start loc target) (target.text.toList.splitOn '/' ++ rest)
      | _ => t.destinationPieces follow (loc ++ [.ofText name]) rest
    | some .parent => t.destinationPieces follow loc.dropLast rest
    | _ => t.destinationPieces follow loc rest

def destinationFrom (t : Tree) : Nat → Location → List (List Char) → Option Location
  | 0, loc, pieces => t.destinationPieces (fun _ _ => none) loc pieces
  | links + 1, loc, pieces => t.destinationPieces (t.destinationFrom links) loc pieces

def destination? (t : Tree) (p : Path) : Option Location :=
  t.destinationFrom 40 (start t.current p) (p.text.toList.splitOn '/')

def Coincide (t : Tree) (p q : Path) : Prop :=
  ∃ loc, t.destination? p = some loc ∧ t.destination? q = some loc

/--
The content of the file that a path is bound for. If there is none it is empty.
-/
def contentOf (t : Tree) (p : Path) : ByteArray :=
  ((t.destination? p).bind t.fileAt?).getD .empty

structure SameLinks (t t' : Tree) : Prop where
  current : t'.current = t.current
  link : ∀ loc target, t'.lookup loc = some (.link target) ↔ t.lookup loc = some (.link target)

section Follow

variable {t t' : Tree} {follow : Location → List (List Char) → Except FileError Target}
variable {bound : Location → List (List Char) → Option Location}
variable {loc : Location} {pieces : List (List Char)} {target : Target}

theorem destinationPieces_of_isEmpty (h : ∀ piece ∈ pieces, piece.isEmpty) :
    t.destinationPieces bound loc pieces = some loc := by
  induction pieces with
  | nil => rfl
  | cons piece rest ih =>
    rw [List.forall_mem_cons] at h
    have hpiece : Component.ofPiece? piece = none := by
      unfold Component.ofPiece?
      rw [h.1]
      rfl
    unfold destinationPieces
    rw [hpiece]
    exact ih h.2

theorem destinationPieces_of_walkPieces
    (hfollow : ∀ loc pieces, follow loc pieces = .ok target →
      bound loc pieces = some target.place)
    (h : t.walkPieces follow loc pieces = .ok target) :
    t.destinationPieces bound loc pieces = some target.place := by
  induction pieces generalizing loc with
  | nil =>
    unfold walkPieces at h
    split at h
    . cases h
      rfl
    . contradiction
  | cons piece rest ih =>
    unfold walkPieces at h
    unfold destinationPieces
    split at h
    . rcases Component.ofPiece?_cases piece with hpiece | hpiece | hpiece
      . rw [hpiece] at h ⊢
        exact ih h
      . rw [hpiece] at h ⊢
        exact ih h
      . rw [hpiece] at h ⊢
        dsimp only at h ⊢
        split at h
        . contradiction
        . split at h
          . next hfree =>
            rw [hfree]
            split at h
            . next hrest =>
              cases h
              exact destinationPieces_of_isEmpty (List.all_eq_true.mp hrest)
            . contradiction
          . next path hlink =>
            rw [hlink]
            split at h
            . contradiction
            . exact hfollow _ _ h
          . next e hnot hnext =>
            rw [hnext]
            split
            . next path heq => exact absurd (Option.some.inj heq) (hnot path)
            . exact ih h
    . contradiction

theorem destinationFrom_of_walk {links : Nat} (h : t.walk links loc pieces = .ok target) :
    t.destinationFrom links loc pieces = some target.place := by
  induction links generalizing loc pieces with
  | zero =>
    unfold walk at h
    apply destinationPieces_of_walkPieces _ h
    intro _ _ hfollow
    contradiction
  | succ links ih =>
    unfold walk at h
    apply destinationPieces_of_walkPieces _ h
    intro _ _ hfollow
    exact ih hfollow

theorem SameLinks.destinationPieces (h : t.SameLinks t') :
    t'.destinationPieces bound loc pieces = t.destinationPieces bound loc pieces := by
  induction pieces generalizing loc with
  | nil => rfl
  | cons piece rest ih =>
    unfold Tree.destinationPieces
    rcases Component.ofPiece?_cases piece with hpiece | hpiece | hpiece
    . rw [hpiece]
      exact ih
    . rw [hpiece]
      exact ih
    . rw [hpiece]
      dsimp only
      by_cases hlink : ∃ path, t.lookup (loc ++ [.ofText piece]) = some (.link path)
      . obtain ⟨path, hlink⟩ := hlink
        rw [hlink, (h.link _ _).mpr hlink]
      . have hnot := not_exists.mp hlink
        rw [ih]
        split
        . next path hlink' => exact absurd ((h.link _ _).mp hlink') (hnot path)
        . rfl

theorem SameLinks.destinationFrom (h : t.SameLinks t') (links : Nat) :
    t'.destinationFrom links = t.destinationFrom links := by
  induction links with
  | zero =>
    funext loc pieces
    exact h.destinationPieces
  | succ links ih =>
    funext loc pieces
    unfold Tree.destinationFrom
    rw [ih]
    exact h.destinationPieces

theorem NoLinks.destinationPieces (h : t.NoLinks) :
    t.destinationPieces bound loc pieces = some (Path.trace loc pieces) := by
  induction pieces generalizing loc with
  | nil => rfl
  | cons piece rest ih =>
    unfold Tree.destinationPieces
    rw [Path.trace_cons]
    rcases Component.ofPiece?_cases piece with hpiece | hpiece | hpiece
    . rw [hpiece, Path.trace_none loc hpiece]
      exact ih
    . rw [hpiece, Path.trace_parent loc hpiece]
      exact ih
    . rw [hpiece, Path.trace_name loc hpiece]
      dsimp only
      split
      . next path hlink => exact absurd hlink (h _ _)
      . exact ih

end Follow

section Destination

variable {t t' t'' : Tree} {p q : Path}

theorem destination?_of_resolve {target : Target} (h : t.resolve p = .ok target) :
    t.destination? p = some target.place := by
  unfold resolve at h
  split at h
  . contradiction
  . split at h
    . contradiction
    . split at h
      . contradiction
      . exact destinationFrom_of_walk h

theorem NoLinks.destination? (h : t.NoLinks) (p : Path) :
    t.destination? p = some (t.locate p) := by
  unfold locate
  rw [Path.locate_eq_trace]
  exact h.destinationPieces

theorem NoLinks.coincide_iff (h : t.NoLinks) : t.Coincide p q ↔ t.locate p = t.locate q := by
  unfold Coincide
  simp [h.destination?, eq_comm]

namespace SameLinks

theorem refl (t : Tree) : t.SameLinks t :=
  ⟨rfl, fun _ _ => Iff.rfl⟩

theorem trans (h : t.SameLinks t') (h' : t'.SameLinks t'') : t.SameLinks t'' where
  current := h'.current.trans h.current
  link loc target := (h'.link loc target).trans (h.link loc target)

theorem destination? (h : t.SameLinks t') (p : Path) :
    t'.destination? p = t.destination? p := by
  unfold Tree.destination?
  rw [h.destinationFrom, h.current]

theorem coincide_iff (h : t.SameLinks t') : t'.Coincide p q ↔ t.Coincide p q := by
  unfold Coincide
  simp only [h.destination?]

theorem put {loc : Location} {e : Entry} (hloc : loc ≠ [])
    (hlookup : ∀ target, t.lookup loc ≠ some (.link target)) (he : ∀ target, e ≠ .link target) :
    t.SameLinks (t.put loc e) where
  current := rfl
  link loc' target := by
    rw [lookup_put hloc]
    split
    . next heq =>
      subst heq
      simp [hlookup, he]
    . rfl

end SameLinks

theorem makeFirst_sameLinks {paths : List Path} {result : Except FileError Unit}
    (h : t.makeFirst paths = (result, t')) :
    t.SameLinks t' := by
  apply makeFirst_induct SameLinks.refl _ _ h
  . intro _ _ _ h h'
    exact h.trans h'
  . intro _ _ hfree
    apply SameLinks.put (ne_nil_of_lookup_eq_none hfree)
    . simp [hfree]
    . simp

theorem contentOf_of_read {content : ByteArray} (h : t.read p = .ok content) :
    t.contentOf p = content := by
  obtain ⟨loc, hat⟩ := at?_of_read h
  unfold at? at hat
  obtain ⟨target, hresolve, hat⟩ := Except.exists_of_bind_eq_ok hat
  cases target with
  | free => contradiction
  | found =>
    cases hat
    obtain ⟨-, hlookup⟩ := resolve_standsAt_place hresolve
    unfold contentOf
    rw [destination?_of_resolve hresolve, Option.bind_some, fileAt?_eq_some_iff.mpr hlookup]
    rfl

theorem modify_destination {f : ByteArray → ByteArray} (h : t.modify p f = .ok t') :
    t.SameLinks t' ∧ ∃ loc, t.destination? p = some loc ∧ ∀ loc', t'.fileAt? loc'
      = if loc' = loc then some (f ((t.fileAt? loc).getD .empty)) else t.fileAt? loc' := by
  obtain ⟨target, hresolve, -, hne, hlookup, rfl⟩ := exists_put_of_modify h
  have hlink : ∀ path, t.lookup target.place ≠ some (.link path) := by
    intro path hlink
    simp [hlink] at hlookup
  refine ⟨.put hne hlink (by simp), target.place, destination?_of_resolve hresolve, ?_⟩
  intro loc'
  rw [fileAt?_put hne]

end Destination

end Tree
end Graft
