import Graft.Distinct
import Graft.Proofs.Path.Locate

/-!
This module contains the regular files of a tree without links. In such a tree a path leads to the
place that its text stands for, and an operation changes the file at that place and no other.
-/

namespace Graft

theorem Except.exists_of_bind_eq_ok {x : Except ε α} {f : α → Except ε β} {b : β}
    (h : x >>= f = .ok b) :
    ∃ a, x = .ok a ∧ f a = .ok b := by
  cases x with
  | error => contradiction
  | ok a => exact ⟨a, rfl, h⟩

theorem Except.eq_error_or_of_bind_eq_error {x : Except ε α} {f : α → Except ε β} {e : ε}
    (h : x >>= f = .error e) :
    x = .error e ∨ ∃ a, x = .ok a ∧ f a = .error e := by
  cases x with
  | error =>
    cases h
    exact Or.inl rfl
  | ok a => exact Or.inr ⟨a, rfl, h⟩

namespace Tree

def fileAt? (t : Tree) (loc : Location) : Option ByteArray :=
  match t.lookup loc with
  | some (.file content) => some content
  | _ => none

def locate (t : Tree) (p : Path) : Location :=
  p.locate t.current

def NoLinks (t : Tree) : Prop :=
  ∀ loc target, t.lookup loc ≠ some (.link target)

def filePlaces (t : Tree) (root : Location) : List Location :=
  (distinct t.entries.keys).filter fun loc => root.isPrefixOf loc && (t.fileAt? loc).isSome

def Target.StandsAt (t : Tree) (loc : Location) : Target → Prop
  | .found loc' e => loc' = loc ∧ t.lookup loc = some e
  | .free loc' _ => loc' = loc ∧ t.lookup loc = none

/--
The second tree is the first after regular files at some places were written and directories
anywhere were created.
-/
structure ChangesOnly (places : Location → Prop) (t t' : Tree) : Prop where
  current : t'.current = t.current
  noLinks : t.NoLinks → t'.NoLinks
  file : ∀ loc, ¬ places loc → t'.fileAt? loc = t.fileAt? loc
  kept : ∀ loc, (t.fileAt? loc).isSome → (t'.fileAt? loc).isSome

theorem fileAt?_eq_some_iff {t : Tree} {loc : Location} {content : ByteArray} :
    t.fileAt? loc = some content ↔ t.lookup loc = some (.file content) := by
  unfold fileAt?
  split <;> simp_all

theorem ne_nil_of_lookup_eq_none {t : Tree} {loc : Location} (h : t.lookup loc = none) :
    loc ≠ [] := by
  intro hloc
  simp [hloc, lookup] at h

theorem ne_nil_of_lookup_eq_file {t : Tree} {loc : Location} {content : ByteArray}
    (h : t.lookup loc = some (.file content)) :
    loc ≠ [] := by
  intro hloc
  simp [hloc, lookup] at h

theorem mem_keys_of_lookup {t : Tree} {loc : Location} (hloc : loc ≠ [])
    (h : (t.lookup loc).isSome) :
    loc ∈ t.entries.keys := by
  by_contra hkey
  rw [← Register.get?_eq_none_iff] at hkey
  unfold lookup at h
  rw [if_neg hloc, hkey] at h
  contradiction

theorem nodup_filePlaces (t : Tree) (root : Location) : (t.filePlaces root).Nodup := by
  apply (nodup_distinct t.entries.keys).filter

theorem mem_filePlaces {t : Tree} {root loc : Location} :
    loc ∈ t.filePlaces root ↔ root <+: loc ∧ (t.fileAt? loc).isSome := by
  unfold filePlaces
  rw [List.mem_filter, mem_distinct, Bool.and_eq_true, List.isPrefixOf_iff_prefix]
  constructor
  . intro h
    exact h.2
  . intro h
    obtain ⟨content, hcontent⟩ := Option.isSome_iff_exists.mp h.2
    have hfile := fileAt?_eq_some_iff.mp hcontent
    exact ⟨mem_keys_of_lookup (ne_nil_of_lookup_eq_file hfile) (by rw [hfile]; rfl), h⟩

theorem fileAt?_put {t : Tree} {loc : Location} (h : loc ≠ []) (e : Entry) (loc' : Location) :
    (t.put loc e).fileAt? loc'
      =
    if loc' = loc then (match e with | .file content => some content | _ => none)
    else t.fileAt? loc' := by
  unfold fileAt?
  rw [lookup_put h]
  by_cases hloc : loc' = loc
  . simp only [hloc, ↓reduceIte]
    cases e <;> rfl
  . simp only [hloc, ↓reduceIte]

theorem noLinks_of_forall_entries {t : Tree}
    (h : ∀ entry ∈ t.entries.entries, ∀ target, entry.2 ≠ .link target) :
    t.NoLinks := by
  intro loc target
  unfold lookup Register.get?
  split
  . simp
  . generalize t.entries.entries = entries at h ⊢
    induction entries with
    | nil => simp [Register.get?.go]
    | cons entry rest ih =>
      rw [List.forall_mem_cons] at h
      unfold Register.get?.go
      split
      . rw [ne_eq, Option.some_inj]
        exact h.1 target
      . exact ih h.2

theorem NoLinks.put {t : Tree} (h : t.NoLinks) {loc : Location} {e : Entry} (hloc : loc ≠ [])
    (he : ∀ target, e ≠ .link target) :
    (t.put loc e).NoLinks := by
  intro loc' target
  rw [lookup_put hloc]
  split
  . simpa using he target
  . apply h

namespace ChangesOnly

variable {places places' : Location → Prop} {t t' t'' : Tree}

theorem refl (places : Location → Prop) (t : Tree) : ChangesOnly places t t :=
  ⟨rfl, id, fun _ _ => rfl, fun _ => id⟩

theorem trans (h : ChangesOnly places t t') (h' : ChangesOnly places t' t'') :
    ChangesOnly places t t'' where
  current := h'.current.trans h.current
  noLinks hlinks := h'.noLinks (h.noLinks hlinks)
  file loc hloc := (h'.file loc hloc).trans (h.file loc hloc)
  kept loc hloc := h'.kept loc (h.kept loc hloc)

theorem mono (h : ChangesOnly places t t') (hplaces : ∀ loc, places loc → places' loc) :
    ChangesOnly places' t t' where
  current := h.current
  noLinks := h.noLinks
  file loc hloc := by
    apply h.file
    intro h
    exact hloc (hplaces loc h)
  kept := h.kept

theorem locate (h : ChangesOnly places t t') (p : Path) : t'.locate p = t.locate p := by
  unfold Tree.locate
  rw [h.current]

theorem put_file {loc : Location} (hloc : loc ≠ []) (content : ByteArray) :
    ChangesOnly (· = loc) t (t.put loc (.file content)) where
  current := rfl
  noLinks hlinks := hlinks.put hloc (by simp)
  file loc' hloc' := by
    rw [fileAt?_put hloc]
    simp [hloc']
  kept loc' hkept := by
    rw [fileAt?_put hloc]
    split
    . rfl
    . exact hkept

theorem put_directory {loc : Location} (hfree : t.lookup loc = none) :
    ChangesOnly places t (t.put loc .directory) where
  current := rfl
  noLinks hlinks := hlinks.put (ne_nil_of_lookup_eq_none hfree) (by simp)
  file loc' _ := by
    rw [fileAt?_put (ne_nil_of_lookup_eq_none hfree)]
    split
    . next heq => simp [heq, fileAt?, hfree]
    . rfl
  kept loc' hkept := by
    rw [fileAt?_put (ne_nil_of_lookup_eq_none hfree)]
    split
    . next heq => simp [heq, fileAt?, hfree] at hkept
    . exact hkept

end ChangesOnly

theorem at?_of_read {t : Tree} {p : Path} {content : ByteArray} (h : t.read p = .ok content) :
    ∃ loc, t.at? p = .ok (loc, .file content) := by
  unfold read at h
  obtain ⟨⟨loc, e⟩, hat, h⟩ := Except.exists_of_bind_eq_ok h
  cases e with
  | file =>
    cases h
    exact ⟨loc, hat⟩
  | directory => contradiction
  | link => contradiction

theorem read_of_at? {t : Tree} {p : Path} {loc : Location} {content : ByteArray}
    (h : t.at? p = .ok (loc, .file content)) :
    t.read p = .ok content := by
  unfold read
  rw [h]
  rfl

theorem isFile_of_read {t : Tree} {p : Path} {content : ByteArray} (h : t.read p = .ok content) :
    t.isFile p := by
  obtain ⟨_, hat⟩ := at?_of_read h
  unfold isFile
  rw [hat]

theorem pathExists_of_read {t : Tree} {p : Path} {content : ByteArray}
    (h : t.read p = .ok content) :
    t.pathExists p := by
  obtain ⟨_, hat⟩ := at?_of_read h
  unfold pathExists
  rw [hat]
  rfl

theorem modify_of_at? {t : Tree} {p : Path} {loc : Location} {content : ByteArray}
    (h : t.at? p = .ok (loc, .file content)) (f : ByteArray → ByteArray) :
    t.modify p f = .ok (t.put loc (.file (f content))) := by
  unfold at? at h
  obtain ⟨target, hresolve, h⟩ := Except.exists_of_bind_eq_ok h
  unfold modify
  rw [hresolve]
  cases target with
  | found =>
    cases h
    rfl
  | free => contradiction

theorem makeDirectory_eq_ok {t t' : Tree} {p : Path} (h : t.makeDirectory p = .ok t') :
    ∃ loc, t.lookup loc = none ∧ t' = t.put loc .directory := by
  unfold makeDirectory at h
  split at h
  . obtain ⟨⟨loc, e⟩, hat, h⟩ := Except.exists_of_bind_eq_ok h
    cases e with
    | directory =>
      dsimp only at h
      split at h
      . contradiction
      . split at h
        . contradiction
        . next hfree =>
          cases h
          exact ⟨_, by simpa using hfree, rfl⟩
    | file => contradiction
    | link => contradiction
  . obtain ⟨_, _, h⟩ := Except.exists_of_bind_eq_ok h
    contradiction

/--
What the creation of a directory at a free place brings about, the creation of all directories on
the way does.
-/
theorem makeFirst_induct {R : Tree → Tree → Prop} (hrefl : ∀ t, R t t)
    (htrans : ∀ t t' t'', R t t' → R t' t'' → R t t'')
    (hput : ∀ t loc, t.lookup loc = none → R t (t.put loc .directory)) {t t' : Tree}
    {paths : List Path} {result : Except FileError Unit} (h : t.makeFirst paths = (result, t')) :
    R t t' := by
  have hmade : ∀ {t t' p}, t.makeDirectory p = .ok t' → R t t' := by
    intro t t' p hmake
    obtain ⟨loc, hfree, rfl⟩ := makeDirectory_eq_ok hmake
    exact hput t loc hfree
  induction paths generalizing t t' result with
  | nil =>
    cases h
    apply hrefl
  | cons p paths ih =>
    unfold makeFirst at h
    split at h
    . cases h
      apply hrefl
    . split at h
      . next hmake =>
        cases h
        exact hmade hmake
      . split at h
        . next hfirst =>
          cases h
          exact ih hfirst
        . next hfirst =>
          apply htrans _ _ _ (ih hfirst)
          split at h
          . next hmake =>
            cases h
            exact hmade hmake
          . split at h <;> cases h <;> apply hrefl
      . split at h <;> cases h <;> apply hrefl

theorem makeFirst_changes {places : Location → Prop} {t t' : Tree} {paths : List Path}
    {result : Except FileError Unit} (h : t.makeFirst paths = (result, t')) :
    ChangesOnly places t t' := by
  apply makeFirst_induct (ChangesOnly.refl places) _ _ h
  . intro _ _ _ h h'
    exact h.trans h'
  . intro _ _ hfree
    exact ChangesOnly.put_directory hfree

section Walk

variable {t : Tree} (hlinks : t.NoLinks)

include hlinks

theorem walkPieces_standsAt {follow : Location → List (List Char) → Except FileError Target}
    {loc : Location} {pieces : List (List Char)} {target : Target}
    (h : t.walkPieces follow loc pieces = .ok target) :
    target.StandsAt t (Path.trace loc pieces) := by
  induction pieces generalizing loc with
  | nil =>
    unfold walkPieces at h
    split at h
    . next heq =>
      cases h
      exact ⟨rfl, heq⟩
    . contradiction
  | cons piece rest ih =>
    unfold walkPieces at h
    rw [Path.trace_cons]
    split at h
    . rcases Component.ofPiece?_cases piece with hpiece | hpiece | hpiece
      . rw [hpiece] at h
        rw [Path.trace_none loc hpiece]
        apply ih h
      . rw [hpiece] at h
        rw [Path.trace_parent loc hpiece]
        apply ih h
      . rw [hpiece] at h
        rw [Path.trace_name loc hpiece]
        dsimp only at h
        split at h
        . contradiction
        . split at h
          . next hfree =>
            split at h
            . next hrest =>
              cases h
              -- Only separators are left behind a free name.
              have : Path.trace (loc ++ [.ofText piece]) rest = loc ++ [.ofText piece] := by
                apply Path.trace_of_isNone
                intro piece hpiece
                have := List.all_eq_true.mp hrest piece hpiece
                simp_all [Component.ofPiece?]
              rw [this]
              exact ⟨rfl, hfree⟩
            . contradiction
          . next target' hlink =>
            exact absurd hlink (hlinks _ _)
          . apply ih h
    . contradiction

theorem resolve_standsAt {p : Path} {target : Target} (h : t.resolve p = .ok target) :
    target.StandsAt t (t.locate p) := by
  unfold resolve at h
  split at h
  . contradiction
  . split at h
    . contradiction
    . split at h
      . contradiction
      . unfold locate
        rw [Path.locate_eq_trace]
        unfold walk at h
        apply walkPieces_standsAt hlinks h

theorem at?_eq_ok {p : Path} {loc : Location} {e : Entry} (h : t.at? p = .ok (loc, e)) :
    loc = t.locate p ∧ t.lookup (t.locate p) = some e := by
  unfold at? at h
  obtain ⟨target, hresolve, h⟩ := Except.exists_of_bind_eq_ok h
  have hstands := resolve_standsAt hlinks hresolve
  cases target with
  | found loc' e' =>
    cases h
    exact hstands
  | free => contradiction

theorem read_eq_ok {p : Path} {content : ByteArray} (h : t.read p = .ok content) :
    t.fileAt? (t.locate p) = some content := by
  obtain ⟨loc, hat⟩ := at?_of_read h
  rw [fileAt?_eq_some_iff]
  exact (at?_eq_ok hlinks hat).2

theorem modify_eq_ok {p : Path} {f : ByteArray → ByteArray} {t' : Tree}
    (h : t.modify p f = .ok t') :
    t.locate p ≠ []
      ∧ t' = t.put (t.locate p) (.file (f ((t.fileAt? (t.locate p)).getD .empty))) := by
  unfold modify at h
  obtain ⟨target, hresolve, h⟩ := Except.exists_of_bind_eq_ok h
  have hstands := resolve_standsAt hlinks hresolve
  split at h
  . cases h
    obtain ⟨rfl, hlookup⟩ := hstands
    refine ⟨ne_nil_of_lookup_eq_file hlookup, ?_⟩
    rw [fileAt?_eq_some_iff.mpr hlookup]
    rfl
  . contradiction
  . contradiction
  . cases h
    obtain ⟨rfl, hlookup⟩ := hstands
    refine ⟨ne_nil_of_lookup_eq_none hlookup, ?_⟩
    simp [fileAt?, hlookup]

theorem modify_changes {p : Path} {f : ByteArray → ByteArray} {t' : Tree}
    (h : t.modify p f = .ok t') :
    ChangesOnly (· = t.locate p) t t' := by
  obtain ⟨hloc, rfl⟩ := modify_eq_ok hlinks h
  apply ChangesOnly.put_file hloc

end Walk

def oneHeader : Tree :=
  ((⟨.empty, []⟩ : Tree).put (.ofTexts ["d"]) .directory).put (.ofTexts ["d", "a.h"])
    (.file "x".toUTF8)

theorem noLinks_oneHeader : oneHeader.NoLinks := by
  have hempty : (⟨.empty, []⟩ : Tree).NoLinks := by
    intro loc target
    unfold Tree.lookup
    split <;> simp
  unfold oneHeader
  apply NoLinks.put
  . apply hempty.put
    . simp
    . simp
  . simp
  . simp

end Tree
end Graft
