import Graft.Digest.Sha256
import Graft.Proofs.Closure.Materialize
import Graft.Proofs.Closure.Targets

/-!
This module contains what a materializer does not do to the files that it has written itself,
whatever happens to the tree between its calls.
-/

namespace Graft
namespace Materializer

/--
Calls on one materializer, with anything done to the tree between two of them. The list has the
records that the calls have returned, oldest first.
-/
inductive Session (m₀ : Materializer) (t₀ : Tree) :
    List MaterializedHeader → Materializer → Tree → Prop where
  | start : Session m₀ t₀ [] m₀ t₀
  | call {returned : List MaterializedHeader} {m m' : Materializer} {t t' : Tree}
      {request : MissingInclude} {iteration : Nat}
      {result : Except ClosureError MaterializedHeader} (h : Session m₀ t₀ returned m t)
      (hcall : m.materialize t request iteration = (result, m', t')) :
      Session m₀ t₀ (returned ++ result.toOption.toList) m' t'
  | edit {returned : List MaterializedHeader} {m : Materializer} {t t' : Tree}
      (h : Session m₀ t₀ returned m t) (hlinks : t'.NoLinks) :
      Session m₀ t₀ returned m t'

/--
The next call leaves the file at a path as it is.
-/
structure Protects (m : Materializer) (t : Tree) (p : Path) : Prop where
  /-- The file is not changed by the copy step, for whatever header it is. -/
  kept : ∀ {request iteration r content result m' t'},
    m.decide t request iteration = .ok (r, content) → m.copy t r content = (result, m', t') →
    r.targetPath.sameAs p ∨ separates m.policy.namePrefixText → t.pathExists p →
      t'.fileAt? (t.locate p) = t.fileAt? (t.locate p)
  /-- A header with another content that goes there is refused. -/
  refused : ∀ {request iteration paths content existing},
    m.pathsFor request = .ok paths → paths.target.sameAs p →
    t.read paths.donor = .ok content → t.read paths.target = .ok existing → existing ≠ content →
      m.materialize t request iteration
        = (.error (.alreadyExistsDiffers request.header paths.target), m, t)

structure Remembers (m₀ m : Materializer) (returned : List MaterializedHeader) : Prop where
  settings : m₀.SameSettings m
  log : m.log = m₀.log ++ returned
  target : ∀ r ∈ returned, ∃ request paths,
    m₀.pathsFor request = .ok paths ∧ r.targetPath = paths.target
  written : ∀ r ∈ returned, r.action ≠ .alreadyPresent → m.hasWritten r.targetPath
  order : returned.Pairwise fun r r' => r.targetPath.sameAs r'.targetPath →
    r.action ≠ .alreadyPresent → r'.action ≠ .overwritten

theorem hasWritten_of_sameAs {m : Materializer} {p q : Path} (h : m.hasWritten p)
    (hsame : p.sameAs q) :
    m.hasWritten q := by
  unfold hasWritten at *
  rw [List.any_eq_true] at *
  obtain ⟨q', hmem, hq'⟩ := h
  refine ⟨q', hmem, ?_⟩
  rw [Path.sameAs_iff] at *
  exact hq'.trans hsame

theorem actionFor_of_hasWritten {m : Materializer} {t : Tree} {header : String} {target : Path}
    {content : ByteArray} {action : CopyAction} (hwritten : m.hasWritten target)
    (h : m.actionFor t header target content = .ok action) :
    action ≠ .overwritten ∧ (t.pathExists target → action = .alreadyPresent) := by
  unfold actionFor at h
  rw [hwritten] at h
  split at h
  . split at h
    . contradiction
    . split at h
      . cases h
        simp
      . simp at h
  . next hexists =>
    cases h
    simp [hexists]

theorem hasWritten_copy {m m' : Materializer} {t t' : Tree} {r : MaterializedHeader}
    {content : ByteArray} {result : Except ClosureError Unit}
    (h : m.copy t r content = (result, m', t')) :
    (∀ p, m.hasWritten p → m'.hasWritten p)
      ∧ (result = .ok () → r.action ≠ .alreadyPresent → m'.hasWritten r.targetPath) := by
  cases copy_outcome h with
  | present hpresent => exact ⟨fun _ => id, fun _ hnew => absurd hpresent hnew⟩
  | failed => exact ⟨fun _ => id, fun hok => nomatch hok⟩
  | written =>
    unfold hasWritten
    constructor
    . intro p hp
      rw [List.any_cons, hp, Bool.or_true]
    . intro _ _
      simp [Path.sameAs]

theorem Remembers.materialize {m₀ m m' : Materializer} {t t' : Tree}
    {returned : List MaterializedHeader} (h : m₀.Remembers m returned) (hlinks : t.NoLinks)
    {request : MissingInclude} {iteration : Nat} {result : Except ClosureError MaterializedHeader}
    (hcall : m.materialize t request iteration = (result, m', t')) :
    m₀.Remembers m' (returned ++ result.toOption.toList) := by
  have hsettings := h.settings.trans (materialize_changes hlinks hcall).1
  have herror : ∀ {m' : Materializer}, m₀.SameSettings m' → m'.log = m.log →
      (∀ p, m.hasWritten p → m'.hasWritten p) → m₀.Remembers m' (returned ++ []) := by
    intro m' hsettings hlog hmono
    rw [List.append_nil]
    exact ⟨hsettings, hlog.trans h.log, h.target,
      fun r hr hnew => hmono _ (h.written r hr hnew), h.order⟩
  cases materialize_outcome hcall with
  | refused => exact herror hsettings rfl fun _ => id
  | notCopied hdecide hcopy => exact herror hsettings (log_copy hcopy) (hasWritten_copy hcopy).1
  | notLogged hdecide hcopy => exact herror hsettings (log_copy hcopy) (hasWritten_copy hcopy).1
  | @recorded r content m₁ t₁ _ hdecide hcopy hlog =>
    obtain ⟨hmono, hnew⟩ := hasWritten_copy hcopy
    obtain ⟨paths, action, hpaths, _, haction, hr⟩ := decide_eq_ok hdecide
    rw [h.settings.pathsFor] at hpaths
    have htarget : r.targetPath = paths.target := by rw [hr]
    change m₀.Remembers _ (returned ++ [r])
    constructor
    . exact hsettings
    . dsimp only
      rw [log_copy hcopy, h.log, List.append_assoc]
    . intro r' hr'
      rw [List.mem_append, List.mem_singleton] at hr'
      rcases hr' with hr' | rfl
      . exact h.target r' hr'
      . exact ⟨request, paths, hpaths, htarget⟩
    . intro r' hr' hwritten
      rw [List.mem_append, List.mem_singleton] at hr'
      rcases hr' with hr' | rfl
      . exact hmono _ (h.written r' hr' hwritten)
      . exact hnew rfl hwritten
    . rw [List.pairwise_append]
      refine ⟨h.order, List.pairwise_singleton _ r, ?_⟩
      intro r' hr' r'' hr'' hsame hwritten
      rw [List.mem_singleton] at hr''
      subst hr''
      -- A target that was written is not overwritten.
      have hbefore := hasWritten_of_sameAs (h.written r' hr' hwritten) hsame
      rw [htarget] at hbefore
      rw [hr]
      exact (actionFor_of_hasWritten hbefore haction).1

theorem Session.noLinks {m₀ m : Materializer} {t₀ t : Tree} {returned : List MaterializedHeader}
    (h : Session m₀ t₀ returned m t) (hlinks : t₀.NoLinks) :
    t.NoLinks := by
  induction h with
  | start => exact hlinks
  | call h hcall ih => exact (materialize_changes ih hcall).2.noLinks ih
  | edit h hlinks ih => exact hlinks

theorem Session.remembers {m₀ m : Materializer} {t₀ t : Tree} {returned : List MaterializedHeader}
    (h : Session m₀ t₀ returned m t) (hlinks : t₀.NoLinks) :
    m₀.Remembers m returned := by
  induction h with
  | start => exact ⟨.refl m₀, by simp, by simp, by simp, .nil⟩
  | call h hcall ih => exact ih.materialize (h.noLinks hlinks) hcall
  | edit h _ ih => exact ih

theorem pathExists_iff {t : Tree} {p : Path} :
    t.pathExists p ↔ ∃ loc e, t.resolve p = .ok (.found loc e) := by
  unfold Tree.pathExists Tree.at?
  cases h : t.resolve p with
  | error => simp [bind, Except.bind, Except.toOption]
  | ok target => cases target <;> simp [bind, Except.bind, Except.toOption]

theorem place_ne_ok_of_refused {t t' : Tree} {target : Path} {content : ByteArray}
    (hrefused : ∃ e, ∀ t : Tree, t.resolve target = .error e) :
    place t target (·.write · content) ≠ (.ok (), t') := by
  intro h
  obtain ⟨e, he⟩ := hrefused
  obtain ⟨_, _, hwrites⟩ := place_writes h
  have hfound := hwrites.found
  unfold Tree.at? at hfound
  rw [he] at hfound
  contradiction

theorem fileAt?_copy_of_hasWritten {m m' : Materializer} {t t' : Tree} {request : MissingInclude}
    {iteration : Nat} {r : MaterializedHeader} {content : ByteArray}
    {result : Except ClosureError Unit} {p : Path} (hlinks : t.NoLinks) (hp : p.EndsWithName)
    (hwritten : m.hasWritten p) (hdecide : m.decide t request iteration = .ok (r, content))
    (hcopy : m.copy t r content = (result, m', t')) (hsame : r.targetPath.sameAs p)
    (hexists : t.pathExists p) (loc : Location) :
    t'.fileAt? loc = t.fileAt? loc := by
  obtain ⟨paths, action, hpaths, _, haction, hr⟩ := decide_eq_ok hdecide
  have htarget : r.targetPath = paths.target := by rw [hr]
  have hname : r.targetPath.EndsWithName := by
    rw [htarget]
    apply endsWithName_target hpaths
  have hbefore : m.hasWritten paths.target := by
    apply hasWritten_of_sameAs hwritten
    rw [← htarget]
    exact Path.sameAs_symm hsame
  -- A target that is not present is another spelling of `p` which is not written to at all.
  have hrefused : r.action ≠ .alreadyPresent → ∃ e, ∀ t : Tree, t.resolve r.targetPath = .error e := by
    intro hnew
    rcases Tree.resolve_of_sameAs hp hname hsame with hrefused | hfound
    . exact hrefused
    . obtain ⟨loc, e, hresolve⟩ := pathExists_iff.mp hexists
      have hpresent := pathExists_iff.mpr ⟨loc, e, hfound t _ hlinks hresolve⟩
      rw [htarget] at hpresent
      rw [hr] at hnew
      exact absurd ((actionFor_of_hasWritten hbefore haction).2 hpresent) hnew
  cases copy_outcome hcopy with
  | present => rfl
  | failed _ hplace => exact fileAt?_of_place_eq_error hplace loc
  | written hnew hplace => exact absurd hplace (place_ne_ok_of_refused (hrefused hnew))

theorem materialize_of_hasWritten {m : Materializer} {t : Tree} {request : MissingInclude}
    {iteration : Nat} {paths : HeaderPaths} {content existing : ByteArray}
    (hpaths : m.pathsFor request = .ok paths) (hwritten : m.hasWritten paths.target)
    (hdonor : t.read paths.donor = .ok content) (htarget : t.read paths.target = .ok existing)
    (hne : existing ≠ content) :
    m.materialize t request iteration
      =
    (.error (.alreadyExistsDiffers request.header paths.target), m, t) := by
  have hfile : t.isFile paths.donor := Tree.isFile_of_read hdonor
  have hexists : t.pathExists paths.target := Tree.pathExists_of_read htarget
  have haction : m.actionFor t request.header paths.target content
      = .error (.alreadyExistsDiffers request.header paths.target) := by
    unfold actionFor
    rw [if_pos hexists, htarget]
    dsimp only
    rw [if_neg hne, hwritten, Bool.not_true, Bool.and_false, if_neg Bool.false_ne_true]
  have hdecide : m.decide t request iteration
      = .error (.alreadyExistsDiffers request.header paths.target) := by
    unfold decide
    simp only [hpaths, hfile, hdonor, haction, bind, Except.bind, ↓reduceIte]
  unfold materialize
  rw [hdecide]

/--
Whatever happens between its calls, a materializer does not change a file that it has written, be it
for a target with the same components or, if the prefix keeps targets apart, for any other. No target
is overwritten that was written before.
-/
theorem Session.protects {m₀ m : Materializer} {t₀ t : Tree} {returned : List MaterializedHeader}
    (hroot : m₀.targetRoot.text ≠ "") (hlinks : t₀.NoLinks) (h : Session m₀ t₀ returned m t) :
    (∀ r ∈ returned, r.action ≠ .alreadyPresent → m.Protects t r.targetPath)
      ∧ m.log = m₀.log ++ returned
      ∧ returned.Pairwise fun r r' => r.targetPath.sameAs r'.targetPath →
          r.action ≠ .alreadyPresent → r'.action ≠ .overwritten := by
  have hremembers := h.remembers hlinks
  refine ⟨?_, hremembers.log, hremembers.order⟩
  intro r hr hnew
  obtain ⟨request, paths, hpaths, htarget⟩ := hremembers.target r hr
  have hwritten := hremembers.written r hr hnew
  have hname : r.targetPath.EndsWithName := by
    rw [htarget]
    apply endsWithName_target hpaths
  have hlinks := h.noLinks hlinks
  constructor
  . intro request' iteration r' content result m' t' hdecide hcopy hcondition hexists
    by_cases hsame : r'.targetPath.sameAs r.targetPath
    . apply fileAt?_copy_of_hasWritten hlinks hname hwritten hdecide hcopy hsame hexists
    . -- Another path is another place, and the copy step changes no place but that of its target.
      obtain ⟨paths', _, hpaths', _, _, hr'⟩ := decide_eq_ok hdecide
      have htarget' : r'.targetPath = paths'.target := by rw [hr']
      apply (copy_changes hlinks hcopy).2.file
      intro heq
      apply hsame
      rw [hremembers.settings.pathsFor] at hpaths'
      rw [hremembers.settings.policy] at hcondition
      rw [htarget, htarget'] at heq
      rw [htarget, htarget']
      apply sameAs_of_locate_eq hroot (hcondition.resolve_left hsame) hpaths' hpaths heq.symm
  . intro request' iteration paths' content existing hpaths' hsame hdonor hexisting hne
    apply materialize_of_hasWritten hpaths' _ hdonor hexisting hne
    exact hasWritten_of_sameAs hwritten (Path.sameAs_symm hsame)

theorem Session.protects_edited :
    ∃ returned m t,
      Session { donorRoot := ⟨"d"⟩, targetRoot := ⟨"t"⟩, digest := Sha256.hex } .oneHeader returned m t
      ∧ returned.map (·.action) = [.copied]
      ∧ t.fileAt? (.ofTexts ["t", "a.h"]) = some "y".toUTF8
      ∧ ∀ r ∈ returned, r.action ≠ .alreadyPresent → m.Protects t r.targetPath := by
  let m₀ : Materializer := { donorRoot := ⟨"d"⟩, targetRoot := ⟨"t"⟩, digest := Sha256.hex }
  have hcopied : (m₀.materialize .oneHeader ⟨"x.c", "a.h"⟩ 1).1.toOption.toList.map (·.action)
      = [.copied] := by
    decide +kernel
  rcases hcall : m₀.materialize .oneHeader ⟨"x.c", "a.h"⟩ 1 with ⟨result, m, t⟩
  rw [hcall] at hcopied
  have hsession := Session.call .start hcall
  rw [List.nil_append] at hsession
  have hlinks : (t.put (.ofTexts ["t", "a.h"]) (.file "y".toUTF8)).NoLinks := by
    apply (hsession.noLinks Tree.noLinks_oneHeader).put
    . simp
    . simp
  refine ⟨_, _, _, hsession.edit hlinks, hcopied, ?_, ?_⟩
  . rw [Tree.fileAt?_put (by simp)]
    simp
  . have hroot : m₀.targetRoot.text ≠ "" := by decide
    exact (Session.protects hroot Tree.noLinks_oneHeader (hsession.edit hlinks)).1

def twoHeaders : Tree where
  entries := ⟨[
    (.ofTexts ["donor"], .directory),
    (.ofTexts ["donor", "s"], .directory),
    (.ofTexts ["donor", "s", "a.h"], .file "1".toUTF8),
    (.ofTexts ["donor", "o"], .directory),
    (.ofTexts ["donor", "o", "a.h"], .file "2".toUTF8),
    (.ofTexts ["target"], .directory),
    (.ofTexts ["target", "o"], .directory)]⟩
  current := []

theorem noLinks_twoHeaders : twoHeaders.NoLinks := by
  apply Tree.noLinks_of_forall_entries
  simp [twoHeaders]

/--
With a prefix that leads up, a header that was copied is overwritten under another path.
-/
theorem Session.not_kept_dots :
    ∃ (m₀ : Materializer) (returned : List MaterializedHeader) (m : Materializer) (t : Tree),
      m₀.targetRoot.text ≠ "" ∧ m₀.log = [] ∧ twoHeaders.NoLinks
      ∧ Session m₀ twoHeaders returned m t
      ∧ ∃ r ∈ returned, r.action = .copied ∧ t.pathExists r.targetPath
        ∧ ∃ r' content, m.decide t ⟨"x.c", "o/a.h"⟩ 1 = .ok (r', content)
          ∧ (m.copy t r' content).2.2.fileAt? (t.locate r.targetPath)
            ≠ t.fileAt? (t.locate r.targetPath) := by
  let m₀ : Materializer := {
    donorRoot := ⟨"donor"⟩
    targetRoot := ⟨"target"⟩
    digest := Sha256.hex
    policy := { namePrefix := some "../", allowOverwrite := true } }
  let overwrites (call : Except ClosureError MaterializedHeader × Materializer × Tree) : Bool :=
    call.1.toOption.toList.any fun r =>
      r.action = .copied && call.2.2.pathExists r.targetPath
        && (call.2.1.decide call.2.2 ⟨"x.c", "o/a.h"⟩ 1).toOption.any fun (r', content) =>
          (call.2.1.copy call.2.2 r' content).2.2.fileAt? (call.2.2.locate r.targetPath)
            ≠ call.2.2.fileAt? (call.2.2.locate r.targetPath)
  have hrun : overwrites (m₀.materialize twoHeaders ⟨"x.c", "s/a.h"⟩ 1) = true := by
    decide +kernel
  rcases hcall : m₀.materialize twoHeaders ⟨"x.c", "s/a.h"⟩ 1 with ⟨result, m, t⟩
  rw [hcall] at hrun
  obtain ⟨r, hr, hwritten⟩ := List.any_eq_true.mp hrun
  rw [Bool.and_eq_true, Bool.and_eq_true, decide_eq_true_eq] at hwritten
  obtain ⟨⟨hcopied, hexists⟩, hchanged⟩ := hwritten
  obtain ⟨⟨r', content⟩, hdecide, hne⟩ := (Option.any_eq_true _ _).mp hchanged
  refine ⟨m₀, _, m, t, by decide, rfl, noLinks_twoHeaders, .call .start hcall, r, hr, hcopied,
    hexists, r', content, ?_, of_decide_eq_true hne⟩
  cases h : m.decide t ⟨"x.c", "o/a.h"⟩ 1 with
  | error => simp [h, Except.toOption] at hdecide
  | ok => simpa [h, Except.toOption] using hdecide

end Materializer
end Graft
