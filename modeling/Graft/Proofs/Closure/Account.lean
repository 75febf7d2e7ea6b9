import Graft.Digest.Sha256
import Graft.Proofs.Closure.Records
import Graft.Proofs.Closure.Settled
import Graft.Proofs.Tree.Connected

/-!
This module contains how far a record accounts for the call that returns it: what was at the target
before and what is there afterwards. It does so unless the target leaves a directory that the call
itself has created, for then the file behind that directory is found only when it is written to.
-/

namespace Graft
namespace Materializer

/--
An action tells what was at the target: nothing, the header, or something else that the policy lets
the materializer replace.
-/
structure Tells (m : Materializer) (target : Path) (before : Option ByteArray) (content : ByteArray)
    (action : CopyAction) : Prop where
  copied : action = .copied ↔ before = none
  alreadyPresent : action = .alreadyPresent ↔ before = some content
  overwritten : action = .overwritten ↔
    (∃ existing, before = some existing ∧ existing ≠ content)
      ∧ m.policy.allowOverwrite ∧ ¬ m.hasWritten target

/--
A call has done what its record says, and nothing else. The action tells what could be read at the
target.
-/
structure Accounts (m : Materializer) (t : Tree) (request : MissingInclude) (iteration : Nat)
    (content : ByteArray) (r : MaterializedHeader) (m' : Materializer) (t' : Tree) : Prop where
  origin : r.origin = (request, iteration)
  paths : m.pathsFor request = .ok ⟨r.donorPath, r.targetPath⟩
  sha256 : r.sha256 = m.digest content
  action : m.Tells r.targetPath (t.read r.targetPath).toOption content r.action
  donor : t.read r.donorPath = .ok content ∧ t'.read r.donorPath = .ok content
  target : t'.read r.targetPath = .ok content
  others : ∀ loc, loc ≠ t.locate r.targetPath → ¬ m.LogsTo t loc → t'.fileAt? loc = t.fileAt? loc
  log : m'.log = m.log ++ [r]

section Action

variable {m : Materializer} {t : Tree} {header : String} {target : Path} {content : ByteArray}
variable {action : CopyAction}

theorem read_of_actionFor (h : m.actionFor t header target content = .ok action) :
    (¬ t.pathExists target ∧ (t.read target).toOption = none ∧ action = .copied)
      ∨ (t.pathExists target ∧ ∃ existing, t.read target = .ok existing ∧ action ≠ .copied) := by
  by_cases hexists : t.pathExists target
  . right
    refine ⟨hexists, ?_⟩
    unfold actionFor at h
    rw [if_pos hexists] at h
    split at h
    . contradiction
    . next existing hread =>
      refine ⟨existing, hread, ?_⟩
      rintro rfl
      split at h
      . cases h
      . split at h <;> cases h
  . left
    refine ⟨hexists, ?_, ?_⟩
    . cases hread : t.read target with
      | error cause => rfl
      | ok existing => exact absurd (Tree.pathExists_of_read hread) hexists
    . unfold actionFor at h
      rw [if_neg hexists] at h
      cases h
      rfl

theorem tells_of_actionFor (h : m.actionFor t header target content = .ok action) :
    m.Tells target (t.read target).toOption content action := by
  rcases read_of_actionFor h with ⟨_, hnone, rfl⟩ | ⟨hexists, existing, hread, hnew⟩
  . rw [hnone]
    constructor <;> simp
  . rw [hread]
    unfold actionFor at h
    rw [if_pos hexists, hread] at h
    dsimp only at h
    split at h
    . next heq =>
      cases h
      subst heq
      constructor <;> simp [Except.toOption]
    . next hne =>
      split at h
      . next hallowed =>
        cases h
        rw [Bool.and_eq_true, Bool.not_eq_true'] at hallowed
        constructor <;> simp [Except.toOption, hne, hallowed]
      . contradiction

theorem tells_fileAt?_iff (hlinks : t.NoLinks)
    (h : m.actionFor t header target content = .ok action) :
    m.Tells target (t.fileAt? (t.locate target)) content action ↔ t.Reaches target := by
  rcases read_of_actionFor h with ⟨hexists, hnone, rfl⟩ | ⟨hexists, existing, hread, _⟩
  . constructor
    . intro htells hfile
      rw [htells.copied.mp rfl] at hfile
      contradiction
    . intro hreaches
      have hfree : t.fileAt? (t.locate target) = none := by
        rw [← Option.not_isSome_iff_eq_none]
        exact mt hreaches hexists
      have htells := tells_of_actionFor h
      rw [hnone] at htells
      rw [hfree]
      exact htells
  . have htells := tells_of_actionFor h
    rw [hread] at htells
    rw [Tree.read_eq_ok hlinks hread]
    exact iff_of_true htells fun _ => hexists

end Action

section Call

variable {m m' : Materializer} {t t' : Tree} {request : MissingInclude} {iteration : Nat}
variable {r : MaterializedHeader}

theorem accounts_of_materialize (hlinks : t.NoLinks)
    (h : m.materialize t request iteration = (.ok r, m', t'))
    (hdonor : ¬ m.Touches t request (t.locate r.donorPath))
    (htarget : ¬ m.LogsTo t (t.locate r.targetPath)) :
    ∃ content, m.Accounts t request iteration content r m' t'
      ∧ (m.Tells r.targetPath (t.fileAt? (t.locate r.targetPath)) content r.action
        ↔ t.Reaches r.targetPath) := by
  have hpaths := pathsFor_of_materialize h
  have hchanges := (materialize_changes hlinks h).2
  have hlinks' := hchanges.noLinks hlinks
  obtain ⟨content, _, hsha, hdonor', htarget'⟩ := settled_of_materialize hlinks h hdonor htarget
  -- The donor file has not changed, so its content is the one that was copied.
  have hcontent : t.fileAt? (t.locate r.donorPath) = some content := by
    rw [← hchanges.file _ hdonor, ← hchanges.locate]
    exact Tree.read_eq_ok hlinks' hdonor'
  cases materialize_outcome h with
  | @recorded _ copied _ _ _ hdecide _ _ =>
    obtain ⟨paths, action, hpaths', hread, haction, hr⟩ := decide_eq_ok hdecide
    rw [hpaths] at hpaths'
    cases hpaths'
    dsimp only at hread haction
    have heq : copied = content := by
      rw [Tree.read_eq_ok hlinks hread] at hcontent
      exact Option.some.inj hcontent
    subst heq
    have hactual : r.action = action := by rw [hr]
    rw [hactual]
    refine ⟨copied, ?_, tells_fileAt?_iff hlinks haction⟩
    constructor
    . exact Closure.origin_of_materialize h
    . exact hpaths
    . exact hsha
    . rw [hactual]
      exact tells_of_actionFor haction
    . exact ⟨hread, hdonor'⟩
    . exact htarget'
    . intro loc hloc hnot
      apply hchanges.file
      rintro (⟨paths, hpaths', rfl⟩ | hlogs)
      . rw [hpaths] at hpaths'
        cases hpaths'
        exact hloc rfl
      . exact hnot hlogs
    . exact (materialize_record h).1

theorem reaches_of_materialize (hlinks : t.NoLinks)
    (h : m.materialize t request iteration = (.ok r, m', t')) (hconnected : t.IsConnected)
    (hleaves : t.LeavesDirectories r.targetPath) :
    t.Reaches r.targetPath := by
  cases materialize_outcome h with
  | recorded hdecide hcopy _ =>
    obtain ⟨hgrows, hread⟩ := copy_grows (read_of_decide hdecide) hcopy
    obtain ⟨loc, hat⟩ := Tree.at?_of_read hread
    exact Tree.reaches_of_grows hgrows hlinks hconnected hleaves hat

/--
A call that returns a record has done what the record says and nothing else, where the action tells
what the target has led to. That is what was at its place, unless the target leaves a directory that
was not there. A call that refuses a header does nothing.
-/
theorem materialize_accounts {result : Except ClosureError MaterializedHeader} (hlinks : t.NoLinks)
    (h : m.materialize t request iteration = (result, m', t'))
    (hdonor : ∀ paths, m.pathsFor request = .ok paths →
      ¬ m.Touches t request (t.locate paths.donor))
    (htarget : ∀ paths, m.pathsFor request = .ok paths → ¬ m.LogsTo t (t.locate paths.target)) :
    (∀ r, result = .ok r →
      ∃ content, m.Accounts t request iteration content r m' t'
        ∧ (m.Tells r.targetPath (t.fileAt? (t.locate r.targetPath)) content r.action
          ↔ t.Reaches r.targetPath)
        ∧ (t.IsConnected → t.LeavesDirectories r.targetPath → t.Reaches r.targetPath))
      ∧ ∀ e, result = .error e → e.header?.isSome → m' = m ∧ t' = t := by
  constructor
  . rintro r rfl
    have hpaths := pathsFor_of_materialize h
    have hdonor := hdonor _ hpaths
    have htarget := htarget _ hpaths
    obtain ⟨content, haccounts, htells⟩ := accounts_of_materialize hlinks h hdonor htarget
    exact ⟨content, haccounts, htells, reaches_of_materialize hlinks h⟩
  . rintro e rfl hheader
    rcases materialize_eq_error h with ⟨path, cause, rfl⟩ | ⟨_, hsame⟩
    . contradiction
    . exact hsame

end Call

def staleTarget : Tree where
  entries := ⟨[
    (.ofTexts ["donor"], .directory),
    (.ofTexts ["donor", "o"], .directory),
    (.ofTexts ["donor", "o", "a.h"], .file "1".toUTF8),
    (.ofTexts ["target"], .directory),
    (.ofTexts ["target", "a.h"], .file "2".toUTF8)]⟩
  current := []

theorem noLinks_staleTarget : staleTarget.NoLinks := by
  apply Tree.noLinks_of_forall_entries
  simp [staleTarget]

theorem isConnected_staleTarget : staleTarget.IsConnected := by
  apply Tree.isConnected_of_forall_entries
  decide

theorem materialize_accounts_copied :
    ∃ m' t' r content,
      materialize { donorRoot := ⟨"donor"⟩, targetRoot := ⟨"target"⟩, digest := Sha256.hex } staleTarget
        ⟨"x.c", "o/a.h"⟩ 1 = (.ok r, m', t')
      ∧ Accounts { donorRoot := ⟨"donor"⟩, targetRoot := ⟨"target"⟩, digest := Sha256.hex } staleTarget
        ⟨"x.c", "o/a.h"⟩ 1 content r m' t'
      ∧ Tells { donorRoot := ⟨"donor"⟩, targetRoot := ⟨"target"⟩, digest := Sha256.hex } r.targetPath
        (staleTarget.fileAt? (staleTarget.locate r.targetPath)) content r.action := by
  let m : Materializer := { donorRoot := ⟨"donor"⟩, targetRoot := ⟨"target"⟩, digest := Sha256.hex }
  have hrun : (m.materialize staleTarget ⟨"x.c", "o/a.h"⟩ 1).1.toOption.any
      (·.targetPath = ⟨"target/o/a.h"⟩) = true := by
    decide +kernel
  have hpaths : m.pathsFor ⟨"x.c", "o/a.h"⟩ = .ok ⟨⟨"donor/o/a.h"⟩, ⟨"target/o/a.h"⟩⟩ := by
    decide +kernel
  rcases hcall : m.materialize staleTarget ⟨"x.c", "o/a.h"⟩ 1 with ⟨result, m', t'⟩
  have hlogs : ∀ loc, ¬ m.LogsTo staleTarget loc := by
    rintro loc ⟨log, hlog, _⟩
    cases hlog
  have hdonor : ∀ paths, m.pathsFor ⟨"x.c", "o/a.h"⟩ = .ok paths →
      ¬ m.Touches staleTarget ⟨"x.c", "o/a.h"⟩ (staleTarget.locate paths.donor) := by
    rintro paths hpaths₁ (⟨paths', hpaths₂, heq⟩ | hlog)
    . rw [hpaths] at hpaths₁ hpaths₂
      cases hpaths₁
      cases hpaths₂
      revert heq
      decide +kernel
    . exact hlogs _ hlog
  obtain ⟨haccounts, _⟩ := materialize_accounts noLinks_staleTarget hcall hdonor
    fun _ _ => hlogs _
  rw [hcall] at hrun
  obtain ⟨r, hr, htarget⟩ := (Option.any_eq_true _ _).mp hrun
  rw [decide_eq_true_eq] at htarget
  cases result with
  | error => contradiction
  | ok r' =>
    cases hr
    obtain ⟨content, haccount, htells, hreaches⟩ := haccounts r rfl
    refine ⟨m', t', r, content, rfl, haccount, htells.mpr ?_⟩
    apply hreaches isConnected_staleTarget
    apply Tree.leavesDirectories_of_not_mem
    rw [htarget]
    decide +kernel

/--
With a prefix that leads up, a file with another content is replaced and its header is on record as
copied, though nothing may be overwritten.
-/
theorem not_accounts_dots :
    ∃ (m m' : Materializer) (t' : Tree) (r : MaterializedHeader),
      m.materialize staleTarget ⟨"x.c", "o/a.h"⟩ 1 = (.ok r, m', t')
      ∧ staleTarget.NoLinks ∧ m.logFile = none
      ∧ staleTarget.locate r.donorPath ≠ staleTarget.locate r.targetPath
      ∧ r.action = .copied ∧ m.policy.allowOverwrite = false
      ∧ staleTarget.fileAt? (staleTarget.locate r.targetPath) = some "2".toUTF8
      ∧ t'.fileAt? (t'.locate r.targetPath) = some "1".toUTF8 := by
  let m : Materializer := {
    donorRoot := ⟨"donor"⟩
    targetRoot := ⟨"target"⟩
    digest := Sha256.hex
    policy := { namePrefix := some "../" } }
  let replaces (call : Except ClosureError MaterializedHeader × Materializer × Tree)
      (r : MaterializedHeader) : Bool :=
    staleTarget.locate r.donorPath ≠ staleTarget.locate r.targetPath && r.action = .copied
      && staleTarget.fileAt? (staleTarget.locate r.targetPath) = some "2".toUTF8
      && call.2.2.fileAt? (call.2.2.locate r.targetPath) = some "1".toUTF8
  have hrun : (m.materialize staleTarget ⟨"x.c", "o/a.h"⟩ 1).1.toOption.any
      (replaces (m.materialize staleTarget ⟨"x.c", "o/a.h"⟩ 1)) = true := by
    decide +kernel
  rcases hcall : m.materialize staleTarget ⟨"x.c", "o/a.h"⟩ 1 with ⟨result, m', t'⟩
  rw [hcall] at hrun
  obtain ⟨r, hr, hreplaced⟩ := (Option.any_eq_true _ _).mp hrun
  cases result with
  | error => contradiction
  | ok r' =>
    cases hr
    simp only [replaces, Bool.and_eq_true, decide_eq_true_eq] at hreplaced
    obtain ⟨⟨⟨hdistinct, haction⟩, hbefore⟩, hafter⟩ := hreplaced
    exact ⟨m, m', t', r, hcall, noLinks_staleTarget, rfl, hdistinct, haction, rfl, hbefore, hafter⟩

end Materializer
end Graft
