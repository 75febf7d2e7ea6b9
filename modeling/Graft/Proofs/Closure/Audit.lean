import Graft.Digest.Sha256
import Graft.Proofs.Closure.Materialize
import Graft.Proofs.Tree.Directories

/-!
This module contains the audit of a materializer: which of the files that it puts into the target
tree are on record, whatever its calls come to and whatever the trees are.
-/

namespace Graft
namespace Materializer

def failure? : Except ClosureError MaterializedHeader → Option ClosureError
  | .ok _ => none
  | .error e => some e

structure Copy where
  target : Path
  /-- Where the target leads. -/
  place : Location
  content : ByteArray
  /-- The error of the call, if it failed all the same. -/
  failure : Option ClosureError

/--
The file that a call creates or replaces: the one that is found at the header's target after the copy
step, unless it could be read there before.
-/
def copyOf? (m : Materializer) (t : Tree) (request : MissingInclude) (iteration : Nat) :
    Option Copy :=
  match m.decide t request iteration with
  | .error _ => none
  | .ok (r, content) =>
    match (m.copy t r content).2.2.at? r.targetPath with
    | .ok (place, .file written) =>
      if (t.read r.targetPath).toOption = some written then none
      else some {
        target := r.targetPath
        place
        content := written
        failure := failure? (m.materialize t request iteration).1 }
    | _ => none

/--
Calls on one materializer, with anything done to the tree between two of them. The list has the files
that the calls have created or replaced, oldest first.
-/
inductive History (m₀ : Materializer) (t₀ : Tree) : List Copy → Materializer → Tree → Prop where
  | start : History m₀ t₀ [] m₀ t₀
  | call {copies : List Copy} {m m' : Materializer} {t t' : Tree} {request : MissingInclude}
      {iteration : Nat} {result : Except ClosureError MaterializedHeader}
      (h : History m₀ t₀ copies m t)
      (hcall : m.materialize t request iteration = (result, m', t')) :
      History m₀ t₀ (copies ++ (m.copyOf? t request iteration).toList) m' t'
  | edit {copies : List Copy} {m : Materializer} {t : Tree} (h : History m₀ t₀ copies m t)
      (t' : Tree) :
      History m₀ t₀ copies m t'

/--
The second materializer has, since it was the first one, put just those copies on record in their
order whose calls did not fail. Only the audit log has made a call fail after its copy.
-/
structure Audits (m₀ m : Materializer) (copies : List Copy) : Prop where
  log : ∃ records, m.log = m₀.log ++ records
    ∧ (records.filter (·.action ≠ .alreadyPresent)).map (fun r => (r.targetPath, r.sha256))
      = (copies.filter (·.failure = none)).map fun c => (c.target, m₀.digest c.content)
  failed : ∀ c ∈ copies, ∀ e, c.failure = some e → ∃ log path cause, m₀.logFile = some log
    ∧ (path = log ∨ path = log.parent?.getD ⟨""⟩) ∧ e = .fileError path cause

theorem Audits.of_log_eq {m₀ m : Materializer} (h : m.log = m₀.log) : m₀.Audits m [] where
  log := ⟨[], by simp [h]⟩
  failed := by simp

theorem Audits.trans {m₀ m₁ m₂ : Materializer} {copies copies' : List Copy}
    (h : m₀.Audits m₁ copies) (h' : m₁.Audits m₂ copies') (hsettings : m₀.SameSettings m₁) :
    m₀.Audits m₂ (copies ++ copies') := by
  obtain ⟨records, hrecords, haudited⟩ := h.log
  obtain ⟨records', hrecords', haudited'⟩ := h'.log
  constructor
  . refine ⟨records ++ records', ?_, ?_⟩
    . rw [hrecords', hrecords, List.append_assoc]
    . rw [List.filter_append, List.map_append, haudited, haudited', List.filter_append,
        List.map_append, hsettings.digest]
  . intro c hc e he
    rcases List.mem_append.mp hc with hc | hc
    . exact h.failed c hc e he
    . rw [← hsettings.logFile]
      exact h'.failed c hc e he

section Copy

variable {m m' : Materializer} {t t' : Tree} {request : MissingInclude} {iteration : Nat}
variable {r : MaterializedHeader} {content : ByteArray}

theorem read_ne_of_actionFor {header : String} {target : Path} {action : CopyAction}
    (h : m.actionFor t header target content = .ok action) (hnew : action ≠ .alreadyPresent) :
    (t.read target).toOption ≠ some content := by
  unfold actionFor at h
  split at h
  . split at h
    . contradiction
    . next existing hread =>
      split at h
      . cases h
        contradiction
      . next hne =>
        rw [hread]
        intro heq
        exact hne (Option.some.inj heq)
  . next hexists =>
    intro heq
    cases hread : t.read target with
    | error cause =>
      rw [hread] at heq
      contradiction
    | ok existing => exact hexists (Tree.pathExists_of_read hread)

theorem read_of_copy_eq_error {e : ClosureError} (h : m.copy t r content = (.error e, m', t'))
    {loc : Location} {written : ByteArray} (hat : t'.at? r.targetPath = .ok (loc, .file written)) :
    t.read r.targetPath = .ok written := by
  cases copy_outcome h with
  | failed _ hplace =>
    cases place_outcome hplace with
    | noDirectory hmake =>
      rcases Tree.makeDirectories_eq_error hmake with hsame | ⟨hnamed, hmissing⟩
      . rw [hsame] at hat
        exact Tree.read_of_at? hat
      . -- The directory that could not be created would be there.
        cases hparent : r.targetPath.parent? with
        | none =>
          rw [hparent] at hnamed
          exact absurd rfl hnamed
        | some parent =>
          rw [hparent, Option.getD_some] at hnamed hmissing
          have habove := Tree.exists_at?_parent hat hparent
          rw [if_neg (by simpa using hnamed), ← Tree.isDirectory_iff, hmissing] at habove
          exact absurd habove Bool.false_ne_true
    | refused _ hwrite =>
      -- What is found could have been written to.
      unfold Tree.write at hwrite
      rw [Tree.modify_of_at? hat] at hwrite
      cases hwrite

theorem copyOf?_eq_none (hdecide : m.decide t request iteration = .ok (r, content))
    (h : ∀ loc written, (m.copy t r content).2.2.at? r.targetPath = .ok (loc, .file written) →
      t.read r.targetPath = .ok written) :
    m.copyOf? t request iteration = none := by
  unfold copyOf?
  rw [hdecide]
  dsimp only
  split
  . next loc written hat =>
    rw [h loc written hat]
    exact if_pos rfl
  . rfl

theorem copyOf?_of_copy_eq_ok (hdecide : m.decide t request iteration = .ok (r, content))
    (hcopy : m.copy t r content = (.ok (), m', t')) :
    (r.action = .alreadyPresent ∧ t' = t ∧ m.copyOf? t request iteration = none)
      ∨ (r.action ≠ .alreadyPresent ∧ ∃ place existing,
        t.Writes t' r.targetPath place existing
        ∧ m.copyOf? t request iteration = some {
          target := r.targetPath
          place
          content
          failure := failure? (m.materialize t request iteration).1 }) := by
  cases copy_outcome hcopy with
  | present hpresent =>
    left
    refine ⟨hpresent, rfl, copyOf?_eq_none hdecide ?_⟩
    intro loc written hat
    rw [hcopy] at hat
    exact Tree.read_of_at? hat
  | written hnew hplace =>
    right
    obtain ⟨paths, action, _, _, haction, hr⟩ := decide_eq_ok hdecide
    have hunread : (t.read r.targetPath).toOption ≠ some content := by
      rw [hr] at hnew ⊢
      exact read_ne_of_actionFor haction hnew
    obtain ⟨place, _, hwrites⟩ := place_writes hplace
    refine ⟨hnew, place, _, hwrites, ?_⟩
    unfold copyOf?
    rw [hdecide]
    dsimp only
    rw [hcopy]
    dsimp only
    rw [hwrites.found]
    exact if_neg hunread

theorem materialize_audits {result : Except ClosureError MaterializedHeader}
    (h : m.materialize t request iteration = (result, m', t')) :
    m.Audits m' (m.copyOf? t request iteration).toList := by
  cases materialize_outcome h with
  | refused hdecide =>
    unfold copyOf?
    rw [hdecide]
    exact .of_log_eq rfl
  | notCopied hdecide hcopy =>
    have hnone : m.copyOf? t request iteration = none := by
      apply copyOf?_eq_none hdecide
      rw [hcopy]
      intro loc written hat
      exact read_of_copy_eq_error hcopy hat
    rw [hnone]
    exact .of_log_eq (log_copy hcopy)
  | @notLogged r content e _ t₁ _ hdecide hcopy happend =>
    rcases copyOf?_of_copy_eq_ok hdecide hcopy with ⟨_, _, hnone⟩ | ⟨_, place, _, _, hsome⟩
    . rw [hnone]
      exact .of_log_eq (log_copy hcopy)
    . rw [hsome, h]
      constructor
      . exact ⟨[], by simp [log_copy hcopy, failure?]⟩
      . intro c hc e' he'
        rw [Option.toList_some, List.mem_singleton] at hc
        subst hc
        cases he'
        rw [← (sameSettings_copy hcopy).logFile]
        exact appendLog_eq_error happend
  | @recorded r content _ t₁ _ hdecide hcopy happend =>
    rcases copyOf?_of_copy_eq_ok hdecide hcopy with
      ⟨hpresent, _, hnone⟩ | ⟨hnew, place, _, _, hsome⟩
    . rw [hnone]
      constructor
      . exact ⟨[r], by simp [log_copy hcopy, hpresent]⟩
      . simp
    . rw [hsome, h]
      obtain ⟨paths, action, _, _, _, hr⟩ := decide_eq_ok hdecide
      have hsha : r.sha256 = m.digest content := by rw [hr]
      constructor
      . exact ⟨[r], by simp [log_copy hcopy, hnew, hsha, failure?]⟩
      . simp [failure?]

theorem copy_files {result : Except ClosureError Unit}
    (hdecide : m.decide t request iteration = .ok (r, content))
    (hcopy : m.copy t r content = (result, m', t')) {loc : Location}
    (hchanged : t'.fileAt? loc ≠ t.fileAt? loc) :
    ∃ c, m.copyOf? t request iteration = some c ∧ c.place = loc := by
  cases result with
  | error e =>
    cases copy_outcome hcopy with
    | failed _ hplace => exact absurd (fileAt?_of_place_eq_error hplace loc) hchanged
  | ok =>
    rcases copyOf?_of_copy_eq_ok hdecide hcopy with
      ⟨_, rfl, _⟩ | ⟨_, place, _, hwrites, hsome⟩
    . contradiction
    . refine ⟨_, hsome, ?_⟩
      by_contra hne
      exact hchanged (hwrites.others loc (Ne.symm hne))

theorem appendLog_files {result : Except ClosureError Unit}
    (h : m.appendLog t r = (result, t')) {loc : Location}
    (hchanged : t'.fileAt? loc ≠ t.fileAt? loc) :
    ∃ log content, m.logFile = some log ∧ t'.at? log = .ok (loc, .file content) := by
  unfold appendLog at h
  split at h
  . cases h
    contradiction
  . next log hlog =>
    cases result with
    | error e => exact absurd (fileAt?_of_place_eq_error h loc) hchanged
    | ok =>
      obtain ⟨place, existing, hwrites⟩ := place_writes h
      refine ⟨log, existing ++ r.logLine.toUTF8, hlog, ?_⟩
      have hplace : loc = place := by
        by_contra hne
        exact hchanged (hwrites.others loc hne)
      rw [hplace]
      exact hwrites.found

theorem materialize_files {result : Except ClosureError MaterializedHeader}
    (h : m.materialize t request iteration = (result, m', t')) {loc : Location}
    (hchanged : t'.fileAt? loc ≠ t.fileAt? loc) :
    (∃ c, m.copyOf? t request iteration = some c ∧ c.place = loc)
      ∨ ∃ log content, m.logFile = some log ∧ t'.at? log = .ok (loc, .file content) := by
  have happended : ∀ {r content m₁ t₁ t₂} {result : Except ClosureError Unit},
      m.decide t request iteration = .ok (r, content) →
      m.copy t r content = (.ok (), m₁, t₁) → m₁.appendLog t₁ r = (result, t₂) →
      t₂.fileAt? loc ≠ t.fileAt? loc →
      (∃ c, m.copyOf? t request iteration = some c ∧ c.place = loc)
        ∨ ∃ log content, m.logFile = some log ∧ t₂.at? log = .ok (loc, .file content) := by
    intro r content m₁ t₁ t₂ result hdecide hcopy happend hchanged
    by_cases hcopied : t₁.fileAt? loc = t.fileAt? loc
    . right
      rw [← hcopied] at hchanged
      rw [← (sameSettings_copy hcopy).logFile]
      exact appendLog_files happend hchanged
    . left
      exact copy_files hdecide hcopy hcopied
  cases materialize_outcome h with
  | refused => contradiction
  | notCopied hdecide hcopy => exact Or.inl (copy_files hdecide hcopy hchanged)
  | notLogged hdecide hcopy happend => exact happended hdecide hcopy happend hchanged
  | recorded hdecide hcopy happend => exact happended hdecide hcopy happend hchanged

end Copy

section History

variable {m₀ m : Materializer} {t₀ t : Tree} {copies : List Copy}

theorem History.sameSettings (h : History m₀ t₀ copies m t) : m₀.SameSettings m := by
  induction h with
  | start => exact .refl m₀
  | call _ hcall ih => exact ih.trans (sameSettings_materialize hcall)
  | edit _ _ ih => exact ih

/--
The files that calls have created or replaced are on record, in their order, unless the call has
failed in the end, for which there is no reason but the audit log. A call changes no other file, the
audit log aside.
-/
theorem History.audits (h : History m₀ t₀ copies m t) :
    m₀.Audits m copies
      ∧ ∀ request iteration result m' t', m.materialize t request iteration = (result, m', t') →
        ∀ loc, t'.fileAt? loc ≠ t.fileAt? loc →
          (∃ c, m.copyOf? t request iteration = some c ∧ c.place = loc)
            ∨ ∃ log content, m₀.logFile = some log ∧ t'.at? log = .ok (loc, .file content) := by
  constructor
  . induction h with
    | start => exact .of_log_eq rfl
    | call h hcall ih => exact ih.trans (materialize_audits hcall) h.sameSettings
    | edit _ _ ih => exact ih
  . intro request iteration result m' t' hcall loc hchanged
    rw [← h.sameSettings.logFile]
    exact materialize_files hcall hchanged

theorem History.audits_copied :
    ∃ copies m t,
      History { donorRoot := ⟨"d"⟩, targetRoot := ⟨"t"⟩, digest := Sha256.hex } .oneHeader copies m t
      ∧ copies.map (·.target) = [⟨"t/a.h"⟩]
      ∧ Audits { donorRoot := ⟨"d"⟩, targetRoot := ⟨"t"⟩, digest := Sha256.hex } m copies := by
  let m₀ : Materializer := { donorRoot := ⟨"d"⟩, targetRoot := ⟨"t"⟩, digest := Sha256.hex }
  have hcopied : (m₀.copyOf? .oneHeader ⟨"x.c", "a.h"⟩ 1).toList.map (·.target) = [⟨"t/a.h"⟩] := by
    decide +kernel
  rcases hcall : m₀.materialize .oneHeader ⟨"x.c", "a.h"⟩ 1 with ⟨result, m, t⟩
  have hhistory := History.call .start hcall
  rw [List.nil_append] at hhistory
  exact ⟨_, m, t, hhistory, hcopied, hhistory.audits.1⟩

/--
If the audit log is a directory, a header is copied and there is no record of it.
-/
theorem History.not_recorded_directory :
    ∃ copy m t,
      History { donorRoot := ⟨"d"⟩, targetRoot := ⟨"t"⟩, digest := Sha256.hex, logFile := some ⟨"d"⟩ } .oneHeader [copy] m t
      ∧ copy.target = ⟨"t/a.h"⟩ ∧ t.read copy.target = .ok copy.content
      ∧ ∀ r ∈ m.log, r.targetPath ≠ copy.target := by
  let m₀ : Materializer := { donorRoot := ⟨"d"⟩, targetRoot := ⟨"t"⟩, digest := Sha256.hex, logFile := some ⟨"d"⟩ }
  let unrecorded (call : Except ClosureError MaterializedHeader × Materializer × Tree)
      (c : Copy) : Bool :=
    c.target = ⟨"t/a.h"⟩ && (call.2.2.read c.target).toOption = some c.content
      && call.2.1.log.isEmpty
  have hrun : (m₀.copyOf? .oneHeader ⟨"x.c", "a.h"⟩ 1).any
      (unrecorded (m₀.materialize .oneHeader ⟨"x.c", "a.h"⟩ 1)) = true := by
    decide +kernel
  rcases hcall : m₀.materialize .oneHeader ⟨"x.c", "a.h"⟩ 1 with ⟨result, m, t⟩
  have hhistory := History.call .start hcall
  rw [hcall] at hrun
  obtain ⟨copy, hcopy, hfound⟩ := (Option.any_eq_true _ _).mp hrun
  rw [hcopy] at hhistory
  rw [Bool.and_eq_true, Bool.and_eq_true, decide_eq_true_eq, decide_eq_true_eq] at hfound
  obtain ⟨⟨htarget, hread⟩, hlog⟩ := hfound
  refine ⟨copy, m, t, hhistory, htarget, ?_, ?_⟩
  . cases h : t.read copy.target with
    | error => simp [h, Except.toOption] at hread
    | ok => simpa [h, Except.toOption] using hread
  . have hnil : m.log = [] := List.isEmpty_iff.mp hlog
    simp [hnil]

end History

end Materializer
end Graft
