import Graft.Proofs.Closure.Overlay
import Graft.Proofs.Tree.Directories

/-!
This module contains what a closure run leaves behind: each header that it has handled is at its
target with its content from the donor tree, so that a request for it finds it present.
-/

namespace Graft

def MaterializedHeader.again (r : MaterializedHeader) : MaterializedHeader :=
  { r with action := .alreadyPresent }

def MaterializedHeader.request (r : MaterializedHeader) : MissingInclude :=
  ⟨r.requestedBy, r.header⟩

namespace Materializer

def Settled (m : Materializer) (t : Tree) (r : MaterializedHeader) : Prop :=
  ∃ content, m.pathsFor r.request = .ok ⟨r.donorPath, r.targetPath⟩
    ∧ r.sha256 = m.digest content
    ∧ t.read r.donorPath = .ok content ∧ t.read r.targetPath = .ok content

structure Finished (m : Materializer) (t : Tree) (records : List MaterializedHeader) : Prop where
  settled : ∀ r ∈ records, m.Settled t r
  log : ∀ file, m.logFile = some file → records ≠ [] → ∃ content, t.read file = .ok content

theorem exists_place_of_read {t : Tree} (hlinks : t.NoLinks) {p : Path}
    {content : ByteArray} (hread : t.read p = .ok content) (f : ByteArray → ByteArray) :
    ∃ t', place t p (·.modify · f) = (.ok (), t') := by
  obtain ⟨loc, hat⟩ := Tree.at?_of_read hread
  refine ⟨t.put loc (.file (f content)), ?_⟩
  unfold place
  dsimp only
  rw [Tree.makeDirectories_parent hlinks hat]
  dsimp only
  rw [Tree.modify_of_at? hat]

theorem appendLog_grows {m : Materializer} {t t' : Tree} {r : MaterializedHeader}
    (h : m.appendLog t r = (.ok (), t')) :
    t.Grows t' ∧ ∀ file, m.logFile = some file → ∃ content, t'.read file = .ok content := by
  unfold appendLog at h
  split at h
  . next hnone =>
    cases h
    refine ⟨.refl t, ?_⟩
    intro file hfile
    rw [hnone] at hfile
    contradiction
  . next log hlog =>
    obtain ⟨_, _, hwrites⟩ := place_writes h
    refine ⟨hwrites.grows, ?_⟩
    intro file hfile
    rw [hlog] at hfile
    cases hfile
    exact ⟨_, hwrites.read⟩

theorem Settled.grows {m : Materializer} {t t' : Tree} {r : MaterializedHeader}
    (h : m.Settled t r) (hlinks : t.NoLinks) (hgrows : t.Grows t')
    (hdonor : t'.fileAt? (t.locate r.donorPath) = t.fileAt? (t.locate r.donorPath))
    (htarget : t'.fileAt? (t.locate r.targetPath) = t.fileAt? (t.locate r.targetPath)) :
    m.Settled t' r := by
  obtain ⟨content, hpaths, hsha, hread, hread'⟩ := h
  refine ⟨content, hpaths, hsha, ?_, ?_⟩
  . apply Tree.read_of_grows hlinks hgrows hread
    rw [hdonor, Tree.read_eq_ok hlinks hread]
  . apply Tree.read_of_grows hlinks hgrows hread'
    rw [htarget, Tree.read_eq_ok hlinks hread']

theorem SameSettings.settled_iff {m m' : Materializer} (h : m.SameSettings m') {t : Tree}
    {r : MaterializedHeader} :
    m'.Settled t r ↔ m.Settled t r := by
  unfold Settled
  rw [h.pathsFor, h.digest]

theorem Settled.decide {m : Materializer} {t : Tree} {r : MaterializedHeader}
    (h : m.Settled t r) :
    ∃ content, m.decide t r.request r.iteration = .ok (r.again, content) := by
  obtain ⟨content, hpaths, hsha, hread, hread'⟩ := h
  have haction : m.actionFor t r.request.header r.targetPath content = .ok .alreadyPresent := by
    unfold actionFor
    rw [if_pos (Tree.pathExists_of_read hread'), hread']
    exact if_pos rfl
  refine ⟨content, ?_⟩
  unfold Materializer.decide
  rw [hpaths]
  change (if t.isFile r.donorPath then _ else _) = _
  rw [if_pos (Tree.isFile_of_read hread), hread]
  dsimp only
  rw [haction]
  unfold MaterializedHeader.again
  rw [hsha]
  rfl

theorem pathsFor_of_materialize {m m' : Materializer} {t t' : Tree} {request : MissingInclude}
    {iteration : Nat} {r : MaterializedHeader}
    (h : m.materialize t request iteration = (.ok r, m', t')) :
    m.pathsFor request = .ok ⟨r.donorPath, r.targetPath⟩ := by
  cases materialize_outcome h with
  | recorded hdecide hcopy hlogged =>
    obtain ⟨paths, action, hpaths, -, -, hr⟩ := decide_eq_ok hdecide
    rw [hr]
    exact hpaths

theorem materialize_grows {m m' : Materializer} {t t' : Tree} {request : MissingInclude}
    {iteration : Nat} {r : MaterializedHeader}
    (h : m.materialize t request iteration = (.ok r, m', t')) :
    t.Grows t' ∧ ∀ file, m.logFile = some file → ∃ content, t'.read file = .ok content := by
  cases materialize_outcome h with
  | recorded hdecide hcopy hlogged =>
    obtain ⟨hcopied, _⟩ := copy_grows (read_of_decide hdecide) hcopy
    obtain ⟨hgrows, hread⟩ := appendLog_grows hlogged
    refine ⟨hcopied.trans hgrows, ?_⟩
    intro file hfile
    apply hread
    rw [(sameSettings_copy hcopy).logFile, hfile]

/--
A header that is handled is settled, unless the log or the copy has gone over one of its files.
-/
theorem settled_of_materialize {m m' : Materializer} {t t' : Tree} {request : MissingInclude}
    {iteration : Nat} {r : MaterializedHeader} (hlinks : t.NoLinks)
    (h : m.materialize t request iteration = (.ok r, m', t'))
    (hdonor : ¬ m.Touches t request (t.locate r.donorPath))
    (htarget : ¬ m.LogsTo t (t.locate r.targetPath)) :
    m.Settled t' r := by
  have hgrows := (materialize_grows h).1
  have hkept := (materialize_changes hlinks h).2.file _ hdonor
  cases materialize_outcome h with
  | @recorded _ content _ t₁ _ hdecide hcopy hlogged =>
    obtain ⟨paths, action, hpaths, hread, haction, hr⟩ := decide_eq_ok hdecide
    obtain ⟨hsame, hchanges⟩ := copy_changes hlinks hcopy
    obtain ⟨_, hcopied⟩ := copy_grows (read_of_decide hdecide) hcopy
    have hlinks₁ := hchanges.noLinks hlinks
    have hread' : t.read r.donorPath = .ok content := by
      rw [hr]
      exact hread
    refine ⟨content, ?_, by rw [hr], ?_, ?_⟩
    . rw [hr]
      exact hpaths
    . apply Tree.read_of_grows hlinks hgrows hread'
      rw [hkept, Tree.read_eq_ok hlinks hread']
    . apply Tree.read_of_grows hlinks₁ (appendLog_grows hlogged).1 hcopied
      rw [(appendLog_changes hlinks₁ hlogged).file, Tree.read_eq_ok hlinks₁ hcopied]
      rw [hsame.logsTo hchanges.current, hchanges.locate]
      exact htarget

section Later

variable {m m₁ m₂ : Materializer} {t t₁ t₂ : Tree} {request : MissingInclude} {iteration : Nat}
variable {r : MaterializedHeader} (hseparate : m.Separate t) (hlater : m.Later t m₁ t₁)
variable (h : m₁.materialize t₁ request iteration = (.ok r, m₂, t₂))

include hseparate hlater h

theorem Settled.materialize {r' : MaterializedHeader} (hsettled : m.Settled t₁ r')
    (hlog : ¬ m.LogsTo t (t.locate r.targetPath)) (hlog' : ¬ m.LogsTo t (t.locate r'.targetPath)) :
    m.Settled t₂ r' := by
  have ⟨_, hpaths', _, hdonor', htarget'⟩ := hsettled
  have hpaths := pathsFor_of_materialize h
  rw [hlater.settings.pathsFor] at hpaths
  have hbelow := donorRoot_prefix_donor (t := t) hpaths'
  have huntouched := (hlater.materialize h).2
  apply hsettled.grows hlater.noLinks (materialize_grows h).1
  . rw [hlater.locate]
    exact huntouched _ (hseparate.not_touches hbelow)
  . rw [hlater.locate]
    by_cases heq : t.locate r'.targetPath = t.locate r.targetPath
    . -- A later spelling of the same header writes what is there already.
      obtain ⟨paths, written, hpaths₁, hfile, hwritten⟩ := hlater.materialize_eq_ok h
      rw [hpaths] at hpaths₁
      cases hpaths₁
      have hsame := hseparate.donor_eq_of_target_eq hpaths' hpaths heq
      have hdonor := Tree.read_eq_ok hlater.noLinks hdonor'
      have htarget := Tree.read_eq_ok hlater.noLinks htarget'
      rw [hlater.locate] at hdonor htarget
      rw [htarget, heq, hwritten hlog, ← hdonor, ← hfile]
      exact (congrArg t₁.fileAt? hsame).symm
    . apply huntouched
      rintro (⟨paths, hpaths₁, hloc⟩ | hlogs)
      . rw [hpaths] at hpaths₁
        cases hpaths₁
        exact heq hloc
      . exact hlog' hlogs

theorem Finished.materialize {records : List MaterializedHeader}
    (hfinished : m.Finished t₁ records)
    (hlog : ∀ r' ∈ records ++ [r], ¬ m.LogsTo t (t.locate r'.targetPath)) :
    m.Finished t₂ (records ++ [r]) := by
  have hlast := hlog r (by simp)
  have hpaths := pathsFor_of_materialize h
  rw [hlater.settings.pathsFor] at hpaths
  have hbelow := donorRoot_prefix_donor (t := t) hpaths
  constructor
  . intro r' hmem
    rcases List.mem_append.mp hmem with hold | hnew
    . exact (hfinished.settled r' hold).materialize hseparate hlater h hlast (hlog r' hmem)
    . rw [List.mem_singleton] at hnew
      subst hnew
      have hsettled : m₁.Settled t₂ r' := by
        apply settled_of_materialize hlater.noLinks h
        . rw [hlater.locate, hlater.touches]
          exact hseparate.not_touches hbelow
        . rw [hlater.locate, hlater.logsTo]
          exact hlast
      exact hlater.settings.settled_iff.mp hsettled
  . intro file hfile _
    apply (materialize_grows h).2
    rw [hlater.settings.logFile, hfile]

end Later
end Materializer
end Graft
