import Graft.Closure.Materializer
import Graft.Proofs.Tree.Growth

/-!
This module contains what handling one requested header does to a tree without links: on success the
target file holds the content of the donor file, and apart from it only the audit log changes.
-/

namespace Graft

def ClosureError.header? : ClosureError → Option String
  | .donorMissing header .. => some header
  | .alreadyExistsDiffers header _ => some header
  | .unsafeHeaderPath header _ => some header
  | _ => none

namespace Materializer

def LogsTo (m : Materializer) (t : Tree) (loc : Location) : Prop :=
  ∃ log, m.logFile = some log ∧ loc = t.locate log

def Touches (m : Materializer) (t : Tree) (request : MissingInclude) (loc : Location) : Prop :=
  (∃ paths, m.pathsFor request = .ok paths ∧ loc = t.locate paths.target) ∨ m.LogsTo t loc

structure SameSettings (m m' : Materializer) : Prop where
  donorRoot : m'.donorRoot = m.donorRoot
  targetRoot : m'.targetRoot = m.targetRoot
  policy : m'.policy = m.policy
  digest : m'.digest = m.digest
  logFile : m'.logFile = m.logFile

namespace SameSettings

variable {m m' m'' : Materializer}

theorem refl (m : Materializer) : m.SameSettings m :=
  ⟨rfl, rfl, rfl, rfl, rfl⟩

theorem trans (h : m.SameSettings m') (h' : m'.SameSettings m'') : m.SameSettings m'' where
  donorRoot := h'.donorRoot.trans h.donorRoot
  targetRoot := h'.targetRoot.trans h.targetRoot
  policy := h'.policy.trans h.policy
  digest := h'.digest.trans h.digest
  logFile := h'.logFile.trans h.logFile

theorem pathsFor (h : m.SameSettings m') (request : MissingInclude) :
    m'.pathsFor request = m.pathsFor request := by
  unfold Materializer.pathsFor
  rw [h.donorRoot, h.targetRoot, h.policy]

theorem logsTo (h : m.SameSettings m') {t t' : Tree} (ht : t'.current = t.current)
    (loc : Location) :
    m'.LogsTo t' loc ↔ m.LogsTo t loc := by
  unfold LogsTo Tree.locate
  rw [h.logFile, ht]

end SameSettings

theorem pathsFor_eq_error {m : Materializer} {request : MissingInclude} {e : ClosureError}
    (h : m.pathsFor request = .error e) :
    e = .unsafeHeaderPath request.header request.sourceFile := by
  unfold pathsFor at h
  dsimp only at h
  split at h
  . contradiction
  . cases h
    rfl

theorem decide_eq_ok {m : Materializer} {t : Tree} {request : MissingInclude} {iteration : Nat}
    {r : MaterializedHeader} {content : ByteArray}
    (h : m.decide t request iteration = .ok (r, content)) :
    ∃ paths action, m.pathsFor request = .ok paths ∧ t.read paths.donor = .ok content
      ∧ m.actionFor t request.header paths.target content = .ok action
      ∧ r = {
        iteration
        header := request.header
        requestedBy := request.sourceFile
        donorPath := paths.donor
        targetPath := paths.target
        sha256 := m.digest content
        action } := by
  unfold decide at h
  obtain ⟨paths, hpaths, h⟩ := Except.exists_of_bind_eq_ok h
  split at h
  . split at h
    . contradiction
    . next content' hread =>
      obtain ⟨action, haction, h⟩ := Except.exists_of_bind_eq_ok h
      cases h
      exact ⟨paths, action, hpaths, hread, haction, rfl⟩
  . contradiction

theorem actionFor_eq_error {m : Materializer} {t : Tree} {header : String} {target : Path}
    {content : ByteArray} {e : ClosureError}
    (h : m.actionFor t header target content = .error e) :
    (∃ path cause, e = .fileError path cause) ∨ e.header? = some header := by
  unfold actionFor at h
  split at h
  . split at h
    . cases h
      exact Or.inl ⟨_, _, rfl⟩
    . split at h
      . contradiction
      . split at h
        . contradiction
        . cases h
          exact Or.inr rfl
  . contradiction

theorem decide_eq_error {m : Materializer} {t : Tree} {request : MissingInclude} {iteration : Nat}
    {e : ClosureError} (h : m.decide t request iteration = .error e) :
    (∃ path cause, e = .fileError path cause) ∨ e.header? = some request.header := by
  unfold decide at h
  rcases Except.eq_error_or_of_bind_eq_error h with hpaths | ⟨paths, hpaths, h⟩
  . right
    rw [pathsFor_eq_error hpaths]
    rfl
  . split at h
    . split at h
      . cases h
        exact Or.inl ⟨_, _, rfl⟩
      . rcases Except.eq_error_or_of_bind_eq_error h with haction | ⟨action, haction, h⟩
        . apply actionFor_eq_error haction
        . contradiction
    . cases h
      exact Or.inr rfl

theorem read_of_actionFor_eq_alreadyPresent {m : Materializer} {t : Tree} {header : String}
    {target : Path} {content : ByteArray}
    (h : m.actionFor t header target content = .ok .alreadyPresent) :
    t.read target = .ok content := by
  unfold actionFor at h
  split at h
  . split at h
    . contradiction
    . next existing hread =>
      split at h
      . next heq =>
        rw [hread, heq]
      . split at h <;> simp at h
  . simp at h

inductive Placed (t : Tree) (target : Path) (change : Tree → Path → Except FileError Tree) :
    Except ClosureError Unit → Tree → Prop where
  | noDirectory {t₁ : Tree} {cause : FileError}
      (hmake : t.makeDirectories (target.parent?.getD ⟨""⟩) = (.error cause, t₁)) :
      Placed t target change (.error (.fileError (target.parent?.getD ⟨""⟩) cause)) t₁
  | refused {t₁ : Tree} {cause : FileError}
      (hmake : t.makeDirectories (target.parent?.getD ⟨""⟩) = (.ok (), t₁))
      (hchange : change t₁ target = .error cause) :
      Placed t target change (.error (.fileError target cause)) t₁
  | done {t₁ t' : Tree} (hmake : t.makeDirectories (target.parent?.getD ⟨""⟩) = (.ok (), t₁))
      (hchange : change t₁ target = .ok t') :
      Placed t target change (.ok ()) t'

theorem place_outcome {t t' : Tree} {target : Path}
    {change : Tree → Path → Except FileError Tree} {result : Except ClosureError Unit}
    (h : place t target change = (result, t')) :
    Placed t target change result t' := by
  unfold place at h
  dsimp only at h
  split at h
  . next hmake =>
    cases h
    exact .noDirectory hmake
  . next hmake =>
    split at h
    . next hchange =>
      cases h
      exact .refused hmake hchange
    . next hchange =>
      cases h
      exact .done hmake hchange

theorem place_changes {t t' : Tree} (hlinks : t.NoLinks) {target : Path}
    {f : ByteArray → ByteArray} {result : Except ClosureError Unit}
    (h : place t target (·.modify · f) = (result, t')) :
    Tree.ChangesOnly (· = t.locate target) t t' := by
  cases place_outcome h with
  | noDirectory hmake => exact Tree.makeFirst_changes hmake
  | refused hmake => exact Tree.makeFirst_changes hmake
  | @done t₁ _ hmake hmodify =>
    have hdirs : Tree.ChangesOnly (· = t.locate target) t t₁ := Tree.makeFirst_changes hmake
    apply hdirs.trans
    rw [← hdirs.locate]
    apply Tree.modify_changes (hdirs.noLinks hlinks) hmodify

theorem place_writes {t t' : Tree} {p : Path} {f : ByteArray → ByteArray}
    (h : place t p (·.modify · f) = (.ok (), t')) :
    ∃ loc existing, t.Writes t' p loc (f existing) := by
  cases place_outcome h with
  | @done t₁ _ hmake hmodify =>
    have hdirs : Tree.ChangesOnly (fun _ => False) t t₁ := Tree.makeFirst_changes hmake
    obtain ⟨loc, existing, hwrites⟩ := Tree.modify_writes hmodify
    refine ⟨loc, existing, (Tree.makeFirst_grows hmake).trans hwrites.grows, hwrites.found, ?_⟩
    intro loc' hloc'
    rw [hwrites.others loc' hloc']
    apply hdirs.file loc' not_false

theorem place_eq_error {t t' : Tree} {target : Path}
    {change : Tree → Path → Except FileError Tree} {e : ClosureError}
    (h : place t target change = (.error e, t')) :
    ∃ path cause, (path = target ∨ path = target.parent?.getD ⟨""⟩)
      ∧ e = .fileError path cause := by
  cases place_outcome h with
  | noDirectory => exact ⟨_, _, Or.inr rfl, rfl⟩
  | refused => exact ⟨_, _, Or.inl rfl, rfl⟩

theorem fileAt?_of_place_eq_error {t t' : Tree} {target : Path}
    {change : Tree → Path → Except FileError Tree} {e : ClosureError}
    (h : place t target change = (.error e, t')) (loc : Location) :
    t'.fileAt? loc = t.fileAt? loc := by
  cases place_outcome h with
  | noDirectory hmake =>
    have hdirs : Tree.ChangesOnly (fun _ => False) t t' := Tree.makeFirst_changes hmake
    apply hdirs.file loc not_false
  | refused hmake =>
    have hdirs : Tree.ChangesOnly (fun _ => False) t t' := Tree.makeFirst_changes hmake
    apply hdirs.file loc not_false

inductive Copied (m : Materializer) (t : Tree) (r : MaterializedHeader) (content : ByteArray) :
    Except ClosureError Unit → Materializer → Tree → Prop where
  | present (hpresent : r.action = .alreadyPresent) : Copied m t r content (.ok ()) m t
  | failed {e : ClosureError} {t' : Tree} (hnew : r.action ≠ .alreadyPresent)
      (hplace : place t r.targetPath (·.write · content) = (.error e, t')) :
      Copied m t r content (.error e) m t'
  | written {t' : Tree} (hnew : r.action ≠ .alreadyPresent)
      (hplace : place t r.targetPath (·.write · content) = (.ok (), t')) :
      Copied m t r content (.ok ()) { m with written := r.targetPath :: m.written } t'

theorem copy_outcome {m m' : Materializer} {t t' : Tree} {r : MaterializedHeader}
    {content : ByteArray} {result : Except ClosureError Unit}
    (h : m.copy t r content = (result, m', t')) :
    m.Copied t r content result m' t' := by
  unfold copy at h
  split at h
  . next hpresent =>
    cases h
    exact .present hpresent
  . next hnew =>
    split at h
    . next hplace =>
      cases h
      exact .failed hnew hplace
    . next hplace =>
      cases h
      exact .written hnew hplace

theorem sameSettings_copy {m m' : Materializer} {t t' : Tree} {r : MaterializedHeader}
    {content : ByteArray} {result : Except ClosureError Unit}
    (h : m.copy t r content = (result, m', t')) :
    m.SameSettings m' := by
  cases copy_outcome h with
  | present => exact .refl m
  | failed => exact .refl m
  | written => exact ⟨rfl, rfl, rfl, rfl, rfl⟩

theorem copy_changes {m m' : Materializer} {t t' : Tree} (hlinks : t.NoLinks)
    {r : MaterializedHeader} {content : ByteArray} {result : Except ClosureError Unit}
    (h : m.copy t r content = (result, m', t')) :
    m.SameSettings m' ∧ Tree.ChangesOnly (· = t.locate r.targetPath) t t' := by
  refine ⟨sameSettings_copy h, ?_⟩
  cases copy_outcome h with
  | present => exact .refl _ t
  | failed _ hplace => exact place_changes hlinks hplace
  | written _ hplace => exact place_changes hlinks hplace

theorem read_of_decide {m : Materializer} {t : Tree} {request : MissingInclude} {iteration : Nat}
    {r : MaterializedHeader} {content : ByteArray}
    (h : m.decide t request iteration = .ok (r, content)) (hpresent : r.action = .alreadyPresent) :
    t.read r.targetPath = .ok content := by
  obtain ⟨paths, action, _, _, haction, hr⟩ := decide_eq_ok h
  rw [hr] at hpresent ⊢
  dsimp only at hpresent
  subst hpresent
  exact read_of_actionFor_eq_alreadyPresent haction

theorem copy_grows {m m' : Materializer} {t t' : Tree} {r : MaterializedHeader}
    {content : ByteArray}
    (hpresent : r.action = .alreadyPresent → t.read r.targetPath = .ok content)
    (h : m.copy t r content = (.ok (), m', t')) :
    t.Grows t' ∧ t'.read r.targetPath = .ok content := by
  cases copy_outcome h with
  | present heq => exact ⟨.refl t, hpresent heq⟩
  | written _ hplace =>
    obtain ⟨loc, _, hwrites⟩ := place_writes hplace
    exact ⟨hwrites.grows, hwrites.read⟩

theorem copy_eq_error {m m' : Materializer} {t t' : Tree} {r : MaterializedHeader}
    {content : ByteArray} {e : ClosureError}
    (h : m.copy t r content = (.error e, m', t')) :
    ∃ path cause, e = .fileError path cause := by
  cases copy_outcome h with
  | failed _ hplace =>
    obtain ⟨path, cause, _, he⟩ := place_eq_error hplace
    exact ⟨path, cause, he⟩

theorem appendLog_changes {m : Materializer} {t t' : Tree} (hlinks : t.NoLinks)
    {r : MaterializedHeader} {result : Except ClosureError Unit}
    (h : m.appendLog t r = (result, t')) :
    Tree.ChangesOnly (m.LogsTo t) t t' := by
  unfold appendLog at h
  split at h
  . cases h
    apply Tree.ChangesOnly.refl
  . next log hlog =>
    apply (place_changes hlinks h).mono
    rintro loc rfl
    exact ⟨log, hlog, rfl⟩

theorem appendLog_eq_error {m : Materializer} {t t' : Tree} {r : MaterializedHeader}
    {e : ClosureError} (h : m.appendLog t r = (.error e, t')) :
    ∃ log path cause, m.logFile = some log ∧ (path = log ∨ path = log.parent?.getD ⟨""⟩)
      ∧ e = .fileError path cause := by
  unfold appendLog at h
  split at h
  . cases h
  . next log hlog =>
    obtain ⟨path, cause, hpath, he⟩ := place_eq_error h
    exact ⟨log, path, cause, hlog, hpath, he⟩

theorem log_copy {m m' : Materializer} {t t' : Tree} {r : MaterializedHeader} {content : ByteArray}
    {result : Except ClosureError Unit}
    (h : m.copy t r content = (result, m', t')) :
    m'.log = m.log := by
  cases copy_outcome h with
  | present => rfl
  | failed => rfl
  | written => rfl

inductive Outcome (m : Materializer) (t : Tree) (request : MissingInclude) (iteration : Nat) :
    Except ClosureError MaterializedHeader → Materializer → Tree → Prop where
  | refused {e : ClosureError} (hdecide : m.decide t request iteration = .error e) :
      Outcome m t request iteration (.error e) m t
  | notCopied {r : MaterializedHeader} {content : ByteArray} {e : ClosureError} {m' : Materializer}
      {t' : Tree} (hdecide : m.decide t request iteration = .ok (r, content))
      (hcopy : m.copy t r content = (.error e, m', t')) :
      Outcome m t request iteration (.error e) m' t'
  | notLogged {r : MaterializedHeader} {content : ByteArray} {e : ClosureError} {m' : Materializer}
      {t₁ t' : Tree} (hdecide : m.decide t request iteration = .ok (r, content))
      (hcopy : m.copy t r content = (.ok (), m', t₁)) (hlog : m'.appendLog t₁ r = (.error e, t')) :
      Outcome m t request iteration (.error e) m' t'
  | recorded {r : MaterializedHeader} {content : ByteArray} {m' : Materializer} {t₁ t' : Tree}
      (hdecide : m.decide t request iteration = .ok (r, content))
      (hcopy : m.copy t r content = (.ok (), m', t₁)) (hlog : m'.appendLog t₁ r = (.ok (), t')) :
      Outcome m t request iteration (.ok r) { m' with log := m'.log ++ [r] } t'

theorem materialize_outcome {m m' : Materializer} {t t' : Tree} {request : MissingInclude}
    {iteration : Nat} {result : Except ClosureError MaterializedHeader}
    (h : m.materialize t request iteration = (result, m', t')) :
    m.Outcome t request iteration result m' t' := by
  unfold materialize at h
  split at h
  . next hdecide =>
    cases h
    exact .refused hdecide
  . next hdecide =>
    split at h
    . next hcopy =>
      cases h
      exact .notCopied hdecide hcopy
    . next hcopy =>
      split at h
      . next hlog =>
        cases h
        exact .notLogged hdecide hcopy hlog
      . next hlog =>
        cases h
        exact .recorded hdecide hcopy hlog

theorem materialize_record {m m' : Materializer} {t t' : Tree} {request : MissingInclude}
    {iteration : Nat} {r : MaterializedHeader}
    (h : m.materialize t request iteration = (.ok r, m', t')) :
    m'.log = m.log ++ [r]
      ∧ r.header = request.header
      ∧ ∃ paths, m.pathsFor request = .ok paths ∧ r.targetPath = paths.target := by
  cases materialize_outcome h with
  | recorded hdecide hcopy hlog =>
    obtain ⟨paths, action, hpaths, _, _, hr⟩ := decide_eq_ok hdecide
    refine ⟨by rw [log_copy hcopy], ?_, paths, hpaths, ?_⟩
    all_goals rw [hr]

theorem log_materialize_of_error {m m' : Materializer} {t t' : Tree} {request : MissingInclude}
    {iteration : Nat} {e : ClosureError}
    (h : m.materialize t request iteration = (.error e, m', t')) :
    m'.log = m.log := by
  cases materialize_outcome h with
  | refused => rfl
  | notCopied hdecide hcopy => apply log_copy hcopy
  | notLogged hdecide hcopy hlog => apply log_copy hcopy

theorem sameSettings_materialize {m m' : Materializer} {t t' : Tree} {request : MissingInclude}
    {iteration : Nat} {result : Except ClosureError MaterializedHeader}
    (h : m.materialize t request iteration = (result, m', t')) :
    m.SameSettings m' := by
  cases materialize_outcome h with
  | refused => exact .refl m
  | notCopied hdecide hcopy => exact sameSettings_copy hcopy
  | notLogged hdecide hcopy hlog => exact sameSettings_copy hcopy
  | recorded hdecide hcopy hlog => exact (sameSettings_copy hcopy).trans ⟨rfl, rfl, rfl, rfl, rfl⟩

theorem materialize_changes {m m' : Materializer} {t t' : Tree} (hlinks : t.NoLinks)
    {request : MissingInclude} {iteration : Nat} {result : Except ClosureError MaterializedHeader}
    (h : m.materialize t request iteration = (result, m', t')) :
    m.SameSettings m' ∧ Tree.ChangesOnly (m.Touches t request) t t' := by
  refine ⟨sameSettings_materialize h, ?_⟩
  have hcopied : ∀ {r content result m₁ t₁}, m.decide t request iteration = .ok (r, content) →
      m.copy t r content = (result, m₁, t₁) →
      m.SameSettings m₁ ∧ Tree.ChangesOnly (m.Touches t request) t t₁ := by
    intro r content result m₁ t₁ hdecide hcopy
    obtain ⟨paths, action, hpaths, _, _, hr⟩ := decide_eq_ok hdecide
    obtain ⟨hsame, hchanges⟩ := copy_changes hlinks hcopy
    refine ⟨hsame, hchanges.mono ?_⟩
    intro loc hloc
    rw [hr] at hloc
    exact Or.inl ⟨paths, hpaths, hloc⟩
  have happended : ∀ {r result m₁ t₁ t₂}, m.SameSettings m₁ →
      Tree.ChangesOnly (m.Touches t request) t t₁ → m₁.appendLog t₁ r = (result, t₂) →
      Tree.ChangesOnly (m.Touches t request) t t₂ := by
    intro r result m₁ t₁ t₂ hsame hchanges happend
    apply hchanges.trans
    apply (appendLog_changes (hchanges.noLinks hlinks) happend).mono
    intro loc hloc
    exact Or.inr ((hsame.logsTo hchanges.current loc).mp hloc)
  cases materialize_outcome h with
  | refused => exact .refl _ t
  | notCopied hdecide hcopy => exact (hcopied hdecide hcopy).2
  | notLogged hdecide hcopy hlog =>
    obtain ⟨hsame, hchanges⟩ := hcopied hdecide hcopy
    exact happended hsame hchanges hlog
  | recorded hdecide hcopy hlog =>
    obtain ⟨hsame, hchanges⟩ := hcopied hdecide hcopy
    exact happended hsame hchanges hlog

theorem materialize_eq_ok {m m' : Materializer} {t t' : Tree} (hlinks : t.NoLinks)
    {request : MissingInclude} {iteration : Nat} {r : MaterializedHeader}
    (h : m.materialize t request iteration = (.ok r, m', t')) :
    ∃ paths content, m.pathsFor request = .ok paths
      ∧ t.fileAt? (t.locate paths.donor) = some content
      ∧ (¬ m.LogsTo t (t.locate paths.target) →
          t'.fileAt? (t.locate paths.target) = some content) := by
  cases materialize_outcome h with
  | @recorded _ content _ t₁ _ hdecide hcopy hlog =>
    obtain ⟨paths, action, hpaths, hread, haction, hr⟩ := decide_eq_ok hdecide
    have htarget : r.targetPath = paths.target := by rw [hr]
    obtain ⟨hsame, hchanges⟩ := copy_changes hlinks hcopy
    refine ⟨paths, content, hpaths, Tree.read_eq_ok hlinks hread, ?_⟩
    intro hnot
    have hcopied : t₁.fileAt? (t.locate paths.target) = some content := by
      rw [← htarget, ← hchanges.locate]
      apply Tree.read_eq_ok (hchanges.noLinks hlinks)
      exact (copy_grows (read_of_decide hdecide) hcopy).2
    rw [← hcopied]
    apply (appendLog_changes (hchanges.noLinks hlinks) hlog).file
    rw [hsame.logsTo hchanges.current]
    exact hnot

theorem materialize_eq_error {m m' : Materializer} {t t' : Tree} {request : MissingInclude}
    {iteration : Nat} {e : ClosureError}
    (h : m.materialize t request iteration = (.error e, m', t')) :
    (∃ path cause, e = .fileError path cause)
      ∨ (e.header? = some request.header ∧ m' = m ∧ t' = t) := by
  cases materialize_outcome h with
  | refused hdecide => exact (decide_eq_error hdecide).imp_right fun hheader => ⟨hheader, rfl, rfl⟩
  | notCopied hdecide hcopy => exact Or.inl (copy_eq_error hcopy)
  | notLogged hdecide hcopy hlog =>
    obtain ⟨_, path, cause, _, _, he⟩ := appendLog_eq_error hlog
    exact Or.inl ⟨path, cause, he⟩

structure Later (m : Materializer) (t : Tree) (m' : Materializer) (t' : Tree) : Prop where
  settings : m.SameSettings m'
  current : t'.current = t.current
  noLinks : t'.NoLinks

namespace Later

variable {m m₁ m₂ : Materializer} {t t₁ t₂ : Tree}

theorem refl (m : Materializer) (hlinks : t.NoLinks) : m.Later t m t :=
  ⟨.refl m, rfl, hlinks⟩

theorem locate (h : m.Later t m₁ t₁) (p : Path) : t₁.locate p = t.locate p := by
  unfold Tree.locate
  rw [h.current]

theorem logsTo (h : m.Later t m₁ t₁) (loc : Location) : m₁.LogsTo t₁ loc ↔ m.LogsTo t loc :=
  h.settings.logsTo h.current loc

theorem touches (h : m.Later t m₁ t₁) (request : MissingInclude) (loc : Location) :
    m₁.Touches t₁ request loc ↔ m.Touches t request loc := by
  unfold Touches
  simp only [h.settings.pathsFor, h.locate, h.logsTo]

theorem materialize (h : m.Later t m₁ t₁) {request : MissingInclude} {iteration : Nat}
    {result : Except ClosureError MaterializedHeader}
    (hdone : m₁.materialize t₁ request iteration = (result, m₂, t₂)) :
    m.Later t m₂ t₂ ∧ ∀ loc, ¬ m.Touches t request loc → t₂.fileAt? loc = t₁.fileAt? loc := by
  obtain ⟨hsame, hchanges⟩ := materialize_changes h.noLinks hdone
  constructor
  . constructor
    . exact h.settings.trans hsame
    . exact hchanges.current.trans h.current
    . exact hchanges.noLinks h.noLinks
  . intro loc hloc
    apply hchanges.file
    rw [h.touches]
    exact hloc

theorem materialize_eq_ok (h : m.Later t m₁ t₁) {request : MissingInclude} {iteration : Nat}
    {r : MaterializedHeader} (hdone : m₁.materialize t₁ request iteration = (.ok r, m₂, t₂)) :
    ∃ paths content, m.pathsFor request = .ok paths
      ∧ t₁.fileAt? (t.locate paths.donor) = some content
      ∧ (¬ m.LogsTo t (t.locate paths.target) →
          t₂.fileAt? (t.locate paths.target) = some content) := by
  obtain ⟨paths, content, hpaths, hread, hwritten⟩ :=
    Materializer.materialize_eq_ok h.noLinks hdone
  rw [h.settings.pathsFor] at hpaths
  rw [h.locate] at hread hwritten
  rw [h.logsTo] at hwritten
  exact ⟨paths, content, hpaths, hread, hwritten⟩

end Later
end Materializer
end Graft
