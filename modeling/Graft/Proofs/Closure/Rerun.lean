import Graft.Proofs.Closure.Records
import Graft.Proofs.Closure.Settled

/-!
This module contains a closure run on the tree that an earlier run with the same answers has left
behind: it goes the same way, but finds every header present and writes to nothing but the audit
log.
-/

namespace Graft

/--
A tool whose answers are fixed in advance, whatever the tree is, and that does nothing to the tree.
-/
def Tool.IsScripted (tool : Tool σ) : Prop :=
  ∃ script : σ → Except Fault ToolOutput × σ,
    ∀ state cwd t, tool.invoke state cwd t = ((script state).1, (script state).2, t)

theorem Tool.IsScripted.invoke_eq {tool : Tool σ} (h : tool.IsScripted) {s state : σ} {cwd : Path}
    {t tree : Tree} {answer : Except Fault ToolOutput}
    (hcall : tool.invoke s cwd t = (answer, state, tree)) (cwd' : Path) (t' : Tree) :
    tool.invoke s cwd' t' = (answer, state, t') := by
  obtain ⟨script, hscript⟩ := h
  rw [hscript] at hcall ⊢
  cases hcall
  rfl

theorem Tool.IsScripted.onlyPrints {tool : Tool σ} (h : tool.IsScripted) : tool.OnlyPrints := by
  obtain ⟨script, hscript⟩ := h
  intro s cwd t
  rw [hscript]

def ClosureReport.again (report : ClosureReport) : ClosureReport :=
  { report with materialized := report.materialized.map (·.again) }

namespace Materializer

/--
A tree that only the audit log may tell from the one that a run has left behind, and in which
nothing is left to copy.
-/
structure Resumes (m : Materializer) (t : Tree) (records : List MaterializedHeader) (t' : Tree) :
    Prop where
  changes : Tree.ChangesOnly (m.LogsTo t) t t'
  finished : m.Finished t' records

def LogsApart (m : Materializer) (t : Tree) (records : List MaterializedHeader) : Prop :=
  ∀ r ∈ records, ¬ m.LogsTo t (t.locate r.donorPath) ∧ ¬ m.LogsTo t (t.locate r.targetPath)

theorem Finished.appendLog {m : Materializer} {t t' : Tree} {records : List MaterializedHeader}
    (hlinks : t.NoLinks) (hapart : m.LogsApart t records) (h : m.Finished t records)
    {r : MaterializedHeader} (happend : m.appendLog t r = (.ok (), t')) :
    m.Finished t' records := by
  obtain ⟨hgrows, hread⟩ := appendLog_grows happend
  have hchanges := appendLog_changes hlinks happend
  constructor
  . intro r' hr'
    apply (h.settled r' hr').grows hlinks hgrows
    . exact hchanges.file _ (hapart r' hr').1
    . exact hchanges.file _ (hapart r' hr').2
  . intro file hfile _
    exact hread file hfile

theorem exists_appendLog {m : Materializer} {t : Tree} {records : List MaterializedHeader}
    (hlinks : t.NoLinks) (h : m.Finished t records) (hne : records ≠ [])
    (r : MaterializedHeader) :
    ∃ t', m.appendLog t r = (.ok (), t') := by
  unfold Materializer.appendLog
  cases hfile : m.logFile with
  | none => exact ⟨t, rfl⟩
  | some file =>
    obtain ⟨content, hread⟩ := h.log file hfile hne
    exact exists_place_of_read hlinks hread _

theorem Resumes.materialize {m m' : Materializer} {t t' : Tree} {records : List MaterializedHeader}
    (hlinks : t.NoLinks) (hapart : m.LogsApart t records) (hsettings : m.SameSettings m')
    (h : m.Resumes t records t') {r : MaterializedHeader} (hr : r ∈ records) :
    ∃ t'', m'.materialize t' r.request r.iteration
        = (.ok r.again, { m' with log := m'.log ++ [r.again] }, t'')
      ∧ m.Resumes t records t'' := by
  have hlinks' := h.changes.noLinks hlinks
  obtain ⟨content, hdecide⟩ := (hsettings.settled_iff.mpr (h.finished.settled r hr)).decide
  obtain ⟨t'', happend⟩ := exists_appendLog hlinks' h.finished (List.ne_nil_of_mem hr) r.again
  have happend' : m'.appendLog t' r.again = (.ok (), t'') := by
    unfold Materializer.appendLog at happend ⊢
    rw [hsettings.logFile]
    exact happend
  refine ⟨t'', ?_, ?_, ?_⟩
  . have hcopy : m'.copy t' r.again content = (.ok (), m', t') := if_pos rfl
    unfold Materializer.materialize
    rw [hdecide]
    dsimp only
    rw [hcopy]
    dsimp only
    rw [happend']
  . apply h.changes.trans
    apply (appendLog_changes hlinks' happend).mono
    intro loc hloc
    rwa [SameSettings.logsTo (.refl m) h.changes.current] at hloc
  . apply h.finished.appendLog hlinks' _ happend
    intro r' hr'
    simp only [h.changes.locate, SameSettings.logsTo (.refl m) h.changes.current]
    exact hapart r' hr'

end Materializer

namespace Closure

open Materializer

variable {σ : Type}

structure Follows (m : Materializer) (t : Tree) (records : List MaterializedHeader)
    (m₁ m' : Materializer) (t' : Tree) : Prop where
  settings : m.SameSettings m'
  log : m'.log = m₁.log.map (·.again)
  resumes : m.Resumes t records t'

def Step.Repeats (m : Materializer) (t : Tree) (records : List MaterializedHeader) :
    Step σ → Step σ → Prop
  | .done ending, step => ∀ report, ending.result = .ok report →
      ∃ ending', step = .done ending' ∧ ending'.result = .ok report.again
        ∧ m.Resumes t records ending'.tree
  | .again s, step => s.materializer.log ⊆ records →
      ∃ m' t', step = .again { s with materializer := m', tree := t' }
        ∧ Follows m t records s.materializer m' t'

theorem log_materializeAll {m m' : Materializer} {t t' : Tree} {iteration : Nat}
    {requests : List MissingInclude} {result : Except ClosureError Unit}
    (h : materializeAll m t iteration requests = (result, m', t')) :
    m.log <+: m'.log := by
  induction requests generalizing m t with
  | nil =>
    unfold materializeAll at h
    cases h
    exact List.prefix_rfl
  | cons request rest ih =>
    unfold materializeAll at h
    split at h
    . next hfails =>
      cases h
      simp [log_materialize_of_error hfails]
    . next hdone =>
      apply List.IsPrefix.trans _ (ih h)
      rw [(materialize_record hdone).1]
      exact List.prefix_append _ _

theorem log_run {g : Grammar} {k : Nat} {tool : Tool σ} {limit : Nat} {s : Progress σ}
    {ending : Ending σ} (h : s.run g k tool limit = some ending) :
    s.materializer.log <+: ending.materializer.log
      ∧ ∀ report, ending.result = .ok report → report.materialized = ending.materializer.log := by
  apply Progress.run_induct (P := fun s' => s.materializer.log <+: s'.materializer.log)
    (Q := fun ending => s.materializer.log <+: ending.materializer.log
      ∧ ∀ report, ending.result = .ok report → report.materialized = ending.materializer.log)
    _ _ List.prefix_rfl h
  . intro s' hlonger _
    refine ⟨hlonger, ?_⟩
    rintro report ⟨⟩
    rfl
  . intro s' hlonger _
    cases hstep : s'.pass g k tool with
    | done ending' =>
      have houtcome := Progress.pass_outcome g k tool s'
      rw [hstep] at houtcome
      cases houtcome with
      | broken => exact ⟨hlonger, fun _ hok => nomatch hok⟩
      | converged =>
        refine ⟨hlonger, ?_⟩
        rintro report ⟨⟩
        rfl
      | stalled =>
        refine ⟨hlonger, ?_⟩
        rintro report ⟨⟩
        rfl
      | stuck _ _ hfails =>
        exact ⟨hlonger.trans (log_materializeAll hfails), fun _ hok => nomatch hok⟩
    | again s'' =>
      have houtcome := Progress.pass_outcome g k tool s'
      rw [hstep] at houtcome
      cases houtcome with
      | repeated => exact hlonger
      | progressed _ _ _ hdone => exact hlonger.trans (log_materializeAll hdone)

theorem Progress.pass_of_missing {g : Grammar} {k : Nat} {tool : Tool σ} {s : Progress σ}
    {output : ToolOutput} {state : σ} {tree : Tree} {first : MissingInclude}
    {rest : List MissingInclude}
    (hcall : tool.invoke s.tool s.materializer.targetRoot s.tree = (.ok output, state, tree))
    (hmissing : (g.parse output.text).missingIncludes = first :: rest) :
    s.pass g k tool
      =
    handleNew k { s with
      tool := state
      tree
      iterations := s.iterations + 1
      ambiguousLines := s.ambiguousLines + (g.parse output.text).ambiguous.length
    } first (first :: rest) := by
  unfold pass
  dsimp only
  rw [hcall]
  dsimp only
  rw [hmissing, act_cons]

theorem Follows.finish {m m' : Materializer} {t t' : Tree} {records : List MaterializedHeader}
    {s : Progress σ} (h : Follows m t records s.materializer m' t') (state : ClosureState)
    (stalled : Option StallInfo) {report : ClosureReport}
    (hreport : (s.finish state stalled).result = .ok report) :
    (Progress.finish { s with materializer := m', tree := t' } state stalled).result
      = .ok report.again := by
  cases hreport
  unfold Progress.finish ClosureReport.again
  dsimp only
  rw [h.log]

section Rerun

variable {m : Materializer} {t : Tree} {records : List MaterializedHeader}
variable (hlinks : t.NoLinks) (hapart : m.LogsApart t records)

include hlinks hapart

theorem materializeAll_again {iteration : Nat} {requests : List MissingInclude}
    {m₁ m₂ m' : Materializer} {t₁ t₂ t' : Tree} (hfollows : Follows m t records m₁ m' t')
    (h : materializeAll m₁ t₁ iteration requests = (.ok (), m₂, t₂))
    (hrecords : m₂.log ⊆ records) :
    ∃ m₂' t₂', materializeAll m' t' iteration requests = (.ok (), m₂', t₂')
      ∧ Follows m t records m₂ m₂' t₂' := by
  induction requests generalizing m₁ t₁ m' t' with
  | nil =>
    unfold materializeAll at h
    cases h
    exact ⟨m', t', rfl, hfollows⟩
  | cons request rest ih =>
    unfold materializeAll at h
    split at h
    . cases h
    . next r m_ t_ hdone =>
      obtain ⟨hlog, -⟩ := materialize_record hdone
      have horigin := origin_of_materialize hdone
      have hrequest : r.request = request ∧ r.iteration = iteration := Prod.ext_iff.mp horigin
      have hmem : r ∈ records := by
        apply hrecords
        apply (log_materializeAll h).subset
        rw [hlog]
        simp
      obtain ⟨t'', hagain, hresumes⟩ :=
        hfollows.resumes.materialize hlinks hapart hfollows.settings hmem
      rw [hrequest.1, hrequest.2] at hagain
      have hnext : Follows m t records m_ { m' with log := m'.log ++ [r.again] } t'' := by
        refine ⟨hfollows.settings.trans ⟨rfl, rfl, rfl, rfl, rfl⟩, ?_, hresumes⟩
        dsimp only
        rw [hfollows.log, hlog, List.map_append]
        rfl
      obtain ⟨m₂', t₂', hrest, hfollows'⟩ := ih hnext h
      refine ⟨m₂', t₂', ?_, hfollows'⟩
      unfold materializeAll
      rw [hagain]
      exact hrest

theorem pass_again {g : Grammar} {k : Nat} {tool : Tool σ} (hscript : tool.IsScripted)
    {s : Progress σ} {m' : Materializer} {t' : Tree}
    (hfollows : Follows m t records s.materializer m' t') :
    (s.pass g k tool).Repeats m t records
      (Progress.pass g k tool { s with materializer := m', tree := t' }) := by
  have houtcome := Progress.pass_outcome g k tool s
  generalize s.pass g k tool = step at houtcome
  cases houtcome with
  | broken => exact fun _ hok => nomatch hok
  | @converged output state _ hcall hmissing =>
    intro report hreport
    have hcall' := hscript.invoke_eq hcall m'.targetRoot t'
    have hfinish := hfollows.finish (s := { s with
      tool := state
      iterations := s.iterations + 1
      ambiguousLines := s.ambiguousLines + (g.parse output.text).ambiguous.length
      pending := [] }) .converged none hreport
    unfold Progress.pass
    dsimp only
    rw [hcall']
    dsimp only
    rw [hmissing]
    exact ⟨_, rfl, hfinish, hfollows.resumes⟩
  | @stalled output state _ first rest hcall hmissing hrepeat hlimit =>
    intro report hreport
    have hcall' := hscript.invoke_eq hcall m'.targetRoot t'
    have hfinish := hfollows.finish (s := { s with
      tool := state
      iterations := s.iterations + 1
      repeatPasses := s.repeatPasses + 1
      ambiguousLines := s.ambiguousLines + (g.parse output.text).ambiguous.length
      pending := pendingFiles (first :: rest) }) .stalled _ hreport
    rw [Progress.pass_of_missing hcall' hmissing]
    unfold Progress.handleNew
    dsimp only
    rw [hrepeat]
    dsimp only
    rw [if_pos hlimit]
    exact ⟨_, rfl, hfinish, hfollows.resumes⟩
  | repeated hcall hmissing hrepeat hlimit =>
    intro _
    have hcall' := hscript.invoke_eq hcall m'.targetRoot t'
    refine ⟨m', t', ?_, hfollows⟩
    rw [Progress.pass_of_missing hcall' hmissing]
    unfold Progress.handleNew
    dsimp only
    rw [hrepeat]
    dsimp only
    rw [if_neg (by omega)]
  | stuck => exact fun _ hok => nomatch hok
  | @progressed _ _ _ _ requests _ hcall hmissing hnew hdone =>
    intro hrecords
    have hcall' := hscript.invoke_eq hcall m'.targetRoot t'
    obtain ⟨m₂, t₂, hagain, hfollows'⟩ :=
      materializeAll_again hlinks hapart hfollows hdone hrecords
    refine ⟨m₂, t₂, ?_, hfollows'⟩
    cases requests with
    | nil => contradiction
    | cons first rest =>
      rw [Progress.pass_of_missing hcall' hmissing]
      unfold Progress.handleNew
      dsimp only
      obtain ⟨request, later, hfresh⟩ := List.exists_cons_of_ne_nil hnew
      rw [hfresh] at hagain ⊢
      dsimp only
      rw [hagain]

theorem run_again {g : Grammar} {k : Nat} {tool : Tool σ} (hscript : tool.IsScripted) {limit : Nat}
    {s : Progress σ} {m' : Materializer} {t' : Tree} {ending : Ending σ} {report : ClosureReport}
    (hfollows : Follows m t records s.materializer m' t')
    (h : s.run g k tool limit = some ending) (hreport : ending.result = .ok report)
    (hrecords : ending.materializer.log ⊆ records) :
    ∃ ending', Progress.run g k tool limit { s with materializer := m', tree := t' } = some ending'
      ∧ ending'.result = .ok report.again ∧ m.Resumes t records ending'.tree := by
  induction limit generalizing s m' t' with
  | zero =>
    unfold Progress.run at h ⊢
    split at h
    . next hexhausted =>
      cases h
      rw [if_pos hexhausted]
      exact ⟨_, rfl, hfollows.finish .building none hreport, hfollows.resumes⟩
    . contradiction
  | succ limit ih =>
    unfold Progress.run at h ⊢
    split at h
    . next hexhausted =>
      cases h
      rw [if_pos hexhausted]
      exact ⟨_, rfl, hfollows.finish .building none hreport, hfollows.resumes⟩
    . next hexhausted =>
      rw [if_neg hexhausted]
      have hrepeats := pass_again hlinks hapart hscript hfollows (g := g) (k := k)
      split at h
      . next hdone =>
        cases h
        rw [hdone] at hrepeats
        obtain ⟨ending', hdone', hresult, hresumes⟩ := hrepeats report hreport
        rw [hdone']
        exact ⟨ending', rfl, hresult, hresumes⟩
      . next s₁ hagain =>
        rw [hagain] at hrepeats
        obtain ⟨m₁, t₁, hagain', hfollows'⟩ :=
          hrepeats (List.Subset.trans (log_run h).1.subset hrecords)
        rw [hagain']
        exact ih hfollows' h

end Rerun

theorem close_finished {g : Grammar} {k : Nat} {tool : Tool σ} {m : Materializer} {t : Tree}
    {state : σ} {ending : Ending σ} {report : ClosureReport} (hlinks : t.NoLinks)
    (htool : tool.OnlyPrints) (hseparate : m.Separate t) (hnew : m.log = [])
    (h : close g k tool m t state = some ending) (hreport : ending.result = .ok report)
    (hlog : ∀ r ∈ report.materialized, ¬ m.LogsTo t (t.locate r.targetPath)) :
    m.Later t ending.materializer ending.tree
      ∧ m.Finished ending.tree ending.materializer.log := by
  have hrecords : report.materialized = ending.materializer.log := (log_run h).2 report hreport
  rw [hrecords] at hlog
  have hrun := close_handled
    (P := fun _ m₁ t₁ =>
      (∀ r ∈ m₁.log, ¬ m.LogsTo t (t.locate r.targetPath)) →
      m.Later t m₁ t₁ ∧ m.Finished t₁ m₁.log)
    ?_ ?_ ?_ h
  . obtain ⟨done, m₁, t₁, hfinished, _, hended⟩ := hrun
    obtain ⟨-, hm, ht⟩ := hended.handled_eq (by
      rw [hreport]
      simp)
    rw [hm] at hlog ⊢
    rw [ht]
    exact hfinished hlog
  . intro _ m₁ t₁ state cwd hP
    rw [htool]
    exact hP
  . intro _ m₁ t₁ request iteration r m₂ t₂ hP hdone hlog
    rw [(materialize_record hdone).1] at hlog ⊢
    obtain ⟨hlater, hfinished⟩ := hP (by
      intro r' hmem
      exact hlog r' (by simp [hmem]))
    exact ⟨(hlater.materialize hdone).1, hfinished.materialize hseparate hlater hdone hlog⟩
  . intro _
    rw [hnew]
    exact ⟨.refl m hlinks, by simp, by simp⟩

/--
A second run with the same answers, on the tree that the first has left behind, copies nothing.
-/
theorem close_again {g : Grammar} {k : Nat} {tool : Tool σ} {m : Materializer} {t : Tree}
    {state : σ} {ending : Ending σ} {report : ClosureReport} (hlinks : t.NoLinks)
    (hscript : tool.IsScripted) (hseparate : m.Separate t) (hnew : m.log = [])
    (h : close g k tool m t state = some ending) (hreport : ending.result = .ok report)
    (hlog : ∀ r ∈ report.materialized, ¬ m.LogsTo t (t.locate r.targetPath)) :
    ∃ ending', close g k tool m ending.tree state = some ending'
      ∧ ending'.result = .ok report.again
      ∧ ∀ loc, ¬ m.LogsTo t loc → ending'.tree.fileAt? loc = ending.tree.fileAt? loc := by
  obtain ⟨hlater, hfinished⟩ :=
    close_finished hlinks hscript.onlyPrints hseparate hnew h hreport hlog
  have hrecords : report.materialized = ending.materializer.log := (log_run h).2 report hreport
  have hlogs : ∀ loc, m.LogsTo ending.tree loc ↔ m.LogsTo t loc :=
    SameSettings.logsTo (.refl m) hlater.current
  have hapart : m.LogsApart ending.tree ending.materializer.log := by
    intro r hr
    rw [hlogs, hlogs, hlater.locate, hlater.locate]
    constructor
    . obtain ⟨content, hpaths, -⟩ := hfinished.settled r hr
      have hbelow := donorRoot_prefix_donor (t := t) hpaths
      intro hlogged
      exact hseparate.log _ hlogged hbelow
    . rw [← hrecords] at hr
      exact hlog r hr
  have hfollows : Follows m ending.tree ending.materializer.log m m ending.tree := by
    refine ⟨.refl m, ?_, .refl _ _, hfinished⟩
    rw [hnew]
    rfl
  obtain ⟨ending', hclose, hresult, hresumes⟩ :=
    run_again hlater.noLinks hapart hscript (s := { materializer := m, tree := t, tool := state })
      hfollows h hreport (List.Subset.refl _)
  refine ⟨ending', hclose, hresult, ?_⟩
  intro loc hloc
  apply hresumes.changes.file
  rw [hlogs]
  exact hloc

def loggingCopier : Materializer :=
  { headerCopier with logFile := some ⟨"l/log"⟩ }

theorem separate_loggingCopier : loggingCopier.Separate .oneHeader where
  donor := by decide +kernel
  target := by decide +kernel
  name := by decide +kernel
  log := by
    rintro loc ⟨log, hlog, rfl⟩
    cases hlog
    decide +kernel

theorem isScripted_ofTexts : Tool.ofTexts.IsScripted :=
  ⟨fun texts => (.ok { text := texts.headD "" }, texts.tail), fun _ _ _ => rfl⟩

theorem close_again_logged :
    ∃ ending report,
      close .default 1 .ofTexts loggingCopier .oneHeader (missingTexts ["a.h", ".//a.h"])
        = some ending
      ∧ ending.result = .ok report
      ∧ report.materialized.map (·.action) = [.copied, .alreadyPresent]
      ∧ ∃ ending',
        close .default 1 .ofTexts loggingCopier ending.tree (missingTexts ["a.h", ".//a.h"])
          = some ending'
        ∧ ending'.result = .ok report.again
        ∧ ∀ loc, ¬ loggingCopier.LogsTo .oneHeader loc →
            ending'.tree.fileAt? loc = ending.tree.fileAt? loc := by
  have hrun : (close .default 1 .ofTexts loggingCopier .oneHeader
      (missingTexts ["a.h", ".//a.h"])).any (fun ending => ending.result.toOption.any fun report =>
        report.materialized.map (·.action) = [.copied, .alreadyPresent]
          ∧ ∀ r ∈ report.materialized,
            Tree.locate .oneHeader r.targetPath ≠ Tree.locate .oneHeader ⟨"l/log"⟩) = true := by
    decide +kernel
  obtain ⟨ending, hclose, hok⟩ := (Option.any_eq_true _ _).mp hrun
  obtain ⟨report, hreport, hfacts⟩ := (Option.any_eq_true _ _).mp hok
  clear hrun
  replace hreport : ending.result = .ok report := by
    cases hresult : ending.result with
    | error e =>
      rw [hresult] at hreport
      exact nomatch hreport
    | ok report' =>
      rw [hresult] at hreport
      exact congrArg Except.ok (Option.some_inj.mp hreport)
  rw [decide_eq_true_eq] at hfacts
  refine ⟨ending, report, hclose, hreport, hfacts.1, ?_⟩
  apply close_again Tree.noLinks_oneHeader isScripted_ofTexts separate_loggingCopier rfl hclose
    hreport
  rintro r hr ⟨log, hlog, hloc⟩
  cases hlog
  exact hfacts.2 r hr hloc

end Closure
end Graft
