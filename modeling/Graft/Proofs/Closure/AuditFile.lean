import Graft.Proofs.Closure.Ends
import Graft.Proofs.Closure.Rerun
import Graft.Proofs.Tree.Destination

/-!
This module contains the agreement of the two logs of a materializer: whatever its calls come to, the
file has the line of every record that is kept in memory, in the same order, and no other.
-/

namespace Graft

def MaterializedHeader.logText (records : List MaterializedHeader) : ByteArray :=
  (String.join (records.map (·.logLine))).toUTF8

open MaterializedHeader (logText)

@[simp]
theorem MaterializedHeader.logText_nil : logText [] = .empty := rfl

theorem MaterializedHeader.logText_singleton (r : MaterializedHeader) :
    logText [r] = r.logLine.toUTF8 := by
  simp [logText]

theorem MaterializedHeader.logText_append (records records' : List MaterializedHeader) :
    logText (records ++ records') = logText records ++ logText records' := by
  unfold logText
  rw [List.map_append, String.join_append]
  exact String.toByteArray_append

namespace Materializer

def SparesLog (m : Materializer) (log : Path) (t : Tree) (request : MissingInclude) : Prop :=
  ∀ paths, m.pathsFor request = .ok paths → ¬ t.Coincide log paths.target

/--
Calls on one materializer for headers that do not go to the audit log, with anything done to the tree
between two of them that leaves the content of the audit log as it is. The list has the records that
the calls have returned, oldest first.
-/
inductive LogSession (log : Path) (m₀ : Materializer) (t₀ : Tree) :
    List MaterializedHeader → Materializer → Tree → Prop where
  | start : LogSession log m₀ t₀ [] m₀ t₀
  | call {returned : List MaterializedHeader} {m m' : Materializer} {t t' : Tree}
      {request : MissingInclude} {iteration : Nat}
      {result : Except ClosureError MaterializedHeader} (h : LogSession log m₀ t₀ returned m t)
      (hspares : m.SparesLog log t request)
      (hcall : m.materialize t request iteration = (result, m', t')) :
      LogSession log m₀ t₀ (returned ++ result.toOption.toList) m' t'
  | edit {returned : List MaterializedHeader} {m : Materializer} {t t' : Tree}
      (h : LogSession log m₀ t₀ returned m t) (hkept : t'.contentOf log = t.contentOf log) :
      LogSession log m₀ t₀ returned m t'

section Place

variable {t t' : Tree} {p q : Path} {f : ByteArray → ByteArray}

theorem place_destination {result : Except ClosureError Unit}
    (h : place t p (·.modify · f) = (result, t')) :
    t.SameLinks t'
      ∧ (result = .ok () → ∃ loc, t.destination? p = some loc ∧ ∀ loc', t'.fileAt? loc'
        = if loc' = loc then some (f ((t.fileAt? loc).getD .empty)) else t.fileAt? loc') := by
  cases place_outcome h with
  | noDirectory hmake => exact ⟨Tree.makeFirst_sameLinks hmake, fun hok => nomatch hok⟩
  | refused hmake => exact ⟨Tree.makeFirst_sameLinks hmake, fun hok => nomatch hok⟩
  | @done t₁ _ hmake hmodify =>
    have hlinks := Tree.makeFirst_sameLinks hmake
    have hdirs : Tree.ChangesOnly (fun _ => False) t t₁ := Tree.makeFirst_changes hmake
    obtain ⟨hlinks', loc, hloc, hfiles⟩ := Tree.modify_destination hmodify
    refine ⟨hlinks.trans hlinks', fun _ => ⟨loc, ?_, ?_⟩⟩
    . rw [← hlinks.destination?]
      exact hloc
    . intro loc'
      rw [hfiles, hdirs.file _ not_false, hdirs.file _ not_false]

theorem contentOf_place (h : place t p (·.modify · f) = (.ok (), t')) :
    t'.contentOf p = f (t.contentOf p) := by
  obtain ⟨hlinks, hdone⟩ := place_destination h
  obtain ⟨loc, hloc, hfiles⟩ := hdone rfl
  unfold Tree.contentOf
  rw [hlinks.destination?, hloc, Option.bind_some, hfiles, if_pos rfl]
  rfl

theorem contentOf_of_place_eq_error {e : ClosureError}
    (h : place t p (·.modify · f) = (.error e, t')) :
    t'.contentOf q = t.contentOf q := by
  unfold Tree.contentOf
  rw [(place_destination h).1.destination?]
  cases t.destination? q with
  | none => rfl
  | some loc =>
    rw [Option.bind_some, Option.bind_some, fileAt?_of_place_eq_error h]

theorem contentOf_of_place {result : Except ClosureError Unit} (hapart : ¬ t.Coincide q p)
    (h : place t p (·.modify · f) = (result, t')) :
    t'.contentOf q = t.contentOf q := by
  cases result with
  | error e => exact contentOf_of_place_eq_error h
  | ok =>
    obtain ⟨hlinks, hdone⟩ := place_destination h
    obtain ⟨loc, hloc, hfiles⟩ := hdone rfl
    unfold Tree.contentOf
    rw [hlinks.destination?]
    cases hq : t.destination? q with
    | none => rfl
    | some loc' =>
      have hne : loc' ≠ loc := by
        rintro rfl
        exact hapart ⟨loc', hq, hloc⟩
      rw [Option.bind_some, Option.bind_some, hfiles, if_neg hne]

end Place

section Call

variable {m m' : Materializer} {t t' : Tree} {log : Path} {r : MaterializedHeader}

theorem copy_sameLinks {content : ByteArray} {result : Except ClosureError Unit}
    (h : m.copy t r content = (result, m', t')) :
    t.SameLinks t' := by
  cases copy_outcome h with
  | present => exact .refl t
  | failed _ hplace => exact (place_destination hplace).1
  | written _ hplace => exact (place_destination hplace).1

theorem copy_contentOf {content : ByteArray} {result : Except ClosureError Unit}
    (hapart : ¬ t.Coincide log r.targetPath) (h : m.copy t r content = (result, m', t')) :
    t'.contentOf log = t.contentOf log := by
  cases copy_outcome h with
  | present => rfl
  | failed _ hplace => exact contentOf_of_place hapart hplace
  | written _ hplace => exact contentOf_of_place hapart hplace

theorem appendLog_sameLinks {result : Except ClosureError Unit}
    (h : m.appendLog t r = (result, t')) :
    t.SameLinks t' := by
  unfold appendLog at h
  split at h
  . cases h
    exact .refl t
  . exact (place_destination h).1

theorem appendLog_contentOf (hlog : m.logFile = some log) (h : m.appendLog t r = (.ok (), t')) :
    t'.contentOf log = t.contentOf log ++ logText [r] := by
  unfold appendLog at h
  rw [hlog] at h
  rw [contentOf_place h, MaterializedHeader.logText_singleton]

theorem appendLog_contentOf_of_error {e : ClosureError} (h : m.appendLog t r = (.error e, t')) :
    t'.contentOf log = t.contentOf log := by
  unfold appendLog at h
  split at h
  . cases h
  . exact contentOf_of_place_eq_error h

theorem materialize_sameLinks {request : MissingInclude} {iteration : Nat}
    {result : Except ClosureError MaterializedHeader}
    (h : m.materialize t request iteration = (result, m', t')) :
    t.SameLinks t' := by
  cases materialize_outcome h with
  | refused => exact .refl t
  | notCopied _ hcopy => exact copy_sameLinks hcopy
  | notLogged _ hcopy happend => exact (copy_sameLinks hcopy).trans (appendLog_sameLinks happend)
  | recorded _ hcopy happend => exact (copy_sameLinks hcopy).trans (appendLog_sameLinks happend)

theorem materialize_logs {request : MissingInclude} {iteration : Nat}
    {result : Except ClosureError MaterializedHeader} (hlog : m.logFile = some log)
    (hspares : m.SparesLog log t request)
    (h : m.materialize t request iteration = (result, m', t')) :
    m'.log = m.log ++ result.toOption.toList
      ∧ t'.contentOf log = t.contentOf log ++ logText result.toOption.toList := by
  have hcopied : ∀ {r content result m₁ t₁}, m.decide t request iteration = .ok (r, content) →
      m.copy t r content = (result, m₁, t₁) → t₁.contentOf log = t.contentOf log := by
    intro r content result m₁ t₁ hdecide hcopy
    obtain ⟨paths, action, hpaths, _, _, hr⟩ := decide_eq_ok hdecide
    apply copy_contentOf _ hcopy
    rw [hr]
    exact hspares paths hpaths
  have hnone : ∀ {e : ClosureError},
      (Except.error e : Except ClosureError MaterializedHeader).toOption.toList = [] := rfl
  cases materialize_outcome h with
  | refused => simp [hnone]
  | notCopied hdecide hcopy => simp [hnone, log_copy hcopy, hcopied hdecide hcopy]
  | notLogged hdecide hcopy happend =>
    simp [hnone, log_copy hcopy, hcopied hdecide hcopy, appendLog_contentOf_of_error happend]
  | @recorded r content _ t₁ _ hdecide hcopy happend =>
    have hfile := (sameSettings_copy hcopy).logFile.trans hlog
    have hsome : (Except.ok r : Except ClosureError MaterializedHeader).toOption.toList = [r] := rfl
    rw [hsome, appendLog_contentOf hfile happend, hcopied hdecide hcopy]
    exact ⟨congrArg (· ++ [r]) (log_copy hcopy), rfl⟩

theorem SparesLog.sameLinks {request : MissingInclude} (h : m.SparesLog log t request)
    (hlinks : t.SameLinks t') :
    m.SparesLog log t' request := by
  intro paths hpaths
  rw [hlinks.coincide_iff]
  exact h paths hpaths

theorem SameSettings.sparesLog_iff (h : m.SameSettings m') {request : MissingInclude} :
    m'.SparesLog log t request ↔ m.SparesLog log t request := by
  unfold SparesLog
  rw [h.pathsFor]

end Call

section Session

variable {log : Path} {m₀ m : Materializer} {t₀ t : Tree} {returned : List MaterializedHeader}

theorem LogSession.sameSettings (h : LogSession log m₀ t₀ returned m t) : m₀.SameSettings m := by
  induction h with
  | start => exact .refl m₀
  | call _ _ hcall ih => exact ih.trans (sameSettings_materialize hcall)
  | edit _ _ ih => exact ih

theorem LogSession.logs (hlog : m₀.logFile = some log) (h : LogSession log m₀ t₀ returned m t) :
    m.log = m₀.log ++ returned ∧ t.contentOf log = t₀.contentOf log ++ logText returned := by
  induction h with
  | start => simp
  | call h hspares hcall ih =>
    obtain ⟨hrecords, hcontent⟩ := ih
    have hfile := h.sameSettings.logFile.trans hlog
    obtain ⟨hrecords', hcontent'⟩ := materialize_logs hfile hspares hcall
    constructor
    . rw [hrecords', hrecords, List.append_assoc]
    . rw [hcontent', hcontent, ByteArray.append_assoc, MaterializedHeader.logText_append]
  | edit _ hkept ih =>
    rw [hkept]
    exact ih

end Session
end Materializer

namespace Closure

variable {σ : Type}

namespace Progress

inductive Reached (g : Grammar) (k : Nat) (tool : Tool σ) (first : Progress σ) :
    Progress σ → Prop where
  | start : Reached g k tool first first
  | again {s s' : Progress σ} (h : Reached g k tool first s)
      (hexhausted : tool.exhausted s.tool = false) (hpass : s.pass g k tool = .again s') :
      Reached g k tool first s'

/--
The next pass leaves the audit log to the materializer: the tool does not change its content, and no
new header that is missing goes there.
-/
structure SparesLog (g : Grammar) (tool : Tool σ) (log : Path) (s : Progress σ) : Prop where
  content : ∀ {answer state t}, tool.invoke s.tool s.materializer.targetRoot s.tree
    = (answer, state, t) → t.contentOf log = s.tree.contentOf log
  target : ∀ {output state t}, tool.invoke s.tool s.materializer.targetRoot s.tree
    = (.ok output, state, t) →
    ∀ request ∈ newBy (·.header) s.seen (g.parse output.text).missingIncludes,
      s.materializer.SparesLog log t request

end Progress

theorem materializeAll_keeps {m m' : Materializer} {t t' : Tree} {iteration : Nat}
    {requests : List MissingInclude} {result : Except ClosureError Unit}
    (h : materializeAll m t iteration requests = (result, m', t')) :
    m.SameSettings m' ∧ t.SameLinks t' := by
  induction requests generalizing m t with
  | nil =>
    cases h
    exact ⟨.refl _, .refl _⟩
  | cons request rest ih =>
    unfold materializeAll at h
    split at h
    . next hfails =>
      cases h
      exact ⟨Materializer.sameSettings_materialize hfails,
        Materializer.materialize_sameLinks hfails⟩
    . next hdone =>
      obtain ⟨hsame, hlinks⟩ := ih h
      exact ⟨(Materializer.sameSettings_materialize hdone).trans hsame,
        (Materializer.materialize_sameLinks hdone).trans hlinks⟩

section Session

variable {g : Grammar} {k : Nat} {tool : Tool σ} {m₀ : Materializer} {t₀ : Tree} {log : Path}
variable {returned : List MaterializedHeader}

theorem materializeAll_logSession {m m' : Materializer} {t t' : Tree} {iteration : Nat}
    {requests : List MissingInclude} {result : Except ClosureError Unit}
    (hsession : Materializer.LogSession log m₀ t₀ returned m t)
    (hspares : ∀ request ∈ requests, m.SparesLog log t request)
    (h : materializeAll m t iteration requests = (result, m', t')) :
    ∃ returned, Materializer.LogSession log m₀ t₀ returned m' t' := by
  induction requests generalizing returned m t with
  | nil =>
    cases h
    exact ⟨returned, hsession⟩
  | cons request rest ih =>
    rw [List.forall_mem_cons] at hspares
    unfold materializeAll at h
    split at h
    . next hfails =>
      cases h
      exact ⟨_, hsession.call hspares.1 hfails⟩
    . next hdone =>
      apply ih (hsession.call hspares.1 hdone) _ h
      intro request' hrequest'
      rw [(Materializer.sameSettings_materialize hdone).sparesLog_iff]
      exact (hspares.2 request' hrequest').sameLinks (Materializer.materialize_sameLinks hdone)

theorem pass_logSession {s : Progress σ}
    (hsession : Materializer.LogSession log m₀ t₀ returned s.materializer s.tree)
    (hspares : s.SparesLog g tool log) :
    (s.pass g k tool).Meets
      (fun s' => ∃ returned,
        Materializer.LogSession log m₀ t₀ returned s'.materializer s'.tree)
      (fun ending => ∃ returned,
        Materializer.LogSession log m₀ t₀ returned ending.materializer ending.tree) := by
  have hcalled : ∀ {answer state t},
      tool.invoke s.tool s.materializer.targetRoot s.tree = (answer, state, t) →
      Materializer.LogSession log m₀ t₀ returned s.materializer t := by
    intro answer state t hcall
    exact hsession.edit (hspares.content hcall)
  have houtcome := Progress.pass_outcome g k tool s
  cases hpass : s.pass g k tool with
  | done ending =>
    rw [hpass] at houtcome
    cases houtcome with
    | broken hcall => exact ⟨returned, hcalled hcall⟩
    | converged hcall => exact ⟨returned, hcalled hcall⟩
    | stalled hcall => exact ⟨returned, hcalled hcall⟩
    | stuck hcall hmissing hfails =>
      have htarget := hspares.target hcall
      rw [hmissing] at htarget
      exact materializeAll_logSession (hcalled hcall) htarget hfails
  | again s' =>
    rw [hpass] at houtcome
    cases houtcome with
    | repeated hcall => exact ⟨returned, hcalled hcall⟩
    | progressed hcall hmissing _ hdone =>
      have htarget := hspares.target hcall
      rw [hmissing] at htarget
      exact materializeAll_logSession (hcalled hcall) htarget hdone

theorem close_logSession {m : Materializer} {t : Tree} {state : σ} {ending : Ending σ}
    (h : close g k tool m t state = some ending)
    (hspares : ∀ s, Progress.Reached g k tool { materializer := m, tree := t, tool := state } s →
      tool.exhausted s.tool = false → s.SparesLog g tool log) :
    ∃ returned, Materializer.LogSession log m t returned ending.materializer ending.tree := by
  apply Progress.run_induct
    (P := fun s => Progress.Reached g k tool { materializer := m, tree := t, tool := state } s
      ∧ ∃ returned, Materializer.LogSession log m t returned s.materializer s.tree)
    _ _ ⟨.start, [], .start⟩ h
  . rintro s ⟨_, hsession⟩ _
    exact hsession
  . rintro s ⟨hreached, returned, hsession⟩ hexhausted
    have hmeets : (s.pass g k tool).Meets _ _ :=
      pass_logSession hsession (hspares s hreached hexhausted)
    cases hpass : s.pass g k tool with
    | done ending =>
      rw [hpass] at hmeets
      exact hmeets
    | again s' =>
      rw [hpass] at hmeets
      exact ⟨hreached.again hexhausted hpass, hmeets⟩

end Session

namespace Progress

variable {g : Grammar} {k : Nat} {tool : Tool σ} {first s : Progress σ} {log : Path}

theorem Reached.keeps (htool : tool.OnlyPrints) (h : Reached g k tool first s) :
    tool.Reaches first.tool s.tool ∧ first.materializer.SameSettings s.materializer
      ∧ first.tree.SameLinks s.tree := by
  induction h with
  | start => exact ⟨.start, .refl _, .refl _⟩
  | @again s s' _ _ hpass ih =>
    obtain ⟨hreaches, hsame, hlinks⟩ := ih
    have houtcome := pass_outcome g k tool s
    rw [hpass] at houtcome
    have hreaches' := hreaches.call s.materializer.targetRoot s.tree
    rw [← houtcome.tool_eq] at hreaches'
    have htree := htool s.tool s.materializer.targetRoot s.tree
    refine ⟨hreaches', ?_⟩
    cases houtcome with
    | repeated hcall =>
      rw [hcall] at htree
      rw [← htree] at hlinks
      exact ⟨hsame, hlinks⟩
    | progressed hcall _ _ hdone =>
      rw [hcall] at htree
      rw [← htree] at hlinks
      obtain ⟨hsame', hlinks'⟩ := materializeAll_keeps hdone
      exact ⟨hsame.trans hsame', hlinks.trans hlinks'⟩

theorem Reached.sparesLog (htool : tool.OnlyPrints) (h : Reached g k tool first s)
    (hspares : ∀ state cwd t output, tool.Reaches first.tool state →
      (tool.invoke state cwd t).1 = .ok output →
      ∀ request ∈ (g.parse output.text).missingIncludes,
        first.materializer.SparesLog log first.tree request) :
    s.SparesLog g tool log := by
  obtain ⟨hreaches, hsame, hlinks⟩ := h.keeps htool
  constructor
  . intro answer state t hcall
    have htree := htool s.tool s.materializer.targetRoot s.tree
    rw [hcall] at htree
    exact congrArg (·.contentOf log) htree
  . intro output state t hcall request hrequest
    have htree := htool s.tool s.materializer.targetRoot s.tree
    rw [hcall] at htree
    dsimp only at htree
    subst htree
    rw [hsame.sparesLog_iff]
    have hmissed := hspares s.tool s.materializer.targetRoot s.tree output hreaches
      (by rw [hcall]) request (newBy_subset _ _ _ hrequest)
    exact hmissed.sameLinks hlinks

end Progress

/--
The audit log and the records that are kept in memory never drift apart, be it in calls on a
materializer or in a closure run, and whether or not these succeed. As long as no header goes to the
file and nobody else changes it, it has its content from before, followed by the lines of the records
that were added, in their order.
-/
theorem logs_agree {m : Materializer} {log : Path} (hlog : m.logFile = some log) (t : Tree) :
    (∀ returned m' t', m.LogSession log t returned m' t' →
      m'.log = m.log ++ returned ∧ t'.contentOf log = t.contentOf log ++ logText returned)
    ∧ ∀ (g : Grammar) (k : Nat) (tool : Tool σ) (state : σ) (ending : Ending σ),
      close g k tool m t state = some ending →
      (∀ s, Progress.Reached g k tool { materializer := m, tree := t, tool := state } s →
        tool.exhausted s.tool = false → s.SparesLog g tool log) →
      ∃ records, ending.materializer.log = m.log ++ records
        ∧ ending.tree.contentOf log = t.contentOf log ++ logText records
        ∧ ∀ report, ending.result = .ok report → report.materialized = m.log ++ records := by
  constructor
  . intro returned m' t' hsession
    exact hsession.logs hlog
  . intro g k tool state ending h hspares
    obtain ⟨records, hsession⟩ := close_logSession h hspares
    obtain ⟨hrecords, hcontent⟩ := hsession.logs hlog
    refine ⟨records, hrecords, hcontent, ?_⟩
    intro report hreport
    rw [← hrecords]
    exact (log_run h).2 report hreport

def loggedTree : Tree :=
  (Tree.oneHeader.put (.ofTexts ["l"]) .directory).put (.ofTexts ["l", "log"]) (.file "0\n".toUTF8)

theorem noLinks_loggedTree : loggedTree.NoLinks := by
  unfold loggedTree
  apply Tree.NoLinks.put
  . apply Tree.noLinks_oneHeader.put
    . simp
    . simp
  . simp
  . simp

def copiedLine : String :=
  "1\tcopied\ta.h\td/a.h\tt/a.h\t"
    ++ "2d711642b726b04401627ca9fbac32f5c8530fb1903cc4db02258717921a4881\tx.c\n"

theorem logs_agree_failed :
    ∃ ending r,
      close .default 1 .ofTexts loggingCopier loggedTree (missingTexts ["a.h", "b.h"]) = some ending
      ∧ ending.result.isOk = false ∧ ending.materializer.log = [r]
      ∧ ending.tree.contentOf ⟨"l/log"⟩ = "0\n".toUTF8 ++ logText [r]
      ∧ logText [r] = copiedLine.toUTF8 := by
  have hrun : (close .default 1 .ofTexts loggingCopier loggedTree
      (missingTexts ["a.h", "b.h"])).any (fun ending =>
        !ending.result.isOk && ending.materializer.log.map (·.logLine) = [copiedLine]) = true := by
    decide +kernel
  have hbefore : loggedTree.contentOf ⟨"l/log"⟩ = "0\n".toUTF8 := by
    apply Tree.contentOf_of_read
    rfl
  have hplaces : ∀ rest ∈ (missingTexts ["a.h", "b.h"]).tails,
      ∀ request ∈ (Grammar.default.parse (rest.headD "")).missingIncludes,
        ∀ paths ∈ (loggingCopier.pathsFor request).toOption,
          loggedTree.locate ⟨"l/log"⟩ ≠ loggedTree.locate paths.target := by
    decide +kernel
  have hspares : ∀ state cwd t output, Tool.ofTexts.Reaches (missingTexts ["a.h", "b.h"]) state →
      (Tool.ofTexts.invoke state cwd t).1 = .ok output →
      ∀ request ∈ (Grammar.default.parse output.text).missingIncludes,
        loggingCopier.SparesLog ⟨"l/log"⟩ loggedTree request := by
    rintro rest cwd t output hreaches ⟨⟩ request hrequest paths hpaths
    have htails : rest ∈ (missingTexts ["a.h", "b.h"]).tails :=
      (List.mem_tails _ _).mpr (Tool.suffix_of_reaches_ofTexts hreaches)
    rw [noLinks_loggedTree.coincide_iff]
    apply hplaces rest htails request hrequest
    rw [hpaths]
    rfl
  obtain ⟨ending, hclose, hfacts⟩ := (Option.any_eq_true _ _).mp hrun
  rw [Bool.and_eq_true, Bool.not_eq_true', decide_eq_true_eq] at hfacts
  obtain ⟨hfailed, hline⟩ := hfacts
  have hlog : loggingCopier.logFile = some ⟨"l/log"⟩ := rfl
  obtain ⟨records, hrecords, hcontent, _⟩ := (logs_agree hlog loggedTree).2 _ _ _ _ _ hclose
    fun s hreached _ => hreached.sparesLog Tool.onlyPrints_ofTexts hspares
  obtain ⟨r, hr, hr'⟩ := List.map_eq_singleton_iff.mp hline
  have hrecord : records = [r] := by
    rw [← hr, hrecords]
    rfl
  refine ⟨ending, r, hclose, hfailed, hr, ?_, ?_⟩
  . rw [hcontent, hbefore, hrecord]
  . rw [MaterializedHeader.logText_singleton, hr']

end Closure
end Graft
