import Graft.Proofs.Closure.Requests
import Mathlib.Data.List.Basic

/-!
This module contains the verdict of a closure run in terms of what its passes missed: which passes
only repeat earlier requests, and on which pass a run has to stall.
-/

namespace Graft
namespace Closure

variable {σ : Type}

/--
The pass at an index misses headers, all of which an earlier pass has asked for.
-/
def IsRepeat (passes : List (List MissingInclude)) (i : Nat) : Prop :=
  ∃ pass, passes[i]? = some pass ∧ pass ≠ []
    ∧ ∀ request ∈ pass, request.header ∈ (passes.take i).flatten.map (·.header)

/--
Among the first `n` passes there are `limit`, and the last `limit` of them are repeats.
-/
def StallsAt (limit : Nat) (passes : List (List MissingInclude)) (n : Nat) : Prop :=
  limit ≤ n ∧ ∀ i, n - limit ≤ i → i < n → IsRepeat passes i

structure Streak (passes : List (List MissingInclude)) (length : Nat) : Prop where
  le : length ≤ passes.length
  repeats : ∀ i, passes.length - length ≤ i → i < passes.length → IsRepeat passes i
  maximal : length < passes.length → ¬ IsRepeat passes (passes.length - length - 1)

section Repeats

variable {passes : List (List MissingInclude)}

theorem isRepeat_concat_of_lt (pass : List MissingInclude) {i : Nat} (h : i < passes.length) :
    IsRepeat (passes ++ [pass]) i ↔ IsRepeat passes i := by
  unfold IsRepeat
  rw [List.getElem?_append_left h, List.take_append_of_le_length (by omega)]

theorem isRepeat_concat_length (pass : List MissingInclude) :
    IsRepeat (passes ++ [pass]) passes.length
      ↔
    pass ≠ [] ∧ ∀ request ∈ pass, request.header ∈ passes.flatten.map (·.header) := by
  unfold IsRepeat
  rw [List.getElem?_concat_length, List.take_left]
  simp

theorem stallsAt_concat {limit n : Nat} (pass : List MissingInclude) (h : n ≤ passes.length) :
    StallsAt limit (passes ++ [pass]) n ↔ StallsAt limit passes n := by
  unfold StallsAt
  apply and_congr_right
  intro _
  apply forall_congr'
  intro i
  apply imp_congr_right
  intro _
  apply imp_congr_right
  intro hi
  apply isRepeat_concat_of_lt
  omega

namespace Streak

theorem nil : Streak [] 0 where
  le := by simp
  repeats := by simp
  maximal := by simp

variable {length : Nat}

theorem concat_repeat (h : Streak passes length) {pass : List MissingInclude}
    (hrepeat : IsRepeat (passes ++ [pass]) passes.length) :
    Streak (passes ++ [pass]) (length + 1) := by
  constructor
  . rw [List.length_append, List.length_singleton]
    have := h.le
    omega
  . intro i hlow hhigh
    rw [List.length_append, List.length_singleton] at hlow hhigh
    by_cases hi : i < passes.length
    . rw [isRepeat_concat_of_lt pass hi]
      apply h.repeats i _ hi
      omega
    . have : i = passes.length := by omega
      rw [this]
      exact hrepeat
  . intro hlt
    rw [List.length_append, List.length_singleton] at hlt ⊢
    have : passes.length + 1 - (length + 1) - 1 = passes.length - length - 1 := by omega
    rw [this, isRepeat_concat_of_lt pass (by omega)]
    apply h.maximal
    omega

theorem concat_new {pass : List MissingInclude}
    (hnew : ¬ IsRepeat (passes ++ [pass]) passes.length) :
    Streak (passes ++ [pass]) 0 := by
  constructor
  . simp
  . intro i hlow hhigh
    omega
  . intro _
    rw [List.length_append, List.length_singleton]
    exact hnew

theorem stallsAt_iff (h : Streak passes length) (limit : Nat) :
    StallsAt limit passes passes.length ↔ limit ≤ length := by
  have hle := h.le
  constructor
  . rintro ⟨hlimit, hrepeats⟩
    by_contra hlt
    apply h.maximal (by omega)
    apply hrepeats
    . omega
    . omega
  . intro hlimit
    refine ⟨by omega, ?_⟩
    intro i hlow hhigh
    apply h.repeats i _ hhigh
    omega

end Streak
end Repeats

/--
A report is what the passes of its run call for.
-/
structure Verdict (stallThreshold : Nat) (exhausted : Bool) (passes : List (List MissingInclude))
    (report : ClosureReport) : Prop where
  iterations : report.iterations = passes.length
  converged : report.state = .converged ↔ passes.getLast? = some []
  cleared : report.state = .converged →
    (∀ pass ∈ passes.dropLast, pass ≠ []) ∧ report.stalled = none ∧ report.pending = []
  stalled : report.state = .stalled
    ↔ StallsAt (max 1 stallThreshold) passes passes.length
      ∧ ∀ n < passes.length, ¬ StallsAt (max 1 stallThreshold) passes n
  blamed : report.state = .stalled → ∃ first rest, passes.getLast? = some (first :: rest)
    ∧ report.stalled
      = some ⟨first.header, first.sourceFile, passes.length, max 1 stallThreshold⟩
  building : report.state = .building
    ↔ exhausted = true ∧ passes.getLast? ≠ some []
      ∧ ¬ (StallsAt (max 1 stallThreshold) passes passes.length
        ∧ ∀ n < passes.length, ¬ StallsAt (max 1 stallThreshold) passes n)

structure Undecided (limit : Nat) (passes : List (List MissingInclude)) : Prop where
  missing : [] ∉ passes.dropLast
  running : ∀ n < passes.length, ¬ StallsAt limit passes n

section Verdict

variable {k : Nat} {passes : List (List MissingInclude)} {report : ClosureReport}

theorem verdict_building (hiterations : report.iterations = passes.length)
    (hstate : report.state = .building) (hmissing : [] ∉ passes)
    (hrunning : ∀ n ≤ passes.length, ¬ StallsAt (max 1 k) passes n) :
    Verdict k true passes report := by
  have hlast : passes.getLast? ≠ some [] := by
    intro hlast
    exact hmissing (List.mem_of_getLast? hlast)
  have hstall := hrunning passes.length (Nat.le_refl _)
  constructor <;> simp [hiterations, hstate, hlast, hstall]

theorem verdict_converged {exhausted : Bool} (hiterations : report.iterations = passes.length + 1)
    (hstate : report.state = .converged) (hmissing : [] ∉ passes) (hstalled : report.stalled = none)
    (hpending : report.pending = []) :
    Verdict k exhausted (passes ++ [[]]) report := by
  have hstall : ¬ StallsAt (max 1 k) (passes ++ [[]]) (passes ++ [[]]).length := by
    rintro ⟨hlimit, hrepeats⟩
    rw [List.length_append, List.length_singleton] at hlimit hrepeats
    have := hrepeats passes.length (by omega) (by omega)
    rw [isRepeat_concat_length] at this
    exact this.1 rfl
  constructor
  . simp [hiterations]
  . simp [hstate]
  . intro _
    refine ⟨?_, hstalled, hpending⟩
    rw [List.dropLast_concat]
    rintro pass hpass rfl
    exact hmissing hpass
  . simp only [hstate, hstall, false_and, iff_false]
    simp
  . simp [hstate]
  . simp [hstate]

theorem verdict_stalled {exhausted : Bool} {first : MissingInclude} {rest : List MissingInclude}
    (hiterations : report.iterations = passes.length + 1) (hstate : report.state = .stalled)
    (hstalled : report.stalled
      = some ⟨first.header, first.sourceFile, passes.length + 1, max 1 k⟩)
    (hrunning : ∀ n ≤ passes.length, ¬ StallsAt (max 1 k) passes n)
    (hstall : StallsAt (max 1 k) (passes ++ [first :: rest]) (passes.length + 1)) :
    Verdict k exhausted (passes ++ [first :: rest]) report := by
  have hlength : (passes ++ [first :: rest]).length = passes.length + 1 := by simp
  have hfirst : ∀ n < passes.length + 1, ¬ StallsAt (max 1 k) (passes ++ [first :: rest]) n := by
    intro n hn
    rw [stallsAt_concat _ (by omega)]
    apply hrunning
    omega
  constructor
  . rw [hlength, hiterations]
  . simp [hstate]
  . simp [hstate]
  . rw [hlength]
    simp only [hstate, hstall, true_and, true_iff]
    exact hfirst
  . intro _
    refine ⟨first, rest, by simp, ?_⟩
    rw [hlength, hstalled]
  . rw [hlength]
    constructor
    . simp [hstate]
    . rintro ⟨_, _, hnot⟩
      exact absurd ⟨hstall, hfirst⟩ hnot

namespace Undecided

theorem of_running {limit : Nat} (hmissing : [] ∉ passes)
    (hrunning : ∀ n ≤ passes.length, ¬ StallsAt limit passes n) : Undecided limit passes where
  missing hlast := hmissing (List.dropLast_subset _ hlast)
  running n hn := hrunning n (Nat.le_of_lt hn)

theorem concat {limit : Nat} (pass : List MissingInclude) (hmissing : [] ∉ passes)
    (hrunning : ∀ n ≤ passes.length, ¬ StallsAt limit passes n) :
    Undecided limit (passes ++ [pass]) := by
  constructor
  . rw [List.dropLast_concat]
    exact hmissing
  . intro n hn
    rw [List.length_append, List.length_singleton] at hn
    have hle : n ≤ passes.length := by omega
    rw [stallsAt_concat pass hle]
    exact hrunning n hle

theorem nil_mem_iff {limit : Nat} (h : Undecided limit passes) :
    [] ∈ passes ↔ passes.getLast? = some [] := by
  constructor
  . intro hmem
    by_contra hlast
    exact h.missing (List.mem_dropLast_of_mem_of_ne_getLast? hmem (Ne.symm hlast))
  . exact List.mem_of_getLast?

theorem length_eq_idxOf {limit : Nat} (h : Undecided limit passes) (hmem : [] ∈ passes) :
    passes.length = passes.idxOf [] + 1 := by
  have hlt := List.idxOf_lt_length_of_mem hmem
  have hlast := h.missing
  rw [List.mem_dropLast_iff_idxOf_lt hmem] at hlast
  omega

variable {exhausted : Bool}

theorem converged_iff (h : Undecided (max 1 k) passes) (hverdict : Verdict k exhausted passes report) :
    report.state = .converged ↔ [] ∈ passes := by
  rw [hverdict.converged, h.nil_mem_iff]

theorem stalled_iff (h : Undecided (max 1 k) passes) (hverdict : Verdict k exhausted passes report) :
    report.state = .stalled ↔ StallsAt (max 1 k) passes passes.length := by
  rw [hverdict.stalled, and_iff_left h.running]

theorem building_iff (h : Undecided (max 1 k) passes) (hverdict : Verdict k exhausted passes report) :
    report.state = .building
      ↔
    exhausted = true ∧ [] ∉ passes ∧ ¬ StallsAt (max 1 k) passes passes.length := by
  rw [hverdict.building, and_iff_left h.running, h.nil_mem_iff]

end Undecided
end Verdict

namespace Progress

structure Counts (g : Grammar) (k : Nat) (s : Progress (σ × List (Except Fault ToolOutput))) :
    Prop where
  streak : Streak (requests g s.tool.2) s.repeatPasses
  lt : s.repeatPasses < max 1 k
  running : ∀ n ≤ (requests g s.tool.2).length, ¬ StallsAt (max 1 k) (requests g s.tool.2) n

section Counts

variable {g : Grammar} {k : Nat} {s : Progress (σ × List (Except Fault ToolOutput))}

theorem counts_start (g : Grammar) (k : Nat) (m : Materializer) (t : Tree) (state : σ) :
    Counts g k { materializer := m, tree := t, tool := (state, []) } where
  streak := .nil
  lt := by
    dsimp only
    omega
  running := by
    intro n hn hstalls
    have := hstalls.1
    simp only [requests, List.filterMap_nil, List.length_nil] at hn
    omega

theorem isRepeat_iff (hs : s.Recalls g) {pass : List MissingInclude} (hne : pass ≠ []) :
    IsRepeat (requests g s.tool.2 ++ [pass]) (requests g s.tool.2).length
      ↔
    newBy (·.header) s.seen pass = [] := by
  rw [isRepeat_concat_length, ← hs.newBy_seen, newBy_eq_nil_iff]
  simp [hne]

theorem Counts.next (h : s.Counts g k) {s' : Progress (σ × List (Except Fault ToolOutput))}
    {pass : List MissingInclude} (hrequests : requests g s'.tool.2 = requests g s.tool.2 ++ [pass])
    (hstreak : Streak (requests g s.tool.2 ++ [pass]) s'.repeatPasses)
    (hlt : s'.repeatPasses < max 1 k) :
    s'.Counts g k := by
  rw [← hrequests] at hstreak
  refine ⟨hstreak, hlt, ?_⟩
  intro n hn
  by_cases hlast : n = (requests g s'.tool.2).length
  . rw [hlast, hstreak.stallsAt_iff]
    omega
  . rw [hrequests, List.length_append, List.length_singleton] at hn hlast
    rw [hrequests, stallsAt_concat pass (by omega)]
    apply h.running
    omega

theorem Counts.again (h : s.Counts g k) (hs : s.Recalls g) {tool : Tool σ}
    {s' : Progress (σ × List (Except Fault ToolOutput))}
    (houtcome : s.Outcome g k tool.recorded (.again s')) :
    s'.Counts g k := by
  cases houtcome with
  | repeated hcall hmissing hrepeat hlimit =>
    have hstreak := h.streak.concat_repeat ((isRepeat_iff hs (by simp)).mpr hrepeat)
    apply h.next _ hstreak
    . dsimp only
      omega
    . rw [requests_of_invoke hcall, hmissing]
  | @progressed output _ _ _ requests _ hcall hmissing hnew hdone =>
    have hne : requests ≠ [] := by
      rintro rfl
      exact hnew rfl
    apply h.next _ (.concat_new (mt (isRepeat_iff hs hne).mp hnew))
    . dsimp only
      omega
    . rw [requests_of_invoke hcall, hmissing]

end Counts
end Progress

theorem close_undecided {g : Grammar} {k : Nat} {tool : Tool σ} {m : Materializer} {t : Tree}
    {state : σ} {ending : Ending σ} (h : close g k tool m t state = some ending) :
    Undecided (max 1 k) (requests g (answers g k tool m t state)) := by
  apply close_induct (P := fun s => s.Counts g k)
    (Q := fun ending => Undecided (max 1 k) (requests g ending.tool.2)) _ _
    (Progress.counts_start g k m t state) h
  . intro s hs hcounts _
    exact .of_running hs.missing hcounts.running
  . intro s step hs hcounts houtcome
    cases step with
    | again s' => exact hcounts.again hs houtcome
    | done ending =>
      have htool := houtcome.tool_eq
      dsimp only [Step.tool, Tool.recorded] at htool
      dsimp only [Step.Meets]
      rw [htool]
      dsimp only
      cases (tool.invoke s.tool.1 s.materializer.targetRoot s.tree).1 with
      | error cause =>
        rw [requests_concat_error]
        exact .of_running hs.missing hcounts.running
      | ok output =>
        rw [requests_concat_ok]
        exact .concat _ hs.missing hcounts.running

/--
A run that ends with a report has called its tool once for each pass, and the report is what the
passes call for.
-/
theorem close_verdict {g : Grammar} {k : Nat} {tool : Tool σ} {m : Materializer} {t : Tree}
    {state : σ} {ending : Ending σ} {report : ClosureReport}
    (h : close g k tool m t state = some ending) (hreport : ending.result = .ok report) :
    (answers g k tool m t state).length = report.iterations
      ∧ Verdict k (tool.exhausted ending.tool) (requests g (answers g k tool m t state)) report := by
  apply close_induct (P := fun s => s.Counts g k)
    (Q := fun ending => ∀ report, ending.result = .ok report →
      ending.tool.2.length = report.iterations
        ∧ Verdict k (tool.exhausted ending.tool.1) (requests g ending.tool.2) report)
    _ _ (Progress.counts_start g k m t state) h report hreport
  . rintro s hs hcounts hexhausted report ⟨⟩
    refine ⟨hs.iterations.symm, ?_⟩
    dsimp only [Progress.finish]
    rw [hexhausted]
    apply verdict_building _ rfl hs.missing hcounts.running
    exact hs.length_requests.symm
  . intro s step hs hcounts houtcome
    cases houtcome with
    | broken hcall =>
      intro report hresult
      contradiction
    | converged hcall hmissing =>
      rintro report ⟨⟩
      dsimp only
      rw [requests_of_invoke hcall, Tool.history_of_invoke_recorded hcall, hmissing]
      refine ⟨by simp [hs.iterations], ?_⟩
      apply verdict_converged _ rfl hs.missing rfl rfl
      dsimp only
      rw [hs.length_requests]
    | stalled hcall hmissing hrepeat hlimit =>
      rintro report ⟨⟩
      dsimp only
      rw [requests_of_invoke hcall, Tool.history_of_invoke_recorded hcall, hmissing]
      refine ⟨by simp [hs.iterations], ?_⟩
      have hstreak :=
        hcounts.streak.concat_repeat ((Progress.isRepeat_iff hs (by simp)).mpr hrepeat)
      have hlt := hcounts.lt
      have hpasses : s.repeatPasses + 1 = max 1 k := by omega
      apply verdict_stalled _ rfl _ hcounts.running
      . have := (hstreak.stallsAt_iff (max 1 k)).mpr (by omega)
        rwa [List.length_append, List.length_singleton] at this
      . dsimp only
        rw [hs.length_requests]
      . dsimp only
        rw [hs.length_requests, hpasses]
    | repeated hcall hmissing hrepeat hlimit =>
      exact hcounts.again hs (.repeated hcall hmissing hrepeat hlimit)
    | stuck hcall hmissing hfails =>
      intro report hresult
      contradiction
    | progressed hcall hmissing hnew hdone =>
      exact hcounts.again hs (.progressed hcall hmissing hnew hdone)

theorem close_verdict_repeated :
    ∃ ending report,
      close .default 0 .ofTexts headerCopier .oneHeader (missingTexts ["a.h", "a.h"]) = some ending
        ∧ ending.result = .ok report
        ∧ (answers .default 0 .ofTexts headerCopier .oneHeader
            (missingTexts ["a.h", "a.h"])).length = report.iterations
        ∧ Verdict 0 (Tool.ofTexts.exhausted ending.tool)
            (requests .default (answers .default 0 .ofTexts headerCopier .oneHeader
              (missingTexts ["a.h", "a.h"])))
            report := by
  have hrun : (close .default 0 .ofTexts headerCopier .oneHeader
      (missingTexts ["a.h", "a.h"])).any (·.result.isOk) = true := by
    decide +kernel
  obtain ⟨ending, hclose, hok⟩ := (Option.any_eq_true _ _).mp hrun
  cases hresult : ending.result with
  | error e =>
    rw [hresult] at hok
    exact absurd hok Bool.false_ne_true
  | ok report => exact ⟨ending, report, hclose, hresult, close_verdict hclose hresult⟩

end Closure
end Graft
