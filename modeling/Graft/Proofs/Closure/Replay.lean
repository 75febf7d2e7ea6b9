import Graft.Proofs.Closure.Verdict
import Mathlib.Data.Set.List

/-!
This module contains the replay of saved logs: pass after pass a run reads them in turn, fails only at
a log that cannot be read, and its report is what the logs that it has read call for.
-/

namespace Graft

namespace Tool

variable {σ : Type}

def watched (tool : Tool σ) : Tool (σ × List (Tree × Except Fault ToolOutput)) where
  exhausted s := tool.exhausted s.1
  invoke s cwd t :=
    let (answer, state, t') := tool.invoke s.1 cwd t
    (answer, (state, s.2 ++ [(t, answer)]), t')

theorem projects_watched (tool : Tool σ) :
    tool.watched.Projects (fun s => (s.1, s.2.map (·.2))) tool.recorded where
  exhausted _ := rfl
  invoke s cwd t := by
    unfold watched recorded
    simp

end Tool

namespace Closure

variable {σ : Type}

def calls (g : Grammar) (stallThreshold : Nat) (tool : Tool σ) (m : Materializer) (t : Tree)
    (state : σ) : List (Tree × Except Fault ToolOutput) :=
  match close g stallThreshold tool.watched m t (state, []) with
  | some ending => ending.tool.2
  | none => []

theorem close_watched (g : Grammar) (k : Nat) (tool : Tool σ) (m : Materializer) (t : Tree)
    (state : σ) :
    (close g k tool.watched m t (state, [])).map (·.mapTool fun s => (s.1, s.2.map (·.2)))
      =
    close g k tool.recorded m t (state, []) :=
  close_mapTool tool.projects_watched g k m t (state, [])

theorem map_calls (g : Grammar) (k : Nat) (tool : Tool σ) (m : Materializer) (t : Tree) (state : σ) :
    (calls g k tool m t state).map (·.2) = answers g k tool m t state := by
  unfold calls answers
  rw [← close_watched]
  cases close g k tool.watched m t (state, []) with
  | none => rfl
  | some ending => rfl

theorem calls_induct {g : Grammar} {k : Nat} {tool : Tool σ}
    {P : σ → List (Tree × Except Fault ToolOutput) → Prop}
    (hcall : ∀ state calls cwd t, P state calls → tool.exhausted state = false →
      P (tool.invoke state cwd t).2.1 (calls ++ [(t, (tool.invoke state cwd t).1)]))
    {m : Materializer} {t : Tree} {state : σ} {ending : Ending σ} (hstart : P state [])
    (h : close g k tool m t state = some ending) :
    P ending.tool (calls g k tool m t state) := by
  obtain ⟨memory, hrecorded, _⟩ := exists_recorded_of_close h
  rw [← close_watched] at hrecorded
  obtain ⟨watched, hwatched, hending⟩ := Option.map_eq_some_iff.mp hrecorded
  have hP : P watched.tool.1 watched.tool.2 := by
    apply Progress.run_tool_induct (P := fun s => P s.1 s.2) _ hstart hwatched
    intro s cwd t hs hexhausted
    exact hcall s.1 s.2 cwd t hs hexhausted
  have htool : watched.tool.1 = ending.tool := congrArg (·.tool.1) hending
  unfold calls
  rw [hwatched, ← htool]
  exact hP

/--
How the answers of the tool and the result of a run go together: the run fails with an error of the
tool just when the last call fails.
-/
inductive Answered (result : Except ClosureError ClosureReport) :
    List (Except Fault ToolOutput) → Prop where
  | texts (outputs : List ToolOutput)
      (hresult : ∀ iteration message, result ≠ .error (.tool iteration message)) :
      Answered result (outputs.map .ok)
  | broken (outputs : List ToolOutput) (cause : Fault)
      (hresult : result = .error (.tool (outputs.length + 1) cause.message)) :
      Answered result (outputs.map .ok ++ [.error cause])

theorem requests_map_ok (g : Grammar) (outputs : List ToolOutput) :
    requests g (outputs.map .ok) = outputs.map fun output => (g.parse output.text).missingIncludes := by
  unfold requests
  rw [List.filterMap_map, ← List.filterMap_eq_map]
  rfl

theorem exists_outputs {g : Grammar} {answers : List (Except Fault ToolOutput)}
    (h : (requests g answers).length = answers.length) :
    ∃ outputs : List ToolOutput, answers = outputs.map .ok := by
  unfold requests at h
  rw [List.filterMap_length_eq_length] at h
  have houtputs : answers ∈ Set.range (List.map (.ok : ToolOutput → Except Fault ToolOutput)) := by
    rw [Set.range_list_map]
    intro answer hanswer
    cases answer with
    | error cause => exact absurd (h _ hanswer) Bool.false_ne_true
    | ok output => exact ⟨output, rfl⟩
  obtain ⟨outputs, houtputs⟩ := houtputs
  exact ⟨outputs, houtputs.symm⟩

theorem not_tool_of_materializeAll {m m' : Materializer} {t t' : Tree} {iteration : Nat}
    {requests : List MissingInclude} {e : ClosureError}
    (h : materializeAll m t iteration requests = (.error e, m', t')) (pass : Nat) (message : String) :
    e ≠ .tool pass message := by
  induction requests generalizing m t with
  | nil => cases h
  | cons request rest ih =>
    unfold materializeAll at h
    split at h
    . next hfails =>
      cases h
      rintro rfl
      rcases Materializer.materialize_eq_error hfails with ⟨path, cause, he⟩ | ⟨hheader, _⟩
      . contradiction
      . contradiction
    . exact ih h

theorem close_answered {g : Grammar} {k : Nat} {tool : Tool σ} {m : Materializer} {t : Tree}
    {state : σ} {ending : Ending σ} (h : close g k tool m t state = some ending) :
    Answered ending.result (answers g k tool m t state) := by
  apply close_induct (P := fun _ => True) (Q := fun ending => Answered ending.result ending.tool.2)
    _ _ trivial h
  . intro s hs _ _
    obtain ⟨outputs, houtputs⟩ := exists_outputs hs.answered
    dsimp only [Progress.finish]
    rw [houtputs]
    apply Answered.texts
    simp
  . intro s step hs _ houtcome
    obtain ⟨outputs, houtputs⟩ := exists_outputs hs.answered
    have htexts : ∀ {output state tree} {result : Except ClosureError ClosureReport},
        tool.recorded.invoke s.tool s.materializer.targetRoot s.tree = (.ok output, state, tree) →
        (∀ iteration message, result ≠ .error (.tool iteration message)) →
        Answered result state.2 := by
      intro output state tree result hcall hresult
      rw [Tool.history_of_invoke_recorded hcall, houtputs, ← List.map_singleton, ← List.map_append]
      exact .texts _ hresult
    cases houtcome with
    | broken hcall =>
      dsimp only [Step.Meets]
      rw [Tool.history_of_invoke_recorded hcall, houtputs]
      apply Answered.broken
      rw [hs.iterations, houtputs, List.length_map]
    | converged hcall _ => exact htexts hcall (by simp)
    | stalled hcall _ _ _ => exact htexts hcall (by simp)
    | repeated => trivial
    | stuck hcall _ hfails =>
      apply htexts hcall
      intro iteration message hresult
      exact not_tool_of_materializeAll hfails iteration message (Except.error.inj hresult)
    | progressed => trivial

def HasRead (logs : List Path) (calls : List (Tree × Except Fault ToolOutput)) (i : Nat)
    (text : Except Fault String) : Prop :=
  ∃ path tree, logs[i]? = some path ∧ tree.load path = text
    ∧ calls[i]? = some (tree, text.map ({ text := · }))

structure ReadInTurn (logs : List Path) (calls : List (Tree × Except Fault ToolOutput)) : Prop where
  le : calls.length ≤ logs.length
  reads : ∀ i < calls.length, ∃ text, HasRead logs calls i text

/--
The log at an index is the first one that cannot be read, and no log is read after it.
-/
structure FirstUnreadable (logs : List Path) (calls : List (Tree × Except Fault ToolOutput))
    (i : Nat) (cause : Fault) : Prop where
  before : ∀ j < i, ∃ text, HasRead logs calls j (.ok text)
  fails : HasRead logs calls i (.error cause)
  last : calls.length = i + 1

/--
A report is what the logs call for, if those that were read miss the headers of `passes`, one list
for each log.
-/
structure ReplayVerdict (g : Grammar) (stallThreshold : Nat) (logs : List Path)
    (calls : List (Tree × Except Fault ToolOutput)) (passes : List (List MissingInclude))
    (report : ClosureReport) : Prop where
  iterations : report.iterations = calls.length
  read : ∀ i < report.iterations, ∃ text, HasRead logs calls i (.ok text)
    ∧ passes[i]? = some (g.parse text).missingIncludes
  converged : report.state = .converged ↔ [] ∈ passes
  first : report.state = .converged → report.iterations = passes.idxOf [] + 1
  stalled : report.state = .stalled ↔ StallsAt (max 1 stallThreshold) passes passes.length
  building : report.state = .building
    ↔ calls.length = logs.length ∧ [] ∉ passes
      ∧ ¬ StallsAt (max 1 stallThreshold) passes passes.length
  running : ∀ n < passes.length, ¬ StallsAt (max 1 stallThreshold) passes n

structure Replays (g : Grammar) (stallThreshold : Nat) (logs : List Path)
    (calls : List (Tree × Except Fault ToolOutput)) (result : Except ClosureError ClosureReport) :
    Prop where
  inTurn : ReadInTurn logs calls
  failed : ∀ iteration message, result = .error (.tool iteration message)
    ↔ ∃ i cause, FirstUnreadable logs calls i cause ∧ iteration = i + 1 ∧ message = cause.message
  reported : ∀ report, result = .ok report →
    report.iterations ≤ logs.length
      ∧ ReplayVerdict g stallThreshold logs calls (requests g (calls.map (·.2))) report

section SavedLogs

theorem read_savedLogs {logs : List Path} {i : Nat} (hi : i < logs.length) (t : Tree) :
    SavedLogs.read ⟨logs, i⟩ t = ((t.load logs[i]).map ({ text := · }), ⟨logs, i + 1⟩) := by
  unfold SavedLogs.read
  dsimp only
  rw [List.getElem?_eq_getElem hi]

theorem exhausted_savedLogs (logs : List Path) (i : Nat) :
    SavedLogs.tool.exhausted ⟨logs, i⟩ = decide (logs.length ≤ i) :=
  rfl

variable {logs : List Path} {calls : List (Tree × Except Fault ToolOutput)}

theorem HasRead.concat {i : Nat} {text : Except Fault String} (h : HasRead logs calls i text)
    (call : Tree × Except Fault ToolOutput) :
    HasRead logs (calls ++ [call]) i text := by
  obtain ⟨path, tree, hlog, hload, hcall⟩ := h
  refine ⟨path, tree, hlog, hload, ?_⟩
  rw [List.getElem?_append_left, hcall]
  exact (List.getElem?_eq_some_iff.mp hcall).1

theorem ReadInTurn.next (h : ReadInTurn logs calls) (hlt : calls.length < logs.length) (t : Tree) :
    ReadInTurn logs (calls ++ [(t, (t.load logs[calls.length]).map ({ text := · }))]) := by
  constructor
  . rw [List.length_append, List.length_singleton]
    exact hlt
  . intro i hi
    rw [List.length_append, List.length_singleton] at hi
    rcases Nat.lt_succ_iff_lt_or_eq.mp hi with hi | rfl
    . obtain ⟨text, hread⟩ := h.reads i hi
      exact ⟨text, hread.concat _⟩
    . exact ⟨_, _, t, List.getElem?_eq_getElem hlt, rfl, List.getElem?_concat_length⟩

theorem close_readInTurn {g : Grammar} {k : Nat} {m : Materializer} {t : Tree}
    {ending : Ending SavedLogs} (h : close g k SavedLogs.tool m t ⟨logs, 0⟩ = some ending) :
    ending.tool = ⟨logs, (Closure.calls g k SavedLogs.tool m t ⟨logs, 0⟩).length⟩
      ∧ ReadInTurn logs (Closure.calls g k SavedLogs.tool m t ⟨logs, 0⟩) := by
  apply calls_induct (P := fun state calls => state = ⟨logs, calls.length⟩ ∧ ReadInTurn logs calls)
    _ ⟨rfl, by constructor <;> simp⟩ h
  rintro state calls cwd t ⟨rfl, hcalls⟩ hexhausted
  rw [exhausted_savedLogs, decide_eq_false_iff_not, Nat.not_le] at hexhausted
  unfold SavedLogs.tool
  dsimp only
  rw [read_savedLogs hexhausted]
  refine ⟨?_, hcalls.next hexhausted t⟩
  rw [List.length_append, List.length_singleton]

theorem HasRead.answer {i : Nat} {text : Except Fault String} (h : HasRead logs calls i text) :
    (calls.map (·.2))[i]? = some (text.map ({ text := · })) := by
  obtain ⟨path, tree, _, _, hcall⟩ := h
  rw [List.getElem?_map, hcall]
  rfl

theorem ReadInTurn.hasRead (h : ReadInTurn logs calls) {i : Nat} {answer : Except Fault ToolOutput}
    (hanswer : (calls.map (·.2))[i]? = some answer) :
    HasRead logs calls i (answer.map (·.text)) := by
  have hi := (List.getElem?_eq_some_iff.mp hanswer).1
  rw [List.length_map] at hi
  obtain ⟨text, hread⟩ := h.reads i hi
  rw [hread.answer, Option.some.injEq] at hanswer
  have htext : answer.map (·.text) = text := by
    rw [← hanswer]
    cases text <;> rfl
  rw [htext]
  exact hread

end SavedLogs

theorem ReadInTurn.failed_iff {logs : List Path} {calls : List (Tree × Except Fault ToolOutput)}
    {result : Except ClosureError ClosureReport} (h : ReadInTurn logs calls)
    (hresult : Answered result (calls.map (·.2))) (iteration : Nat) (message : String) :
    result = .error (.tool iteration message)
      ↔
    ∃ i cause, FirstUnreadable logs calls i cause ∧ iteration = i + 1
      ∧ message = cause.message := by
  generalize hanswers : calls.map (·.2) = answers at hresult
  have hlength : calls.length = answers.length := by
    rw [← hanswers, List.length_map]
  cases hresult with
  | texts outputs htexts =>
    constructor
    . intro htool
      exact absurd htool (htexts iteration message)
    . rintro ⟨i, cause, hfirst, _⟩
      have hanswer := hfirst.fails.answer
      rw [hanswers, List.getElem?_map] at hanswer
      obtain ⟨output, _, houtput⟩ := Option.map_eq_some_iff.mp hanswer
      contradiction
  | broken outputs cause hbroken =>
    rw [List.length_append, List.length_map, List.length_singleton] at hlength
    constructor
    . intro htool
      rw [hbroken] at htool
      cases htool
      refine ⟨outputs.length, cause, ⟨?_, ?_, hlength⟩, rfl, rfl⟩
      . intro j hj
        have hanswer : (calls.map (·.2))[j]? = some (.ok outputs[j]) := by
          rw [hanswers, List.getElem?_append_left (by simpa using hj), List.getElem?_map,
            List.getElem?_eq_getElem hj]
          rfl
        exact ⟨_, h.hasRead hanswer⟩
      . have hanswer : (calls.map (·.2))[outputs.length]? = some (.error cause) := by
          rw [hanswers]
          simp
        exact h.hasRead hanswer
    . rintro ⟨i, cause', hfirst, rfl, rfl⟩
      have hanswer := hfirst.fails.answer
      have hi : i = outputs.length := by
        have := hfirst.last
        omega
      rw [hanswers, hi] at hanswer
      simp only [List.getElem?_append_right, List.length_map, Nat.le_refl, Nat.sub_self,
        List.getElem?_cons_zero, Option.some.injEq] at hanswer
      cases hanswer
      rw [hbroken, hi]

theorem ReadInTurn.verdict {g : Grammar} {k : Nat} {logs : List Path}
    {calls : List (Tree × Except Fault ToolOutput)} {report : ClosureReport}
    (h : ReadInTurn logs calls) (hresult : Answered (.ok report) (calls.map (·.2)))
    (hiterations : calls.length = report.iterations)
    (hverdict : Verdict k (decide (logs.length ≤ calls.length)) (requests g (calls.map (·.2))) report)
    (hundecided : Undecided (max 1 k) (requests g (calls.map (·.2)))) :
    ReplayVerdict g k logs calls (requests g (calls.map (·.2))) report := by
  constructor
  . exact hiterations.symm
  . intro i hi
    rw [← hiterations] at hi
    generalize hanswers : calls.map (·.2) = answers at hresult
    cases hresult with
    | broken outputs cause hbroken => contradiction
    | texts outputs =>
      have hlength : calls.length = outputs.length := by
        rw [← List.length_map (f := (·.2)), hanswers, List.length_map]
      rw [hlength] at hi
      have hanswer : (calls.map (·.2))[i]? = some (.ok outputs[i]) := by
        rw [hanswers, List.getElem?_map, List.getElem?_eq_getElem hi]
        rfl
      refine ⟨outputs[i].text, h.hasRead hanswer, ?_⟩
      rw [requests_map_ok, List.getElem?_map, List.getElem?_eq_getElem hi]
      rfl
  . exact hundecided.converged_iff hverdict
  . intro hstate
    rw [hverdict.iterations]
    apply hundecided.length_eq_idxOf ((hundecided.converged_iff hverdict).mp hstate)
  . exact hundecided.stalled_iff hverdict
  . have hle := h.le
    rw [hundecided.building_iff hverdict, decide_eq_true_iff]
    apply and_congr_left
    intro _
    omega
  . exact hundecided.running

/--
Saved logs are replayed to the end of them at most, and nothing but the logs decides how the run
ends: it fails at the first log that cannot be read, and otherwise reports what the logs call for.
-/
theorem close_replays (g : Grammar) (k : Nat) (m : Materializer) (t : Tree) (logs : List Path) :
    (logs.length ≤ passLimit → ∃ ending, close g k SavedLogs.tool m t ⟨logs, 0⟩ = some ending)
      ∧ ∀ ending, close g k SavedLogs.tool m t ⟨logs, 0⟩ = some ending →
        Replays g k logs (calls g k SavedLogs.tool m t ⟨logs, 0⟩) ending.result := by
  constructor
  . intro hlimit
    apply Progress.exists_run_of_rank (fun state => state.paths.length - state.next) _ hlimit
    rintro ⟨paths, next⟩ cwd t hexhausted
    rw [exhausted_savedLogs, decide_eq_false_iff_not, Nat.not_le] at hexhausted
    unfold SavedLogs.tool
    dsimp only
    rw [read_savedLogs hexhausted]
    dsimp only
    omega
  . intro ending hclose
    obtain ⟨htool, hread⟩ := close_readInTurn hclose
    have hanswered := close_answered hclose
    rw [← map_calls] at hanswered
    refine ⟨hread, hread.failed_iff hanswered, ?_⟩
    intro report hreport
    obtain ⟨hiterations, hverdict⟩ := close_verdict hclose hreport
    have hundecided := close_undecided hclose
    rw [htool, exhausted_savedLogs] at hverdict
    rw [hreport] at hanswered
    rw [← map_calls] at hiterations hverdict hundecided
    rw [List.length_map] at hiterations
    refine ⟨?_, hread.verdict hanswered hiterations hverdict hundecided⟩
    rw [← hiterations]
    exact hread.le

def oneLog : Tree :=
  Tree.oneHeader.put (.ofTexts ["l"])
    (.file "x.c:1:1: fatal error: a.h: No such file or directory\n".toUTF8)

theorem close_replays_unreadable :
    ∃ ending,
      close .default 1 SavedLogs.tool headerCopier oneLog ⟨[⟨"l"⟩, ⟨"m"⟩], 0⟩ = some ending
      ∧ Replays .default 1 [⟨"l"⟩, ⟨"m"⟩]
          (calls .default 1 SavedLogs.tool headerCopier oneLog ⟨[⟨"l"⟩, ⟨"m"⟩], 0⟩)
          ending.result := by
  obtain ⟨hends, hreplays⟩ :=
    close_replays .default 1 headerCopier oneLog [⟨"l"⟩, ⟨"m"⟩]
  obtain ⟨ending, hclose⟩ := hends (by decide)
  exact ⟨ending, hclose, hreplays ending hclose⟩

end Closure
end Graft
