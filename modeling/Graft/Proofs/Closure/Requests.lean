import Graft.Proofs.Closure.Answers
import Graft.Proofs.Closure.Materialize

/-!
This module contains the requests of a closure run, as the answers of the tool tell them: which of
them come first for a header, and what a run that goes on knows about those behind it.
-/

namespace Graft
namespace Closure

variable {σ : Type}

def firsts (g : Grammar) (answers : List (Except Fault ToolOutput)) : List MissingInclude :=
  firstBy (·.header) (requests g answers).flatten

/--
The requests that a run has handled: the first one for each header, up to the one that the run fails
at.
-/
def handled (g : Grammar) (answers : List (Except Fault ToolOutput))
    (result : Except ClosureError ClosureReport) : List MissingInclude :=
  match result with
  | .ok _ => firsts g answers
  | .error e => (firsts g answers).takeWhile fun request => e.header? ≠ some request.header

namespace Progress

structure Recalls (g : Grammar) (s : Progress (σ × List (Except Fault ToolOutput))) : Prop where
  iterations : s.iterations = s.tool.2.length
  /-- Every answer so far was a text. -/
  answered : (requests g s.tool.2).length = s.tool.2.length
  /-- Every pass so far missed a header. -/
  missing : [] ∉ requests g s.tool.2
  seen : s.seen = (firsts g s.tool.2).map (·.header)

theorem Recalls.length_requests {g : Grammar} {s : Progress (σ × List (Except Fault ToolOutput))}
    (hs : s.Recalls g) :
    (requests g s.tool.2).length = s.iterations :=
  hs.answered.trans hs.iterations.symm

theorem Recalls.length_seen {g : Grammar} {s : Progress (σ × List (Except Fault ToolOutput))}
    (hs : s.Recalls g) :
    s.seen.length = (firsts g s.tool.2).length := by
  rw [hs.seen, List.length_map]

theorem Recalls.newBy_seen {g : Grammar} {s : Progress (σ × List (Except Fault ToolOutput))}
    (hs : s.Recalls g) (pass : List MissingInclude) :
    newBy (·.header) ((requests g s.tool.2).flatten.map (·.header)) pass
      =
    newBy (·.header) s.seen pass := by
  apply newBy_congr
  intro header
  rw [hs.seen]
  exact mem_map_firstBy.symm

theorem recalls_start (g : Grammar) (m : Materializer) (t : Tree) (state : σ) :
    Recalls g { materializer := m, tree := t, tool := (state, []) } where
  iterations := rfl
  answered := rfl
  missing := by simp [requests]
  seen := rfl

section Invoke

variable {g : Grammar} {tool : Tool σ} {s : Progress (σ × List (Except Fault ToolOutput))}
variable {state : σ × List (Except Fault ToolOutput)} {cwd : Path} {t tree : Tree}

theorem length_requests_of_invoke (hs : s.Recalls g) {output : ToolOutput}
    (hcall : tool.recorded.invoke s.tool cwd t = (.ok output, state, tree)) :
    (requests g state.2).length = s.iterations + 1 := by
  rw [requests_of_invoke hcall, List.length_append, List.length_singleton, hs.length_requests]

theorem firsts_of_invoke (hs : s.Recalls g) {output : ToolOutput}
    (hcall : tool.recorded.invoke s.tool cwd t = (.ok output, state, tree)) :
    firsts g state.2
      =
    firsts g s.tool.2 ++ newBy (·.header) s.seen (g.parse output.text).missingIncludes := by
  unfold firsts
  rw [requests_of_invoke hcall, List.flatten_append, List.flatten_singleton, firstBy_append,
    hs.newBy_seen]

theorem firsts_of_invoke_error {cause : Fault}
    (hcall : tool.recorded.invoke s.tool cwd t = (.error cause, state, tree)) :
    firsts g state.2 = firsts g s.tool.2 := by
  rw [Tool.history_of_invoke_recorded hcall]
  unfold firsts
  rw [requests_concat_error]

end Invoke

theorem pass_recalls {g : Grammar} {k : Nat} {tool : Tool σ}
    {s s' : Progress (σ × List (Except Fault ToolOutput))} (hs : s.Recalls g)
    (h : s.pass g k tool.recorded = .again s') :
    s'.Recalls g := by
  -- Both outcomes that let the run go on have an answer that misses something.
  have hlater : ∀ {output : ToolOutput} {state : σ × List (Except Fault ToolOutput)} {tree : Tree},
      tool.recorded.invoke s.tool s.materializer.targetRoot s.tree = (.ok output, state, tree) →
      (g.parse output.text).missingIncludes ≠ [] →
      s.iterations + 1 = state.2.length ∧ (requests g state.2).length = state.2.length
        ∧ [] ∉ requests g state.2
        ∧ firsts g state.2
          = firsts g s.tool.2 ++ newBy (·.header) s.seen (g.parse output.text).missingIncludes := by
    intro output state tree hcall hmissing
    rw [firsts_of_invoke hs hcall, Tool.history_of_invoke_recorded hcall]
    simp [hs.iterations, hs.answered, hs.missing, Ne.symm hmissing]
  have houtcome := pass_outcome g k tool.recorded s
  rw [h] at houtcome
  cases houtcome with
  | repeated hcall hmissing hrepeat hlimit =>
    obtain ⟨hiterations, hanswered, hnonempty, hfirsts⟩ := hlater hcall (by simp [hmissing])
    refine ⟨hiterations, hanswered, hnonempty, ?_⟩
    dsimp only
    rw [hfirsts, hmissing, hrepeat, hs.seen, List.append_nil]
  | progressed hcall hmissing hnew hdone =>
    obtain ⟨hiterations, hanswered, hnonempty, hfirsts⟩ := hlater hcall (by
      rintro hnil
      rw [← hmissing, hnil] at hnew
      contradiction)
    refine ⟨hiterations, hanswered, hnonempty, ?_⟩
    dsimp only
    rw [hfirsts, hmissing, hs.seen, List.map_append]

end Progress

/--
What every pass keeps holds up to the end of a run, and the run knows about its past all along.
-/
theorem close_induct {g : Grammar} {k : Nat} {tool : Tool σ}
    {P : Progress (σ × List (Except Fault ToolOutput)) → Prop}
    {Q : Ending (σ × List (Except Fault ToolOutput)) → Prop}
    (hstop : ∀ s, s.Recalls g → P s → tool.exhausted s.tool.1 = true → Q (s.finish .building none))
    (hpass : ∀ s step, s.Recalls g → P s → s.Outcome g k tool.recorded step → step.Meets P Q)
    {m : Materializer} {t : Tree} {state : σ} {ending : Ending σ}
    (hstart : P { materializer := m, tree := t, tool := (state, []) })
    (h : close g k tool m t state = some ending) :
    Q ⟨ending.result, ending.materializer, ending.tree,
      (ending.tool, answers g k tool m t state)⟩ := by
  obtain ⟨memory, hclose, rfl⟩ := exists_recorded_of_close h
  apply Progress.run_induct (P := fun s => s.Recalls g ∧ P s) _ _
    ⟨Progress.recalls_start g m t state, hstart⟩ hclose
  . intro s hs hexhausted
    exact hstop s hs.1 hs.2 hexhausted
  . intro s hs _
    have hmeets := hpass s _ hs.1 hs.2 (Progress.pass_outcome g k tool.recorded s)
    cases hstep : s.pass g k tool.recorded with
    | done ending =>
      rw [hstep] at hmeets
      exact hmeets
    | again s' =>
      rw [hstep] at hmeets
      exact ⟨Progress.pass_recalls hs.1 hstep, hmeets⟩

theorem handled_of_failing {g : Grammar} {answers : List (Except Fault ToolOutput)}
    {before after : List MissingInclude} {failing : MissingInclude} {e : ClosureError}
    (hsplit : firsts g answers = before ++ failing :: after)
    (he : e.header? = some failing.header) :
    handled g answers (.error e) = before := by
  have hnodup := nodup_map_firstBy (·.header) (requests g answers).flatten
  unfold firsts at hsplit
  rw [hsplit, List.map_append, List.map_cons, List.nodup_append] at hnodup
  unfold handled firsts
  dsimp only
  rw [hsplit, List.takeWhile_append_of_pos]
  . rw [List.takeWhile_cons_of_neg (by simp [he]), List.append_nil]
  . intro request hrequest
    rw [he]
    have := hnodup.2.2 _ (List.mem_map_of_mem hrequest) _ List.mem_cons_self
    simpa using Ne.symm this

end Closure
end Graft
