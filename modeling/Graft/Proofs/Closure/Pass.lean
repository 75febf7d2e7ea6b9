import Graft.Proofs.Closure.Loop

/-!
This module contains everything that one pass of a closure run can come to, and the two inductions
over a run: over its passes, and over the requests of a pass.
-/

namespace Graft
namespace Closure

variable {σ : Type}

/--
An outcome of a pass that keeps an invariant `P` or ends the run with `Q`.
-/
def Step.Meets (P : Progress σ → Prop) (Q : Ending σ → Prop) : Step σ → Prop
  | .done ending => Q ending
  | .again s => P s

def Step.tool : Step σ → σ
  | .done ending => ending.tool
  | .again s => s.tool

namespace Progress

inductive Outcome (g : Grammar) (stallThreshold : Nat) (tool : Tool σ) (s : Progress σ) :
    Step σ → Prop where
  | broken {cause : Fault} {state : σ} {tree : Tree}
      (hcall : tool.invoke s.tool s.materializer.targetRoot s.tree = (.error cause, state, tree)) :
      Outcome g stallThreshold tool s (.done {
        result := .error (.tool (s.iterations + 1) cause.message)
        materializer := s.materializer
        tree
        tool := state })
  | converged {output : ToolOutput} {state : σ} {tree : Tree}
      (hcall : tool.invoke s.tool s.materializer.targetRoot s.tree = (.ok output, state, tree))
      (hmissing : (g.parse output.text).missingIncludes = []) :
      Outcome g stallThreshold tool s (.done {
        result := .ok {
          state := .converged
          iterations := s.iterations + 1
          materialized := s.materializer.log
          stalled := none
          pending := []
          ambiguousLines := s.ambiguousLines + (g.parse output.text).ambiguous.length }
        materializer := s.materializer
        tree
        tool := state })
  | stalled {output : ToolOutput} {state : σ} {tree : Tree} {first : MissingInclude}
      {rest : List MissingInclude}
      (hcall : tool.invoke s.tool s.materializer.targetRoot s.tree = (.ok output, state, tree))
      (hmissing : (g.parse output.text).missingIncludes = first :: rest)
      (hrepeat : newBy (·.header) s.seen (first :: rest) = [])
      (hlimit : stallThreshold ≤ s.repeatPasses + 1) :
      Outcome g stallThreshold tool s (.done {
        result := .ok {
          state := .stalled
          iterations := s.iterations + 1
          materialized := s.materializer.log
          stalled := some ⟨first.header, first.sourceFile, s.iterations + 1, s.repeatPasses + 1⟩
          pending := pendingFiles (first :: rest)
          ambiguousLines := s.ambiguousLines + (g.parse output.text).ambiguous.length }
        materializer := s.materializer
        tree
        tool := state })
  | repeated {output : ToolOutput} {state : σ} {tree : Tree} {first : MissingInclude}
      {rest : List MissingInclude}
      (hcall : tool.invoke s.tool s.materializer.targetRoot s.tree = (.ok output, state, tree))
      (hmissing : (g.parse output.text).missingIncludes = first :: rest)
      (hrepeat : newBy (·.header) s.seen (first :: rest) = [])
      (hlimit : s.repeatPasses + 1 < stallThreshold) :
      Outcome g stallThreshold tool s (.again { s with
        tree
        tool := state
        repeatPasses := s.repeatPasses + 1
        iterations := s.iterations + 1
        ambiguousLines := s.ambiguousLines + (g.parse output.text).ambiguous.length
        pending := pendingFiles (first :: rest) })
  | stuck {output : ToolOutput} {state : σ} {tree tree' : Tree} {requests : List MissingInclude}
      {e : ClosureError} {materializer : Materializer}
      (hcall : tool.invoke s.tool s.materializer.targetRoot s.tree = (.ok output, state, tree))
      (hmissing : (g.parse output.text).missingIncludes = requests)
      (hfails : materializeAll s.materializer tree (s.iterations + 1)
          (newBy (·.header) s.seen requests)
        = (.error e, materializer, tree')) :
      Outcome g stallThreshold tool s (.done {
        result := .error e
        materializer
        tree := tree'
        tool := state })
  | progressed {output : ToolOutput} {state : σ} {tree tree' : Tree}
      {requests : List MissingInclude} {materializer : Materializer}
      (hcall : tool.invoke s.tool s.materializer.targetRoot s.tree = (.ok output, state, tree))
      (hmissing : (g.parse output.text).missingIncludes = requests)
      (hnew : newBy (·.header) s.seen requests ≠ [])
      (hdone : materializeAll s.materializer tree (s.iterations + 1)
          (newBy (·.header) s.seen requests)
        = (.ok (), materializer, tree')) :
      Outcome g stallThreshold tool s (.again { s with
        materializer
        tree := tree'
        tool := state
        seen := s.seen ++ (newBy (·.header) s.seen requests).map (·.header)
        repeatPasses := 0
        iterations := s.iterations + 1
        ambiguousLines := s.ambiguousLines + (g.parse output.text).ambiguous.length
        pending := pendingFiles requests })

theorem pass_outcome (g : Grammar) (stallThreshold : Nat) (tool : Tool σ) (s : Progress σ) :
    Outcome g stallThreshold tool s (s.pass g stallThreshold tool) := by
  unfold pass
  dsimp only
  split
  . next hcall => exact .broken hcall
  . next output state tree hcall =>
    cases hmissing : (g.parse output.text).missingIncludes with
    | nil =>
      rw [act_nil]
      exact .converged hcall hmissing
    | cons first rest =>
      rw [act_cons]
      unfold handleNew
      dsimp only
      split
      . next hrepeat =>
        split
        . next hlimit => exact .stalled hcall hmissing hrepeat hlimit
        . next hlimit => exact .repeated hcall hmissing hrepeat (by omega)
      . next hnew =>
        split
        . next hfails => exact .stuck hcall hmissing hfails
        . next hdone => exact .progressed hcall hmissing hnew hdone

theorem Outcome.tool_eq {g : Grammar} {stallThreshold : Nat} {tool : Tool σ} {s : Progress σ}
    {step : Step σ} (h : s.Outcome g stallThreshold tool step) :
    step.tool = (tool.invoke s.tool s.materializer.targetRoot s.tree).2.1 := by
  cases h with
  | broken hcall => rw [hcall, Step.tool]
  | converged hcall _ => rw [hcall, Step.tool]
  | stalled hcall _ _ _ => rw [hcall, Step.tool]
  | repeated hcall _ _ _ => rw [hcall, Step.tool]
  | stuck hcall _ _ => rw [hcall, Step.tool]
  | progressed hcall _ _ _ => rw [hcall, Step.tool]

/--
What every pass keeps holds up to the end of a run, and then what its last pass establishes.
-/
theorem run_induct {g : Grammar} {stallThreshold : Nat} {tool : Tool σ} {P : Progress σ → Prop}
    {Q : Ending σ → Prop}
    (hstop : ∀ s, P s → tool.exhausted s.tool = true → Q (s.finish .building none))
    (hpass : ∀ s, P s → tool.exhausted s.tool = false → (s.pass g stallThreshold tool).Meets P Q)
    {limit : Nat} {s : Progress σ} {ending : Ending σ} (hs : P s)
    (h : run g stallThreshold tool limit s = some ending) :
    Q ending := by
  induction limit generalizing s with
  | zero =>
    unfold run at h
    split at h
    . next hexhausted =>
      cases h
      apply hstop s hs hexhausted
    . contradiction
  | succ limit ih =>
    unfold run at h
    split at h
    . next hexhausted =>
      cases h
      apply hstop s hs hexhausted
    . next hexhausted =>
      have hmeets := hpass s hs (by simpa using hexhausted)
      split at h
      . next hdone =>
        cases h
        rw [hdone] at hmeets
        exact hmeets
      . next hagain =>
        rw [hagain] at hmeets
        apply ih hmeets h

theorem run_tool_induct {g : Grammar} {stallThreshold : Nat} {tool : Tool σ} {P : σ → Prop}
    (hcall : ∀ state cwd t, P state → tool.exhausted state = false →
      P (tool.invoke state cwd t).2.1)
    {limit : Nat} {s : Progress σ} {ending : Ending σ} (hs : P s.tool)
    (h : run g stallThreshold tool limit s = some ending) :
    P ending.tool := by
  apply run_induct (P := fun s => P s.tool) (Q := fun ending => P ending.tool) _ _ hs h
  . intro s hs _
    exact hs
  . intro s hs hexhausted
    have htool := (pass_outcome g stallThreshold tool s).tool_eq
    have hnext := hcall s.tool s.materializer.targetRoot s.tree hs hexhausted
    rw [← htool] at hnext
    cases hpass : s.pass g stallThreshold tool with
    | done ending =>
      rw [hpass] at hnext
      exact hnext
    | again s' =>
      rw [hpass] at hnext
      exact hnext

theorem exists_run_of_rank {g : Grammar} {stallThreshold : Nat} {tool : Tool σ} (rank : σ → Nat)
    (hcall : ∀ state cwd t, tool.exhausted state = false →
      rank (tool.invoke state cwd t).2.1 < rank state)
    {limit : Nat} {s : Progress σ} (h : rank s.tool ≤ limit) :
    ∃ ending, run g stallThreshold tool limit s = some ending := by
  induction limit generalizing s with
  | zero =>
    unfold run
    by_cases hexhausted : tool.exhausted s.tool = true
    . exact ⟨_, if_pos hexhausted⟩
    . have := hcall s.tool s.materializer.targetRoot s.tree (by simpa using hexhausted)
      omega
  | succ limit ih =>
    unfold run
    split
    . exact ⟨_, rfl⟩
    . next hexhausted =>
      have hless := hcall s.tool s.materializer.targetRoot s.tree (by simpa using hexhausted)
      rw [← (pass_outcome g stallThreshold tool s).tool_eq] at hless
      cases hpass : s.pass g stallThreshold tool with
      | done ending => exact ⟨ending, rfl⟩
      | again s' =>
        rw [hpass] at hless
        apply ih
        dsimp only [Step.tool] at hless
        omega

end Progress

/--
What every handled request keeps holds after all of them, or up to the one that fails.
-/
theorem materializeAll_induct {P : List MissingInclude → Materializer → Tree → Prop}
    {iteration : Nat}
    (hstep : ∀ done m t request r m' t', P done m t →
      m.materialize t request iteration = (.ok r, m', t') → P (done ++ [request]) m' t')
    {requests done : List MissingInclude} {m m' : Materializer} {t t' : Tree}
    {result : Except ClosureError Unit} (hP : P done m t)
    (h : materializeAll m t iteration requests = (result, m', t')) :
    (result = .ok () ∧ P (done ++ requests) m' t')
      ∨ ∃ before failing after m₁ t₁ e,
          requests = before ++ failing :: after ∧ result = .error e
            ∧ P (done ++ before) m₁ t₁
            ∧ m₁.materialize t₁ failing iteration = (.error e, m', t') := by
  induction requests generalizing done m t with
  | nil =>
    unfold materializeAll at h
    cases h
    left
    rw [List.append_nil]
    exact ⟨rfl, hP⟩
  | cons request rest ih =>
    unfold materializeAll at h
    split at h
    . next e m₁ t₁ hfails =>
      cases h
      right
      refine ⟨[], request, rest, m, t, e, rfl, rfl, ?_, hfails⟩
      rw [List.append_nil]
      exact hP
    . next r m₁ t₁ hhandled =>
      rcases ih (hstep _ _ _ _ _ _ _ hP hhandled) h with ⟨hresult, hrest⟩ | hfails
      . left
        rw [List.append_assoc] at hrest
        exact ⟨hresult, hrest⟩
      . right
        obtain ⟨before, failing, after, m₂, t₂, e, hsplit, hresult, hbefore, hfailing⟩ := hfails
        rw [List.append_assoc] at hbefore
        refine ⟨request :: before, failing, after, m₂, t₂, e, ?_, hresult, hbefore, hfailing⟩
        rw [hsplit]
        rfl

end Closure
end Graft
