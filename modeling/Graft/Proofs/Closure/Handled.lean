import Graft.Proofs.Closure.Requests

/-!
This module contains how far a closure run gets: the requests that it handles before it ends, and
how many tool calls they allow.
-/

namespace Graft
namespace Closure

variable {σ : Type}

namespace Progress

/--
The pace of a run: after a pass with a new header there are fewer passes without one than the run
puts up with.
-/
structure Paced (k : Nat) (s : Progress σ) : Prop where
  lt : s.repeatPasses < max 1 k
  iterations : (s.iterations = 0 ∧ s.seen = [])
    ∨ s.iterations + max 1 k ≤ max 1 k * s.seen.length + s.repeatPasses + 1

namespace Paced

variable {k : Nat} {s s' : Progress σ}

theorem start (k : Nat) (m : Materializer) (t : Tree) (state : σ) :
    Paced k { materializer := m, tree := t, tool := state } where
  lt := by
    dsimp only
    omega
  iterations := Or.inl ⟨rfl, rfl⟩

theorem le (h : s.Paced k) {n : Nat} (hn : s.seen.length ≤ n) : s.iterations ≤ max 1 k * n := by
  have hlt := h.lt
  have hheaders : max 1 k * s.seen.length ≤ max 1 k * n := Nat.mul_le_mul_left _ hn
  rcases h.iterations with ⟨hzero, _⟩ | hpace
  . omega
  . omega

theorem waited (h : s.Paced k) (hne : s.seen ≠ []) (hseen : s'.seen = s.seen)
    (hiterations : s'.iterations = s.iterations + 1)
    (hrepeat : s'.repeatPasses = s.repeatPasses + 1) (hlimit : s'.repeatPasses < max 1 k) :
    s'.Paced k := by
  refine ⟨hlimit, Or.inr ?_⟩
  rw [hseen]
  rcases h.iterations with ⟨_, hnil⟩ | hpace
  . contradiction
  . omega

theorem renewed (h : s.Paced k) {fresh : List String} (hne : fresh ≠ [])
    (hseen : s'.seen = s.seen ++ fresh) (hiterations : s'.iterations = s.iterations + 1)
    (hrepeat : s'.repeatPasses = 0) :
    s'.Paced k := by
  have hlt := h.lt
  -- One new header makes up for all the passes since the last one.
  have hseen : max 1 k * (s.seen.length + 1) ≤ max 1 k * s'.seen.length := by
    apply Nat.mul_le_mul_left
    rw [hseen, List.length_append]
    have := List.length_pos_of_ne_nil hne
    omega
  rw [Nat.mul_succ] at hseen
  refine ⟨by omega, Or.inr ?_⟩
  rcases h.iterations with ⟨hzero, _⟩ | hpace
  . omega
  . omega

theorem again (h : s.Paced k) {g : Grammar} {tool : Tool σ}
    (houtcome : s.Outcome g k tool (.again s')) :
    s'.Paced k := by
  cases houtcome with
  | @repeated _ _ _ first _ hcall hmissing hrepeat hlimit =>
    have hseen : first.header ∈ s.seen := newBy_eq_nil_iff.mp hrepeat first (by simp)
    apply h.waited (List.ne_nil_of_mem hseen)
    . rfl
    . rfl
    . rfl
    . dsimp only
      omega
  | progressed hcall hmissing hnew hdone =>
    apply h.renewed (mt (List.map_eq_nil_iff (f := (·.header))).mp hnew)
    . rfl
    . rfl
    . rfl

theorem length_calls_le {s : Progress (σ × List (Except Fault ToolOutput))} (h : s.Paced k)
    {g : Grammar} (hs : s.Recalls g) {tool : Tool σ} {answer : Except Fault ToolOutput}
    {state : σ × List (Except Fault ToolOutput)} {cwd : Path} {tree : Tree} {n : Nat}
    (hn : (firsts g s.tool.2).length ≤ n)
    (hcall : tool.recorded.invoke s.tool cwd s.tree = (answer, state, tree)) :
    state.2.length ≤ max 1 k * n + 1 := by
  have hle := h.le (Nat.le_trans (Nat.le_of_eq hs.length_seen) hn)
  rw [hs.iterations] at hle
  rw [Tool.history_of_invoke_recorded hcall, List.length_append, List.length_singleton]
  omega

end Paced
end Progress

/--
How far a run with these first requests gets: to the end of them, or to one that fails.
-/
inductive Ended (firsts : List MissingInclude) (result : Except ClosureError ClosureReport)
    (m' : Materializer) (t' : Tree) : List MissingInclude → Materializer → Tree → Prop where
  | all (hresult : ∀ e, result = .error e → e.header? = none) :
      Ended firsts result m' t' firsts m' t'
  | failed {done after : List MissingInclude} {failing : MissingInclude} {iteration : Nat}
      {e : ClosureError} {m : Materializer} {t : Tree} (hsplit : firsts = done ++ failing :: after)
      (hresult : result = .error e)
      (hfails : m.materialize t failing iteration = (.error e, m', t')) :
      Ended firsts result m' t' done m t

/--
Unless the file system refuses an operation, a run that fails leaves everything as it was after the
last request that it has handled.
-/
theorem Ended.handled_eq {g : Grammar} {answers : List (Except Fault ToolOutput)}
    {result : Except ClosureError ClosureReport} {m m' : Materializer} {t t' : Tree}
    {done : List MissingInclude} (h : Ended (firsts g answers) result m' t' done m t)
    (hfile : ∀ path cause, result ≠ .error (.fileError path cause)) :
    handled g answers result = done ∧ m' = m ∧ t' = t := by
  cases h with
  | all hresult =>
    refine ⟨?_, rfl, rfl⟩
    unfold handled
    split
    . rfl
    . rw [List.takeWhile_eq_self_iff, hresult _ rfl]
      simp
  | failed hsplit hresult hfails =>
    subst hresult
    rcases Materializer.materialize_eq_error hfails with ⟨path, cause, rfl⟩ | ⟨hheader, rfl, rfl⟩
    . exact absurd rfl (hfile path cause)
    . exact ⟨handled_of_failing hsplit hheader, rfl, rfl⟩

theorem close_handled {g : Grammar} {k : Nat} {tool : Tool σ}
    {P : List MissingInclude → Materializer → Tree → Prop}
    (hcalled : ∀ done m t state cwd, P done m t → P done m (tool.invoke state cwd t).2.2)
    (hhandled : ∀ done m t request iteration r m' t', P done m t →
      m.materialize t request iteration = (.ok r, m', t') → P (done ++ [request]) m' t')
    {m : Materializer} {t : Tree} {state : σ} {ending : Ending σ} (hstart : P [] m t)
    (h : close g k tool m t state = some ending) :
    ∃ done m₁ t₁, P done m₁ t₁
      ∧ (answers g k tool m t state).length ≤ max 1 k * done.length + 1
      ∧ Ended (firsts g (answers g k tool m t state)) ending.result ending.materializer ending.tree
          done m₁ t₁ := by
  apply close_induct
    (P := fun s => P (firsts g s.tool.2) s.materializer s.tree ∧ s.Paced k)
    (Q := fun ending => ∃ done m₁ t₁, P done m₁ t₁
      ∧ ending.tool.2.length ≤ max 1 k * done.length + 1
      ∧ Ended (firsts g ending.tool.2) ending.result ending.materializer ending.tree done m₁ t₁)
    _ _ ⟨hstart, .start k m t (state, [])⟩ h
  . rintro s hs ⟨hP, hpaced⟩ _
    refine ⟨_, _, _, hP, ?_, .all (by simp [Progress.finish])⟩
    have := hpaced.le (Nat.le_of_eq hs.length_seen)
    rw [hs.iterations] at this
    exact Nat.le_succ_of_le this
  . rintro s step hs ⟨hP, hpaced⟩ houtcome
    have hanswered : ∀ {answer state cwd tree},
        tool.recorded.invoke s.tool cwd s.tree = (answer, state, tree) →
        P (firsts g s.tool.2) s.materializer tree := by
      intro answer state cwd tree hcall
      rw [Tool.tree_of_invoke_recorded hcall]
      apply hcalled _ _ _ _ _ hP
    have hstep : ∀ done m t request r m' t', P done m t →
        m.materialize t request (s.iterations + 1) = (.ok r, m', t') →
        P (done ++ [request]) m' t' := by
      intro done m t request r m' t' hP hdone
      apply hhandled _ _ _ _ _ _ _ _ hP hdone
    have hagain : ∀ s', step = .again s' → s'.Paced k := by
      rintro s' rfl
      exact hpaced.again houtcome
    cases houtcome with
    | broken hcall =>
      refine ⟨_, _, _, hanswered hcall, hpaced.length_calls_le hs (Nat.le_refl _) hcall, ?_⟩
      rw [← Progress.firsts_of_invoke_error hcall]
      apply Ended.all
      rintro e ⟨⟩
      rfl
    | converged hcall hmissing =>
      have hfirsts := Progress.firsts_of_invoke hs hcall
      rw [hmissing, newBy, List.append_nil] at hfirsts
      refine ⟨_, _, _, hanswered hcall, hpaced.length_calls_le hs (Nat.le_refl _) hcall, ?_⟩
      rw [← hfirsts]
      exact .all (by simp)
    | stalled hcall hmissing hrepeat hlimit =>
      have hfirsts := Progress.firsts_of_invoke hs hcall
      rw [hmissing, hrepeat, List.append_nil] at hfirsts
      refine ⟨_, _, _, hanswered hcall, hpaced.length_calls_le hs (Nat.le_refl _) hcall, ?_⟩
      rw [← hfirsts]
      exact .all (by simp)
    | repeated hcall hmissing hrepeat hlimit =>
      have hfirsts := Progress.firsts_of_invoke hs hcall
      rw [hmissing, hrepeat, List.append_nil] at hfirsts
      refine ⟨?_, hagain _ rfl⟩
      dsimp only
      rw [hfirsts]
      exact hanswered hcall
    | stuck hcall hmissing hfails =>
      have hfirsts := Progress.firsts_of_invoke hs hcall
      rcases materializeAll_induct hstep (hanswered hcall) hfails with ⟨hresult, _⟩ | hfailing
      . contradiction
      . obtain ⟨before, failing, after, m₁, t₁, e', hsplit, hresult, hbefore, hfailing⟩ := hfailing
        rw [hmissing, hsplit, ← List.append_assoc] at hfirsts
        cases hresult
        exact ⟨_, _, _, hbefore, hpaced.length_calls_le hs (by simp) hcall,
          .failed hfirsts rfl hfailing⟩
    | progressed hcall hmissing hnew hdone =>
      have hfirsts := Progress.firsts_of_invoke hs hcall
      rcases materializeAll_induct hstep (hanswered hcall) hdone with ⟨_, hlast⟩ | hfailing
      . refine ⟨?_, hagain _ rfl⟩
        dsimp only
        rw [hfirsts, hmissing]
        exact hlast
      . obtain ⟨_, _, _, _, _, _, _, hresult, _⟩ := hfailing
        contradiction

end Closure
end Graft
