import Graft.Proofs.Closure.Bound
import Mathlib.Data.Finset.Card

/-!
This module contains why a closure run ends: every new header comes from the tool, so a tool that
misses no headers but some leaves the run only so many passes, whatever it does to the tree.
-/

namespace Graft

namespace Tool

variable {σ : Type}

inductive Reaches (tool : Tool σ) (first : σ) : σ → Prop where
  | start : Reaches tool first first
  | call {state : σ} (h : Reaches tool first state) (cwd : Path) (t : Tree) :
      Reaches tool first (tool.invoke state cwd t).2.1

def MissesOnly (g : Grammar) (tool : Tool σ) (first : σ) (headers : Finset String) : Prop :=
  ∀ state cwd t output, tool.Reaches first state → (tool.invoke state cwd t).1 = .ok output →
    ∀ request ∈ (g.parse output.text).missingIncludes, request.header ∈ headers

variable {tool : Tool σ} {first : σ}

theorem Reaches.recorded {s : σ × List (Except Fault ToolOutput)}
    (h : tool.recorded.Reaches (first, []) s) :
    tool.Reaches first s.1 := by
  induction h with
  | start => exact .start
  | call _ cwd t ih => exact .call ih cwd t

theorem MissesOnly.recorded {g : Grammar} {headers : Finset String}
    (h : tool.MissesOnly g first headers) :
    tool.recorded.MissesOnly g (first, []) headers := by
  intro s cwd t output hreaches houtput
  exact h s.1 cwd t output hreaches.recorded houtput

theorem suffix_of_reaches_ofTexts {texts rest : List String} (h : ofTexts.Reaches texts rest) :
    rest <:+ texts := by
  induction h with
  | start => exact List.suffix_rfl
  | call _ cwd t ih => exact (List.tail_suffix _).trans ih

end Tool

namespace Closure

variable {σ : Type}

namespace Progress

/--
How far a run has come whose tool misses no headers but these: it keeps its pace, and what it has
seen is among them, each header once.
-/
structure Confined (k : Nat) (tool : Tool σ) (first : σ) (headers : Finset String)
    (s : Progress σ) : Prop where
  paced : s.Paced k
  reaches : tool.Reaches first s.tool
  nodup : s.seen.Nodup
  subset : ∀ header ∈ s.seen, header ∈ headers

section Confined

variable {g : Grammar} {k : Nat} {tool : Tool σ} {first : σ} {headers : Finset String}
variable {s s' : Progress σ}

theorem confined_start (k : Nat) (tool : Tool σ) (headers : Finset String) (m : Materializer)
    (t : Tree) (state : σ) :
    Confined k tool state headers { materializer := m, tree := t, tool := state } where
  paced := .start k m t state
  reaches := .start
  nodup := List.nodup_nil
  subset := by simp

theorem Confined.length_seen_le (h : s.Confined k tool first headers) :
    s.seen.length ≤ headers.card := by
  rw [← List.toFinset_card_of_nodup h.nodup]
  apply Finset.card_le_card
  intro header hheader
  exact h.subset header (List.mem_toFinset.mp hheader)

theorem Confined.iterations_le (h : s.Confined k tool first headers) :
    s.iterations ≤ max 1 k * headers.card :=
  h.paced.le h.length_seen_le

theorem Confined.again (h : s.Confined k tool first headers)
    (htool : tool.MissesOnly g first headers) (houtcome : s.Outcome g k tool (.again s')) :
    s'.Confined k tool first headers ∧ s'.iterations = s.iterations + 1 := by
  have hpaced := h.paced.again houtcome
  have hreaches := h.reaches.call s.materializer.targetRoot s.tree
  rw [← houtcome.tool_eq] at hreaches
  cases houtcome with
  | repeated hcall hmissing hrepeat hlimit =>
    exact ⟨⟨hpaced, hreaches, h.nodup, h.subset⟩, rfl⟩
  | progressed hcall hmissing hnew hdone =>
    refine ⟨⟨hpaced, hreaches, ?_, ?_⟩, rfl⟩
    . apply List.nodup_append'.mpr ⟨h.nodup, nodup_map_newBy _ _ _, ?_⟩
      intro header hseen hfresh
      exact (mem_map_newBy.mp hfresh).2 hseen
    . intro header hheader
      rcases List.mem_append.mp hheader with hseen | hfresh
      . exact h.subset header hseen
      . obtain ⟨request, hrequest, rfl⟩ := List.mem_map.mp (mem_map_newBy.mp hfresh).1
        rw [← hmissing] at hrequest
        apply htool s.tool s.materializer.targetRoot s.tree _ h.reaches _ request hrequest
        rw [hcall]

/--
A run that may take one pass more than the headers allow does end.
-/
theorem Confined.exists_run (htool : tool.MissesOnly g first headers) {limit : Nat}
    (h : s.Confined k tool first headers)
    (hlimit : max 1 k * headers.card < s.iterations + limit) :
    ∃ ending, s.run g k tool limit = some ending := by
  induction limit generalizing s with
  | zero =>
    have := h.iterations_le
    omega
  | succ limit ih =>
    unfold run
    split
    . exact ⟨_, rfl⟩
    . have houtcome := pass_outcome g k tool s
      cases hpass : s.pass g k tool with
      | done ending => exact ⟨ending, rfl⟩
      | again s' =>
        rw [hpass] at houtcome
        obtain ⟨hconfined, hiterations⟩ := h.again htool houtcome
        apply ih hconfined
        omega

theorem length_history_le (htool : tool.MissesOnly g first headers)
    {m : Materializer} {t : Tree} {limit : Nat}
    {ending : Ending (σ × List (Except Fault ToolOutput))}
    (h : run g k tool.recorded limit { materializer := m, tree := t, tool := (first, []) }
      = some ending) :
    ending.tool.2.length ≤ max 1 k * headers.card + 1 := by
  apply run_induct
    (P := fun s => s.Recalls g ∧ s.Confined k tool.recorded (first, []) headers)
    _ _ ⟨recalls_start g m t first, confined_start k _ headers m t _⟩ h
  . rintro s ⟨hs, hconfined⟩ _
    have := hconfined.iterations_le
    rw [hs.iterations] at this
    exact Nat.le_succ_of_le this
  . rintro s ⟨hs, hconfined⟩ _
    have houtcome := pass_outcome g k tool.recorded s
    have := hconfined.iterations_le
    rw [hs.iterations] at this
    cases hpass : s.pass g k tool.recorded with
    | again s' =>
      rw [hpass] at houtcome
      exact ⟨pass_recalls hs hpass, (hconfined.again htool.recorded houtcome).1⟩
    | done ending =>
      rw [hpass] at houtcome
      have htool := houtcome.tool_eq
      dsimp only [Step.tool, Tool.recorded] at htool
      dsimp only [Step.Meets]
      rw [htool, List.length_append, List.length_singleton]
      omega

end Confined
end Progress

/--
A run calls its tool for every new header no more often than it puts up with, and once more. So it
does end if the headers that the tool can miss are finitely many, and then their number bounds the
calls, with no need for a limit on the passes.
-/
theorem answers_length_le_missed (g : Grammar) (k : Nat) (tool : Tool σ) (m : Materializer) (t : Tree)
    (state : σ) :
    (∀ ending, close g k tool m t state = some ending →
      (answers g k tool m t state).length
        ≤ max 1 k * (m.newHeaders ending.materializer).length + 1)
      ∧ ∀ headers : Finset String, tool.MissesOnly g state headers →
        (∀ limit, max 1 k * headers.card + 1 ≤ limit →
          ∃ ending, Progress.run g k tool.recorded limit
              { materializer := m, tree := t, tool := (state, []) } = some ending
            ∧ ending.tool.2.length ≤ max 1 k * headers.card + 1)
        ∧ (max 1 k * headers.card + 1 ≤ passLimit →
          ∃ ending, close g k tool m t state = some ending
            ∧ (answers g k tool m t state).length ≤ max 1 k * headers.card + 1) := by
  refine ⟨fun ending => answers_length_le_newHeaders, ?_⟩
  intro headers htool
  have hruns : ∀ limit, max 1 k * headers.card + 1 ≤ limit →
      ∃ ending, Progress.run g k tool.recorded limit
          { materializer := m, tree := t, tool := (state, []) } = some ending
        ∧ ending.tool.2.length ≤ max 1 k * headers.card + 1 := by
    intro limit hlimit
    have hstart := Progress.confined_start k tool.recorded headers m t (state, [])
    obtain ⟨ending, hrun⟩ : ∃ ending, Progress.run g k tool.recorded limit
        { materializer := m, tree := t, tool := (state, []) } = some ending := by
      apply hstart.exists_run htool.recorded
      dsimp only
      omega
    exact ⟨ending, hrun, Progress.length_history_le htool hrun⟩
  refine ⟨hruns, ?_⟩
  intro hlimit
  obtain ⟨ending, hrun, hcount⟩ := hruns passLimit hlimit
  refine ⟨ending.mapTool Prod.fst, ?_, ?_⟩
  . rw [← close_mapTool tool.projects_recorded g k m t (state, [])]
    exact Option.map_eq_some_iff.mpr ⟨ending, hrun, rfl⟩
  . unfold answers close
    rw [hrun]
    exact hcount

theorem answers_length_le_missed_respelled :
    ∃ ending,
      close .default 1 .ofTexts headerCopier .oneHeader (missingTexts ["a.h", "./a.h", "./a.h"])
        = some ending
      ∧ (answers .default 1 .ofTexts headerCopier .oneHeader
            (missingTexts ["a.h", "./a.h", "./a.h"])).length
          ≤ max 1 1 * (headerCopier.newHeaders ending.materializer).length + 1
      ∧ (answers .default 1 .ofTexts headerCopier .oneHeader
            (missingTexts ["a.h", "./a.h", "./a.h"])).length
          ≤ max 1 1 * ({"a.h", "./a.h"} : Finset String).card + 1 := by
  have htexts : ∀ rest ∈ (missingTexts ["a.h", "./a.h", "./a.h"]).tails,
      ∀ request ∈ (Grammar.default.parse (rest.headD "")).missingIncludes,
        request.header ∈ ({"a.h", "./a.h"} : Finset String) := by
    decide +kernel
  have htool : Tool.ofTexts.MissesOnly .default (missingTexts ["a.h", "./a.h", "./a.h"])
      {"a.h", "./a.h"} := by
    rintro rest cwd t output hreaches ⟨⟩
    apply htexts
    rw [List.mem_tails]
    exact Tool.suffix_of_reaches_ofTexts hreaches
  obtain ⟨hnew, hmissed⟩ := answers_length_le_missed .default 1 .ofTexts headerCopier .oneHeader
    (missingTexts ["a.h", "./a.h", "./a.h"])
  obtain ⟨ending, hclose, hcount⟩ := (hmissed _ htool).2 (by decide +kernel)
  exact ⟨ending, hclose, hnew ending hclose, hcount⟩

end Closure
end Graft
