import Graft.Digest.Sha256
import Graft.Proofs.Closure.Pass

/-!
This module contains the history of a closure run: a tool that remembers what it answered behaves as
the tool itself, so the answers of a run can be spoken of whatever the tool is.
-/

namespace Graft

namespace Tool

variable {σ : Type}

/--
On what a map shows of its state, this tool does the same as another one.
-/
structure Projects {τ : Type} (tool' : Tool τ) (f : τ → σ) (tool : Tool σ) : Prop where
  exhausted (s : τ) : tool'.exhausted s = tool.exhausted (f s)
  invoke (s : τ) (cwd : Path) (t : Tree) : tool.invoke (f s) cwd t
    = ((tool'.invoke s cwd t).1, f (tool'.invoke s cwd t).2.1, (tool'.invoke s cwd t).2.2)

def recorded (tool : Tool σ) : Tool (σ × List (Except Fault ToolOutput)) where
  exhausted s := tool.exhausted s.1
  invoke s cwd t :=
    let (answer, state, t) := tool.invoke s.1 cwd t
    (answer, (state, s.2 ++ [answer]), t)

theorem projects_recorded (tool : Tool σ) : tool.recorded.Projects Prod.fst tool where
  exhausted _ := rfl
  invoke _ _ _ := rfl

def OnlyPrints (tool : Tool σ) : Prop :=
  ∀ s cwd t, (tool.invoke s cwd t).2.2 = t

def ofTexts : Tool (List String) where
  exhausted texts := texts.isEmpty
  invoke texts _ t := (.ok { text := texts.headD "" }, texts.tail, t)

theorem onlyPrints_ofTexts : ofTexts.OnlyPrints := by
  intro texts cwd t
  rfl

theorem history_of_invoke_recorded {tool : Tool σ} {s state : σ × List (Except Fault ToolOutput)}
    {cwd : Path} {t tree : Tree} {answer : Except Fault ToolOutput}
    (hcall : tool.recorded.invoke s cwd t = (answer, state, tree)) :
    state.2 = s.2 ++ [answer] := by
  unfold recorded at hcall
  cases hcall
  rfl

theorem tree_of_invoke_recorded {tool : Tool σ} {s state : σ × List (Except Fault ToolOutput)}
    {cwd : Path} {t tree : Tree} {answer : Except Fault ToolOutput}
    (hcall : tool.recorded.invoke s cwd t = (answer, state, tree)) :
    tree = (tool.invoke s.1 cwd t).2.2 := by
  unfold recorded at hcall
  cases hcall
  rfl

end Tool

namespace Closure

variable {σ : Type}

def Progress.mapTool {τ : Type} (f : τ → σ) (s : Progress τ) : Progress σ :=
  ⟨s.materializer, s.tree, f s.tool, s.seen, s.repeatPasses, s.iterations, s.ambiguousLines,
    s.pending⟩

def Ending.mapTool {τ : Type} (f : τ → σ) (ending : Ending τ) : Ending σ :=
  ⟨ending.result, ending.materializer, ending.tree, f ending.tool⟩

def Step.mapTool {τ : Type} (f : τ → σ) : Step τ → Step σ
  | .done ending => .done (ending.mapTool f)
  | .again s => .again (s.mapTool f)

namespace Progress

variable {τ : Type} {f : τ → σ} {tool' : Tool τ} {tool : Tool σ}

theorem act_mapTool (f : τ → σ) (k : Nat) (s : Progress τ) (missing : List MissingInclude) :
    (s.act k missing).mapTool f = (s.mapTool f).act k missing := by
  have hrest : (s.mapTool f).materializer = s.materializer ∧ (s.mapTool f).tree = s.tree
      ∧ (s.mapTool f).iterations = s.iterations ∧ (s.mapTool f).seen = s.seen :=
    ⟨rfl, rfl, rfl, rfl⟩
  unfold act handle
  rw [hrest.1, hrest.2.1, hrest.2.2.1, hrest.2.2.2]
  split
  . rfl
  . dsimp only
    split
    . rfl
    . split
      . rfl
      . split
        . rfl
        . exact apply_ite (Step.mapTool f) _ _ _

theorem pass_mapTool (htool : tool'.Projects f tool) (g : Grammar) (k : Nat) (s : Progress τ) :
    (s.pass g k tool').mapTool f = (s.mapTool f).pass g k tool := by
  rcases hcall : tool'.invoke s.tool s.materializer.targetRoot s.tree with ⟨answer, state, tree⟩
  have hmap : tool.invoke (s.mapTool f).tool (s.mapTool f).materializer.targetRoot (s.mapTool f).tree
      = (answer, f state, tree) := by
    have hinvoke := htool.invoke s.tool s.materializer.targetRoot s.tree
    rw [hcall] at hinvoke
    exact hinvoke
  unfold pass
  dsimp only
  rw [hcall, hmap]
  cases answer with
  | error cause => rfl
  | ok output =>
    apply act_mapTool

theorem run_mapTool (htool : tool'.Projects f tool) (g : Grammar) (k limit : Nat) (s : Progress τ) :
    (s.run g k tool' limit).map (·.mapTool f) = (s.mapTool f).run g k tool limit := by
  have hexhausted : ∀ s : Progress τ, tool'.exhausted s.tool = tool.exhausted (s.mapTool f).tool :=
    fun s => htool.exhausted s.tool
  induction limit generalizing s with
  | zero =>
    unfold run
    rw [hexhausted]
    split <;> rfl
  | succ limit ih =>
    unfold run
    rw [hexhausted]
    split
    . rfl
    . have hpass := pass_mapTool htool g k s
      rw [← hpass]
      cases s.pass g k tool' with
      | done ending => rfl
      | again s => apply ih

end Progress

def answers (g : Grammar) (stallThreshold : Nat) (tool : Tool σ) (m : Materializer) (t : Tree)
    (state : σ) : List (Except Fault ToolOutput) :=
  match close g stallThreshold tool.recorded m t (state, []) with
  | some ending => ending.tool.2
  | none => []

def requests (g : Grammar) (answers : List (Except Fault ToolOutput)) : List (List MissingInclude) :=
  answers.filterMap fun
    | .ok output => some (g.parse output.text).missingIncludes
    | .error _ => none

theorem close_mapTool {τ : Type} {f : τ → σ} {tool' : Tool τ} {tool : Tool σ}
    (htool : tool'.Projects f tool) (g : Grammar) (k : Nat) (m : Materializer) (t : Tree)
    (state : τ) :
    (close g k tool' m t state).map (·.mapTool f) = close g k tool m t (f state) := by
  apply Progress.run_mapTool htool

/--
A run of a tool is the run of the same tool with a memory.
-/
theorem exists_recorded_of_close {g : Grammar} {k : Nat} {tool : Tool σ} {m : Materializer}
    {t : Tree} {state : σ} {ending : Ending σ} (h : close g k tool m t state = some ending) :
    ∃ memory, close g k tool.recorded m t (state, [])
      = some ⟨ending.result, ending.materializer, ending.tree, (ending.tool, memory)⟩
        ∧ answers g k tool m t state = memory := by
  rw [← close_mapTool tool.projects_recorded g k m t (state, [])] at h
  obtain ⟨recorded, hclose, rfl⟩ := Option.map_eq_some_iff.mp h
  refine ⟨recorded.tool.2, hclose, ?_⟩
  unfold answers
  rw [hclose]

def missingTexts (headers : List String) : List String :=
  headers.map fun header => "x.c:1:1: fatal error: " ++ header ++ ": No such file or directory\n"

def headerCopier : Materializer where
  donorRoot := ⟨"d"⟩
  targetRoot := ⟨"t"⟩
  digest := Sha256.hex

@[simp]
theorem requests_concat_ok (g : Grammar) (answers : List (Except Fault ToolOutput))
    (output : ToolOutput) :
    requests g (answers ++ [.ok output])
      = requests g answers ++ [(g.parse output.text).missingIncludes] := by
  simp [requests]

@[simp]
theorem requests_concat_error (g : Grammar) (answers : List (Except Fault ToolOutput))
    (cause : Fault) :
    requests g (answers ++ [.error cause]) = requests g answers := by
  simp [requests]

theorem requests_of_invoke {g : Grammar} {tool : Tool σ}
    {s state : σ × List (Except Fault ToolOutput)} {cwd : Path} {t tree : Tree} {output : ToolOutput}
    (hcall : tool.recorded.invoke s cwd t = (.ok output, state, tree)) :
    requests g state.2 = requests g s.2 ++ [(g.parse output.text).missingIncludes] := by
  rw [Tool.history_of_invoke_recorded hcall, requests_concat_ok]

end Closure
end Graft
