import Graft.NameCleanup
import Graft.Proofs.NameCleanup.Groups

/-!
This module contains the cleanup of a name as a run of single moves, in which each round of removing
clauses is a move of its own. A run ends after a bounded number of moves, with the cleaned name, and
all that it does to the name is to leave characters out.
-/

namespace Graft
namespace NameCleanup

section

variable {name name' : List Char} {step : Step} {steps : List Step} {s : Pattern.Search}

theorem dropClause_suffix (cs : List Char) : dropClause cs <:+ cs := by
  unfold dropClause
  split
  . next rest hstart =>
    have hrest : rest <:+ cs := by
      apply List.IsSuffix.trans (List.suffix_cons '(' rest)
      rw [← hstart]
      exact List.dropWhile_suffix _
    cases hclose : closeGroup? '(' ')' 1 rest with
    | none => exact List.nil_suffix
    | some tail =>
      obtain ⟨inside, -, heq⟩ := exists_balanced_of_closeGroup? hclose
      apply List.IsSuffix.trans _ hrest
      rw [heq]
      exact ⟨inside ++ [')'], by simp⟩
  . exact List.suffix_rfl

theorem removeClause_sublist (m : Pattern.Match) : (removeClause m).Sublist m.text := by
  unfold removeClause Pattern.Match.text
  apply List.Sublist.append_left
  exact (dropClause_suffix m.after).sublist.trans (List.sublist_append_right _ _)

def round? (s : Pattern.Search) (name : List Char) : Option (List Char) :=
  (s.find? name).bind fun m => if m.hit.isEmpty then none else some (removeClause m)

theorem round?_eq_some_iff :
    round? s name = some name'
      ↔
    ∃ m ∈ s.find? name, m.hit ≠ [] ∧ removeClause m = name' := by
  unfold round?
  rw [Option.bind_eq_some_iff]
  simp

theorem round?_eq_none_iff : round? s name = none ↔ ∀ m ∈ s.find? name, m.hit = [] := by
  unfold round?
  rw [Option.bind_eq_none_iff]
  simp

theorem length_lt_of_round? (h : round? s name = some name') : name'.length < name.length := by
  obtain ⟨m, hm, hhit, rfl⟩ := round?_eq_some_iff.mp h
  rw [← s.text_of_find? hm]
  exact removeClause_length_lt (mt List.isEmpty_iff.mp hhit)

theorem stripClauses_of_round? (h : round? s name = some name') :
    stripClauses s name = stripClauses s name' := by
  obtain ⟨m, hm, hhit, rfl⟩ := round?_eq_some_iff.mp h
  rw [stripClauses]
  split
  . next hnone =>
    rw [hnone] at hm
    contradiction
  . next m' hm' =>
    rw [hm', Option.mem_some_iff] at hm
    subst hm
    rw [dif_neg (mt List.isEmpty_iff.mp hhit)]

theorem stripClauses_of_round?_eq_none (h : round? s name = none) : stripClauses s name = name := by
  rw [stripClauses]
  split
  . rfl
  . next m hm =>
    rw [dif_pos (List.isEmpty_iff.mpr (round?_eq_none_iff.mp h m hm))]

theorem stripClauses_sublist (s : Pattern.Search) (name : List Char) :
    (stripClauses s name).Sublist name := by
  fun_induction stripClauses s name with
  | case1 => exact List.Sublist.refl _
  | case2 => exact List.Sublist.refl _
  | case3 name m hm hhit ih =>
    have hremoved := removeClause_sublist m
    rw [s.text_of_find? hm] at hremoved
    exact ih.trans hremoved

theorem Step.result?_sublist (h : step.result? name = some name') : name'.Sublist name := by
  unfold result? at h
  split at h
  . split at h
    . contradiction
    . cases h
      exact List.Sublist.refl _
  . cases h
    exact step.search.removeAll_sublist name
  . cases h
    exact stripClauses_sublist _ _

theorem foldlM_result?_sublist
    (h : steps.foldlM (fun name step => step.result? name) name = some name') :
    name'.Sublist name := by
  induction steps generalizing name with
  | nil =>
    cases h
    exact List.Sublist.refl _
  | cons step steps ih =>
    rw [List.foldlM_cons] at h
    obtain ⟨middle, hmiddle, hrest⟩ := Option.bind_eq_some_iff.mp h
    exact (ih hrest).trans (Step.result?_sublist hmiddle)

theorem finish?_eq_some_iff :
    finish? name = some name'
      ↔
    Text.trim (stripTrailingGroup name) = name' ∧ name' ≠ [] := by
  unfold finish?
  simp only [Option.ite_none_left_eq_some, List.isEmpty_iff, Option.some_inj]
  constructor
  . rintro ⟨hne, rfl⟩
    exact ⟨rfl, hne⟩
  . rintro ⟨rfl, hne⟩
    exact ⟨hne, rfl⟩

theorem cleanBy?_sublist {raw : List Char} (h : cleanBy? steps raw = some name) :
    name ≠ [] ∧ Text.IsBare Text.isBlank name ∧ name.Sublist raw := by
  obtain ⟨last, hlast, hfinish⟩ := Option.bind_eq_some_iff.mp h
  obtain ⟨rfl, hne⟩ := finish?_eq_some_iff.mp hfinish
  have hstripped : (stripTrailingGroup last).Sublist last :=
    ((stripTrailingGroup_isPrefix last).trans (Text.trimEnd_isPrefix last)).sublist
  refine ⟨hne, Text.isBare_trim _, ?_⟩
  apply (Text.trim_sublist _).trans
  apply hstripped.trans
  exact (foldlM_result?_sublist hlast).trans (Text.trim_sublist raw)

end

inductive Stage where
  | busy (steps : List Step) (name : List Char)
  | done (answer : Option (List Char))

namespace Stage

/--
The moves of a cleanup: a step drops the definition, has nothing to drop or removes all matches; a
step that removes clauses takes a round, or is left when there is none; and the end.
-/
inductive Move : Stage → Stage → Prop
  | drop {step : Step} {steps : List Step} {name : List Char} (haction : step.action = .discard)
    (hmatch : step.search.isMatch name = true) : Move (.busy (step :: steps) name) (.done none)
  | pass {step : Step} {steps : List Step} {name : List Char} (haction : step.action = .discard)
    (hmatch : step.search.isMatch name = false) :
    Move (.busy (step :: steps) name) (.busy steps name)
  | remove {step : Step} {steps : List Step} {name : List Char} (haction : step.action = .strip) :
    Move (.busy (step :: steps) name) (.busy steps (step.search.removeAll name))
  | round {step : Step} {steps : List Step} {name name' : List Char}
    (haction : step.action = .stripClause) (hround : round? step.search name = some name') :
    Move (.busy (step :: steps) name) (.busy (step :: steps) name')
  | leave {step : Step} {steps : List Step} {name : List Char}
    (haction : step.action = .stripClause) (hround : round? step.search name = none) :
    Move (.busy (step :: steps) name) (.busy steps name)
  | finish {name : List Char} : Move (.busy [] name) (.done (finish? name))

inductive Leads : Nat → Stage → Stage → Prop
  | rest (stage : Stage) : Leads 0 stage stage
  | move {n : Nat} {stage stage' stage'' : Stage} (hmove : Move stage stage')
    (hleads : Leads n stage' stage'') : Leads (n + 1) stage stage''

def size : Stage → Nat
  | .busy steps name => steps.length + name.length + 1
  | .done _ => 0

def answer : Stage → Option (List Char)
  | .busy steps name => do
    let name ← steps.foldlM (fun name step => step.result? name) name
    finish? name
  | .done answer => answer

theorem answer_busy_cons (step : Step) (steps : List Step) (name : List Char) :
    (busy (step :: steps) name).answer
      =
    (step.result? name).bind fun name => (busy steps name).answer := by
  simp only [answer, List.foldlM_cons]
  exact Option.bind_assoc ..

theorem exists_move (steps : List Step) (name : List Char) :
    ∃ stage, Move (.busy steps name) stage := by
  cases steps with
  | nil => exact ⟨_, .finish⟩
  | cons step steps =>
    cases haction : step.action with
    | discard =>
      cases hmatch : step.search.isMatch name with
      | true => exact ⟨_, .drop haction hmatch⟩
      | false => exact ⟨_, .pass haction hmatch⟩
    | strip => exact ⟨_, .remove haction⟩
    | stripClause =>
      cases hround : round? step.search name with
      | some name' => exact ⟨_, .round haction hround⟩
      | none => exact ⟨_, .leave haction hround⟩

variable {stage stage' : Stage} {step : Step} {steps : List Step} {name name' : List Char} {n : Nat}

theorem Move.size_lt (h : Move stage stage') : stage'.size < stage.size := by
  cases h with
  | drop => exact Nat.succ_pos _
  | finish => exact Nat.succ_pos _
  | pass | leave =>
    simp only [size, List.length_cons]
    omega
  | @remove step steps name =>
    have := (step.search.removeAll_sublist name).length_le
    simp only [size, List.length_cons]
    omega
  | round _ hround =>
    have := length_lt_of_round? hround
    simp only [size, List.length_cons]
    omega

theorem Move.answer_eq (h : Move stage stage') : stage'.answer = stage.answer := by
  cases h with
  | finish => rfl
  | drop haction hmatch =>
    rw [answer_busy_cons, Step.result?, haction]
    dsimp only
    rw [if_pos hmatch]
    rfl
  | pass haction hmatch =>
    rw [answer_busy_cons, Step.result?, haction]
    dsimp only
    rw [if_neg (by simp [hmatch])]
    rfl
  | remove haction =>
    rw [answer_busy_cons, Step.result?, haction]
    rfl
  | round haction hround =>
    rw [answer_busy_cons, answer_busy_cons, Step.result?, Step.result?, haction]
    dsimp only
    rw [stripClauses_of_round? hround]
  | leave haction hround =>
    rw [answer_busy_cons, Step.result?, haction]
    dsimp only
    rw [stripClauses_of_round?_eq_none hround]
    rfl

theorem Leads.invariant (h : Leads n stage stage') :
    n + stage'.size ≤ stage.size ∧ stage'.answer = stage.answer := by
  induction h with
  | rest stage => exact ⟨by omega, rfl⟩
  | move hmove _ ih =>
    have := hmove.size_lt
    exact ⟨by omega, ih.2.trans hmove.answer_eq⟩

theorem exists_leads (stage : Stage) : ∃ n, Leads n stage (.done stage.answer) := by
  induction hsize : stage.size using Nat.strongRecOn generalizing stage with
  | ind size ih =>
    cases stage with
    | done answer => exact ⟨0, .rest _⟩
    | busy steps name =>
      obtain ⟨stage', hmove⟩ := exists_move steps name
      have := hmove.size_lt
      obtain ⟨n, hleads⟩ := ih _ (by omega) stage' rfl
      rw [hmove.answer_eq] at hleads
      exact ⟨n + 1, .move hmove hleads⟩

theorem Move.length_lt (h : Move (.busy (step :: steps) name) (.busy (step :: steps) name')) :
    name'.length < name.length := by
  have hsize := h.size_lt
  simp only [size] at hsize
  omega

theorem Move.cases_stripClause (haction : step.action = .stripClause)
    (h : Move (.busy (step :: steps) name) stage) :
    (∃ name', round? step.search name = some name' ∧ stage = .busy (step :: steps) name')
      ∨ round? step.search name = none ∧ stage = .busy steps name := by
  cases h with
  | round _ hround => exact .inl ⟨_, hround, rfl⟩
  | leave _ hround => exact .inr ⟨hround, rfl⟩
  | drop haction' | pass haction' | remove haction' =>
    rw [haction] at haction'
    contradiction

theorem Move.hit_eq_nil (haction : step.action = .stripClause)
    (h : Move (.busy (step :: steps) name) (.busy steps name')) :
    name' = name ∧ ∀ m ∈ step.search.find? name, m.hit = [] := by
  rcases h.cases_stripClause haction with ⟨_, -, heq⟩ | ⟨hround, heq⟩
  . rw [busy.injEq] at heq
    exact absurd heq.1.symm (List.cons_ne_self _ _)
  . rw [busy.injEq] at heq
    exact ⟨heq.2, round?_eq_none_iff.mp hround⟩

end Stage

open Stage

/--
Every run of a cleanup ends, with the cleaned name: there are no more moves than steps and characters
and one. Each round shortens the name, a step that removes clauses is left when the first match is
empty or missing, and the cleaned name is something of the reported one, without white space around
it.
-/
theorem cleanBy?_ends_and_deletes (steps : List Step) (raw : List Char) :
    (∀ answer, (∃ n, Leads n (.busy steps (Text.trim raw)) (.done answer))
      ↔ answer = cleanBy? steps raw)
    ∧ (∀ n stage, Leads n (.busy steps (Text.trim raw)) stage →
      n ≤ steps.length + raw.length + 1)
    ∧ (∀ step rest name name', Move (.busy (step :: rest) name) (.busy (step :: rest) name') →
      name'.length < name.length)
    ∧ (∀ step rest name name', step.action = .stripClause →
      Move (.busy (step :: rest) name) (.busy rest name') →
      name' = name ∧ ∀ m ∈ step.search.find? name, m.hit = [])
    ∧ ∀ name ∈ cleanBy? steps raw,
      name ≠ [] ∧ Text.IsBare Text.isBlank name ∧ name.Sublist raw := by
  refine ⟨?_, ?_, fun _ _ _ _ => Move.length_lt, fun _ _ _ _ => Move.hit_eq_nil,
    fun _ => cleanBy?_sublist⟩
  . intro answer
    constructor
    . rintro ⟨n, hleads⟩
      exact hleads.invariant.2
    . rintro rfl
      exact exists_leads (.busy steps (Text.trim raw))
  . intro n stage hleads
    have hbound := hleads.invariant.1
    have htrim := (Text.trim_sublist raw).length_le
    simp only [size] at hbound
    omega

def prototypeStep : Step :=
  ⟨Pattern.search (.seq (.char (.single '_')) (.seq (.char (.single '_')) (.char (.single 'P')))),
    .stripClause⟩

theorem cleanBy?_ends_and_deletes_prototype :
    (Leads 3 (.busy [prototypeStep] (Text.trim "m_free __P((struct mbuf *)) ".toList))
        (.done (some "m_free".toList))
      ∧ some "m_free".toList = cleanBy? [prototypeStep] "m_free __P((struct mbuf *)) ".toList
      ∧ 3 ≤ [prototypeStep].length + "m_free __P((struct mbuf *)) ".toList.length + 1)
    ∧ (Move (.busy [prototypeStep] (Text.trim "m_free __P((struct mbuf *)) ".toList))
        (.busy [prototypeStep] "m_free ".toList)
      ∧ "m_free ".toList.length < (Text.trim "m_free __P((struct mbuf *)) ".toList).length)
    ∧ (Move (.busy [prototypeStep] "m_free ".toList) (.busy [] "m_free ".toList)
      ∧ ∀ m ∈ prototypeStep.search.find? "m_free ".toList, m.hit = [])
    ∧ Text.IsBare Text.isBlank "m_free".toList
    ∧ "m_free".toList.Sublist "m_free __P((struct mbuf *)) ".toList := by
  have hround : round? prototypeStep.search (Text.trim "m_free __P((struct mbuf *)) ".toList)
      = some "m_free ".toList := by decide +kernel
  have hleave : round? prototypeStep.search "m_free ".toList = none := by decide +kernel
  have hfinish : finish? "m_free ".toList = some "m_free".toList := by decide +kernel
  have hmove : Move (.busy [prototypeStep] (Text.trim "m_free __P((struct mbuf *)) ".toList))
      (.busy [prototypeStep] "m_free ".toList) := .round rfl hround
  have hover : Move (.busy [prototypeStep] "m_free ".toList) (.busy [] "m_free ".toList) :=
    .leave rfl hleave
  have hleads : Leads 3 (.busy [prototypeStep] (Text.trim "m_free __P((struct mbuf *)) ".toList))
      (.done (some "m_free".toList)) :=
    .move hmove (.move hover (.move (hfinish ▸ .finish) (.rest _)))
  obtain ⟨hends, hbound, hshorter, hempty, hcleaned⟩ :=
    cleanBy?_ends_and_deletes [prototypeStep] "m_free __P((struct mbuf *)) ".toList
  have hanswer := (hends _).mp ⟨_, hleads⟩
  have hname := hcleaned _ hanswer.symm
  exact ⟨⟨hleads, hanswer, hbound _ _ hleads⟩, ⟨hmove, hshorter _ _ _ _ hmove⟩,
    ⟨hover, (hempty _ _ _ _ rfl hover).2⟩, hname.2⟩

end NameCleanup
end Graft
