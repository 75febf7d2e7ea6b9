import Graft.Proofs.Closure.Awaits

/-!
This module contains what the request loop of a pass comes to: the first request for each new header
is handled, and a pass without one stalls, if it does, on its first request.
-/

namespace Graft
namespace Closure

/--
Handle requests in order, whatever was requested before, up to the first one that fails.
-/
def materializeAll (m : Materializer) (t : Tree) (iteration : Nat) :
    List MissingInclude → Except ClosureError Unit × Materializer × Tree
  | [] => (.ok (), m, t)
  | request :: rest =>
    match m.materialize t request iteration with
    | (.error e, m, t) => (.error e, m, t)
    | (.ok _, m, t) => materializeAll m t iteration rest

namespace Handling

variable {iteration : Nat} {h : Handling} {request first : MissingInclude}
variable {requests : List MissingInclude}

def Counts (h : Handling) : Prop :=
  h.thisPass ⊆ h.seen

theorem step_of_seen (hcounts : h.Counts) (hseen : request.header ∈ h.seen) :
    ∃ h', h.step iteration request = (.ok (), h') ∧ h'.Counts ∧ h'.materializer = h.materializer
      ∧ h'.tree = h.tree ∧ h'.seen = h.seen ∧ h'.progressed = h.progressed := by
  unfold step
  split
  . exact ⟨h, rfl, hcounts, rfl, rfl, rfl, rfl⟩
  . dsimp only
    rw [if_pos hseen]
    refine ⟨_, rfl, ?_, rfl, rfl, rfl, rfl⟩
    exact List.append_subset.mpr ⟨hcounts, by simpa using hseen⟩

theorem step_of_new (hcounts : h.Counts) (hnew : request.header ∉ h.seen) :
    h.step iteration request
      =
    match h.materializer.materialize h.tree request iteration with
    | (.error e, materializer, tree) => (.error e, { h with
        materializer
        tree
        thisPass := h.thisPass ++ [request.header] })
    | (.ok _, materializer, tree) => (.ok (), { h with
        materializer
        tree
        seen := h.seen ++ [request.header]
        thisPass := h.thisPass ++ [request.header]
        progressed := true }) := by
  unfold step
  rw [if_neg (mt (@hcounts _) hnew)]
  exact if_neg hnew

theorem Counts.concat (hcounts : h.Counts) (header : String) {materializer : Materializer}
    {tree : Tree} :
    Counts { h with
      materializer
      tree
      seen := h.seen ++ [header]
      thisPass := h.thisPass ++ [header]
      progressed := true } :=
  List.append_subset.mpr ⟨List.subset_append_of_subset_left _ hcounts,
    List.subset_append_right _ _⟩

theorem newBy_seen_concat :
    newBy (·.header) (h.seen ++ [request.header]) requests
      =
    newBy (·.header) (request.header :: h.seen) requests := by
  apply newBy_congr
  intro header
  simp [or_comm]

theorem steps_of_error (hcounts : h.Counts) {e : ClosureError} {m : Materializer} {t : Tree}
    (hfails : materializeAll h.materializer h.tree iteration (newBy (·.header) h.seen requests)
      = (.error e, m, t)) :
    ∃ h', h.steps iteration requests = (.error e, h') ∧ h'.materializer = m ∧ h'.tree = t := by
  induction requests generalizing h with
  | nil => simp [newBy, materializeAll] at hfails
  | cons request rest ih =>
    unfold steps
    unfold newBy at hfails
    split at hfails
    . next hseen =>
      obtain ⟨h', hstep, hcounts', hm, ht, hseen', -⟩ := step_of_seen hcounts hseen
      rw [hstep]
      apply ih hcounts'
      rw [hm, ht, hseen']
      exact hfails
    . next hnew =>
      unfold materializeAll at hfails
      rw [step_of_new hcounts hnew]
      split at hfails
      . cases hfails
        exact ⟨_, rfl, rfl, rfl⟩
      . apply ih (hcounts.concat _)
        dsimp only
        rw [newBy_seen_concat]
        exact hfails

theorem steps_of_ok (hcounts : h.Counts) {m : Materializer} {t : Tree}
    (hdone : materializeAll h.materializer h.tree iteration (newBy (·.header) h.seen requests)
      = (.ok (), m, t)) :
    ∃ h', h.steps iteration requests = (.ok (), h') ∧ h'.materializer = m ∧ h'.tree = t
      ∧ h'.seen = h.seen ++ (newBy (·.header) h.seen requests).map (·.header)
      ∧ (h'.progressed = true
        ↔ h.progressed = true ∨ newBy (·.header) h.seen requests ≠ []) := by
  induction requests generalizing h with
  | nil =>
    cases hdone
    exact ⟨h, rfl, rfl, rfl, by simp [newBy], by simp [newBy]⟩
  | cons request rest ih =>
    unfold steps
    unfold newBy at hdone ⊢
    split at hdone
    . next hseen =>
      obtain ⟨h', hstep, hcounts', hm, ht, hseen', hprogressed⟩ := step_of_seen hcounts hseen
      rw [hstep, if_pos hseen, ← hseen', ← hprogressed]
      apply ih hcounts'
      rw [hm, ht, hseen']
      exact hdone
    . next hnew =>
      unfold materializeAll at hdone
      rw [step_of_new hcounts hnew, if_neg hnew]
      split at hdone
      . cases hdone
      . rw [← newBy_seen_concat] at hdone ⊢
        obtain ⟨h', hsteps, hm, ht, hseen', hprogressed⟩ := ih (hcounts.concat _) hdone
        refine ⟨h', hsteps, hm, ht, ?_, ?_⟩
        . rw [hseen', List.append_assoc]
          rfl
        . rw [hprogressed]
          simp

theorem step_firstRepeat (hrepeat : h.firstRepeat = some first) (iteration : Nat)
    (request : MissingInclude) :
    (h.step iteration request).2.firstRepeat = some first := by
  unfold step
  split
  . exact hrepeat
  . dsimp only
    split
    . simp [hrepeat]
    . split <;> exact hrepeat

theorem steps_firstRepeat (hrepeat : h.firstRepeat = some first) :
    (h.steps iteration requests).2.firstRepeat = some first := by
  induction requests generalizing h with
  | nil => exact hrepeat
  | cons request rest ih =>
    have hstep := step_firstRepeat hrepeat iteration request
    unfold steps
    split
    . next hfailing =>
      rw [hfailing] at hstep
      exact hstep
    . next hhandled =>
      rw [hhandled] at hstep
      exact ih hstep

theorem steps_firstRepeat_of_seen {seen : List String} (hseen : first.header ∈ seen)
    (iteration : Nat) (m : Materializer) (t : Tree) (requests : List MissingInclude) :
    (Handling.steps iteration ⟨m, t, seen, [], false, none⟩ (first :: requests)).2.firstRepeat
      = some first := by
  have hstep : Handling.step iteration ⟨m, t, seen, [], false, none⟩ first
      = (.ok (), ⟨m, t, seen, [first.header], false, some first⟩) := by
    simp [step, hseen]
  unfold steps
  rw [hstep]
  apply steps_firstRepeat rfl

end Handling

/--
A request that is left out is for a header that was requested before.
-/
theorem newBy_dedupRequests (seen : List String) (requests : List MissingInclude) :
    newBy (·.header) seen (dedupRequests requests) = newBy (·.header) seen requests := by
  suffices hmade : ∀ made : List (String × String), (∀ pair ∈ made, pair.2 ∈ seen) →
      newBy (·.header) seen (newBy (·.pair) made requests) = newBy (·.header) seen requests from
    hmade [] (by simp)
  induction requests generalizing seen with
  | nil =>
    intro made hmade
    rfl
  | cons request rest ih =>
    intro made hmade
    by_cases hpair : request.pair ∈ made
    . have hseen : request.header ∈ seen := hmade _ hpair
      rw [newBy_cons_of_mem hpair, newBy_cons_of_mem hseen]
      apply ih seen made hmade
    . rw [newBy_cons_of_not_mem hpair]
      by_cases hseen : request.header ∈ seen
      . rw [newBy_cons_of_mem hseen, newBy_cons_of_mem hseen]
        apply ih
        rw [List.forall_mem_cons]
        exact ⟨hseen, hmade⟩
      . rw [newBy_cons_of_not_mem hseen, newBy_cons_of_not_mem hseen, ih]
        rw [List.forall_mem_cons]
        exact ⟨List.mem_cons_self, fun pair hmem => List.mem_cons_of_mem _ (hmade pair hmem)⟩

namespace Progress

variable {σ : Type}

/--
What acting on missing headers comes to, of which `first` is one: the first request for each new
header is handled, and without one the run stalls on the first header if it was too many passes long.
-/
def handleNew (stallThreshold : Nat) (s : Progress σ) (first : MissingInclude)
    (missing : List MissingInclude) : Step σ :=
  let s := { s with pending := pendingFiles missing }
  match newBy (·.header) s.seen missing with
  | [] =>
    let s := { s with repeatPasses := s.repeatPasses + 1 }
    if stallThreshold ≤ s.repeatPasses then
      .done (s.finish .stalled (some ⟨first.header, first.sourceFile, s.iterations, s.repeatPasses⟩))
    else .again s
  | fresh =>
    match materializeAll s.materializer s.tree s.iterations fresh with
    | (.error e, materializer, tree) => .done ({ s with materializer, tree }.fail e)
    | (.ok (), materializer, tree) => .again { s with
        materializer
        tree
        seen := s.seen ++ fresh.map (·.header)
        repeatPasses := 0 }

theorem handle_cons (k : Nat) (s : Progress σ) (first : MissingInclude)
    (rest : List MissingInclude) :
    s.handle k (first :: rest) = s.handleNew k first (first :: rest) := by
  have hcounts : Handling.Counts ⟨s.materializer, s.tree, s.seen, [], false, none⟩ :=
    List.nil_subset _
  unfold handle handleNew
  dsimp only
  cases hnew : newBy (·.header) s.seen (first :: rest) with
  | nil =>
    have hdone : materializeAll s.materializer s.tree s.iterations
        (newBy (·.header) s.seen (first :: rest)) = (.ok (), s.materializer, s.tree) := by
      rw [hnew]
      rfl
    have hrepeat := Handling.steps_firstRepeat_of_seen
      (newBy_eq_nil_iff.mp hnew first List.mem_cons_self) s.iterations s.materializer s.tree rest
    obtain ⟨h, hsteps, hm, ht, hseen, hprogressed⟩ := Handling.steps_of_ok hcounts hdone
    rw [hsteps] at hrepeat ⊢
    dsimp only at hrepeat ⊢
    rw [if_neg (by simp [hprogressed, hnew]), hrepeat, hm, ht, hseen, hnew, List.map_nil,
      List.append_nil]
  | cons request later =>
    cases hall : materializeAll s.materializer s.tree s.iterations (request :: later) with
    | mk result state =>
      obtain ⟨materializer, tree⟩ := state
      rw [← hnew] at hall
      cases result with
      | error e =>
        obtain ⟨h, hsteps, hm, ht⟩ := Handling.steps_of_error hcounts hall
        rw [hnew] at hall
        rw [hsteps]
        dsimp only
        rw [hall, hm, ht]
      | ok =>
        obtain ⟨h, hsteps, hm, ht, hseen, hprogressed⟩ := Handling.steps_of_ok hcounts hall
        rw [hnew] at hall
        rw [hsteps]
        dsimp only
        rw [hall, if_pos (by simp [hprogressed, hnew]), hm, ht, hseen, hnew]

theorem act_nil (k : Nat) (s : Progress σ) :
    s.act k [] = .done ({ s with pending := [] }.finish .converged none) :=
  rfl

theorem act_cons (k : Nat) (s : Progress σ) (first : MissingInclude) (rest : List MissingInclude) :
    s.act k (first :: rest) = s.handleNew k first (first :: rest) := by
  have hdedup : ∃ later, dedupRequests (first :: rest) = first :: later := by
    unfold dedupRequests newBy
    rw [if_neg (List.not_mem_nil)]
    exact ⟨_, rfl⟩
  obtain ⟨later, hlater⟩ := hdedup
  unfold act
  rw [hlater]
  dsimp only
  rw [handle_cons]
  unfold handleNew
  rw [← hlater, pendingFiles_dedupRequests]
  dsimp only
  rw [newBy_dedupRequests]

end Progress
end Closure
end Graft
