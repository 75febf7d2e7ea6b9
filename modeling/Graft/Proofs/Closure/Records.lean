import Graft.Proofs.Closure.Requests
import Graft.Proofs.FirstBy

/-!
This module contains the records of a closure run that ends with a report: one for each header, made
on the pass that asked for it first and for the file that did.
-/

namespace Graft

def MaterializedHeader.origin (r : MaterializedHeader) : MissingInclude × Nat :=
  (⟨r.requestedBy, r.header⟩, r.iteration)

namespace Closure

variable {σ : Type}

/--
The requests of all passes in order, each with the number of its pass. Passes count from one.
-/
def numbered (passes : List (List MissingInclude)) : List (MissingInclude × Nat) :=
  (passes.zipIdx 1).flatMap fun (pass, i) => pass.map (·, i)

def firstRequests (passes : List (List MissingInclude)) : List (MissingInclude × Nat) :=
  firstBy (·.1.header) (numbered passes)

structure Records (passes : List (List MissingInclude)) (records : List MaterializedHeader) :
    Prop where
  origins : records.map (·.origin) = firstRequests passes
  nodup : (records.map (·.header)).Nodup
  complete : ∀ pass ∈ passes, ∀ request ∈ pass, request.header ∈ records.map (·.header)
  ordered : records.Pairwise (·.iteration ≤ ·.iteration)

section Numbered

theorem numbered_concat (passes : List (List MissingInclude)) (pass : List MissingInclude) :
    numbered (passes ++ [pass]) = numbered passes ++ pass.map (·, passes.length + 1) := by
  unfold numbered
  rw [List.zipIdx_append, List.flatMap_append]
  simp [Nat.add_comm]

theorem map_fst_numbered (passes : List (List MissingInclude)) :
    (numbered passes).map (·.1) = passes.flatten := by
  induction passes using List.reverseRecOn with
  | nil => rfl
  | append_singleton passes pass ih =>
    rw [numbered_concat, List.map_append, ih, List.flatten_append]
    simp [Function.comp_def]

theorem headers_numbered (passes : List (List MissingInclude)) :
    (numbered passes).map (·.1.header) = passes.flatten.map (·.header) := by
  rw [← map_fst_numbered, List.map_map]
  rfl

theorem le_length_of_mem_numbered {passes : List (List MissingInclude)} {e : MissingInclude × Nat}
    (h : e ∈ numbered passes) :
    e.2 ≤ passes.length := by
  unfold numbered at h
  obtain ⟨⟨pass, i⟩, hpass, he⟩ := List.mem_flatMap.mp h
  have hi : i < 1 + passes.length := List.snd_lt_add_of_mem_zipIdx hpass
  obtain ⟨request, _, rfl⟩ := List.mem_map.mp he
  dsimp only
  omega

theorem pairwise_numbered (passes : List (List MissingInclude)) :
    (numbered passes).Pairwise (·.2 ≤ ·.2) := by
  induction passes using List.reverseRecOn with
  | nil => simp [numbered]
  | append_singleton passes pass ih =>
    rw [numbered_concat, List.pairwise_append]
    refine ⟨ih, ?_, ?_⟩
    . rw [List.pairwise_map]
      apply List.pairwise_of_forall
      simp
    . intro e he e' he'
      obtain ⟨request, _, rfl⟩ := List.mem_map.mp he'
      exact Nat.le_succ_of_le (le_length_of_mem_numbered he)

theorem firstRequests_concat (passes : List (List MissingInclude)) (pass : List MissingInclude) :
    firstRequests (passes ++ [pass])
      =
    firstRequests passes
      ++ (newBy (·.header) (passes.flatten.map (·.header)) pass).map (·, passes.length + 1) := by
  unfold firstRequests
  rw [numbered_concat, firstBy_append, newBy_map, headers_numbered]

end Numbered

theorem records_of_origins {passes : List (List MissingInclude)} {records : List MaterializedHeader}
    (h : records.map (·.origin) = firstRequests passes) :
    Records passes records := by
  have hheaders : records.map (·.header) = (firstRequests passes).map (·.1.header) := by
    rw [← h, List.map_map]
    rfl
  constructor
  . exact h
  . rw [hheaders]
    apply nodup_map_firstBy
  . intro pass hpass request hrequest
    unfold firstRequests at hheaders
    rw [hheaders, mem_map_firstBy, headers_numbered]
    exact List.mem_map_of_mem (List.mem_flatten_of_mem hpass hrequest)
  . have hordered := (pairwise_numbered passes).sublist (firstBy_sublist (·.1.header) _)
    unfold firstRequests at h
    rw [← h, List.pairwise_map] at hordered
    exact hordered

namespace Progress

variable {g : Grammar} {s : Progress (σ × List (Except Fault ToolOutput))}

theorem firstRequests_of_invoke (hs : s.Recalls g) {tool : Tool σ} {output : ToolOutput}
    {state : σ × List (Except Fault ToolOutput)} {cwd : Path} {t tree : Tree}
    (hcall : tool.recorded.invoke s.tool cwd t = (.ok output, state, tree)) :
    firstRequests (requests g state.2)
      =
    firstRequests (requests g s.tool.2)
      ++ (newBy (·.header) s.seen (g.parse output.text).missingIncludes).map
        (·, s.iterations + 1) := by
  rw [requests_of_invoke hcall, firstRequests_concat, hs.newBy_seen, hs.length_requests]

end Progress

theorem origin_of_materialize {m m' : Materializer} {t t' : Tree} {request : MissingInclude}
    {iteration : Nat} {r : MaterializedHeader}
    (h : m.materialize t request iteration = (.ok r, m', t')) :
    r.origin = (request, iteration) := by
  cases Materializer.materialize_outcome h with
  | recorded hdecide hcopy hlog =>
    obtain ⟨paths, action, _, _, _, hr⟩ := Materializer.decide_eq_ok hdecide
    rw [hr]
    rfl

def Adds (m m' : Materializer) (origins : List (MissingInclude × Nat)) : Prop :=
  ∃ records, m'.log = m.log ++ records ∧ records.map (·.origin) = origins

theorem Adds.materialize {m m₁ m₂ : Materializer} {t₁ t₂ : Tree}
    {origins : List (MissingInclude × Nat)} {request : MissingInclude} {iteration : Nat}
    {r : MaterializedHeader} (h : Adds m m₁ origins)
    (hdone : m₁.materialize t₁ request iteration = (.ok r, m₂, t₂)) :
    Adds m m₂ (origins ++ [(request, iteration)]) := by
  obtain ⟨records, hlog, horigins⟩ := h
  obtain ⟨hrecord, _⟩ := Materializer.materialize_record hdone
  refine ⟨records ++ [r], ?_, ?_⟩
  . rw [hrecord, hlog, List.append_assoc]
  . rw [List.map_append, horigins, List.map_singleton, origin_of_materialize hdone]

theorem Adds.materializeAll {m m₁ m₂ : Materializer} {t₁ t₂ : Tree}
    {origins : List (MissingInclude × Nat)} {iteration : Nat} {requests : List MissingInclude}
    (h : Adds m m₁ origins)
    (hdone : Closure.materializeAll m₁ t₁ iteration requests = (.ok (), m₂, t₂)) :
    Adds m m₂ (origins ++ requests.map (·, iteration)) := by
  have hstart : Adds m m₁ (origins ++ ([] : List MissingInclude).map (·, iteration)) := by
    rw [List.map_nil, List.append_nil]
    exact h
  have hall := materializeAll_induct
    (P := fun done m' _ => Adds m m' (origins ++ done.map (·, iteration))) ?_ hstart hdone
  . rcases hall with ⟨_, hadded⟩ | ⟨_, _, _, _, _, _, _, hresult, _⟩
    . exact hadded
    . contradiction
  . intro done m₁ t₁ request r m₂ t₂ hadded hhandled
    rw [List.map_append, ← List.append_assoc]
    exact hadded.materialize hhandled

/--
A run that ends with a report has made one record for each header that its passes have asked for.
-/
theorem close_records {g : Grammar} {k : Nat} {tool : Tool σ} {m : Materializer} {t : Tree}
    {state : σ} {ending : Ending σ} {report : ClosureReport}
    (h : close g k tool m t state = some ending) (hreport : ending.result = .ok report) :
    (requests g (answers g k tool m t state)).length = report.iterations
      ∧ ∃ records, report.materialized = m.log ++ records
        ∧ Records (requests g (answers g k tool m t state)) records := by
  -- `Q` only speaks of the records' origins; the rest of `Records` follows from them.
  have hrun := close_induct (g := g) (k := k)
    (P := fun s => Adds m s.materializer (firstRequests (requests g s.tool.2)))
    (Q := fun ending => ∀ report, ending.result = .ok report →
      (requests g ending.tool.2).length = report.iterations
        ∧ ∃ records, report.materialized = m.log ++ records
          ∧ records.map (·.origin) = firstRequests (requests g ending.tool.2))
    ?_ ?_ ⟨[], by simp, rfl⟩ h
  . obtain ⟨hiterations, records, hlog, horigins⟩ := hrun report hreport
    exact ⟨hiterations, records, hlog, records_of_origins horigins⟩
  . rintro s hs hadds _ report ⟨⟩
    exact ⟨hs.length_requests, hadds⟩
  . intro s step hs hadds houtcome
    cases houtcome with
    | broken hcall =>
      intro report hresult
      contradiction
    | converged hcall hmissing =>
      rintro report ⟨⟩
      have hfirst := Progress.firstRequests_of_invoke hs hcall
      rw [hmissing, newBy, List.map_nil, List.append_nil] at hfirst
      dsimp only
      rw [hfirst]
      exact ⟨Progress.length_requests_of_invoke hs hcall, hadds⟩
    | stalled hcall hmissing hrepeat hlimit =>
      rintro report ⟨⟩
      have hfirst := Progress.firstRequests_of_invoke hs hcall
      rw [hmissing, hrepeat, List.map_nil, List.append_nil] at hfirst
      dsimp only
      rw [hfirst]
      exact ⟨Progress.length_requests_of_invoke hs hcall, hadds⟩
    | repeated hcall hmissing hrepeat hlimit =>
      have hfirst := Progress.firstRequests_of_invoke hs hcall
      rw [hmissing, hrepeat, List.map_nil, List.append_nil] at hfirst
      dsimp only [Step.Meets]
      rw [hfirst]
      exact hadds
    | stuck hcall hmissing hfails =>
      rintro report ⟨⟩
    | progressed hcall hmissing hnew hdone =>
      have hfirst := Progress.firstRequests_of_invoke hs hcall
      dsimp only [Step.Meets]
      rw [hfirst, hmissing]
      exact hadds.materializeAll hdone

def sharedHeader : List String := [
  "x.c:1:1: fatal error: a.h: No such file or directory\n"
    ++ "y.c:2:1: fatal error: a.h: No such file or directory\n",
  "y.c:3:1: fatal error: ./a.h: No such file or directory\n"
    ++ "x.c:1:1: fatal error: a.h: No such file or directory\n"]

theorem close_records_shared :
    ∃ ending report,
      close .default 3 .ofTexts headerCopier .oneHeader sharedHeader = some ending
        ∧ ending.result = .ok report
        ∧ (requests .default (answers .default 3 .ofTexts headerCopier .oneHeader
            sharedHeader)).length = report.iterations
        ∧ ∃ records, report.materialized = headerCopier.log ++ records
          ∧ records.map (·.origin) = [(⟨"x.c", "a.h"⟩, 1), (⟨"y.c", "./a.h"⟩, 2)]
          ∧ Records (requests .default (answers .default 3 .ofTexts headerCopier .oneHeader
              sharedHeader)) records := by
  have hrun : (close .default 3 .ofTexts headerCopier .oneHeader sharedHeader).any (·.result.isOk)
      = true := by
    decide +kernel
  have hfirst : firstRequests (requests .default (answers .default 3 .ofTexts headerCopier
        .oneHeader sharedHeader))
      = [(⟨"x.c", "a.h"⟩, 1), (⟨"y.c", "./a.h"⟩, 2)] := by
    decide +kernel
  obtain ⟨ending, hclose, hok⟩ := (Option.any_eq_true _ _).mp hrun
  cases hresult : ending.result with
  | error e =>
    rw [hresult] at hok
    exact absurd hok Bool.false_ne_true
  | ok report =>
    obtain ⟨hlength, records, hlog, hrecords⟩ := close_records hclose hresult
    exact ⟨ending, report, hclose, hresult, hlength, records, hlog,
      hrecords.origins.trans hfirst, hrecords⟩

end Closure
end Graft
