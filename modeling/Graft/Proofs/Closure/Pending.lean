import Graft.Proofs.Closure.Positions
import Graft.Proofs.Closure.Requests

/-!
This module contains the files that a closure run leaves unfinished: those that missed headers on its
last pass, one for all spellings of a path, each with the headers that it missed.
-/

namespace Graft
namespace Closure

variable {σ : Type}

def lastPass (passes : List (List MissingInclude)) : List MissingInclude :=
  passes.getLast?.getD []

theorem lastPass_concat (passes : List (List MissingInclude)) (pass : List MissingInclude) :
    lastPass (passes ++ [pass]) = pass := by
  simp [lastPass]

/--
The files that a report shows as unfinished are those of the last pass, found by their remembered
positions or by a search. There are none if the run converged or made no pass.
-/
theorem close_pending {g : Grammar} {k : Nat} {tool : Tool σ} {m : Materializer} {t : Tree}
    {state : σ} {ending : Ending σ} {report : ClosureReport}
    (h : close g k tool m t state = some ending) (hreport : ending.result = .ok report) :
    (requests g (answers g k tool m t state)).length = report.iterations
      ∧ (∀ pass, (requests g (answers g k tool m t state)).getLast? = some pass →
        report.state ≠ .converged → Pending pass report.pending
          ∧ ∃ p, PendingIndex.ofRequests? (dedupRequests pass) = some p ∧ p.Finds report.pending)
      ∧ (report.state = .converged ∨ report.iterations = 0 → report.pending = []) := by
  have hrun := close_induct (g := g) (k := k)
    (P := fun s => s.pending = pendingFiles (lastPass (requests g s.tool.2)))
    (Q := fun ending => ∀ report, ending.result = .ok report →
      (requests g ending.tool.2).length = report.iterations
        ∧ report.pending = if report.state = .converged then []
          else pendingFiles (lastPass (requests g ending.tool.2)))
    ?_ ?_ rfl h
  . obtain ⟨hlength, hpending⟩ := hrun report hreport
    refine ⟨hlength, ?_, ?_⟩
    . intro pass hpass hstate
      rw [hpending, if_neg hstate, lastPass, hpass]
      exact ⟨pending_pendingFiles pass, PendingIndex.exists_ofRequests?_dedupRequests pass⟩
    . rintro (hstate | hzero)
      . rw [hpending, if_pos hstate]
      . rw [hzero, List.length_eq_zero_iff] at hlength
        rw [hpending, hlength]
        simp [lastPass, pendingFiles]
  . rintro s hs hpending _ report ⟨⟩
    exact ⟨hs.length_requests, hpending⟩
  . intro s step hs hpending houtcome
    cases houtcome with
    | broken hcall =>
      intro report hresult
      contradiction
    | converged hcall hmissing =>
      rintro report ⟨⟩
      exact ⟨Progress.length_requests_of_invoke hs hcall, rfl⟩
    | stalled hcall hmissing hrepeat hlimit =>
      rintro report ⟨⟩
      refine ⟨Progress.length_requests_of_invoke hs hcall, ?_⟩
      dsimp only
      rw [requests_of_invoke hcall, lastPass_concat, hmissing]
      rfl
    | repeated hcall hmissing hrepeat hlimit =>
      dsimp only [Step.Meets]
      rw [requests_of_invoke hcall, lastPass_concat, hmissing]
    | stuck hcall hmissing hfails =>
      intro report hresult
      contradiction
    | progressed hcall hmissing hnew hdone =>
      dsimp only [Step.Meets]
      rw [requests_of_invoke hcall, lastPass_concat, hmissing]

def respelledSources : List String := [
  "./x.c:1:1: fatal error: a.h: No such file or directory\n"
    ++ "y.c:2:1: fatal error: a.h: No such file or directory\n"
    ++ "x.c:3:1: fatal error: ./a.h: No such file or directory\n"]

theorem close_pending_respelled :
    ∃ ending report pass,
      close .default 3 .ofTexts headerCopier .oneHeader respelledSources = some ending
        ∧ ending.result = .ok report
        ∧ (requests .default (answers .default 3 .ofTexts headerCopier .oneHeader
            respelledSources)).getLast? = some pass
        ∧ report.state = .building ∧ Pending pass report.pending
        ∧ (∃ p, PendingIndex.ofRequests? (dedupRequests pass) = some p ∧ p.Finds report.pending)
        ∧ report.pending.map (fun file => (file.path, file.unresolvedIncludes))
          = [("x.c", ["./a.h", "a.h"]), ("y.c", ["a.h"])] := by
  have hrun : (close .default 3 .ofTexts headerCopier .oneHeader respelledSources).any (fun ending =>
      match ending.result with
      | .error _ => false
      | .ok report => report.state == .building && report.iterations == 1
        && report.pending.map (fun file => (file.path, file.unresolvedIncludes))
          == [("x.c", ["./a.h", "a.h"]), ("y.c", ["a.h"])]) = true := by
    decide +kernel
  obtain ⟨ending, hclose, hending⟩ := (Option.any_eq_true _ _).mp hrun
  cases hresult : ending.result with
  | error e =>
    rw [hresult] at hending
    exact absurd hending Bool.false_ne_true
  | ok report =>
    rw [hresult] at hending
    simp only [Bool.and_eq_true, beq_iff_eq] at hending
    obtain ⟨⟨hstate, hiterations⟩, hshown⟩ := hending
    obtain ⟨hlength, hpending, _⟩ := close_pending hclose hresult
    have hne : requests .default (answers .default 3 .ofTexts headerCopier .oneHeader
        respelledSources) ≠ [] := by
      apply List.ne_nil_of_length_pos
      omega
    have hpass := List.getLast?_eq_some_getLast hne
    obtain ⟨hfiles, hfinds⟩ := hpending _ hpass (by simp [hstate])
    exact ⟨ending, report, _, hclose, hresult, hpass, hstate, hfiles, hfinds, hshown⟩

end Closure
end Graft
