import Graft.Closure.Report
import Graft.Diagnostics.Report
import Graft.Distinct
import Graft.Tool

/-!
This module contains the closure of the target tree under its includes: build, read which headers are
missing, copy them from the donor tree, and build again.
-/

namespace Graft

def MissingInclude.pair (request : MissingInclude) : String × String :=
  (request.sourceFile, request.header)

namespace Closure

def defaultStallThreshold : Nat := 3

/--
What is carried from pass to pass.
-/
structure Progress (σ : Type) where
  materializer : Materializer
  tree : Tree
  tool : σ
  /-- The headers that were requested so far, in the spelling of the request. -/
  seen : List String := []
  /-- The number of passes since the last one with a new header. -/
  repeatPasses : Nat := 0
  iterations : Nat := 0
  ambiguousLines : Nat := 0
  /-- The files that missed headers on the last pass. -/
  pending : List SourceFile := []

/--
How a run ended, and what it leaves behind.
-/
structure Ending (σ : Type) where
  result : Except ClosureError ClosureReport
  materializer : Materializer
  tree : Tree
  tool : σ

inductive Step (σ : Type) where
  | done (ending : Ending σ)
  | again (progress : Progress σ)

/--
Add a missing header to the file that misses it. A new file comes last.
-/
def addPending (request : MissingInclude) : List SourceFile → List SourceFile
  | [] => [(SourceFile.ofPath request.sourceFile .target).addUnresolvedInclude request.header]
  | file :: files =>
    if file.path = SourcePath.normalize request.sourceFile then
      file.addUnresolvedInclude request.header :: files
    else file :: addPending request files

def pendingFiles (requests : List MissingInclude) : List SourceFile :=
  requests.foldl (fun files request => addPending request files) []

/--
The requests without repetitions. What counts are the file and the header as spelled.
-/
def dedupRequests (requests : List MissingInclude) : List MissingInclude :=
  newBy (·.pair) [] requests

/--
What is carried from request to request of one pass.
-/
structure Handling where
  materializer : Materializer
  tree : Tree
  /-- The headers that were requested on this pass or an earlier one. -/
  seen : List String
  /-- The headers that were requested on this pass. -/
  thisPass : List String := []
  progressed : Bool := false
  /-- The first request on this pass for a header of an earlier one. -/
  firstRepeat : Option MissingInclude := none

namespace Handling

/--
Handle one request. Only a header that was never requested before is copied.
-/
def step (iteration : Nat) (h : Handling) (request : MissingInclude) :
    Except ClosureError Unit × Handling :=
  if request.header ∈ h.thisPass then (.ok (), h)
  else
    let h := { h with thisPass := h.thisPass ++ [request.header] }
    if request.header ∈ h.seen then
      (.ok (), { h with firstRepeat := h.firstRepeat.or (some request) })
    else
      match h.materializer.materialize h.tree request iteration with
      | (.error e, materializer, tree) => (.error e, { h with materializer, tree })
      | (.ok _, materializer, tree) => (.ok (), { h with
          materializer
          tree
          seen := h.seen ++ [request.header]
          progressed := true })

/--
Handle requests in order, up to the first one that fails.
-/
def steps (iteration : Nat) (h : Handling) :
    List MissingInclude → Except ClosureError Unit × Handling
  | [] => (.ok (), h)
  | request :: rest =>
    match h.step iteration request with
    | (.error e, h) => (.error e, h)
    | (.ok (), h) => h.steps iteration rest

end Handling

namespace Progress

variable {σ : Type}

def fail (s : Progress σ) (e : ClosureError) : Ending σ :=
  ⟨.error e, s.materializer, s.tree, s.tool⟩

def finish (s : Progress σ) (state : ClosureState) (stalled : Option StallInfo) : Ending σ :=
  ⟨.ok {
    state
    iterations := s.iterations
    materialized := s.materializer.log
    stalled
    pending := s.pending
    ambiguousLines := s.ambiguousLines }, s.materializer, s.tree, s.tool⟩

/--
Act on the requests of a pass. The pass makes progress if one of them is for a new header; if too many
passes do not, the run stalls on the first header that was requested again.
-/
def handle (stallThreshold : Nat) (s : Progress σ) (requests : List MissingInclude) : Step σ :=
  let s := { s with pending := pendingFiles requests }
  match Handling.steps s.iterations ⟨s.materializer, s.tree, s.seen, [], false, none⟩ requests with
  | (.error e, h) => .done ({ s with materializer := h.materializer, tree := h.tree }.fail e)
  | (.ok (), h) =>
    let s := { s with materializer := h.materializer, tree := h.tree, seen := h.seen }
    if h.progressed then .again { s with repeatPasses := 0 }
    else
      let s := { s with repeatPasses := s.repeatPasses + 1 }
      match h.firstRepeat with
      | none => .again s
      | some request =>
        if stallThreshold ≤ s.repeatPasses then
          .done (s.finish .stalled
            (some ⟨request.header, request.sourceFile, s.iterations, s.repeatPasses⟩))
        else .again s

/--
Act on what a pass misses. The run is over if that is nothing.
-/
def act (stallThreshold : Nat) (s : Progress σ) (missing : List MissingInclude) : Step σ :=
  match dedupRequests missing with
  | [] => .done ({ s with pending := [] }.finish .converged none)
  | requests => s.handle stallThreshold requests

/--
One pass: call the tool in the target tree, read its output, act on it.
-/
def pass (g : Grammar) (stallThreshold : Nat) (tool : Tool σ) (s : Progress σ) : Step σ :=
  let s := { s with iterations := s.iterations + 1 }
  match tool.invoke s.tool s.materializer.targetRoot s.tree with
  | (.error cause, state, tree) =>
    .done ({ s with tool := state, tree }.fail (.tool s.iterations cause.message))
  | (.ok output, state, tree) =>
    let parsed := g.parse output.text
    { s with
      tool := state
      tree
      ambiguousLines := s.ambiguousLines + parsed.ambiguous.length }.act
      stallThreshold parsed.missingIncludes

/--
Up to `limit` passes. Nothing comes back if the run is not over by then.
-/
def run (g : Grammar) (stallThreshold : Nat) (tool : Tool σ) :
    Nat → Progress σ → Option (Ending σ)
  | 0, s => if tool.exhausted s.tool then some (s.finish .building none) else none
  | limit + 1, s =>
    if tool.exhausted s.tool then some (s.finish .building none)
    else
      match s.pass g stallThreshold tool with
      | .done ending => some ending
      | .again s => run g stallThreshold tool limit s

end Progress

/--
The largest number of passes, which are counted in 64 bits.
-/
def passLimit : Nat := 0xffffffffffffffff

/--
Build and copy headers until nothing is missing, nothing new is missing or the tool is used up.
-/
def close (g : Grammar) (stallThreshold : Nat) (tool : Tool σ) (m : Materializer) (t : Tree)
    (state : σ) : Option (Ending σ) :=
  Progress.run g stallThreshold tool passLimit { materializer := m, tree := t, tool := state }

end Closure
end Graft
