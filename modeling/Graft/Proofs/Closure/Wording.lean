import Graft.Proofs.Closure.Answers
import Graft.Proofs.Diagnostics.Symbols
import Graft.Proofs.Tree.Files

/-!
This module contains what a closure run owes to the wording of its grammar: no more than how missing
headers are announced. Whatever a linker says, the run goes the same way, but for the number of
ambiguous lines that it reports.
-/

namespace Graft

namespace Grammar

def missingOn? (g : Grammar) (line : List Char) : Option MissingInclude :=
  match Diagnostics.classifyMissingInclude g line with
  | .event (.missingInclude request) => some request
  | _ => none

structure SameIncludes (g g' : Grammar) : Prop where
  errorMarkers : g'.errorMarkers = g.errorMarkers
  missingIncludeSuffixes : g'.missingIncludeSuffixes = g.missingIncludeSuffixes

theorem missingOn?_of_allBlank {g : Grammar} {line : List Char} (h : Text.AllBlank line) :
    g.missingOn? line = none := by
  have htrim : Text.trim line = [] := Text.trim_append_allBlank [] h
  unfold missingOn?
  split
  . next hclassify =>
    unfold Diagnostics.classifyMissingInclude at hclassify
    dsimp only at hclassify
    rw [htrim] at hclassify
    split at hclassify <;> cases hclassify
  . rfl

theorem missingIncludes_parseLine (g : Grammar) (followsBlank : Bool) (number : Nat)
    (line : List Char) :
    (g.parseLine followsBlank number line).missingIncludes = (g.missingOn? line).toList := by
  obtain ⟨others, hrecognizers, hothers⟩ : ∃ others, g.recognizers = .missingInclude :: others
      ∧ .missingInclude ∉ others := by
    unfold recognizers
    split
    . exact ⟨_, rfl, by decide⟩
    . exact ⟨_, rfl, by decide⟩
  have hsymbol : ∀ recognizer ∈ others, ∀ request,
      recognizer.classify g followsBlank line ≠ .event (.missingInclude request) := by
    intro recognizer hmem request hclassify
    cases recognizer with
    | missingInclude => contradiction
    | undefinedReference =>
      obtain ⟨_, hevent, _⟩ := Diagnostics.exists_word_of_classifyUndefinedReference hclassify
      cases hevent
    | blankSeparatedSymbol =>
      obtain ⟨_, hevent, _⟩ := Diagnostics.exists_word_of_classifyBlankSeparatedSymbol hclassify
      cases hevent
  have hfirst : Diagnostics.classifyMissingInclude g line
      = Recognizer.classify g followsBlank line .missingInclude := rfl
  unfold ParseReport.missingIncludes missingOn?
  rw [events_parseLine, hfirst]
  unfold eventOn?
  rw [hrecognizers, List.findSome?_cons]
  split
  . next event hevent =>
    split at hevent
    . next hclassify =>
      obtain ⟨request, rfl⟩ := Diagnostics.exists_request_of_classify hclassify
      cases hevent
      rw [hclassify]
      rfl
    . contradiction
  . next hnone =>
    split
    . next hclassify =>
      rw [hclassify] at hnone
      contradiction
    . rw [Option.toList_none, List.filterMap_eq_nil_iff]
      intro event hmem
      rw [Option.mem_toList] at hmem
      obtain ⟨recognizer, hrecognizer, hfound⟩ := List.exists_of_findSome?_eq_some hmem
      split at hfound
      . next hclassify =>
        cases hfound
        cases event with
        | missingInclude request =>
          exact absurd hclassify (hsymbol recognizer hrecognizer request)
        | undefinedSymbol => rfl
      . contradiction

theorem missingIncludes_parseLines (g : Grammar) (followsBlank : Bool) (number : Nat)
    (ls : List (List Char)) :
    (g.parseLines followsBlank number ls).missingIncludes = ls.filterMap g.missingOn? := by
  induction ls generalizing followsBlank number with
  | nil => rfl
  | cons line rest ih =>
    unfold parseLines
    split
    . next hblank =>
      rw [List.all_eq_true] at hblank
      rw [ih, List.filterMap_cons_none (missingOn?_of_allBlank hblank)]
    . have happend : ∀ a b : ParseReport,
          (a ++ b).missingIncludes = a.missingIncludes ++ b.missingIncludes :=
        fun a b => List.filterMap_append
      rw [happend, missingIncludes_parseLine, ih]
      cases hline : g.missingOn? line with
      | none => rw [List.filterMap_cons_none hline, Option.toList_none, List.nil_append]
      | some request =>
        rw [List.filterMap_cons_some hline, Option.toList_some, List.singleton_append]

theorem missingIncludes_parse (g : Grammar) (text : String) :
    (g.parse text).missingIncludes = (Text.lines text.toList).filterMap g.missingOn? := by
  apply missingIncludes_parseLines

theorem SameIncludes.missingIncludes_parse {g g' : Grammar} (h : g.SameIncludes g')
    (text : String) :
    (g'.parse text).missingIncludes = (g.parse text).missingIncludes := by
  have hline : g'.missingOn? = g.missingOn? := by
    funext line
    unfold missingOn? Diagnostics.classifyMissingInclude
    rw [h.errorMarkers, h.missingIncludeSuffixes]
  rw [Grammar.missingIncludes_parse, Grammar.missingIncludes_parse, hline]

end Grammar

def ClosureReport.uncounted (report : ClosureReport) : ClosureReport :=
  { report with ambiguousLines := 0 }

namespace Closure

variable {σ : Type}

def Progress.uncounted (s : Progress σ) : Progress σ :=
  { s with ambiguousLines := 0 }

def Ending.uncounted (ending : Ending σ) : Ending σ :=
  { ending with result := ending.result.map ClosureReport.uncounted }

def Step.uncounted : Step σ → Step σ
  | .done ending => .done ending.uncounted
  | .again s => .again s.uncounted

namespace Progress

theorem act_uncounted (k : Nat) (s : Progress σ) (missing : List MissingInclude) :
    (s.act k missing).uncounted = (s.uncounted.act k missing).uncounted := by
  unfold act handle
  dsimp only [uncounted]
  split
  . rfl
  . split
    . rfl
    . split
      . rfl
      . split
        . rfl
        . split <;> rfl

theorem pass_uncounted {g g' : Grammar} (h : g.SameIncludes g') (k : Nat) (tool : Tool σ)
    {s s' : Progress σ} (hs : s'.uncounted = s.uncounted) :
    (s'.pass g' k tool).uncounted = (s.pass g k tool).uncounted := by
  have hcount : ∀ {g' : Grammar}, g.SameIncludes g' → ∀ s : Progress σ,
      (s.pass g' k tool).uncounted = (s.uncounted.pass g k tool).uncounted := by
    intro g' h s
    unfold pass
    dsimp only [uncounted]
    split
    . rfl
    . rw [h.missingIncludes_parse, act_uncounted]
      conv_rhs => rw [act_uncounted]
      rfl
  rw [hcount h, hs, ← hcount ⟨rfl, rfl⟩]

/--
Two runs that have come equally far, but for what they have counted, end the same way.
-/
theorem run_uncounted {g g' : Grammar} (h : g.SameIncludes g') (k : Nat) (tool : Tool σ)
    (limit : Nat) {s s' : Progress σ} (hs : s'.uncounted = s.uncounted) :
    (s'.run g' k tool limit).map Ending.uncounted = (s.run g k tool limit).map Ending.uncounted := by
  induction limit generalizing s s' with
  | zero =>
    have hexhausted : tool.exhausted s'.tool = tool.exhausted s.tool :=
      congrArg (fun s => tool.exhausted s.tool) hs
    unfold run
    rw [hexhausted]
    split
    . exact congrArg (fun s => some (s.finish .building none)) hs
    . rfl
  | succ limit ih =>
    have hexhausted : tool.exhausted s'.tool = tool.exhausted s.tool :=
      congrArg (fun s => tool.exhausted s.tool) hs
    have hpass := pass_uncounted h k tool hs
    unfold run
    rw [hexhausted]
    split
    . exact congrArg (fun s => some (s.finish .building none)) hs
    . cases hstep : s.pass g k tool with
      | done ending =>
        cases hstep' : s'.pass g' k tool with
        | done ending' =>
          rw [hstep, hstep'] at hpass
          exact congrArg some (Step.done.inj hpass)
        | again s₁' =>
          rw [hstep, hstep'] at hpass
          contradiction
      | again s₁ =>
        cases hstep' : s'.pass g' k tool with
        | done ending' =>
          rw [hstep, hstep'] at hpass
          contradiction
        | again s₁' =>
          rw [hstep, hstep'] at hpass
          exact ih (Step.again.inj hpass)

end Progress

/--
However linkers announce undefined symbols: by two grammars that announce missing headers alike, a
run ends the same way on the same tree, with the same error or the same report but for the number of
ambiguous lines, and its tool is called just as often, with the same answers.
-/
theorem close_uncounted {g g' : Grammar} (hmarkers : g'.errorMarkers = g.errorMarkers)
    (hsuffixes : g'.missingIncludeSuffixes = g.missingIncludeSuffixes) (k : Nat) (tool : Tool σ)
    (m : Materializer) (t : Tree) (state : σ) :
    (close g' k tool m t state).map Ending.uncounted
        = (close g k tool m t state).map Ending.uncounted
      ∧ answers g' k tool m t state = answers g k tool m t state := by
  have hincludes : g.SameIncludes g' := ⟨hmarkers, hsuffixes⟩
  refine ⟨Progress.run_uncounted hincludes k tool passLimit rfl, ?_⟩
  have hmemory : ∀ g, answers g k tool m t state
      = (((close g k tool.recorded m t (state, [])).map Ending.uncounted).map (·.tool.2)).getD [] := by
    intro g
    unfold answers
    cases close g k tool.recorded m t (state, []) <;> rfl
  have hrecorded : (close g' k tool.recorded m t (state, [])).map Ending.uncounted
      = (close g k tool.recorded m t (state, [])).map Ending.uncounted :=
    Progress.run_uncounted hincludes k tool.recorded passLimit rfl
  rw [hmemory, hmemory, hrecorded]

def silentLinker : Grammar :=
  { Grammar.default with undefinedTokens := [], blankSeparatedSymbols := false }

def linkedTexts : List String :=
  ["ld: undefined reference\n" ++ String.join (missingTexts ["a.h"]), "cc -c x.c\n"]

theorem close_uncounted_silentLinker :
    silentLinker.errorMarkers = Grammar.default.errorMarkers
      ∧ silentLinker.missingIncludeSuffixes = Grammar.default.missingIncludeSuffixes
      ∧ (close silentLinker 1 .ofTexts headerCopier .oneHeader linkedTexts).map Ending.uncounted
          = (close .default 1 .ofTexts headerCopier .oneHeader linkedTexts).map Ending.uncounted
      ∧ answers silentLinker 1 .ofTexts headerCopier .oneHeader linkedTexts
          = answers .default 1 .ofTexts headerCopier .oneHeader linkedTexts
      ∧ ((close silentLinker 1 .ofTexts headerCopier .oneHeader linkedTexts).bind
          (·.result.toOption)).map (·.ambiguousLines) = some 0
      ∧ ((close .default 1 .ofTexts headerCopier .oneHeader linkedTexts).bind
          (·.result.toOption)).map (fun report => (report.state, report.ambiguousLines))
          = some (.converged, 1) := by
  have hmarkers : silentLinker.errorMarkers = Grammar.default.errorMarkers := rfl
  have hsuffixes : silentLinker.missingIncludeSuffixes = Grammar.default.missingIncludeSuffixes :=
    rfl
  obtain ⟨hends, hanswers⟩ :=
    close_uncounted hmarkers hsuffixes 1 .ofTexts headerCopier .oneHeader linkedTexts
  exact ⟨hmarkers, hsuffixes, hends, hanswers, by decide +kernel, by decide +kernel⟩

end Closure
end Graft
