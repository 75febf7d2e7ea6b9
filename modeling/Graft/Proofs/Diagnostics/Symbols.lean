import Graft.Diagnostics.Report
import Graft.Proofs.Text.Words

/-!
This module contains that the undefined symbols of a text are words: no recognizer takes white space
into a name.
-/

namespace Graft

theorem bareName_sublist (token : List Char) : (bareName token).Sublist token := by
  unfold bareName
  apply (Text.trim_sublist _).trans
  apply (Text.dropBothWhile_sublist _ _).trans
  apply (Text.dropEndWhile_sublist _ _).trans
  exact Text.trim_sublist token

theorem isWord_bareName {token : List Char} (h : Text.IsWord token) (hne : bareName token ≠ []) :
    Text.IsWord (bareName token) := by
  refine ⟨hne, ?_⟩
  intro c hc
  exact h.2 c ((bareName_sublist token).subset hc)

theorem Symbol.ofToken?_eq_some_iff {token : List Char} {symbol : Symbol} :
    ofToken? (.ofList token) = some symbol
      ↔
    bareName token ≠ [] ∧ ⟨.ofList (bareName token)⟩ = symbol := by
  unfold ofToken? stripDecoration
  dsimp only
  rw [String.toList_ofList, Option.ite_none_left_eq_some, Option.some_inj]
  simp

namespace Diagnostics

variable {g : Grammar} {followsBlank : Bool} {line : List Char} {event : Event}

theorem classifyMissingInclude_eq_event (h : classifyMissingInclude g line = .event event) :
    ∃ file message body, splitLocation? (Text.trim line) = some (file, message)
      ∧ afterMarker? g.errorMarkers message = some body
      ∧ headerName g.missingIncludeSuffixes body ≠ []
      ∧ event = .missingInclude
        ⟨.ofList (Text.trim file), .ofList (headerName g.missingIncludeSuffixes body)⟩ := by
  unfold classifyMissingInclude at h
  dsimp only at h
  split at h
  . cases h
  . split at h
    . cases h
    . next file message hlocation =>
      split at h
      . cases h
      . next body hbody =>
        split at h
        . cases h
        . next hheader =>
          cases h
          exact ⟨file, message, body, hlocation, hbody, mt List.isEmpty_iff.mpr hheader, rfl⟩

theorem classifyUndefinedReference_eq_event
    (h : classifyUndefinedReference g line = .event event) :
    ∃ token ∈ Text.words line, bareName token ≠ []
      ∧ event = .undefinedSymbol ⟨.ofList (bareName token)⟩ := by
  unfold classifyUndefinedReference at h
  dsimp only at h
  split at h
  . cases h
  . split at h
    . cases h
    . next last hlast =>
      split at h
      . cases h
      . split at h
        . next hsymbol =>
          cases h
          obtain ⟨hne, rfl⟩ := Symbol.ofToken?_eq_some_iff.mp hsymbol
          exact ⟨last, List.mem_of_getLast? hlast, hne, rfl⟩
        . cases h

theorem classifyBlankSeparatedSymbol_eq_event
    (h : classifyBlankSeparatedSymbol followsBlank line = .event event) :
    ∃ token ∈ Text.words line, isSymbolLike (bareName token) = true
      ∧ event = .undefinedSymbol ⟨.ofList (bareName token)⟩ := by
  unfold classifyBlankSeparatedSymbol at h
  split at h
  . cases h
  . split at h
    . cases h
    . next token htoken =>
      split at h
      . cases h
      . dsimp only at h
        split at h
        . cases h
        . next hlike =>
          cases h
          rw [Bool.or_eq_true, Bool.not_eq_true', not_or, Bool.not_eq_false] at hlike
          exact ⟨token, List.mem_of_getElem? htoken, hlike.1, rfl⟩

theorem ne_nil_of_isSymbolLike {name : List Char} (h : isSymbolLike name = true) : name ≠ [] := by
  rintro rfl
  contradiction

theorem exists_request_of_classify (h : classifyMissingInclude g line = .event event) :
    ∃ request, event = .missingInclude request := by
  obtain ⟨_, _, _, _, _, _, rfl⟩ := classifyMissingInclude_eq_event h
  exact ⟨_, rfl⟩

theorem exists_word_of_bareName {token : List Char} (htoken : token ∈ Text.words line)
    (hne : bareName token ≠ []) :
    ∃ symbol, Event.undefinedSymbol ⟨.ofList (bareName token)⟩ = .undefinedSymbol symbol
      ∧ Text.IsWord symbol.name.toList := by
  refine ⟨_, rfl, ?_⟩
  rw [String.toList_ofList]
  exact isWord_bareName (Text.isWord_of_mem_words htoken) hne

theorem exists_word_of_classifyUndefinedReference
    (h : classifyUndefinedReference g line = .event event) :
    ∃ symbol, event = .undefinedSymbol symbol ∧ Text.IsWord symbol.name.toList := by
  obtain ⟨token, htoken, hne, rfl⟩ := classifyUndefinedReference_eq_event h
  exact exists_word_of_bareName htoken hne

theorem exists_word_of_classifyBlankSeparatedSymbol
    (h : classifyBlankSeparatedSymbol followsBlank line = .event event) :
    ∃ symbol, event = .undefinedSymbol symbol ∧ Text.IsWord symbol.name.toList := by
  obtain ⟨token, htoken, hlike, rfl⟩ := classifyBlankSeparatedSymbol_eq_event h
  exact exists_word_of_bareName htoken (ne_nil_of_isSymbolLike hlike)

end Diagnostics

theorem Recognizer.isWord_of_classify {g : Grammar} {followsBlank : Bool} {line : List Char}
    {recognizer : Recognizer} {symbol : Symbol}
    (h : recognizer.classify g followsBlank line = .event (.undefinedSymbol symbol)) :
    Text.IsWord symbol.name.toList := by
  cases recognizer with
  | missingInclude =>
    obtain ⟨request, hevent⟩ := Diagnostics.exists_request_of_classify h
    cases hevent
  | undefinedReference =>
    obtain ⟨symbol, hevent, hword⟩ := Diagnostics.exists_word_of_classifyUndefinedReference h
    cases hevent
    exact hword
  | blankSeparatedSymbol =>
    obtain ⟨symbol, hevent, hword⟩ := Diagnostics.exists_word_of_classifyBlankSeparatedSymbol h
    cases hevent
    exact hword

namespace Grammar

theorem events_parseLine (g : Grammar) (followsBlank : Bool) (number : Nat) (line : List Char) :
    (g.parseLine followsBlank number line).events = (g.eventOn? followsBlank line).toList := by
  unfold parseLine
  split
  . next heq =>
    rw [heq]
    rfl
  . next heq =>
    rw [heq]
    split <;> rfl

theorem exists_classify_of_mem_parseLines {g : Grammar} {followsBlank : Bool} {number : Nat}
    {lines : List (List Char)} {event : Event}
    (h : event ∈ (g.parseLines followsBlank number lines).events) :
    ∃ recognizer followsBlank line, line ∈ lines
      ∧ Recognizer.classify g followsBlank line recognizer = .event event := by
  induction lines generalizing followsBlank number with
  | nil => contradiction
  | cons line lines ih =>
    unfold parseLines at h
    split at h
    . obtain ⟨recognizer, followsBlank, line', hline, hevent⟩ := ih h
      exact ⟨recognizer, followsBlank, line', List.mem_cons_of_mem _ hline, hevent⟩
    . rcases List.mem_append.mp h with h | h
      . rw [events_parseLine, Option.mem_toList] at h
        obtain ⟨recognizer, _, hrecognizer⟩ := List.exists_of_findSome?_eq_some h
        refine ⟨recognizer, followsBlank, line, List.mem_cons_self, ?_⟩
        split at hrecognizer
        . next hevent =>
          cases hrecognizer
          exact hevent
        . contradiction
      . obtain ⟨recognizer, followsBlank, line', hline, hevent⟩ := ih h
        exact ⟨recognizer, followsBlank, line', List.mem_cons_of_mem _ hline, hevent⟩

theorem isWord_of_mem_undefinedSymbols {g : Grammar} {text : String} {symbol : Symbol}
    (h : symbol ∈ (g.parse text).undefinedSymbols) :
    Text.IsWord symbol.name.toList := by
  unfold ParseReport.undefinedSymbols at h
  obtain ⟨event, hevent, hsymbol⟩ := List.mem_filterMap.mp h
  split at hsymbol
  . contradiction
  . cases hsymbol
    obtain ⟨_, _, _, _, hclassify⟩ := exists_classify_of_mem_parseLines hevent
    exact Recognizer.isWord_of_classify hclassify

end Grammar
end Graft
