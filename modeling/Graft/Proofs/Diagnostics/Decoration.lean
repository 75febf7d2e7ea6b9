import Graft.Proofs.Diagnostics.Printed
import Graft.Proofs.Text.Layers
import Graft.Text.WordChar
import Mathlib.Tactic.TFAE

/-!
This module contains which tokens lose all of their decoration: those with a single layer of each
kind. What is left of any other token still has some, and so have the names that are read from it.
-/

namespace Graft

/--
A name with nothing at its ends that a message puts around names.
-/
structure IsPlain (name : List Char) : Prop where
  blank : Text.IsBare Text.isBlank name
  quote : Text.IsBare isQuote name
  sentenceEnd : name.getLast?.all (!isSentenceEnd ·)

instance (name : List Char) : Decidable (IsPlain name) :=
  decidable_of_iff (Text.IsBare Text.isBlank name ∧ Text.IsBare isQuote name
      ∧ name.getLast?.all (!isSentenceEnd ·))
    ⟨fun h => ⟨h.1, h.2.1, h.2.2⟩, fun h => ⟨h.blank, h.quote, h.sentenceEnd⟩⟩

/--
A token that has a name in it, behind white space, quotes and white space again, and in front of white
space, quotes, punctuation and white space again.
-/
def Wraps (token name : List Char) : Prop :=
  ∃ front back, token = front ++ (name ++ back)
    ∧ Text.Layered [Text.isBlank, isQuote, Text.isBlank] front
    ∧ Text.Layered [Text.isBlank, isQuote, isSentenceEnd, Text.isBlank] back

section

variable {token name : List Char}

theorem wraps_bareName (token : List Char) : Wraps token (bareName token) := by
  have hpunctuation : Text.trim token
      = Text.dropEndWhile isSentenceEnd (Text.trim token)
        ++ (Text.trim token).rtakeWhile isSentenceEnd :=
    List.rdropWhile_append_rtakeWhile.symm
  obtain ⟨before, after, htoken, hbefore, hafter⟩ := Text.exists_trim token
  obtain ⟨opening, closing, hquoted, hopening, hclosing⟩ :=
    Text.exists_dropBothWhile isQuote (Text.dropEndWhile isSentenceEnd (Text.trim token))
  obtain ⟨left, right, hinside, hleft, hright⟩ := Text.exists_trim
    (Text.dropBothWhile isQuote (Text.dropEndWhile isSentenceEnd (Text.trim token)))
  refine ⟨before ++ (opening ++ left), right ++ (closing ++
    ((Text.trim token).rtakeWhile isSentenceEnd ++ after)), ?_, ?_, ?_⟩
  . conv_lhs => rw [htoken, hpunctuation, hquoted, hinside]
    simp only [bareName, List.append_assoc]
  . exact .cons hbefore (.cons hopening (.single hleft))
  . exact .cons hright (.cons hclosing
      (.cons (fun _ => List.mem_rtakeWhile_imp) (.single hafter)))

theorem bareName_of_wraps_nil (h : Wraps token []) : bareName token = [] := by
  obtain ⟨front, back, rfl, hfront, hback⟩ := h
  have htoken : Text.Layered (Text.isBlank ::
      ([isQuote, Text.isBlank, Text.isBlank, isQuote, isSentenceEnd] ++ [Text.isBlank]))
      (front ++ ([] ++ back)) := hfront.append hback
  have htrimmed : Text.Layered
      ([isQuote, Text.isBlank, Text.isBlank, isQuote] ++ [isSentenceEnd]) _ :=
    htoken.dropBothWhile
  have hquoted : Text.Layered (isQuote :: ([Text.isBlank, Text.isBlank] ++ [isQuote])) _ :=
    htrimmed.dropEndWhile
  have hinside : Text.Layered (Text.isBlank :: ([] ++ [Text.isBlank])) _ := hquoted.dropBothWhile
  exact hinside.dropBothWhile.eq_nil

theorem bareName_of_wraps (hplain : IsPlain name) (h : Wraps token name) :
    bareName token = name := by
  by_cases hne : name = []
  . subst hne
    exact bareName_of_wraps_nil h
  . obtain ⟨front, back, rfl, hfront, hback⟩ := h
    have hfront' := hfront.dropWhile.dropWhile.dropWhile.eq_nil
    have htrimmed : Text.Layered ([Text.isBlank, isQuote] ++ [isSentenceEnd]) _ :=
      Text.Layered.dropEndWhile (show Text.Layered ([_, _, _] ++ [_]) _ from hback)
    have hquoted : Text.Layered ([Text.isBlank] ++ [isQuote]) _ := htrimmed.dropEndWhile
    have hinside : Text.Layered ([] ++ [Text.isBlank]) _ := hquoted.dropEndWhile
    have hback' := hinside.dropEndWhile.eq_nil
    have htrim : ∀ front back, Text.trim (front ++ (name ++ back))
        = front.dropWhile Text.isBlank ++ (name ++ Text.dropEndWhile Text.isBlank back) :=
      Text.dropBothWhile_append_bare hne hplain.blank
    unfold bareName
    rw [htrim, Text.dropEndWhile_append_bare hne hplain.sentenceEnd,
      Text.dropBothWhile_append_bare hne hplain.quote, htrim, hfront', hback', List.append_nil,
      List.nil_append]

theorem isPlain_of_bareName_eq_self (h : bareName name = name) : IsPlain name := by
  have hblank := Text.trim_sublist name
  have hend := Text.dropEndWhile_sublist isSentenceEnd (Text.trim name)
  have hquote := Text.dropBothWhile_sublist isQuote
    (Text.dropEndWhile isSentenceEnd (Text.trim name))
  have hinside := Text.trim_sublist (Text.dropBothWhile isQuote
    (Text.dropEndWhile isSentenceEnd (Text.trim name)))
  have hlength : (bareName name).length = name.length := by rw [h]
  unfold bareName at hlength
  have := hblank.length_le
  have := hend.length_le
  have := hquote.length_le
  have := hinside.length_le
  have hblank' := hblank.eq_of_length (by omega)
  have hend' := hend.eq_of_length (by omega)
  have hquote' := hquote.eq_of_length (by omega)
  refine ⟨Text.isBare_of_trim_eq_self hblank', ?_, ?_⟩
  . rw [← hblank', ← hend', ← hquote']
    apply Text.isBare_dropBothWhile
  . rw [← hblank', ← hend']
    apply Text.all_getLast?_dropEndWhile

theorem bareName_bareName_iff :
    bareName (bareName token) = bareName token ↔ IsPlain (bareName token) := by
  constructor
  . exact isPlain_of_bareName_eq_self
  . intro h
    exact bareName_eq_self h.blank h.quote h.sentenceEnd

theorem isPlain_bareName_iff :
    IsPlain (bareName token) ↔ ∃ name, IsPlain name ∧ Wraps token name := by
  constructor
  . intro h
    exact ⟨_, h, wraps_bareName token⟩
  . rintro ⟨name, hplain, hwraps⟩
    rw [bareName_of_wraps hplain hwraps]
    exact hplain

end

namespace Diagnostics

theorem suffix_of_afterNumber? {cs rest : List Char} (h : afterNumber? cs = some rest) :
    rest <:+ cs := by
  unfold afterNumber? at h
  rw [Option.ite_none_left_eq_some] at h
  have hrest := Text.stripStart?_eq_some_iff.mp h.2
  apply List.IsSuffix.trans _ (List.dropWhile_suffix Text.isDigit)
  rw [hrest]
  exact List.suffix_append _ _

theorem suffix_of_splitLocation? {line file message : List Char}
    (h : splitLocation? line = some (file, message)) : message <:+ line := by
  unfold splitLocation? at h
  dsimp only at h
  rw [Option.ite_none_left_eq_some] at h
  obtain ⟨rest, hrest, h⟩ := Option.bind_eq_some_iff.mp h.2
  obtain ⟨behind, hbehind, h⟩ := Option.bind_eq_some_iff.mp h
  rw [Option.ite_none_left_eq_some, Option.some_inj, Prod.mk.injEq] at h
  have hcolumn : (afterNumber? behind).getD behind <:+ behind := by
    cases hcolumn : afterNumber? behind with
    | none => exact List.suffix_rfl
    | some rest => exact suffix_of_afterNumber? hcolumn
  have hline : rest <:+ line := by
    apply List.IsSuffix.trans _ (List.dropWhile_suffix (· != ':'))
    rw [Text.stripStart?_eq_some_iff.mp hrest]
    exact List.suffix_append _ _
  rw [← h.2.2]
  apply (List.dropWhile_suffix Text.isBlank).trans
  exact hcolumn.trans ((suffix_of_afterNumber? hbehind).trans hline)

theorem prefix_of_beforeSuffix? {suffixes : List String} {cs front : List Char}
    (h : beforeSuffix? suffixes cs = some front) : front <+: cs := by
  obtain ⟨suffix, -, hsuffix⟩ := List.exists_of_findSome?_eq_some h
  rw [Text.stripEnd?_eq_some_iff.mp hsuffix]
  exact List.prefix_append _ _

theorem suffix_of_afterMarker? {markers : List String} {cs rest : List Char}
    (h : afterMarker? markers cs = some rest) : rest <:+ cs := by
  obtain ⟨marker, -, hmarker⟩ := List.exists_of_findSome?_eq_some h
  rw [Text.stripStart?_eq_some_iff.mp hmarker]
  exact List.suffix_append _ _

theorem exists_token_of_headerName {suffixes : List String} {body : List Char}
    (h : headerName suffixes body ≠ []) :
    ∃ token, token <:+: body ∧ headerName suffixes body = bareName token := by
  unfold headerName at h ⊢
  split
  . next front hfront =>
    refine ⟨_, ?_, rfl⟩
    apply (Text.dropEndWhile_isPrefix _ _).isInfix.trans
    apply (Text.trim_isInfix front).trans
    exact (prefix_of_beforeSuffix? hfront).isInfix.trans (Text.trim_isInfix body)
  . next hnone =>
    rw [hnone] at h
    contradiction

end Diagnostics

def Event.name : Event → String
  | .missingInclude request => request.header
  | .undefinedSymbol symbol => symbol.name

def Event.NamedOn (event : Event) (line : List Char) : Prop :=
  ∃ token : String, token.toList <:+: line ∧ event.name = stripDecoration token ∧ event.name ≠ ""

theorem Event.namedOn_of_bareName {event : Event} {line token : List Char} (htoken : token <:+: line)
    (hne : bareName token ≠ []) (hname : event.name = .ofList (bareName token)) :
    event.NamedOn line := by
  refine ⟨.ofList token, ?_, ?_, ?_⟩
  . rwa [String.toList_ofList]
  . rw [hname, stripDecoration, String.toList_ofList]
  . rw [hname]
    simpa using hne

namespace Diagnostics

variable {g : Grammar} {followsBlank : Bool} {line : List Char} {event : Event}

theorem namedOn_of_classifyMissingInclude (h : classifyMissingInclude g line = .event event) :
    event.NamedOn line := by
  obtain ⟨file, message, body, hlocation, hbody, hheader, rfl⟩ := classifyMissingInclude_eq_event h
  obtain ⟨token, htoken, hname⟩ := exists_token_of_headerName hheader
  rw [hname] at hheader ⊢
  have hbody' : body <:+: line := by
    apply (suffix_of_afterMarker? hbody).isInfix.trans
    exact (suffix_of_splitLocation? hlocation).isInfix.trans (Text.trim_isInfix line)
  exact Event.namedOn_of_bareName (htoken.trans hbody') hheader rfl

theorem namedOn_of_classifyUndefinedReference
    (h : classifyUndefinedReference g line = .event event) : event.NamedOn line := by
  obtain ⟨token, htoken, hne, rfl⟩ := classifyUndefinedReference_eq_event h
  exact Event.namedOn_of_bareName (Text.isInfix_of_mem_words htoken) hne rfl

theorem isBlank_of_isAlphanum {c : Char} (h : c.isAlphanum = true) : Text.isBlank c = false := by
  have := Text.toNat_of_isAlphanum h
  rw [← Bool.not_eq_true]
  simp only [Text.isBlank, Bool.or_eq_true, Bool.and_eq_true, decide_eq_true_eq, beq_iff_eq]
  omega

theorem not_decoration_of_symbolChar {c : Char}
    (h : (c.isAlphanum || c == '_' || c == '.' || c == '$' || c == '@') = true) :
    Text.isBlank c = false ∧ isQuote c = false ∧ isSentenceEnd c = false := by
  simp only [Bool.or_eq_true, beq_iff_eq] at h
  rcases h with (((h | rfl) | rfl) | rfl) | rfl
  . refine ⟨isBlank_of_isAlphanum h, ?_, ?_⟩
    . rw [← Bool.not_eq_true]
      intro hquote
      simp only [isQuote, Bool.or_eq_true, beq_iff_eq] at hquote
      rcases hquote with (((rfl | rfl) | rfl) | rfl) | rfl <;> contradiction
    . rw [← Bool.not_eq_true]
      intro hend
      simp only [isSentenceEnd, Bool.or_eq_true, beq_iff_eq] at hend
      rcases hend with (rfl | rfl) | rfl <;> contradiction
  all_goals decide

theorem isPlain_of_isSymbolLike {name : List Char} (h : isSymbolLike name = true) :
    IsPlain name := by
  have hchars : ∀ c ∈ name, Text.isBlank c = false ∧ isQuote c = false ∧ isSentenceEnd c = false := by
    cases name with
    | nil => contradiction
    | cons first rest =>
      unfold isSymbolLike at h
      rw [Bool.and_eq_true, List.all_eq_true] at h
      intro c hc
      rcases List.mem_cons.mp hc with rfl | hc
      . apply not_decoration_of_symbolChar
        have hfirst := h.1
        simp only [Bool.or_eq_true, Char.isAlphanum] at hfirst ⊢
        tauto
      . exact not_decoration_of_symbolChar (h.2 c hc)
  exact ⟨Text.isBare_of_forall fun c hc => (hchars c hc).1,
    Text.isBare_of_forall fun c hc => (hchars c hc).2.1,
    (Text.isBare_of_forall fun c hc => (hchars c hc).2.2).2⟩

theorem namedOn_of_classifyBlankSeparatedSymbol
    (h : classifyBlankSeparatedSymbol followsBlank line = .event event) :
    event.NamedOn line ∧ IsPlain event.name.toList := by
  obtain ⟨token, htoken, hlike, rfl⟩ := classifyBlankSeparatedSymbol_eq_event h
  constructor
  . have hne := ne_nil_of_isSymbolLike hlike
    exact Event.namedOn_of_bareName (Text.isInfix_of_mem_words htoken) hne rfl
  . rw [Event.name, String.toList_ofList]
    exact isPlain_of_isSymbolLike hlike

end Diagnostics

theorem Recognizer.namedOn_of_classify {g : Grammar} {followsBlank : Bool} {line : List Char}
    {recognizer : Recognizer} {event : Event}
    (h : recognizer.classify g followsBlank line = .event event) : event.NamedOn line := by
  cases recognizer with
  | missingInclude => exact Diagnostics.namedOn_of_classifyMissingInclude h
  | undefinedReference => exact Diagnostics.namedOn_of_classifyUndefinedReference h
  | blankSeparatedSymbol => exact (Diagnostics.namedOn_of_classifyBlankSeparatedSymbol h).1

theorem Grammar.namedOn_of_mem_events {g : Grammar} {text : String} {event : Event}
    (h : event ∈ (g.parse text).events) :
    ∃ line ∈ Text.lines text.toList, event.NamedOn line := by
  obtain ⟨_, _, line, hline, hclassify⟩ := exists_classify_of_mem_parseLines h
  exact ⟨line, hline, Recognizer.namedOn_of_classify hclassify⟩

/--
A token becomes a plain name exactly if it is a plain name with one layer of each kind of decoration,
and then the name is that one; otherwise it still loses something when it is stripped again. The names
in a report are what stripping leaves of parts of lines, so that they are plain on the same condition;
behind a blank line they always are.
-/
theorem plain_iff_wraps (token : String) (g : Grammar) (text : String) :
    [stripDecoration (stripDecoration token) = stripDecoration token,
      IsPlain (stripDecoration token).toList,
      ∃ name, IsPlain name ∧ Wraps token.toList name].TFAE
    ∧ (∀ name, IsPlain name → Wraps token.toList name → stripDecoration token = .ofList name)
    ∧ Text.IsBare Text.isBlank (stripDecoration token).toList
    ∧ (∀ event ∈ (g.parse text).events, ∃ line ∈ Text.lines text.toList, event.NamedOn line)
    ∧ ∀ followsBlank line event,
      Diagnostics.classifyBlankSeparatedSymbol followsBlank line = .event event →
      IsPlain event.name.toList := by
  have hstripped : (stripDecoration token).toList = bareName token.toList := String.toList_ofList
  refine ⟨?_, ?_, ?_, fun _ => Grammar.namedOn_of_mem_events,
    fun _ _ _ h => (Diagnostics.namedOn_of_classifyBlankSeparatedSymbol h).2⟩
  . tfae_have 1 ↔ 2 := by
      rw [← String.toList_inj, stripDecoration, String.toList_ofList, hstripped]
      exact bareName_bareName_iff
    tfae_have 2 ↔ 3 := by
      rw [hstripped]
      exact isPlain_bareName_iff
    tfae_finish
  . intro name hplain hwraps
    rw [stripDecoration, bareName_of_wraps hplain hwraps]
  . rw [hstripped]
    exact Text.isBare_trim _

theorem plain_iff_wraps_quoted :
    (IsPlain "mbuf_alloc".toList ∧ Wraps "\x60mbuf_alloc',".toList "mbuf_alloc".toList
      ∧ stripDecoration "\x60mbuf_alloc'," = .ofList "mbuf_alloc".toList)
    ∧ (.undefinedSymbol ⟨"mbuf_alloc"⟩
        ∈ (Grammar.default.parse "if.o: undefined reference to \x60mbuf_alloc',").events
      ∧ ∃ line ∈ Text.lines "if.o: undefined reference to \x60mbuf_alloc',".toList,
        (Event.undefinedSymbol ⟨"mbuf_alloc"⟩).NamedOn line)
    ∧ Diagnostics.classifyBlankSeparatedSymbol true "U mbuf_alloc,".toList
        = .event (.undefinedSymbol ⟨"mbuf_alloc"⟩)
      ∧ IsPlain (Event.undefinedSymbol ⟨"mbuf_alloc"⟩).name.toList := by
  have hplain : IsPlain "mbuf_alloc".toList := by decide
  have hwraps : Wraps "\x60mbuf_alloc',".toList "mbuf_alloc".toList := by
    have hfront : Text.Layered [Text.isBlank, isQuote, Text.isBlank] ([] ++ (['\x60'] ++ [])) :=
      .cons (by simp) (.cons (by simp [isQuote]) (.single (by simp)))
    have hback : Text.Layered [Text.isBlank, isQuote, isSentenceEnd, Text.isBlank]
        ([] ++ (['\''] ++ ([','] ++ []))) :=
      .cons (by simp) (.cons (by simp [isQuote]) (.cons (by simp [isSentenceEnd])
        (.single (by simp))))
    exact ⟨_, _, rfl, hfront, hback⟩
  have hevent : .undefinedSymbol ⟨"mbuf_alloc"⟩
      ∈ (Grammar.default.parse "if.o: undefined reference to \x60mbuf_alloc',").events := by
    decide +kernel
  have hblank : Diagnostics.classifyBlankSeparatedSymbol true "U mbuf_alloc,".toList
      = .event (.undefinedSymbol ⟨"mbuf_alloc"⟩) := by
    decide +kernel
  obtain ⟨-, hstripped, -, hnamed, hline⟩ := plain_iff_wraps "\x60mbuf_alloc'," Grammar.default
    "if.o: undefined reference to \x60mbuf_alloc',"
  exact ⟨⟨hplain, hwraps, hstripped _ hplain hwraps⟩, ⟨hevent, hnamed _ hevent⟩, hblank,
    hline _ _ _ hblank⟩

/--
A comma inside the quotes stays, and one name is two symbols.
-/
theorem not_plain_comma_in_quotes :
    stripDecoration "'a,'" = "a," ∧ stripDecoration (stripDecoration "'a,'") = "a"
      ∧ ¬ IsPlain (stripDecoration "'a,'").toList
      ∧ (Grammar.default.parse
          "if.o: undefined reference to 'a,'\nif.o: undefined reference to 'a',").undefinedSymbols
        = [⟨"a,"⟩, ⟨"a"⟩] := by
  decide +kernel

end Graft
