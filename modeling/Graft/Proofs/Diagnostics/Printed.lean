import Graft.Proofs.Diagnostics.Symbols

/-!
This module contains the diagnostics that compilers and linkers print and that each of them, printed
on a line of its own, is read back as the event that it tells.
-/

namespace Graft

/--
A diagnostic by its wording. The line, the column and the location are read over.
-/
inductive Printed where
  /-- `<file>:<line>[:<column>]: [fatal ]error: <header>: No such file or directory` -/
  | gcc (file line : String) (column? : Option String) (fatal : Bool) (header : String)
  /-- `<file>:<line>:<column>: fatal error: '<header>' file not found` -/
  | clang (file line column header : String)
  /-- ``<location> undefined reference to `<symbol>'`` -/
  | ld (location symbol : String)
  deriving DecidableEq, Repr

namespace Printed

def located (file line : String) (column? : Option String) (message : String) : String :=
  file ++ ":" ++ line ++ (column?.elim "" (":" ++ ·)) ++ ": " ++ message

def text : Printed → String
  | gcc file line column? fatal header =>
    located file line column?
      ((if fatal then "fatal error:" else "error:") ++ " " ++ header
        ++ ": No such file or directory")
  | clang file line column header =>
    located file line (some column) ("fatal error: '" ++ header ++ "' file not found")
  | ld location symbol => location ++ " undefined reference to \x60" ++ symbol ++ "'"

def event : Printed → Event
  | gcc file _ _ _ header => .missingInclude ⟨file, header⟩
  | clang file _ _ header => .missingInclude ⟨file, header⟩
  | ld _ symbol => .undefinedSymbol ⟨symbol⟩

def IsFile (file : List Char) : Prop :=
  file ≠ [] ∧ ':' ∉ file ∧ '\n' ∉ file ∧ Text.IsBare Text.isBlank file

def IsNumber (number : List Char) : Prop :=
  number ≠ [] ∧ ∀ c ∈ number, Text.isDigit c = true

def IsHeader (header : List Char) : Prop :=
  header ≠ [] ∧ '\n' ∉ header ∧ Text.IsBare Text.isBlank header ∧ Text.IsBare isQuote header
    ∧ header.getLast?.all (!isSentenceEnd ·)

def IsSymbol (symbol : List Char) : Prop :=
  Text.IsWord symbol ∧ Text.IsBare isQuote symbol

def WellFormed : Printed → Prop
  | gcc file line column? _ header =>
    IsFile file.toList ∧ IsNumber line.toList ∧ (∀ column ∈ column?, IsNumber column.toList)
      ∧ IsHeader header.toList
  | clang file line column header =>
    IsFile file.toList ∧ IsNumber line.toList ∧ IsNumber column.toList ∧ IsHeader header.toList
  | ld location symbol => '\n' ∉ location.toList ∧ IsSymbol symbol.toList

instance (file : List Char) : Decidable (IsFile file) :=
  inferInstanceAs (Decidable (_ ∧ _))

instance (number : List Char) : Decidable (IsNumber number) :=
  have : Decidable (∀ c ∈ number, Text.isDigit c = true) := List.decidableBAll _ number
  inferInstanceAs (Decidable (_ ∧ _))

instance (header : List Char) : Decidable (IsHeader header) :=
  inferInstanceAs (Decidable (_ ∧ _))

instance (symbol : List Char) : Decidable (IsSymbol symbol) :=
  inferInstanceAs (Decidable (_ ∧ _))

instance (d : Printed) : Decidable d.WellFormed :=
  match d with
  | gcc .. => inferInstanceAs (Decidable (_ ∧ _))
  | clang .. => inferInstanceAs (Decidable (_ ∧ _))
  | ld .. => inferInstanceAs (Decidable (_ ∧ _))

end Printed

theorem isBlank_of_isQuote {c : Char} (h : isQuote c = true) : Text.isBlank c = false := by
  unfold isQuote at h
  simp only [Bool.or_eq_true, beq_iff_eq] at h
  rcases h with (((rfl | rfl) | rfl) | rfl) | rfl <;> rfl

theorem isSentenceEnd_of_isQuote {c : Char} (h : isQuote c = true) : isSentenceEnd c = false := by
  unfold isQuote at h
  simp only [Bool.or_eq_true, beq_iff_eq] at h
  rcases h with (((rfl | rfl) | rfl) | rfl) | rfl <;> rfl

theorem bareName_eq_self {name : List Char} (hblank : Text.IsBare Text.isBlank name)
    (hquote : Text.IsBare isQuote name) (hend : name.getLast?.all (!isSentenceEnd ·)) :
    bareName name = name := by
  unfold bareName
  rw [Text.trim_of_isBare hblank, Text.dropEndWhile_eq_self hend,
    Text.dropBothWhile_of_isBare hquote, Text.trim_of_isBare hblank]

/--
A pair of quotes keeps what stands in front of the second one from being taken for punctuation.
-/
theorem bareName_quoted {o c : Char} (ho : isQuote o = true) (hc : isQuote c = true)
    {name : List Char} (hne : name ≠ []) (hblank : Text.IsBare Text.isBlank name)
    (hquote : Text.IsBare isQuote name) :
    bareName (o :: (name ++ [c])) = name := by
  have hends : ∀ p : Char → Bool, p o = false → p c = false →
      Text.IsBare p (o :: (name ++ [c])) := by
    intro p ho hc
    rw [← List.cons_append]
    apply Text.isBare_append
    . exact List.cons_ne_nil _ _
    . simp [ho]
    . exact List.cons_ne_nil _ _
    . simp [hc]
  unfold bareName
  rw [Text.trim_of_isBare (hends _ (isBlank_of_isQuote ho) (isBlank_of_isQuote hc)),
    Text.dropEndWhile_eq_self
      (hends _ (isSentenceEnd_of_isQuote ho) (isSentenceEnd_of_isQuote hc)).2,
    Text.dropBothWhile_wrapped ho hc hne hquote, Text.trim_of_isBare hblank]

namespace Diagnostics

open Printed

theorem afterNumber?_append {number : List Char} (h : IsNumber number) (back : List Char) :
    afterNumber? (number ++ ':' :: back) = some back := by
  have hcolon : Text.isDigit ':' = false := rfl
  unfold afterNumber?
  rw [List.takeWhile_append_of_pos h.2, List.dropWhile_append_of_pos h.2,
    List.takeWhile_cons_of_neg (by simp [hcolon]), List.dropWhile_cons_of_neg (by simp [hcolon]),
    List.append_nil, if_neg (by simp [h.1])]
  rfl

theorem toList_located (file line : String) (column? : Option String) (message : String) :
    (located file line column? message).toList
      =
    file.toList ++ ':' :: (line.toList
      ++ ((column?.elim "" (":" ++ ·)).toList ++ ':' :: ' ' :: message.toList)) := by
  have hcolon : ":".toList = [':'] := rfl
  have hspace : ": ".toList = [':', ' '] := rfl
  unfold located
  simp [hcolon, hspace]

theorem splitLocation?_located {file line message : String} {column? : Option String}
    (hfile : IsFile file.toList) (hline : IsNumber line.toList)
    (hcolumn : ∀ column ∈ column?, IsNumber column.toList)
    (hmessage : '\n' ∉ message.toList) (hhead : message.toList.head?.all (!Text.isBlank ·)) :
    splitLocation? (located file line column? message).toList
      = some (file.toList, message.toList) := by
  obtain ⟨rest, hrest, hback⟩ : ∃ rest,
      afterNumber? (line.toList
          ++ ((column?.elim "" (":" ++ ·)).toList ++ ':' :: ' ' :: message.toList)) = some rest
        ∧ (afterNumber? rest).getD rest = ' ' :: message.toList := by
    cases column? with
    | none => exact ⟨_, afterNumber?_append hline _, rfl⟩
    | some column =>
      have hcolon : ":".toList = [':'] := rfl
      rw [Option.elim_some, String.toList_append, hcolon, List.append_assoc, List.singleton_append]
      refine ⟨_, afterNumber?_append hline _, ?_⟩
      rw [afterNumber?_append (hcolumn column rfl)]
      rfl
  have htrim : Text.trimStart (' ' :: message.toList) = message.toList :=
    Text.dropWhile_eq_self hhead
  have hname : ∀ c ∈ file.toList, (c != ':') = true := by
    intro c hc
    rw [bne_iff_ne]
    rintro rfl
    exact hfile.2.1 hc
  rw [toList_located]
  unfold splitLocation?
  rw [List.takeWhile_append_of_pos hname, List.dropWhile_append_of_pos hname,
    List.takeWhile_cons_of_neg (by simp), List.dropWhile_cons_of_neg (by simp), List.append_nil]
  dsimp only
  have hfront : (file.toList.isEmpty || file.toList.head?.any Text.isBlank) = false := by
    obtain ⟨first, rest, hchars⟩ := List.exists_cons_of_ne_nil hfile.1
    have hfirst := hfile.2.2.2.1
    rw [hchars] at hfirst ⊢
    simpa using hfirst
  rw [hfront]
  simp [Text.stripStart?, hrest, hback, htrim, hmessage]

theorem stripEnd?_eq_none {suffix cs : List Char} (hne : suffix ≠ [])
    (h : suffix.getLast? ≠ cs.getLast?) : Text.stripEnd? suffix cs = none := by
  rw [Option.eq_none_iff_forall_ne_some]
  intro front hfront
  rw [Text.stripEnd?_eq_some_iff] at hfront
  rw [hfront, List.getLast?_append_of_ne_nil _ hne] at h
  exact h rfl

theorem beforeSuffix?_append {suffix : String} (front : List Char)
    (h : suffix ∈ Grammar.default.missingIncludeSuffixes) :
    beforeSuffix? Grammar.default.missingIncludeSuffixes (front ++ suffix.toList)
      = some front := by
  have hself : Text.stripEnd? suffix.toList (front ++ suffix.toList) = some front :=
    Text.stripEnd?_eq_some_iff.mpr rfl
  unfold beforeSuffix? Grammar.default at *
  dsimp only at *
  rw [List.mem_cons, List.mem_singleton] at h
  rcases h with rfl | rfl
  . rw [List.findSome?_cons, hself]
  . rw [List.findSome?_cons, stripEnd?_eq_none]
    . dsimp only
      rw [List.findSome?_cons, hself]
    . decide
    . rw [List.getLast?_append_of_ne_nil _ (by decide)]
      decide

theorem beforeSuffix?_eq_none {cs : List Char} {c : Char} (h : cs.getLast? = some c)
    (hquote : isQuote c = true) :
    beforeSuffix? Grammar.default.missingIncludeSuffixes cs = none := by
  unfold beforeSuffix?
  rw [List.findSome?_eq_none_iff]
  intro suffix hsuffix
  unfold Grammar.default at hsuffix
  rw [List.mem_cons, List.mem_singleton] at hsuffix
  rcases hsuffix with rfl | rfl
  all_goals
    apply stripEnd?_eq_none (by decide)
    rw [h]
    intro heq
    cases heq
    contradiction

theorem headerName_gcc {header : List Char} (h : IsHeader header) :
    headerName Grammar.default.missingIncludeSuffixes
        (' ' :: (header ++ [':', ' '] ++ "No such file or directory".toList))
      = header := by
  obtain ⟨hne, -, hblank, hquote, hend⟩ := h
  have hbody : Text.IsBare Text.isBlank
      (header ++ [':', ' '] ++ "No such file or directory".toList) := by
    apply Text.isBare_append
    . simp
    . rw [List.head?_append_of_ne_nil _ hne]
      exact hblank.1
    . decide
    . decide
  have hfront : Text.trim (header ++ [':', ' ']) = header ++ [':'] := by
    have hcolon : Text.IsBare Text.isBlank (header ++ [':']) := by
      apply Text.isBare_append hne hblank.1 <;> decide
    rw [List.append_cons, Text.trim_concat_blank (by rfl) hcolon]
  have hlast : header.getLast?.all (!· == ':') := by
    rcases List.eq_nil_or_concat header with rfl | ⟨front, c, rfl⟩
    . rfl
    . simp_all [isSentenceEnd]
  unfold headerName
  rw [Text.trim_cons_blank (by rfl) hbody, beforeSuffix?_append _ (by decide)]
  dsimp only
  rw [hfront, Text.dropEndWhile_concat, if_pos (by rfl), Text.dropEndWhile_eq_self hlast,
    bareName_eq_self hblank hquote hend]

theorem headerName_clang {header : List Char} (h : IsHeader header) :
    headerName Grammar.default.missingIncludeSuffixes
        (' ' :: ('\'' :: (header ++ ['\'', ' ']) ++ "file not found".toList))
      = header := by
  obtain ⟨hne, -, hblank, hquote, -⟩ := h
  have hbody : Text.IsBare Text.isBlank
      ('\'' :: (header ++ ['\'', ' ']) ++ "file not found".toList) := by
    apply Text.isBare_append (List.cons_ne_nil _ _) (by rfl) <;> decide
  have hfront : Text.trim ('\'' :: (header ++ ['\'', ' '])) = '\'' :: (header ++ ['\'']) := by
    have hquoted : Text.IsBare Text.isBlank ('\'' :: header ++ ['\'']) := by
      apply Text.isBare_append (List.cons_ne_nil _ _) (by rfl) <;> decide
    have := Text.trim_concat_blank (b := ' ') (by rfl) hquoted
    simpa using this
  unfold headerName
  rw [Text.trim_cons_blank (by rfl) hbody, beforeSuffix?_append _ (by decide)]
  dsimp only
  rw [hfront, Text.dropEndWhile_eq_self, bareName_quoted (by rfl) (by rfl) hne hblank hquote]
  rw [← List.cons_append, List.getLast?_concat]
  rfl

theorem afterMarker?_append {marker : String} (body : List Char)
    (h : marker ∈ Grammar.default.errorMarkers) :
    afterMarker? Grammar.default.errorMarkers (marker.toList ++ body) = some body := by
  have hself : Text.stripStart? marker.toList (marker.toList ++ body) = some body :=
    Text.stripStart?_eq_some_iff.mpr rfl
  unfold afterMarker? Grammar.default at *
  dsimp only at *
  rw [List.mem_cons, List.mem_singleton] at h
  rcases h with rfl | rfl
  . rw [List.findSome?_cons, hself]
  . have hfatal : Text.stripStart? "fatal error:".toList ("error:".toList ++ body) = none := rfl
    rw [List.findSome?_cons, hfatal]
    dsimp only
    rw [List.findSome?_cons, hself]

theorem classifyMissingInclude_located {file line marker middle suffix header : String}
    {column? : Option String} (hfile : IsFile file.toList) (hline : IsNumber line.toList)
    (hcolumn : ∀ column ∈ column?, IsNumber column.toList)
    (hmarker : marker ∈ Grammar.default.errorMarkers)
    (hsuffix : suffix ∈ Grammar.default.missingIncludeSuffixes)
    (hmiddle : '\n' ∉ middle.toList) (hne : header.toList ≠ [])
    (hheader : headerName Grammar.default.missingIncludeSuffixes (middle.toList ++ suffix.toList)
      = header.toList) :
    classifyMissingInclude .default
        (located file line column? (marker ++ (middle ++ suffix))).toList
      = .event (.missingInclude ⟨file, header⟩) := by
  have hsuffix' : suffix.toList ≠ [] ∧ suffix.toList.getLast?.all (!Text.isBlank ·)
      ∧ '\n' ∉ suffix.toList := by
    unfold Grammar.default at hsuffix
    rw [List.mem_cons, List.mem_singleton] at hsuffix
    rcases hsuffix with rfl | rfl <;> decide
  have hmarker' : marker.toList ≠ [] ∧ marker.toList.head?.all (!Text.isBlank ·)
      ∧ '\n' ∉ marker.toList := by
    unfold Grammar.default at hmarker
    rw [List.mem_cons, List.mem_singleton] at hmarker
    rcases hmarker with rfl | rfl <;> decide
  have hends : (located file line column? (marker ++ (middle ++ suffix))).toList
      = (located file line column? (marker ++ middle)).toList ++ suffix.toList := by
    unfold located
    simp only [String.toList_append, List.append_assoc]
  have hbare : Text.IsBare Text.isBlank
      (located file line column? (marker ++ (middle ++ suffix))).toList := by
    rw [hends]
    apply Text.isBare_append _ _ hsuffix'.1 hsuffix'.2.1
    . rw [toList_located]
      simp
    . rw [toList_located, List.head?_append_of_ne_nil _ hfile.1]
      exact hfile.2.2.2.1
  have hsplit : splitLocation? (located file line column? (marker ++ (middle ++ suffix))).toList
      = some (file.toList, (marker ++ (middle ++ suffix)).toList) := by
    apply splitLocation?_located hfile hline hcolumn
    . rw [String.toList_append, String.toList_append]
      simp [hmarker'.2.2, hmiddle, hsuffix'.2.2]
    . rw [String.toList_append, List.head?_append_of_ne_nil _ hmarker'.1]
      exact hmarker'.2.1
  unfold classifyMissingInclude
  dsimp only
  rw [Text.trim_of_isBare hbare, hsplit]
  rw [hends, beforeSuffix?_append _ hsuffix]
  dsimp only
  rw [String.toList_append, afterMarker?_append _ hmarker]
  dsimp only
  rw [String.toList_append, hheader, if_neg (by simp), if_neg (by simpa using hne),
    Text.trim_of_isBare hfile.2.2.2, String.ofList_toList, String.ofList_toList]

theorem words_ld (location : String) {symbol : String} (h : IsSymbol symbol.toList) :
    Text.words (text (ld location symbol)).toList
      =
    Text.words location.toList
      ++ ["undefined".toList, "reference".toList, "to".toList, '\x60' :: (symbol.toList ++ ['\''])]
      := by
  have htext : (text (ld location symbol)).toList
      = location.toList ++ ' ' :: ("undefined".toList ++ ' ' :: ("reference".toList
        ++ ' ' :: ("to".toList ++ ' ' :: '\x60' :: (symbol.toList ++ ['\''])))) := by
    have hwords : " undefined reference to \x60".toList
        = ' ' :: ("undefined".toList ++ ' ' :: ("reference".toList
          ++ ' ' :: ("to".toList ++ [' ', '\x60']))) := rfl
    have hquote : "'".toList = ['\''] := rfl
    unfold text
    rw [String.toList_append, String.toList_append, String.toList_append, hwords, hquote]
    simp
  have hspace : Text.isBlank ' ' = true := rfl
  have hquoted : Text.IsWord ('\x60' :: (symbol.toList ++ ['\''])) := by
    refine ⟨List.cons_ne_nil _ _, ?_⟩
    intro c hc
    rw [List.mem_cons, List.mem_append, List.mem_singleton] at hc
    rcases hc with rfl | hc | rfl
    . rfl
    . exact h.1.2 c hc
    . rfl
  rw [htext]
  simp only [Text.words_append_blank _ hspace]
  rw [Text.words_of_isWord hquoted]
  rfl

theorem ofToken?_quoted {symbol : String} (h : IsSymbol symbol.toList) :
    Symbol.ofToken? (.ofList ('\x60' :: (symbol.toList ++ ['\'']))) = some ⟨symbol⟩ := by
  unfold Symbol.ofToken? stripDecoration
  dsimp only
  rw [String.toList_ofList,
    bareName_quoted (by rfl) (by rfl) h.1.1 (Text.isBare_of_isWord h.1) h.2,
    String.ofList_toList, if_neg]
  have := h.1.1
  simpa using this

theorem classifyUndefinedReference_ld (location : String) {symbol : String}
    (h : IsSymbol symbol.toList) :
    classifyUndefinedReference .default (text (ld location symbol)).toList
      = .event (.undefinedSymbol ⟨symbol⟩) := by
  unfold classifyUndefinedReference
  dsimp only
  rw [words_ld location h]
  have hlast : (Text.words location.toList ++ ["undefined".toList, "reference".toList,
      "to".toList, '\x60' :: (symbol.toList ++ ['\''])]).getLast?
        = some ('\x60' :: (symbol.toList ++ ['\''])) := by
    rw [List.getLast?_append_of_ne_nil _ (List.cons_ne_nil _ _)]
    rfl
  rw [hlast]
  dsimp only
  rw [ofToken?_quoted h, if_neg, if_neg]
  . simp [Grammar.default]
  . simp [Grammar.default]

theorem getLast?_ld (location symbol : String) :
    (text (ld location symbol)).toList.getLast? = some '\'' := by
  unfold text
  rw [String.toList_append]
  exact List.getLast?_concat

theorem classifyMissingInclude_ld (location symbol : String) :
    classifyMissingInclude .default (text (ld location symbol)).toList = .noMatch := by
  unfold classifyMissingInclude
  dsimp only
  rw [beforeSuffix?_eq_none (Text.getLast?_trim (getLast?_ld location symbol) (by rfl)) (by rfl)]
  rfl

end Diagnostics

namespace Printed

open Diagnostics

theorem classifyMissingInclude_gcc {file line header : String} {column? : Option String}
    {fatal : Bool} (h : WellFormed (gcc file line column? fatal header)) :
    classifyMissingInclude .default (text (gcc file line column? fatal header)).toList
      = .event (.missingInclude ⟨file, header⟩) := by
  obtain ⟨hfile, hline, hcolumn, hheader⟩ := h
  have htext : text (gcc file line column? fatal header)
      = located file line column? ((if fatal then "fatal error:" else "error:")
        ++ (" " ++ header ++ ": " ++ "No such file or directory")) := by
    have hend : ": No such file or directory" = ": " ++ "No such file or directory" := rfl
    unfold text
    rw [hend]
    simp only [String.append_assoc]
  have hmiddle : (" " ++ header ++ ": ").toList = ' ' :: (header.toList ++ [':', ' ']) := by
    rw [String.toList_append, String.toList_append]
    rfl
  rw [htext]
  apply classifyMissingInclude_located hfile hline hcolumn
  . cases fatal <;> decide
  . decide
  . rw [hmiddle]
    simp [hheader.2.1]
  . exact hheader.1
  . rw [hmiddle]
    exact headerName_gcc hheader

theorem classifyMissingInclude_clang {file line column header : String}
    (h : WellFormed (clang file line column header)) :
    classifyMissingInclude .default (text (clang file line column header)).toList
      = .event (.missingInclude ⟨file, header⟩) := by
  obtain ⟨hfile, hline, hcolumn, hheader⟩ := h
  have htext : text (clang file line column header)
      = located file line (some column)
        ("fatal error:" ++ (" '" ++ header ++ "' " ++ "file not found")) := by
    have hstart : "fatal error: '" = "fatal error:" ++ " '" := rfl
    have hend : "' file not found" = "' " ++ "file not found" := rfl
    unfold text
    rw [hstart, hend]
    simp only [String.append_assoc]
  have hmiddle : (" '" ++ header ++ "' ").toList
      = ' ' :: '\'' :: (header.toList ++ ['\'', ' ']) := by
    rw [String.toList_append, String.toList_append]
    rfl
  rw [htext]
  apply classifyMissingInclude_located hfile hline
  . rintro _ ⟨⟩
    exact hcolumn
  . decide
  . decide
  . rw [hmiddle]
    simp [hheader.2.1]
  . exact hheader.1
  . rw [hmiddle]
    exact headerName_clang hheader

theorem eventOn?_text {d : Printed} (h : d.WellFormed) (followsBlank : Bool) :
    Grammar.default.eventOn? followsBlank d.text.toList = some d.event := by
  unfold Grammar.eventOn? Grammar.recognizers
  rw [List.cons_append, List.findSome?_cons]
  unfold Recognizer.classify
  cases d with
  | gcc file line column? fatal header =>
    dsimp only
    rw [classifyMissingInclude_gcc h]
    rfl
  | clang file line column header =>
    dsimp only
    rw [classifyMissingInclude_clang h]
    rfl
  | ld location symbol =>
    dsimp only
    rw [classifyMissingInclude_ld, List.cons_append, List.findSome?_cons]
    dsimp only
    rw [classifyUndefinedReference_ld location h.2]
    rfl

theorem exists_getLast?_text (d : Printed) :
    ∃ c, d.text.toList.getLast? = some c ∧ Text.isBlank c = false := by
  have hends : ∀ (front suffix : String) (c : Char), suffix.toList.getLast? = some c →
      (front ++ suffix).toList.getLast? = some c := by
    intro front suffix c hlast
    rw [String.toList_append, List.getLast?_append, hlast]
    rfl
  cases d with
  | gcc file line column? fatal header =>
    exact ⟨'y', hends _ _ _ (hends _ _ _ (by rfl)), by rfl⟩
  | clang file line column header =>
    exact ⟨'d', hends _ _ _ (hends _ _ _ (by rfl)), by rfl⟩
  | ld location symbol => exact ⟨'\'', hends _ _ _ (by rfl), by rfl⟩

theorem not_mem_of_isNumber {number : List Char} (h : IsNumber number) : '\n' ∉ number := by
  intro hmem
  have := h.2 _ hmem
  contradiction

theorem not_mem_located {file line message : String} {column? : Option String}
    (hfile : '\n' ∉ file.toList) (hline : IsNumber line.toList)
    (hcolumn : ∀ column ∈ column?, IsNumber column.toList) (hmessage : '\n' ∉ message.toList) :
    '\n' ∉ (located file line column? message).toList := by
  have hcolumn' : '\n' ∉ (column?.elim "" (":" ++ ·)).toList := by
    cases column? with
    | none => exact List.not_mem_nil
    | some column =>
      rw [Option.elim_some, String.toList_append]
      simp [not_mem_of_isNumber (hcolumn column rfl)]
  rw [toList_located]
  simp [hfile, not_mem_of_isNumber hline, hcolumn', hmessage]

theorem isLine_text {d : Printed} (h : d.WellFormed) : Text.IsLine d.text.toList := by
  have hfeed : '\n' ∉ d.text.toList := by
    cases d with
    | gcc file line column? fatal header =>
      obtain ⟨hfile, hline, hcolumn, hheader⟩ := h
      apply not_mem_located hfile.2.2.1 hline hcolumn
      cases fatal <;> simp [hheader.2.1]
    | clang file line column header =>
      obtain ⟨hfile, hline, hcolumn, hheader⟩ := h
      apply not_mem_located hfile.2.2.1 hline
      . rintro _ ⟨⟩
        exact hcolumn
      . simp [hheader.2.1]
    | ld location symbol =>
      have hsymbol : '\n' ∉ symbol.toList := by
        intro hmem
        have := h.2.1.2 _ hmem
        contradiction
      unfold text
      simp [h.1, hsymbol]
  obtain ⟨c, hlast, hc⟩ := d.exists_getLast?_text
  refine ⟨hfeed, ?_⟩
  rw [hlast]
  rintro ⟨⟩
  contradiction

end Printed

namespace Grammar

theorem parseLines_printed {ds : List Printed} (h : ∀ d ∈ ds, d.WellFormed) (followsBlank : Bool)
    (number : Nat) :
    default.parseLines followsBlank number (ds.map (·.text.toList))
      = ⟨ds.map (·.event), [], 0⟩ := by
  induction ds generalizing followsBlank number with
  | nil => rfl
  | cons d ds ih =>
    rw [List.forall_mem_cons] at h
    obtain ⟨c, hlast, hc⟩ := d.exists_getLast?_text
    have hblank : d.text.toList.all Text.isBlank = false := by
      rw [List.all_eq_false]
      exact ⟨c, List.mem_of_getLast? hlast, by simp [hc]⟩
    have hline : default.parseLine followsBlank number d.text.toList = ⟨[d.event], [], 0⟩ := by
      unfold parseLine
      rw [Printed.eventOn?_text h.1]
    rw [List.map_cons, parseLines, hblank, if_neg Bool.false_ne_true, hline, ih h.2]
    rfl

/--
Diagnostics that are printed one per line are read back, whether or not the last line is closed.
-/
theorem parse_printed (ds : List Printed) (h : ∀ d ∈ ds, d.WellFormed) :
    default.parse (String.join (ds.map (·.text ++ "\n"))) = ⟨ds.map (·.event), [], 0⟩
      ∧ default.parse ("\n".intercalate (ds.map (·.text))) = ⟨ds.map (·.event), [], 0⟩ := by
  have hlines : ∀ line ∈ ds.map (·.text.toList), Text.IsLine line ∧ line ≠ [] := by
    intro line hline
    obtain ⟨d, hd, rfl⟩ := List.mem_map.mp hline
    obtain ⟨c, hlast, -⟩ := d.exists_getLast?_text
    exact ⟨Printed.isLine_text (h d hd), List.ne_nil_of_mem (List.mem_of_getLast? hlast)⟩
  have hfeed : "\n".toList = ['\n'] := rfl
  unfold parse
  constructor
  . have hjoined : (String.join (ds.map (·.text ++ "\n"))).toList
        = (ds.map (·.text.toList)).flatMap (· ++ ['\n']) ++ [] := by
      rw [String.toList_join, List.flatMap_map, List.flatMap_map, List.append_nil]
      simp only [String.toList_append, hfeed]
    have hnil : Text.lines [] = [] := rfl
    rw [hjoined, Text.lines_flatMap_append fun line hline => (hlines line hline).1, hnil,
      List.append_nil, parseLines_printed h]
  . have hjoined : ("\n".intercalate (ds.map (·.text))).toList
        = ['\n'].intercalate (ds.map (·.text.toList)) := by
      rw [String.toList_intercalate, hfeed, List.map_map]
      rfl
    rw [hjoined, Text.lines_intercalate hlines, parseLines_printed h]

def misleadingDiagnostics : List Printed := [
  .gcc "kern/uipc mbuf.c" "12" none true "x: No such file or directory",
  .gcc "a.c" "1" (some "\u0663") false "error: sys/mbuf.h",
  .clang "net/if.c" "3" "10" "undefined reference",
  .ld "if.o:(.text+0x2a):" "m_get:",
  .ld "" "file"]

theorem parse_printed_misleading :
    (∀ d ∈ misleadingDiagnostics, d.WellFormed)
      ∧ misleadingDiagnostics.map (·.text) = [
        "kern/uipc mbuf.c:12: fatal error: x: No such file or directory: No such file or directory",
        "a.c:1:\u0663: error: error: sys/mbuf.h: No such file or directory",
        "net/if.c:3:10: fatal error: 'undefined reference' file not found",
        "if.o:(.text+0x2a): undefined reference to \x60m_get:'",
        " undefined reference to \x60file'"]
      ∧ (default.parse ("\n".intercalate (misleadingDiagnostics.map (·.text)))).events = [
        .missingInclude ⟨"kern/uipc mbuf.c", "x: No such file or directory"⟩,
        .missingInclude ⟨"a.c", "error: sys/mbuf.h"⟩,
        .missingInclude ⟨"net/if.c", "undefined reference"⟩,
        .undefinedSymbol ⟨"m_get:"⟩,
        .undefinedSymbol ⟨"file"⟩] := by
  have hformed : ∀ d ∈ misleadingDiagnostics, d.WellFormed := by
    decide +kernel
  refine ⟨hformed, by decide +kernel, ?_⟩
  rw [(parse_printed misleadingDiagnostics hformed).2]
  rfl

end Grammar

end Graft
