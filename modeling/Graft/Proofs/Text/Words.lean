import Graft.Proofs.Pieces
import Graft.Text.Blank
import Graft.Text.Line
import Mathlib.Data.List.DropRight

/-!
This module contains how a text falls into words and lines, and what trimming leaves of it.
-/

namespace Graft
namespace Text

def IsWord (cs : List Char) : Prop :=
  cs ≠ [] ∧ ∀ c ∈ cs, isBlank c = false

instance (cs : List Char) : Decidable (IsWord cs) :=
  -- Characters are finitely many: it is the list that is searched, not all of them.
  have : Decidable (∀ c ∈ cs, isBlank c = false) := List.decidableBAll _ cs
  inferInstanceAs (Decidable (_ ∧ _))

def AllBlank (cs : List Char) : Prop :=
  ∀ c ∈ cs, isBlank c = true

@[simp]
theorem allBlank_nil : AllBlank [] := by
  simp [AllBlank]

@[simp]
theorem allBlank_cons {c : Char} {cs : List Char} :
    AllBlank (c :: cs) ↔ isBlank c = true ∧ AllBlank cs :=
  List.forall_mem_cons

theorem words_append_blank (front : List Char) {b : Char} (hb : isBlank b = true)
    (back : List Char) :
    words (front ++ b :: back) = words front ++ words back := by
  unfold words
  rw [List.splitOnP_append_cons _ _ hb, List.filter_append]

theorem words_cons_blank {b : Char} (hb : isBlank b = true) (cs : List Char) :
    words (b :: cs) = words cs := by
  apply words_append_blank [] hb

theorem words_blank_append {blanks : List Char} (h : AllBlank blanks) (cs : List Char) :
    words (blanks ++ cs) = words cs := by
  induction blanks with
  | nil => rfl
  | cons b blanks ih =>
    rw [allBlank_cons] at h
    rw [List.cons_append, words_cons_blank h.1, ih h.2]

theorem words_of_allBlank {cs : List Char} (h : AllBlank cs) : words cs = [] := by
  rw [← List.append_nil cs, words_blank_append h]
  rfl

theorem words_of_isWord {cs : List Char} (h : IsWord cs) : words cs = [cs] := by
  unfold words
  rw [List.splitOnP_eq_singleton h.2]
  simp [h.1]

theorem isWord_of_mem_words {cs word : List Char} (h : word ∈ words cs) : IsWord word := by
  unfold words at h
  rw [List.mem_filter, Bool.not_eq_true', List.isEmpty_eq_false_iff] at h
  refine ⟨h.2, ?_⟩
  replace h := h.1
  induction cs generalizing word with
  | nil => simp_all
  | cons c cs ih =>
    rw [List.splitOnP_cons_eq_if_modifyHead] at h
    split at h
    . rw [List.mem_cons] at h
      rcases h with rfl | h
      . simp
      . exact ih h
    . next hc =>
      obtain ⟨first, rest, hcs⟩ := List.exists_cons_of_ne_nil (List.splitOnP_ne_nil isBlank cs)
      rw [hcs] at h ih
      rw [List.modifyHead_cons, List.mem_cons] at h
      rcases h with rfl | h
      . have := ih (List.mem_cons_self)
        simp_all
      . exact ih (List.mem_cons_of_mem _ h)

theorem words_append_allBlank (cs : List Char) {blanks : List Char} (h : AllBlank blanks) :
    words (cs ++ blanks) = words cs := by
  cases blanks with
  | nil => rw [List.append_nil]
  | cons b blanks =>
    rw [allBlank_cons] at h
    rw [words_append_blank cs h.1, words_of_allBlank h.2, List.append_nil]

theorem exists_word {cs : List Char} (h : ¬ AllBlank cs) :
    ∃ before word after, cs = before ++ (word ++ after) ∧ AllBlank before ∧ IsWord word
      ∧ words cs = word :: words after := by
  induction cs with
  | nil => simp at h
  | cons c cs ih =>
    cases hc : isBlank c with
    | true =>
      have hrest : ¬ AllBlank cs := by
        rw [allBlank_cons] at h
        exact fun hrest => h ⟨hc, hrest⟩
      obtain ⟨before, word, after, rfl, hbefore, hword, hwords⟩ := ih hrest
      refine ⟨c :: before, word, after, rfl, allBlank_cons.mpr ⟨hc, hbefore⟩, hword, ?_⟩
      rw [words_cons_blank hc, hwords]
    | false =>
      have hsplit : c :: cs
          = (c :: cs).takeWhile (!isBlank ·) ++ (c :: cs).dropWhile (!isBlank ·) :=
        List.takeWhile_append_dropWhile.symm
      have hword : IsWord ((c :: cs).takeWhile (!isBlank ·)) := by
        refine ⟨by simp [hc], ?_⟩
        intro d hd
        simpa using List.mem_takeWhile_imp hd
      refine ⟨[], _, _, hsplit, allBlank_nil, hword, ?_⟩
      -- The word extends to the end of the text or to the next white space.
      have hrest := List.head?_dropWhile_not (!isBlank ·) (c :: cs)
      conv_lhs => rw [hsplit]
      cases hafter : (c :: cs).dropWhile (!isBlank ·) with
      | nil =>
        rw [List.append_nil, words_of_isWord hword]
        rfl
      | cons b after =>
        have hb : isBlank b = true := by
          rw [hafter] at hrest
          simpa using hrest
        rw [words_append_blank _ hb, words_of_isWord hword, words_cons_blank hb]
        rfl

theorem isInfix_of_mem_words {cs word : List Char} (h : word ∈ words cs) : word <:+: cs := by
  induction hlength : cs.length using Nat.strongRecOn generalizing cs with
  | ind length ih =>
    have hblank : ¬ AllBlank cs := by
      intro hblank
      rw [words_of_allBlank hblank] at h
      contradiction
    obtain ⟨before, first, after, rfl, -, hfirst, hwords⟩ := exists_word hblank
    have hshorter := List.length_pos_iff.mpr hfirst.1
    simp only [List.length_append] at hlength
    rw [hwords, List.mem_cons] at h
    rcases h with rfl | h
    . exact ⟨before, after, by rw [List.append_assoc]⟩
    . apply (ih _ (by omega) h rfl).trans
      rw [← List.append_assoc]
      exact (List.suffix_append _ _).isInfix

theorem allBlank_of_words_eq_nil {cs : List Char} (h : words cs = []) : AllBlank cs := by
  by_contra hblank
  obtain ⟨_, _, _, _, _, _, hwords⟩ := exists_word hblank
  rw [h] at hwords
  contradiction

theorem exists_of_words_eq_singleton {cs word : List Char} (h : words cs = [word]) :
    ∃ before after, cs = before ++ (word ++ after) ∧ AllBlank before ∧ IsWord word
      ∧ AllBlank after := by
  have hblank : ¬ AllBlank cs := by
    intro hblank
    rw [words_of_allBlank hblank] at h
    contradiction
  obtain ⟨before, word', after, hcs, hbefore, hword, hwords⟩ := exists_word hblank
  rw [h, List.cons.injEq] at hwords
  rw [hwords.1]
  exact ⟨before, after, hcs, hbefore, hword, allBlank_of_words_eq_nil hwords.2.symm⟩

theorem words_dropReturn (cs : List Char) : words (dropReturn cs) = words cs := by
  unfold dropReturn
  split
  . next h =>
    obtain ⟨front, rfl⟩ := List.getLast?_eq_some_iff.mp h
    rw [List.dropLast_concat, words_append_allBlank]
    intro c hc
    rw [List.mem_singleton] at hc
    subst hc
    rfl
  . rfl

theorem flatMap_words_splitOn (cs : List Char) : (cs.splitOn '\n').flatMap words = words cs := by
  have hpieces : ∀ pieces : List (List Char),
      pieces.flatMap words = words (['\n'].intercalate pieces) := by
    intro pieces
    induction pieces with
    | nil => rfl
    | cons piece pieces ih =>
      cases pieces with
      | nil => simp
      | cons piece' pieces =>
        rw [List.flatMap_cons, ih, List.intercalate_cons_cons, List.append_assoc,
          List.singleton_append, words_append_blank _ (by rfl)]
  rw [hpieces, List.intercalate_splitOn]

theorem lines_append_lineFeed (front back : List Char) :
    lines (front ++ '\n' :: back) = (front.splitOn '\n').map dropReturn ++ lines back := by
  have hpieces : ∀ pieces more : List (List Char), more ≠ [] →
      linesOfPieces (pieces ++ more) = pieces.map dropReturn ++ linesOfPieces more := by
    intro pieces more hmore
    induction pieces with
    | nil => rfl
    | cons piece pieces ih =>
      rw [List.cons_append, linesOfPieces, ih]
      . rfl
      . simp [hmore]
  unfold lines
  rw [List.splitOn_append_cons_self, hpieces _ _ (List.splitOn_ne_nil _ _)]

theorem not_mem_of_mem_linesOfPieces {pieces : List (List Char)}
    (h : ∀ piece ∈ pieces, '\n' ∉ piece) {line : List Char} (hline : line ∈ linesOfPieces pieces) :
    '\n' ∉ line := by
  induction pieces with
  | nil => contradiction
  | cons piece pieces ih =>
    rw [List.forall_mem_cons] at h
    cases pieces with
    | nil =>
      unfold linesOfPieces at hline
      split at hline
      . contradiction
      . rw [List.mem_singleton.mp hline]
        exact h.1
    | cons piece' pieces =>
      rw [linesOfPieces, List.mem_cons] at hline
      . rcases hline with rfl | hline
        . unfold dropReturn
          split
          . exact fun hmem => h.1 (List.dropLast_subset _ hmem)
          . exact h.1
        . exact ih h.2 hline
      . simp

theorem not_mem_of_mem_lines {cs line : List Char} (h : line ∈ lines cs) : '\n' ∉ line :=
  not_mem_of_mem_linesOfPieces (fun _ => not_mem_of_mem_splitOn) h

/--
What can stand on a line: no line feed breaks it and no carriage return at its end is taken along.
-/
def IsLine (cs : List Char) : Prop :=
  '\n' ∉ cs ∧ cs.getLast? ≠ some '\r'

theorem isLine_append_isWord {front word : List Char} (hfront : '\n' ∉ front) (h : IsWord word) :
    IsLine (front ++ word) := by
  constructor
  . intro hmem
    rcases List.mem_append.mp hmem with hmem | hmem
    . exact hfront hmem
    . have := h.2 _ hmem
      contradiction
  . rw [List.getLast?_append_of_ne_nil _ h.1]
    intro hlast
    have := h.2 _ (List.mem_of_getLast? hlast)
    contradiction

theorem lines_isLine_append {line : List Char} (h : IsLine line) (back : List Char) :
    lines (line ++ '\n' :: back) = line :: lines back := by
  rw [lines_append_lineFeed, List.splitOn_eq_singleton h.1, List.map_singleton]
  unfold dropReturn
  rw [if_neg h.2]
  rfl

theorem lines_flatMap_append {ls : List (List Char)} (h : ∀ line ∈ ls, IsLine line)
    (back : List Char) :
    lines (ls.flatMap (· ++ ['\n']) ++ back) = ls ++ lines back := by
  induction ls with
  | nil => rfl
  | cons line ls ih =>
    rw [List.forall_mem_cons] at h
    rw [List.flatMap_cons, List.append_assoc, List.append_assoc, List.singleton_append,
      lines_isLine_append h.1, ih h.2, List.cons_append]

theorem lines_intercalate {ls : List (List Char)} (h : ∀ line ∈ ls, IsLine line ∧ line ≠ []) :
    lines (['\n'].intercalate ls) = ls := by
  induction ls with
  | nil => rfl
  | cons line ls ih =>
    rw [List.forall_mem_cons] at h
    cases ls with
    | nil =>
      unfold lines
      rw [List.intercalate_singleton, List.splitOn_eq_singleton h.1.1.1]
      simp [linesOfPieces, h.1.2]
    | cons line' ls =>
      rw [List.intercalate_cons_cons, List.append_assoc, List.singleton_append,
        lines_isLine_append h.1.1, ih h.2]

def IsBare (p : Char → Bool) (cs : List Char) : Prop :=
  cs.head?.all (!p ·) ∧ cs.getLast?.all (!p ·)

instance (p : Char → Bool) (cs : List Char) : Decidable (IsBare p cs) :=
  inferInstanceAs (Decidable (_ ∧ _))

theorem isBare_append {p : Char → Bool} {front back : List Char} (hfront : front ≠ [])
    (hhead : front.head?.all (!p ·)) (hback : back ≠ []) (hlast : back.getLast?.all (!p ·)) :
    IsBare p (front ++ back) := by
  unfold IsBare
  rw [List.head?_append_of_ne_nil _ hfront, List.getLast?_append_of_ne_nil _ hback]
  exact ⟨hhead, hlast⟩

theorem dropWhile_eq_self {p : Char → Bool} {cs : List Char} (h : cs.head?.all (!p ·)) :
    cs.dropWhile p = cs := by
  cases cs with
  | nil => rfl
  | cons c cs =>
    rw [List.head?_cons, Option.all_some, Bool.not_eq_true'] at h
    rw [List.dropWhile_cons, h]
    rfl

theorem dropEndWhile_eq_self {p : Char → Bool} {cs : List Char} (h : cs.getLast?.all (!p ·)) :
    dropEndWhile p cs = cs := by
  rcases List.eq_nil_or_concat cs with rfl | ⟨front, c, rfl⟩
  . rfl
  . rw [List.concat_eq_append, List.getLast?_concat, Option.all_some, Bool.not_eq_true'] at h
    rw [List.concat_eq_append, dropEndWhile_concat, h]
    rfl

theorem dropBothWhile_of_isBare {p : Char → Bool} {cs : List Char} (h : IsBare p cs) :
    dropBothWhile p cs = cs := by
  unfold dropBothWhile
  rw [dropWhile_eq_self h.1, dropEndWhile_eq_self h.2]

theorem dropBothWhile_wrapped {p : Char → Bool} {o c : Char} (ho : p o = true) (hc : p c = true)
    {cs : List Char} (hne : cs ≠ []) (h : IsBare p cs) :
    dropBothWhile p (o :: (cs ++ [c])) = cs := by
  obtain ⟨first, rest, rfl⟩ := List.exists_cons_of_ne_nil hne
  have hfirst := h.1
  rw [List.head?_cons, Option.all_some, Bool.not_eq_true'] at hfirst
  unfold dropBothWhile
  rw [List.dropWhile_cons_of_pos ho, List.cons_append,
    List.dropWhile_cons_of_neg (by simp [hfirst]), ← List.cons_append, dropEndWhile_concat,
    if_pos hc, dropEndWhile_eq_self h.2]

theorem dropEndWhile_isPrefix (p : Char → Bool) (cs : List Char) : dropEndWhile p cs <+: cs :=
  List.rdropWhile_prefix p cs

theorem all_getLast?_dropEndWhile (p : Char → Bool) (cs : List Char) :
    (dropEndWhile p cs).getLast?.all (!p ·) := by
  rw [Option.all_eq_true]
  intro c hc
  obtain ⟨hne, rfl⟩ := List.mem_getLast?_eq_getLast hc
  have hlast : ¬ p ((dropEndWhile p cs).getLast hne) := List.rdropWhile_last_not p cs hne
  simpa using hlast

theorem isBare_dropBothWhile (p : Char → Bool) (cs : List Char) : IsBare p (dropBothWhile p cs) := by
  have hprefix : dropBothWhile p cs <+: cs.dropWhile p := dropEndWhile_isPrefix p _
  constructor
  . cases hfirst : dropBothWhile p cs with
    | nil => rfl
    | cons c rest =>
      rw [hfirst] at hprefix
      obtain ⟨more, hmore⟩ := hprefix
      have hhead := List.head?_dropWhile_not p cs
      rw [← hmore] at hhead
      simpa using hhead
  . exact all_getLast?_dropEndWhile p (cs.dropWhile p)

theorem isBare_trim (cs : List Char) : IsBare isBlank (trim cs) :=
  isBare_dropBothWhile isBlank cs

theorem trim_of_isBare {cs : List Char} (h : IsBare isBlank cs) : trim cs = cs :=
  dropBothWhile_of_isBare h

theorem isBare_of_forall {p : Char → Bool} {cs : List Char} (h : ∀ c ∈ cs, p c = false) :
    IsBare p cs := by
  constructor
  . rw [Option.all_eq_true]
    intro c hc
    rw [h c (List.mem_of_head? hc)]
    rfl
  . rw [Option.all_eq_true]
    intro c hc
    rw [h c (List.mem_of_getLast? hc)]
    rfl

theorem isBare_of_isWord {cs : List Char} (h : IsWord cs) : IsBare isBlank cs :=
  isBare_of_forall h.2

theorem getLast?_trim {cs : List Char} {c : Char} (h : cs.getLast? = some c)
    (hc : isBlank c = false) : (trim cs).getLast? = some c := by
  obtain ⟨front, rfl⟩ := List.getLast?_eq_some_iff.mp h
  have hstart : ∃ front', trimStart (front ++ [c]) = front' ++ [c] := by
    unfold trimStart
    rw [List.dropWhile_append, List.dropWhile_cons, hc]
    split
    . exact ⟨[], rfl⟩
    . exact ⟨_, rfl⟩
  obtain ⟨front', hfront'⟩ := hstart
  unfold trim trimEnd
  rw [hfront', dropEndWhile_concat, hc]
  exact List.getLast?_concat

theorem trim_blank_append {blanks : List Char} (h : AllBlank blanks) (cs : List Char) :
    trim (blanks ++ cs) = trim cs := by
  unfold trim trimStart
  rw [List.dropWhile_append_of_pos h]

theorem trimEnd_isPrefix (cs : List Char) : trimEnd cs <+: cs :=
  dropEndWhile_isPrefix isBlank cs

theorem trimEnd_append_allBlank (cs : List Char) {blanks : List Char} (h : AllBlank blanks) :
    trimEnd (cs ++ blanks) = trimEnd cs := by
  unfold trimEnd dropEndWhile
  rw [List.reverse_append, List.dropWhile_append_of_pos]
  intro c hc
  exact h c (List.mem_reverse.mp hc)

theorem trim_append_allBlank (cs : List Char) {blanks : List Char} (h : AllBlank blanks) :
    trim (cs ++ blanks) = trim cs := by
  unfold trim trimStart
  rw [List.dropWhile_append]
  split
  . next hempty =>
    rw [List.isEmpty_iff] at hempty
    rw [hempty, List.dropWhile_eq_nil_iff.mpr h]
  . exact trimEnd_append_allBlank _ h

theorem trim_cons_blank {b : Char} (hb : isBlank b = true) {cs : List Char}
    (h : IsBare isBlank cs) : trim (b :: cs) = cs := by
  have hblanks : AllBlank [b] := by
    simp [hb]
  rw [← List.singleton_append, trim_blank_append hblanks, trim_of_isBare h]

theorem trim_concat_blank {b : Char} (hb : isBlank b = true) {cs : List Char}
    (h : IsBare isBlank cs) : trim (cs ++ [b]) = cs := by
  have hblanks : AllBlank [b] := by
    simp [hb]
  rw [trim_append_allBlank _ hblanks, trim_of_isBare h]

theorem exists_dropBothWhile (p : Char → Bool) (cs : List Char) :
    ∃ before after, cs = before ++ (dropBothWhile p cs ++ after) ∧ (∀ c ∈ before, p c = true)
      ∧ ∀ c ∈ after, p c = true := by
  have hstart : cs = cs.takeWhile p ++ cs.dropWhile p := List.takeWhile_append_dropWhile.symm
  have hend : cs.dropWhile p = dropBothWhile p cs ++ (cs.dropWhile p).rtakeWhile p :=
    List.rdropWhile_append_rtakeWhile.symm
  refine ⟨cs.takeWhile p, (cs.dropWhile p).rtakeWhile p, ?_, ?_, ?_⟩
  . rw [← hend]
    exact hstart
  . intro c hc
    exact List.mem_takeWhile_imp hc
  . intro c hc
    exact List.mem_rtakeWhile_imp hc

theorem exists_trim (cs : List Char) :
    ∃ before after, cs = before ++ (trim cs ++ after) ∧ AllBlank before ∧ AllBlank after :=
  exists_dropBothWhile isBlank cs

theorem dropEndWhile_sublist (p : Char → Bool) (cs : List Char) : (dropEndWhile p cs).Sublist cs :=
  (dropEndWhile_isPrefix p cs).sublist

theorem dropBothWhile_sublist (p : Char → Bool) (cs : List Char) :
    (dropBothWhile p cs).Sublist cs :=
  (dropEndWhile_sublist p _).trans (List.dropWhile_sublist p)

theorem trim_sublist (cs : List Char) : (trim cs).Sublist cs :=
  dropBothWhile_sublist isBlank cs

theorem isBare_of_trim_eq_self {cs : List Char} (h : trim cs = cs) : IsBare isBlank cs :=
  h ▸ isBare_trim cs

theorem trim_isInfix (cs : List Char) : trim cs <:+: cs := by
  obtain ⟨before, after, hcs, -, -⟩ := exists_trim cs
  exact ⟨before, after, by rw [List.append_assoc]; exact hcs.symm⟩

theorem trim_dropReturn (cs : List Char) : trim (dropReturn cs) = trim cs := by
  unfold dropReturn
  split
  . next h =>
    obtain ⟨front, rfl⟩ := List.getLast?_eq_some_iff.mp h
    rw [List.dropLast_concat, trim_append_allBlank]
    simp [isBlank]
  . rfl

theorem words_trim (cs : List Char) : words (trim cs) = words cs := by
  obtain ⟨before, after, hcs, hbefore, hafter⟩ := exists_trim cs
  conv_rhs => rw [hcs, words_blank_append hbefore, words_append_allBlank _ hafter]

theorem words_eq_of_trim_eq {cs cs' : List Char} (h : trim cs = trim cs') : words cs = words cs' := by
  rw [← words_trim, h, words_trim]

theorem all_isBlank_eq_of_trim_eq {cs cs' : List Char} (h : trim cs = trim cs') :
    cs.all isBlank = cs'.all isBlank := by
  have hall : ∀ cs : List Char, cs.all isBlank = true ↔ words cs = [] := by
    intro cs
    rw [List.all_eq_true]
    exact ⟨words_of_allBlank, allBlank_of_words_eq_nil⟩
  rw [Bool.eq_iff_iff, hall, hall, words_eq_of_trim_eq h]

theorem trimStart_of_allBlank {before : List Char} (hbefore : AllBlank before) {word : List Char}
    (hword : IsWord word) (after : List Char) :
    trimStart (before ++ (word ++ after)) = word ++ after := by
  unfold trimStart
  rw [List.dropWhile_append_of_pos hbefore, List.dropWhile_append]
  have : word.dropWhile isBlank = word := by
    rw [List.dropWhile_eq_self_iff]
    intro hlength
    simp [hword.2]
  simp [this, hword.1]

theorem head?_trim {cs word : List Char} {rest : List (List Char)} (h : words cs = word :: rest) :
    (trim cs).head? = word.head? := by
  have hblank : ¬ AllBlank cs := by
    intro hblank
    rw [words_of_allBlank hblank] at h
    contradiction
  obtain ⟨before, first, after, rfl, hbefore, hfirst, hwords⟩ := exists_word hblank
  rw [h, List.cons.injEq] at hwords
  obtain ⟨rfl, -⟩ := hwords
  obtain ⟨c, cs, rfl⟩ := List.exists_cons_of_ne_nil hfirst.1
  have hprefix : trimEnd (c :: cs ++ after) <+: c :: cs ++ after := trimEnd_isPrefix _
  have hne : trimEnd (c :: cs ++ after) ≠ [] := by
    intro hnil
    have hc := List.rdropWhile_eq_nil_iff.mp hnil c (by simp)
    rw [hfirst.2 c List.mem_cons_self] at hc
    contradiction
  obtain ⟨d, ds, hds⟩ := List.exists_cons_of_ne_nil hne
  unfold trim
  rw [trimStart_of_allBlank hbefore hfirst]
  rw [hds, List.cons_append, List.cons_prefix_cons] at hprefix
  rw [hds, hprefix.1]
  rfl

theorem trim_of_words_eq_singleton {cs word : List Char} (h : words cs = [word]) :
    trim cs = word := by
  obtain ⟨before, after, rfl, hbefore, hword, hafter⟩ := exists_of_words_eq_singleton h
  rw [trim_blank_append hbefore, trim_append_allBlank _ hafter,
    trim_of_isBare (isBare_of_isWord hword)]

theorem length_words_le_one {cs : List Char} (h : ∀ c ∈ trim cs, isBlank c = false) :
    (words cs).length ≤ 1 := by
  rw [← words_trim]
  by_cases hempty : trim cs = []
  . rw [hempty]
    simp [words]
  . rw [words_of_isWord ⟨hempty, h⟩]
    rfl

theorem words_last_iff {cs last word : List Char} {front : List (List Char)}
    (hsplit : cs.splitOn '\n' = front ++ [last]) (h : words cs = [word]) :
    words last = [word] ↔ '\n' ∉ trimStart cs := by
  obtain ⟨before, after, rfl, hbefore, hword, hafter⟩ := exists_of_words_eq_singleton h
  rw [trimStart_of_allBlank hbefore hword]
  constructor
  . intro hlast hmem
    rw [List.mem_append] at hmem
    rcases hmem with hmem | hmem
    . have := hword.2 _ hmem
      contradiction
    . -- The last line is one of white space then.
      obtain ⟨after₁, after₂, rfl⟩ := List.append_of_mem hmem
      have hblank : words after₂ = [] := words_of_allBlank fun c hc => hafter c (by simp [hc])
      rw [← List.append_assoc, ← List.append_assoc, List.splitOn_append_cons_self] at hsplit
      have hmem : last ∈ after₂.splitOn '\n' := by
        have := congrArg List.getLast? hsplit
        rw [List.getLast?_append_of_ne_nil _ (List.splitOn_ne_nil _ _), List.getLast?_concat]
          at this
        exact List.mem_of_getLast? this
      rw [← flatMap_words_splitOn, List.flatMap_eq_nil_iff] at hblank
      rw [hblank last hmem] at hlast
      contradiction
  . intro hmem
    obtain ⟨front', last', hbefore', hsplit'⟩ := exists_splitOn_append hmem before
    rw [hsplit, List.append_singleton_inj] at hsplit'
    have hlast' : AllBlank last' := by
      apply allBlank_of_words_eq_nil
      have hblank := words_of_allBlank hbefore
      rw [← flatMap_words_splitOn, List.flatMap_eq_nil_iff] at hblank
      apply hblank
      simp [hbefore']
    rw [hsplit'.2, words_blank_append hlast', words_append_allBlank _ hafter, words_of_isWord hword]

end Text
end Graft
