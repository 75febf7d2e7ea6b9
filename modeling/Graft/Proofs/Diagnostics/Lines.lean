import Graft.Diagnostics.Report
import Graft.Proofs.Text.Words

/-!
This module contains how the report on a text falls into what its lines add: each line is read for
itself, but for whether the line in front of it is blank, and each is accounted for once.
-/

namespace Graft

namespace Text

def followsBlank (front : List (List Char)) : Bool :=
  front.getLast?.elim false (·.all isBlank)

/--
Nothing, or a text whose last line is not blank and closed by a line feed.
-/
def IsClosed (cs : List Char) : Prop :=
  cs = [] ∨ cs.getLast? = some '\n' ∧ ∃ line ∈ (lines cs).getLast?, line.all isBlank = false

theorem followsBlank_of_isClosed {cs : List Char} (h : IsClosed cs) :
    followsBlank (lines cs) = false := by
  unfold followsBlank
  rcases h with rfl | ⟨-, line, hline, hblank⟩
  . rfl
  . rw [Option.mem_def.mp hline]
    exact hblank

theorem lines_append {front : List Char} (h : IsClosed front) (back : List Char) :
    lines (front ++ back) = lines front ++ lines back := by
  rcases h with rfl | ⟨hfeed, -⟩
  . rfl
  . obtain ⟨front, rfl⟩ := List.getLast?_eq_some_iff.mp hfeed
    have hlast : lines (front ++ ['\n']) = (front.splitOn '\n').map dropReturn := by
      rw [lines_append_lineFeed]
      exact List.append_nil _
    rw [List.append_assoc, List.singleton_append, lines_append_lineFeed, hlast]

end Text

namespace ParseReport

def mapAmbiguous (f : AmbiguousLine → AmbiguousLine) (r : ParseReport) : ParseReport :=
  { r with ambiguous := r.ambiguous.map f }

def shift (n : Nat) (r : ParseReport) : ParseReport :=
  r.mapAmbiguous fun a => { a with lineNumber := a.lineNumber + n }

def join (rs : List ParseReport) : ParseReport :=
  rs.foldr (· ++ ·) .empty

@[simp]
theorem events_append (a b : ParseReport) : (a ++ b).events = a.events ++ b.events := rfl

@[simp]
theorem ambiguous_append (a b : ParseReport) :
    (a ++ b).ambiguous = a.ambiguous ++ b.ambiguous := rfl

@[simp]
theorem noise_append (a b : ParseReport) : (a ++ b).noise = a.noise + b.noise := rfl

@[simp]
theorem append_empty (r : ParseReport) : r ++ empty = r := by
  change append r empty = r
  simp [append, empty]

@[simp]
theorem empty_append (r : ParseReport) : empty ++ r = r := by
  change append empty r = r
  simp [append, empty]

theorem append_assoc (a b c : ParseReport) : a ++ b ++ c = a ++ (b ++ c) := by
  change append (append a b) c = append a (append b c)
  simp [append, Nat.add_assoc]

theorem mapAmbiguous_append (f : AmbiguousLine → AmbiguousLine) (a b : ParseReport) :
    (a ++ b).mapAmbiguous f = a.mapAmbiguous f ++ b.mapAmbiguous f := by
  change mapAmbiguous f (append a b) = append (mapAmbiguous f a) (mapAmbiguous f b)
  simp [mapAmbiguous, append]

theorem join_concat (rs : List ParseReport) (r : ParseReport) :
    join (rs ++ [r]) = join rs ++ r := by
  induction rs with
  | nil => simp [join]
  | cons first rs ih =>
    change first ++ join (rs ++ [r]) = first ++ join rs ++ r
    rw [ih, append_assoc]

theorem ambiguous_join (rs : List ParseReport) :
    (join rs).ambiguous = rs.flatMap (·.ambiguous) := by
  induction rs with
  | nil => rfl
  | cons first rs ih =>
    rw [List.flatMap_cons, ← ih]
    rfl

end ParseReport

namespace Grammar

variable (g : Grammar)

/--
What a line adds to the report if it is the first one; a blank line adds nothing.
-/
def lineReport (followsBlank : Bool) (line : List Char) : ParseReport :=
  if line.all Text.isBlank then .empty else g.parseLine followsBlank 1 line

theorem parseLine_add (followsBlank : Bool) (number n : Nat) (line : List Char) :
    g.parseLine followsBlank (number + n) line
      =
    (g.parseLine followsBlank number line).shift n := by
  unfold parseLine
  split
  . rfl
  . split <;> rfl

theorem parseLines_singleton (followsBlank : Bool) (n : Nat) (line : List Char) :
    g.parseLines followsBlank (1 + n) [line] = (g.lineReport followsBlank line).shift n := by
  unfold lineReport
  rw [parseLines]
  split
  . rfl
  . rw [parseLine_add]
    exact ParseReport.append_empty _

theorem parseLines_add (followsBlank : Bool) (number n : Nat) (ls : List (List Char)) :
    g.parseLines followsBlank (number + n) ls
      =
    (g.parseLines followsBlank number ls).shift n := by
  induction ls generalizing followsBlank number with
  | nil => rfl
  | cons line rest ih =>
    rw [parseLines, parseLines]
    split
    . rw [Nat.add_right_comm, ih]
    . rw [parseLine_add, Nat.add_right_comm, ih]
      exact (ParseReport.mapAmbiguous_append _ _ _).symm

theorem parseLines_append (followsBlank : Bool) (number : Nat) (front back : List (List Char)) :
    g.parseLines followsBlank number (front ++ back)
      =
    g.parseLines followsBlank number front
      ++ g.parseLines (front.getLast?.elim followsBlank (·.all Text.isBlank))
        (number + front.length) back := by
  induction front generalizing followsBlank number with
  | nil => exact (ParseReport.empty_append _).symm
  | cons line front ih =>
    have hlast : (line :: front).getLast?.elim followsBlank (·.all Text.isBlank)
        = front.getLast?.elim (line.all Text.isBlank) (·.all Text.isBlank) := by
      rw [List.getLast?_cons]
      cases front.getLast? <;> rfl
    have hlength : number + (line :: front).length = number + 1 + front.length := by
      rw [List.length_cons]
      omega
    rw [List.cons_append, parseLines, parseLines, hlast, hlength]
    split
    . next hblank => rw [ih, hblank]
    . next hblank =>
      rw [Bool.not_eq_true] at hblank
      rw [ih, hblank, ParseReport.append_assoc]

theorem parseLines_append_start (front back : List (List Char)) :
    g.parseLines false 1 (front ++ back)
      =
    g.parseLines false 1 front
      ++ g.parseLines (Text.followsBlank front) (1 + front.length) back :=
  g.parseLines_append false 1 front back

/--
The report on some lines as a whole: a line counts by itself and by the one in front of it, its
number is where it stands.
-/
theorem parseLines_eq_join (ls : List (List Char)) :
    g.parseLines false 1 ls
      =
    .join (ls.zipIdx.map fun (line, i) =>
      (g.lineReport (Text.followsBlank (ls.take i)) line).shift i) := by
  induction ls using List.reverseRecOn with
  | nil => rfl
  | append_singleton ls line ih =>
    have hfront : (ls.zipIdx.map fun (line', i) =>
          (g.lineReport (Text.followsBlank ((ls ++ [line]).take i)) line').shift i)
        = ls.zipIdx.map fun (line', i) =>
          (g.lineReport (Text.followsBlank (ls.take i)) line').shift i := by
      apply List.map_congr_left
      rintro ⟨line', i⟩ hmem
      have hi : i < 0 + ls.length := List.snd_lt_add_of_mem_zipIdx hmem
      dsimp only
      rw [List.take_append_of_le_length (by omega)]
    rw [parseLines_append_start, ih, List.zipIdx_append, List.map_append, List.zipIdx_singleton,
      List.map_singleton, ParseReport.join_concat, hfront, parseLines_singleton]
    dsimp only
    rw [Nat.zero_add, List.take_left]

/--
The report on two texts behind each other is the one on the first and the one on the second, whose
lines are counted on, if the first does not end inside a line or with a blank one. For a line is
read by itself, but for whether the line in front of it is blank.
-/
theorem parse_append :
    (∀ a b : String, Text.IsClosed a.toList →
      g.parse (a ++ b) = g.parse a ++ (g.parse b).shift (Text.lines a.toList).length)
      ∧ ∀ text : String, g.parse text
        = .join ((Text.lines text.toList).zipIdx.map fun (line, i) =>
          (g.lineReport (Text.followsBlank ((Text.lines text.toList).take i)) line).shift i) := by
  constructor
  . intro a b h
    unfold parse
    rw [String.toList_append, Text.lines_append h, parseLines_append_start,
      Text.followsBlank_of_isClosed h, parseLines_add]
  . intro text
    exact g.parseLines_eq_join _

def listingStart : String :=
  "ip.o:\n\n U in_cksum\r\n"

/--
More of a listing. Its first line would be read as a symbol behind a blank one.
-/
def listingEnd : String :=
  " U m_get\n\nld: if.o:\nerror: x.h: file not found"

theorem parse_append_listing :
    Text.IsClosed listingStart.toList
      ∧ default.parse (listingStart ++ listingEnd)
        = default.parse listingStart
          ++ (default.parse listingEnd).shift (Text.lines listingStart.toList).length
      ∧ (default.parse (listingStart ++ listingEnd)).ambiguous.map (·.lineNumber) = [6, 7] := by
  have hclosed : Text.IsClosed listingStart.toList :=
    .inr ⟨by decide +kernel, " U in_cksum".toList, by decide +kernel, by decide +kernel⟩
  exact ⟨hclosed, (default.parse_append).1 _ _ hclosed, by decide +kernel⟩

section Account

variable {g} {followsBlank : Bool} {line : List Char}

theorem eventOn?_eq_none_iff :
    g.eventOn? followsBlank line = none
      ↔
    ∀ recognizer ∈ g.recognizers, ∀ event,
      recognizer.classify g followsBlank line ≠ .event event := by
  unfold eventOn?
  rw [List.findSome?_eq_none_iff]
  apply forall₂_congr
  intro recognizer _
  cases recognizer.classify g followsBlank line <;> simp

def FirstDoubt (g : Grammar) (followsBlank : Bool) (line : List Char) (recognizer : Recognizer)
    (doubt : Doubt) : Prop :=
  ∃ front back, g.recognizers = front ++ recognizer :: back
    ∧ recognizer.classify g followsBlank line = .ambiguous doubt
    ∧ ∀ earlier ∈ front, ∀ doubt', earlier.classify g followsBlank line ≠ .ambiguous doubt'

theorem doubtOn?_eq_some_iff {recognizer : Recognizer} {doubt : Doubt} :
    g.doubtOn? followsBlank line = some (recognizer, doubt)
      ↔
    g.FirstDoubt followsBlank line recognizer doubt := by
  unfold doubtOn? FirstDoubt
  rw [List.findSome?_eq_some_iff]
  constructor
  . rintro ⟨front, recognizer', back, hsplit, hfound, hfront⟩
    split at hfound
    . next hclassify =>
      cases hfound
      refine ⟨front, back, hsplit, hclassify, ?_⟩
      intro earlier hearlier doubt' hclassify'
      have hnone := hfront earlier hearlier
      rw [hclassify'] at hnone
      contradiction
    . contradiction
  . rintro ⟨front, back, hsplit, hclassify, hfront⟩
    refine ⟨front, recognizer, back, hsplit, by rw [hclassify], ?_⟩
    intro earlier hearlier
    split
    . next hclassify' => exact absurd hclassify' (hfront earlier hearlier _)
    . rfl

theorem isSome_doubtOn?_iff :
    (g.doubtOn? followsBlank line).isSome
      ↔
    ∃ recognizer ∈ g.recognizers, ∃ doubt,
      recognizer.classify g followsBlank line = .ambiguous doubt := by
  unfold doubtOn?
  rw [List.findSome?_isSome_iff]
  apply exists_congr
  intro recognizer
  apply and_congr_right
  intro _
  cases recognizer.classify g followsBlank line <;> simp

theorem mem_ambiguous_parseLine {number : Nat} {a : AmbiguousLine} :
    a ∈ (g.parseLine followsBlank number line).ambiguous
      ↔
    (a.lineNumber = number ∧ a.line = .ofList line)
      ∧ g.eventOn? followsBlank line = none
      ∧ g.FirstDoubt followsBlank line a.recognizer a.doubt := by
  obtain ⟨number', recognizer, text, doubt⟩ := a
  rw [← doubtOn?_eq_some_iff]
  unfold parseLine
  split
  . next hevent => simp [hevent]
  . next hevent =>
    split
    . next hdoubt =>
      simp only [hevent, hdoubt, List.mem_singleton, AmbiguousLine.mk.injEq, Option.some.injEq,
        Prod.mk.injEq]
      grind
    . next hdoubt => simp [hdoubt]

theorem mem_ambiguous_lineReport {i : Nat} {a : AmbiguousLine} :
    a ∈ ((g.lineReport followsBlank line).shift i).ambiguous
      ↔
    line.all Text.isBlank = false
      ∧ (a.lineNumber = i + 1 ∧ a.line = .ofList line)
      ∧ g.eventOn? followsBlank line = none
      ∧ g.FirstDoubt followsBlank line a.recognizer a.doubt := by
  unfold lineReport
  split
  . next hblank => simp [hblank, ParseReport.shift, ParseReport.mapAmbiguous, ParseReport.empty]
  . next hblank =>
    rw [Bool.not_eq_true] at hblank
    rw [← parseLine_add, mem_ambiguous_parseLine, Nat.add_comm]
    simp [hblank]

theorem ambiguous_parseLines (ls : List (List Char)) :
    (g.parseLines false 1 ls).ambiguous
      =
    ls.zipIdx.flatMap fun (line, i) =>
      ((g.lineReport (Text.followsBlank (ls.take i)) line).shift i).ambiguous := by
  rw [parseLines_eq_join, ParseReport.ambiguous_join, List.flatMap_map]

theorem mem_ambiguous_parseLines {ls : List (List Char)} {a : AmbiguousLine} :
    a ∈ (g.parseLines false 1 ls).ambiguous
      ↔
    ∃ i line, ls[i]? = some line ∧ line.all Text.isBlank = false
      ∧ (a.lineNumber = i + 1 ∧ a.line = .ofList line)
      ∧ g.eventOn? (Text.followsBlank (ls.take i)) line = none
      ∧ g.FirstDoubt (Text.followsBlank (ls.take i)) line a.recognizer a.doubt := by
  rw [ambiguous_parseLines, List.mem_flatMap]
  constructor
  . rintro ⟨⟨line, i⟩, hline, ha⟩
    rw [List.mem_zipIdx_iff_getElem?] at hline
    exact ⟨i, line, hline, mem_ambiguous_lineReport.mp ha⟩
  . rintro ⟨i, line, hline, ha⟩
    refine ⟨(line, i), List.mem_zipIdx_iff_getElem?.mpr hline, ?_⟩
    exact mem_ambiguous_lineReport.mpr ha

theorem pairwise_lineNumber (ls : List (List Char)) :
    ((g.parseLines false 1 ls).ambiguous.map (·.lineNumber)).Pairwise (· < ·) := by
  rw [List.pairwise_map, ambiguous_parseLines, List.pairwise_flatMap]
  constructor
  . -- One line is recorded once at most.
    rintro ⟨line, i⟩ _
    dsimp only
    unfold lineReport
    split
    . exact .nil
    . rw [← parseLine_add]
      unfold parseLine
      split
      . exact .nil
      . split <;> simp
  . have hplaces : (ls.zipIdx.map (·.2)).Pairwise (· < ·) := by
      rw [List.zipIdx_map_snd]
      exact List.pairwise_lt_range' 1
    rw [List.pairwise_map] at hplaces
    apply hplaces.imp
    rintro ⟨line, i⟩ ⟨line', i'⟩ hi a ha a' ha'
    obtain ⟨-, ⟨hnumber, -⟩, -⟩ := mem_ambiguous_lineReport.mp ha
    obtain ⟨-, ⟨hnumber', -⟩, -⟩ := mem_ambiguous_lineReport.mp ha'
    rw [hnumber, hnumber']
    exact Nat.succ_lt_succ hi

end Account

theorem count_parseLine (followsBlank : Bool) (number : Nat) (line : List Char) :
    (g.parseLine followsBlank number line).events.length
      + (g.parseLine followsBlank number line).ambiguous.length
      + (g.parseLine followsBlank number line).noise
      = 1 := by
  unfold parseLine
  split
  . rfl
  . split <;> rfl

theorem count_parseLines (followsBlank : Bool) (number : Nat) (ls : List (List Char)) :
    (g.parseLines followsBlank number ls).events.length
      + (g.parseLines followsBlank number ls).ambiguous.length
      + (g.parseLines followsBlank number ls).noise
      = (ls.filter (!·.all Text.isBlank)).length := by
  induction ls generalizing followsBlank number with
  | nil => rfl
  | cons line rest ih =>
    rw [parseLines, List.filter_cons]
    split
    . next hblank =>
      rw [hblank, ih]
      rfl
    . next hblank =>
      have hline := g.count_parseLine followsBlank number line
      have hrest := ih false (number + 1)
      rw [Bool.not_eq_true] at hblank
      rw [hblank, Bool.not_false, if_pos rfl, List.length_cons]
      simp only [ParseReport.events_append, ParseReport.ambiguous_append,
        ParseReport.noise_append, List.length_append]
      omega

/--
What becomes of some lines in the report on them.
-/
structure Accounts (ls : List (List Char)) (report : ParseReport) : Prop where
  /-- Every line that is not blank counts once. -/
  count : report.events.length + report.ambiguous.length + report.noise
    = (ls.filter (!·.all Text.isBlank)).length
  increasing : (report.ambiguous.map (·.lineNumber)).Pairwise (· < ·)
  line : ∀ a ∈ report.ambiguous, 1 ≤ a.lineNumber ∧ a.lineNumber ≤ ls.length
    ∧ ls[a.lineNumber - 1]? = some a.line.toList
  recorded_iff : ∀ i line, ls[i]? = some line →
    ((∃ a ∈ report.ambiguous, a.lineNumber = i + 1)
      ↔
    line.all Text.isBlank = false
      ∧ (∀ recognizer ∈ g.recognizers, ∀ event,
        recognizer.classify g (Text.followsBlank (ls.take i)) line ≠ .event event)
      ∧ ∃ recognizer ∈ g.recognizers, ∃ doubt,
        recognizer.classify g (Text.followsBlank (ls.take i)) line = .ambiguous doubt)
  first : ∀ a ∈ report.ambiguous,
    g.FirstDoubt (Text.followsBlank (ls.take (a.lineNumber - 1))) a.line.toList a.recognizer
      a.doubt

theorem recorded_iff {ls : List (List Char)} {i : Nat} {line : List Char}
    (hline : ls[i]? = some line) :
    (∃ a ∈ (g.parseLines false 1 ls).ambiguous, a.lineNumber = i + 1)
      ↔
    line.all Text.isBlank = false
      ∧ g.eventOn? (Text.followsBlank (ls.take i)) line = none
      ∧ (g.doubtOn? (Text.followsBlank (ls.take i)) line).isSome := by
  constructor
  . rintro ⟨a, ha, hnumber⟩
    obtain ⟨i', line', hline', hblank, ⟨hnumber', -⟩, hevent, hfirst⟩ :=
      mem_ambiguous_parseLines.mp ha
    have hi : i' = i := by omega
    subst hi
    rw [hline, Option.some_inj] at hline'
    subst hline'
    rw [← doubtOn?_eq_some_iff] at hfirst
    exact ⟨hblank, hevent, by rw [hfirst]; rfl⟩
  . rintro ⟨hblank, hevent, hdoubt⟩
    obtain ⟨⟨recognizer, doubt⟩, hdoubt⟩ := Option.isSome_iff_exists.mp hdoubt
    rw [doubtOn?_eq_some_iff] at hdoubt
    refine ⟨⟨i + 1, recognizer, .ofList line, doubt⟩, ?_, rfl⟩
    exact mem_ambiguous_parseLines.mpr ⟨i, line, hline, hblank, ⟨rfl, rfl⟩, hevent, hdoubt⟩

/--
Every line of a text is accounted for, and each only once.
-/
theorem parse_accounts (text : String) : g.Accounts (Text.lines text.toList) (g.parse text) := by
  unfold parse
  generalize Text.lines text.toList = ls
  constructor
  case count => exact g.count_parseLines false 1 ls
  case increasing => exact pairwise_lineNumber ls
  case line =>
    intro a ha
    obtain ⟨i, line, hline, -, ⟨hnumber, htext⟩, -⟩ := mem_ambiguous_parseLines.mp ha
    obtain ⟨hi, -⟩ := List.getElem?_eq_some_iff.mp hline
    rw [hnumber, htext, Nat.add_sub_cancel, String.toList_ofList]
    exact ⟨by omega, by omega, hline⟩
  case recorded_iff =>
    intro i line hline
    rw [g.recorded_iff hline, eventOn?_eq_none_iff, isSome_doubtOn?_iff]
  case first =>
    intro a ha
    obtain ⟨i, line, _, _, ⟨hnumber, htext⟩, _, hfirst⟩ := mem_ambiguous_parseLines.mp ha
    rw [hnumber, htext, Nat.add_sub_cancel, String.toList_ofList]
    exact hfirst

def anyEndingGrammar : Grammar :=
  { default with missingIncludeSuffixes := [""] }

/--
A blank line is passed over, though a recognizer has a doubt about it and none finds an event on it.
-/
theorem blank_not_recorded :
    (Text.lines "\n".toList)[0]? = some []
      ∧ ¬ ((∃ a ∈ (anyEndingGrammar.parse "\n").ambiguous, a.lineNumber = 0 + 1)
        ↔
      (∀ recognizer ∈ anyEndingGrammar.recognizers, ∀ event,
        recognizer.classify anyEndingGrammar (Text.followsBlank []) [] ≠ .event event)
        ∧ ∃ recognizer ∈ anyEndingGrammar.recognizers, ∃ doubt,
          recognizer.classify anyEndingGrammar (Text.followsBlank []) [] = .ambiguous doubt) := by
  refine ⟨by decide, ?_⟩
  have hrecorded : ¬ ∃ a ∈ (anyEndingGrammar.parse "\n").ambiguous, a.lineNumber = 0 + 1 := by
    decide +kernel
  have hevent : anyEndingGrammar.eventOn? (Text.followsBlank []) [] = none := by
    decide +kernel
  have hdoubt : (anyEndingGrammar.doubtOn? (Text.followsBlank []) []).isSome := by
    decide +kernel
  rw [← eventOn?_eq_none_iff, ← isSome_doubtOn?_iff]
  intro hiff
  exact hrecorded (hiff.mpr ⟨hevent, hdoubt⟩)

end Grammar
end Graft
