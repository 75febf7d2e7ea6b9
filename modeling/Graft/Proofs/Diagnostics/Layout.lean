import Graft.Proofs.Diagnostics.Lines
import Mathlib.Data.List.Basic

/-!
This module contains that the layout of a text does not matter for what is read from it: neither the
form of its line ends nor the white space around its lines.
-/

namespace Graft

namespace Text

structure Margins where
  before : List Char
  after : List Char
  allBlank : AllBlank before ∧ AllBlank after
  noFeed : '\n' ∉ before ∧ '\n' ∉ after

def Margins.around (margins : Margins) (content : List Char) : List Char :=
  margins.before ++ (content ++ margins.after)

inductive LineEnd where
  | feed
  | returnFeed
  deriving DecidableEq, Repr

def LineEnd.text : LineEnd → List Char
  | feed => ['\n']
  | returnFeed => ['\r', '\n']

/--
A text with one form of line ends throughout and with margins around each of its lines. What stands
behind the last line end gets margins too, also where nothing does.
-/
def laidOut (margins : Nat → Margins) (lineEnd : LineEnd) (text : String) : String :=
  .ofList (lineEnd.text.intercalate
    ((text.toList.splitOn '\n').mapIdx fun i content => (margins i).around content))

theorem trim_around (margins : Margins) (content : List Char) :
    trim (margins.around content) = trim content := by
  unfold Margins.around
  rw [trim_blank_append margins.allBlank.1, trim_append_allBlank _ margins.allBlank.2]

theorem not_mem_around (margins : Margins) {content : List Char} (h : '\n' ∉ content) :
    '\n' ∉ margins.around content := by
  unfold Margins.around
  simp [margins.noFeed, h]

theorem LineEnd.exists_text_eq (lineEnd : LineEnd) :
    ∃ blanks, lineEnd.text = blanks ++ ['\n'] ∧ AllBlank blanks ∧ '\n' ∉ blanks := by
  cases lineEnd with
  | feed => exact ⟨[], rfl, allBlank_nil, List.not_mem_nil⟩
  | returnFeed => exact ⟨['\r'], rfl, by simp [isBlank], by simp⟩

theorem map_trim_splitOn_intercalate (lineEnd : LineEnd) {pieces : List (List Char)}
    (hne : pieces ≠ []) (h : ∀ piece ∈ pieces, '\n' ∉ piece) :
    ((lineEnd.text.intercalate pieces).splitOn '\n').map trim = pieces.map trim := by
  obtain ⟨blanks, htext, hblanks, hfeed⟩ := lineEnd.exists_text_eq
  induction pieces with
  | nil => contradiction
  | cons piece pieces ih =>
    rw [List.forall_mem_cons] at h
    cases pieces with
    | nil => rw [List.intercalate_singleton, List.splitOn_eq_singleton h.1]
    | cons piece' pieces =>
      have hpiece : '\n' ∉ piece ++ blanks := by
        simp [h.1, hfeed]
      rw [List.intercalate_cons_cons, htext, ← List.append_assoc, List.append_assoc,
        List.singleton_append, List.splitOn_append_cons_self, List.splitOn_eq_singleton hpiece,
        List.map_append, List.map_singleton, trim_append_allBlank _ hblanks, ← htext,
        ih (List.cons_ne_nil _ _) h.2]
      rfl

theorem map_trim_splitOn_laidOut (margins : Nat → Margins) (lineEnd : LineEnd) (text : String) :
    ((laidOut margins lineEnd text).toList.splitOn '\n').map trim
      =
    (text.toList.splitOn '\n').map trim := by
  unfold laidOut
  rw [String.toList_ofList, map_trim_splitOn_intercalate]
  . apply List.ext_getElem?
    intro i
    simp only [List.getElem?_map, List.getElem?_mapIdx, Option.map_map, Function.comp_def,
      trim_around]
  . rw [← List.length_pos_iff, List.length_mapIdx, List.length_pos_iff]
    apply List.splitOn_ne_nil
  . intro piece hpiece
    obtain ⟨i, hi, rfl⟩ := List.mem_mapIdx.mp hpiece
    apply not_mem_around
    exact not_mem_of_mem_splitOn (List.getElem_mem hi)

end Text

namespace ParseReport

def withoutLines (r : ParseReport) : ParseReport :=
  r.mapAmbiguous fun a => { a with line := "" }

end ParseReport

section SameContent

variable {line line' : List Char} (h : Text.trim line = Text.trim line')

include h

theorem Recognizer.classify_eq_of_trim_eq (g : Grammar) (followsBlank : Bool)
    (recognizer : Recognizer) :
    recognizer.classify g followsBlank line = recognizer.classify g followsBlank line' := by
  have hwords := Text.words_eq_of_trim_eq h
  cases recognizer with
  | missingInclude =>
    unfold classify Diagnostics.classifyMissingInclude
    rw [h]
  | undefinedReference =>
    unfold classify Diagnostics.classifyUndefinedReference
    rw [hwords]
  | blankSeparatedSymbol =>
    unfold classify Diagnostics.classifyBlankSeparatedSymbol
    rw [hwords]

end SameContent

namespace Grammar

variable (g : Grammar)

theorem withoutLines_parseLine {line line' : List Char} (h : Text.trim line = Text.trim line')
    (followsBlank : Bool) (number : Nat) :
    (g.parseLine followsBlank number line).withoutLines
      =
    (g.parseLine followsBlank number line').withoutLines := by
  have hevent : g.eventOn? followsBlank line = g.eventOn? followsBlank line' := by
    unfold eventOn?
    simp only [Recognizer.classify_eq_of_trim_eq h]
  have hdoubt : g.doubtOn? followsBlank line = g.doubtOn? followsBlank line' := by
    unfold doubtOn?
    simp only [Recognizer.classify_eq_of_trim_eq h]
  unfold parseLine
  rw [hevent, hdoubt]
  split
  . rfl
  . split <;> rfl

theorem withoutLines_parseLines_cons {line line' : List Char} {rest rest' : List (List Char)}
    (h : Text.trim line = Text.trim line')
    (hrest : ∀ followsBlank number, (g.parseLines followsBlank number rest).withoutLines
      = (g.parseLines followsBlank number rest').withoutLines)
    (followsBlank : Bool) (number : Nat) :
    (g.parseLines followsBlank number (line :: rest)).withoutLines
      =
    (g.parseLines followsBlank number (line' :: rest')).withoutLines := by
  rw [parseLines, parseLines, Text.all_isBlank_eq_of_trim_eq h]
  split
  . apply hrest
  . unfold ParseReport.withoutLines at *
    rw [ParseReport.mapAmbiguous_append, ParseReport.mapAmbiguous_append, hrest]
    congr 1
    exact g.withoutLines_parseLine h followsBlank number

theorem withoutLines_parseLines {ls ls' : List (List Char)}
    (h : ls.map Text.trim = ls'.map Text.trim) (followsBlank : Bool) (number : Nat) :
    (g.parseLines followsBlank number ls).withoutLines
      =
    (g.parseLines followsBlank number ls').withoutLines := by
  induction ls generalizing ls' followsBlank number with
  | nil =>
    rw [List.map_nil, List.nil_eq, List.map_eq_nil_iff] at h
    rw [h]
  | cons line rest ih =>
    obtain ⟨line', rest', rfl, hline, hrest⟩ := List.map_eq_cons_iff.mp h.symm
    exact g.withoutLines_parseLines_cons hline.symm (ih hrest.symm) followsBlank number

/--
A piece at the end that holds nothing is no line, but a blank one would not be told either.
-/
theorem withoutLines_parseLines_linesOfPieces (pieces : List (List Char)) (followsBlank : Bool)
    (number : Nat) :
    (g.parseLines followsBlank number (Text.linesOfPieces pieces)).withoutLines
      =
    (g.parseLines followsBlank number pieces).withoutLines := by
  induction pieces generalizing followsBlank number with
  | nil => rfl
  | cons piece pieces ih =>
    cases pieces with
    | nil =>
      unfold Text.linesOfPieces
      split
      . next hempty =>
        rw [List.isEmpty_iff] at hempty
        rw [hempty]
        rfl
      . rfl
    | cons piece' pieces =>
      rw [Text.linesOfPieces]
      . exact g.withoutLines_parseLines_cons (Text.trim_dropReturn piece) ih followsBlank number
      . simp

/--
What is read from a text does not depend on its layout, but for the texts of ambiguous lines.
-/
theorem parse_laidOut (margins : Nat → Text.Margins) (lineEnd : Text.LineEnd) (text : String) :
    (g.parse (Text.laidOut margins lineEnd text)).withoutLines = (g.parse text).withoutLines := by
  unfold parse Text.lines
  rw [withoutLines_parseLines_linesOfPieces, withoutLines_parseLines_linesOfPieces]
  apply withoutLines_parseLines
  apply Text.map_trim_splitOn_laidOut

end Grammar
end Graft
