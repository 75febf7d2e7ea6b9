import Graft.Diagnostics.Recognizer
import Graft.Text.Line

/-!
This module contains the reading of a whole text of tool output, line by line.
-/

namespace Graft

/--
A line that looks like a diagnostic and was skipped.
-/
structure AmbiguousLine where
  /-- Lines count from one. -/
  lineNumber : Nat
  recognizer : Recognizer
  line : String
  doubt : Doubt
  deriving DecidableEq, Repr, Inhabited

namespace AmbiguousLine

def toJson (a : AmbiguousLine) : Json :=
  .obj [
    ("line_number", .num a.lineNumber),
    ("matcher", .str a.recognizer.name),
    ("line", .str a.line),
    ("reason", .str a.doubt.message)]

end AmbiguousLine

structure ParseReport where
  events : List Event
  ambiguous : List AmbiguousLine
  /-- The number of lines that no recognizer took up. -/
  noise : Nat
  deriving DecidableEq, Repr, Inhabited

namespace ParseReport

def empty : ParseReport := ⟨[], [], 0⟩

def append (a b : ParseReport) : ParseReport :=
  ⟨a.events ++ b.events, a.ambiguous ++ b.ambiguous, a.noise + b.noise⟩

instance : Append ParseReport := ⟨append⟩

def missingIncludes (r : ParseReport) : List MissingInclude :=
  r.events.filterMap fun
    | .missingInclude request => some request
    | .undefinedSymbol _ => none

def undefinedSymbols (r : ParseReport) : List Symbol :=
  r.events.filterMap fun
    | .missingInclude _ => none
    | .undefinedSymbol symbol => some symbol

def toJson (r : ParseReport) : Json :=
  .obj [
    ("events", .arr (r.events.map (·.toJson))),
    ("ambiguous", .arr (r.ambiguous.map (·.toJson))),
    ("noise", .num r.noise)]

end ParseReport

namespace Grammar

def eventOn? (g : Grammar) (followsBlank : Bool) (line : List Char) : Option Event :=
  g.recognizers.findSome? fun recognizer =>
    match recognizer.classify g followsBlank line with
    | .event event => some event
    | _ => none

def doubtOn? (g : Grammar) (followsBlank : Bool) (line : List Char) : Option (Recognizer × Doubt) :=
  g.recognizers.findSome? fun recognizer =>
    match recognizer.classify g followsBlank line with
    | .ambiguous doubt => some (recognizer, doubt)
    | _ => none

/--
What a line that is not blank adds to the report. An event of any recognizer outweighs the doubts of
the others.
-/
def parseLine (g : Grammar) (followsBlank : Bool) (number : Nat) (line : List Char) : ParseReport :=
  match g.eventOn? followsBlank line with
  | some event => ⟨[event], [], 0⟩
  | none =>
    match g.doubtOn? followsBlank line with
    | some (recognizer, doubt) => ⟨[], [⟨number, recognizer, .ofList line, doubt⟩], 0⟩
    | none => ⟨[], [], 1⟩

def parseLines (g : Grammar) (followsBlank : Bool) (number : Nat) : List (List Char) → ParseReport
  | [] => .empty
  | line :: rest =>
    if line.all Text.isBlank then g.parseLines true (number + 1) rest
    else g.parseLine followsBlank number line ++ g.parseLines false (number + 1) rest

def parse (g : Grammar) (text : String) : ParseReport :=
  g.parseLines false 1 (Text.lines text.toList)

end Grammar
end Graft
