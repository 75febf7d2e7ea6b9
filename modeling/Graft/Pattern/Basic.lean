import Graft.Text.Blank
import Graft.Text.CaseFold
import Graft.Text.Digit
import Graft.Text.WordChar

/-!
This module contains patterns: what they consist of and how characters and positions meet them.
-/

namespace Graft

inductive CharSet where
  | none
  /-- All characters between two, both included. -/
  | range (lo hi : Char)
  | digit
  | blank
  | word
  | union (a b : CharSet)
  | inter (a b : CharSet)
  | compl (a : CharSet)
  /-- All characters that differ from one of the set in case at most. -/
  | anyCase (a : CharSet)
  deriving DecidableEq, Repr, Inhabited

namespace CharSet

def single (c : Char) : CharSet := .range c c

def all : CharSet := .compl .none

def diff (a b : CharSet) : CharSet := .inter a (.compl b)

def symmDiff (a b : CharSet) : CharSet := .union (a.diff b) (b.diff a)

def contains (c : Char) : CharSet → Bool
  | .none => false
  | .range lo hi => lo ≤ c && c ≤ hi
  | .digit => Text.isDigit c
  | .blank => Text.isBlank c
  | .word => Text.isWordChar c
  | .union a b => a.contains c || b.contains c
  | .inter a b => a.contains c && b.contains c
  | .compl a => !a.contains c
  | .anyCase a => (Text.caseVariants (Text.fold c)).any a.contains

end CharSet

inductive Anchor where
  | textStart
  | textEnd
  | lineStart
  | lineEnd
  /-- A word begins or ends here. -/
  | wordBoundary
  | noWordBoundary
  | wordStart
  | wordEnd
  /-- No word character precedes. -/
  | wordStartHalf
  /-- No word character follows. -/
  | wordEndHalf
  deriving DecidableEq, Repr, Inhabited

namespace Anchor

/--
Whether the condition holds between two characters, either of which is missing at an end of the text.
-/
def holds (before after : Option Char) : Anchor → Bool
  | .textStart => before.isNone
  | .textEnd => after.isNone
  | .lineStart => before.all (· == '\n')
  | .lineEnd => after.all (· == '\n')
  | .wordBoundary => before.any Text.isWordChar != after.any Text.isWordChar
  | .noWordBoundary => before.any Text.isWordChar == after.any Text.isWordChar
  | .wordStart => !before.any Text.isWordChar && after.any Text.isWordChar
  | .wordEnd => before.any Text.isWordChar && !after.any Text.isWordChar
  | .wordStartHalf => !before.any Text.isWordChar
  | .wordEndHalf => !after.any Text.isWordChar

end Anchor

/--
A pattern for parts of a text. Of two alternatives the first one is preferred; a greedy repetition
prefers more rounds, any other fewer.
-/
inductive Pattern where
  | empty
  | char (set : CharSet)
  | anchor (condition : Anchor)
  | seq (p q : Pattern)
  | alt (p q : Pattern)
  /-- One round or more. -/
  | more (greedy : Bool) (p : Pattern)
  deriving DecidableEq, Repr, Inhabited

namespace Pattern

/--
How much room a pattern takes once it is read. Classes of all scripts count for many ranges.
-/
def size : Pattern → Nat
  | .empty | .anchor _ => 1
  | .char set => weight set
  | .seq p q | .alt p q => p.size + q.size + 1
  | .more _ p => p.size + 1
where
  weight : CharSet → Nat
    | .none | .range .. => 1
    | .blank => 8
    | .digit => 64
    | .word => 256
    | .union a b | .inter a b => weight a + weight b
    | .compl a => weight a + 8
    | .anyCase a => weight a + 1

def sizeLimit : Nat := 327680

def optional (greedy : Bool) (p : Pattern) : Pattern :=
  if greedy then .alt p .empty else .alt .empty p

def times : Nat → Pattern → Pattern
  | 0, _ => .empty
  | 1, p => p
  | n + 1, p => .seq p (times n p)

def upTo (greedy : Bool) : Nat → Pattern → Pattern
  | 0, _ => .empty
  | n + 1, p => optional greedy (if n = 0 then p else .seq p (upTo greedy n p))

/--
Between `min` and `max` rounds of a pattern, or any number from `min`.
-/
def rounds (greedy : Bool) (min : Nat) (max : Option Nat) (p : Pattern) : Pattern :=
  match max with
  | some max => if max = min then times min p else .seq (times min p) (upTo greedy (max - min) p)
  | none =>
    match min with
    | 0 => optional greedy (.more greedy p)
    | 1 => .more greedy p
    | min + 2 => .seq (times (min + 1) p) (.more greedy p)

end Pattern
end Graft
