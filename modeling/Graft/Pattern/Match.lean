import Graft.Distinct
import Graft.Pattern.Basic

/-!
This module contains the search for the parts of a text that match a pattern. For every position it
knows the lengths of all matches that begin there, in order of preference; a list of such rows has one
row for each position, the end of the text included.
-/

namespace Graft
namespace Pattern

/--
The lengths of the matches that begin at one position, in order of preference, each once.
-/
abbrev Row := List Nat

def charRows (set : CharSet) : List Char → List Row
  | [] => [[]]
  | c :: cs => (if set.contains c then [1] else []) :: charRows set cs

def anchorRows (condition : Anchor) (before : Option Char) : List Char → List Row
  | [] => [if condition.holds before none then [0] else []]
  | c :: cs =>
    (if condition.holds before (some c) then [0] else []) :: anchorRows condition (some c) cs

def seqRows : List Row → List Row → List Row
  | row :: rows, later =>
    distinct (row.flatMap fun n => (later.getD n []).map (n + ·)) :: seqRows rows later.tail
  | [], _ => []

/--
The rows of what follows a round of a repetition, from those of its pattern: further rounds, each with
at least one character, or none.
-/
def furtherRows (greedy : Bool) : List Row → List Row
  | row :: rows =>
    let later := furtherRows greedy rows
    let further := row.flatMap fun n => if n = 0 then [] else (later.getD (n - 1) []).map (n + ·)
    distinct (if greedy then further ++ [0] else 0 :: further) :: later
  | [] => []

/--
The rows of a repetition with at least one round, from those of its pattern. A first round without a
character is the only one.
-/
def moreRows (greedy : Bool) (rows : List Row) : List Row :=
  go rows (furtherRows greedy rows)
where
  go : List Row → List Row → List Row
    | row :: rows, further =>
      distinct (row.flatMap fun n => if n = 0 then [0] else (further.getD n []).map (n + ·))
        :: go rows further.tail
    | [], _ => []

/--
The rows of a pattern on a text that follows `before`.
-/
def rows (before : Option Char) (cs : List Char) : Pattern → List Row
  | .empty => List.replicate (cs.length + 1) [0]
  | .char set => charRows set cs
  | .anchor condition => anchorRows condition before cs
  | .seq p q => seqRows (p.rows before cs) (q.rows before cs)
  | .alt p q => List.zipWith (fun a b => distinct (a ++ b)) (p.rows before cs) (q.rows before cs)
  | .more greedy p => moreRows greedy (p.rows before cs)

/--
A part of a text that matches, and what is around it.
-/
structure Match where
  before : List Char
  hit : List Char
  after : List Char
  deriving DecidableEq, Repr, Inhabited

/--
The text that a match is found in.
-/
def Match.text (m : Match) : List Char :=
  m.before ++ (m.hit ++ m.after)

def isMatch (p : Pattern) (cs : List Char) : Bool :=
  (p.rows none cs).any (!·.isEmpty)

def firstHit? : List Row → Option (Nat × Nat)
  | [] => none
  | (n :: _) :: _ => some (0, n)
  | [] :: rows => (firstHit? rows).map fun (i, n) => (i + 1, n)

def find? (p : Pattern) (cs : List Char) : Option Match :=
  (firstHit? (p.rows none cs)).map fun (i, n) =>
    ⟨cs.take i, (cs.drop i).take n, cs.drop (i + n)⟩

theorem text_of_find? {p : Pattern} {cs : List Char} {m : Match} (h : p.find? cs = some m) :
    m.text = cs := by
  obtain ⟨⟨i, n⟩, -, rfl⟩ := Option.map_eq_some_iff.1 h
  simp only [Match.text, ← List.drop_drop, List.take_append_drop]

/--
Keep the characters that belong to no match; `skip` more of them belong to the current one. Matches
are taken from left to right, and one without characters removes nothing.
-/
def keepUnmatched : Nat → List Row → List Char → List Char
  | skip + 1, _ :: rows, _ :: cs => keepUnmatched skip rows cs
  | 0, row :: rows, c :: cs =>
    match row with
    | (n + 1) :: _ => keepUnmatched n rows cs
    | _ => c :: keepUnmatched 0 rows cs
  | _, _, [] => []
  | _, [], cs => cs

theorem keepUnmatched_sublist (skip : Nat) (rows : List Row) (cs : List Char) :
    (keepUnmatched skip rows cs).Sublist cs := by
  fun_induction keepUnmatched skip rows cs with
  | case1 _ _ _ _ _ ih => exact ih.cons _
  | case2 _ _ _ _ _ ih => exact ih.cons _
  | case3 _ _ _ _ _ ih => exact ih.cons_cons _
  | case4 => exact .slnil
  | case5 => exact .refl _

def removeAll (p : Pattern) (cs : List Char) : List Char :=
  keepUnmatched 0 (p.rows none cs) cs

/--
A search for parts of a text, whatever they are known by: what is found is a part of the text in its
place, and to remove all parts leaves some of the characters in their order.
-/
structure Search where
  isMatch : List Char → Bool
  find? : List Char → Option Match
  removeAll : List Char → List Char
  text_of_find? : ∀ {cs m}, find? cs = some m → m.text = cs
  removeAll_sublist : ∀ cs, (removeAll cs).Sublist cs

def search (p : Pattern) : Search where
  isMatch := p.isMatch
  find? := p.find?
  removeAll := p.removeAll
  text_of_find? := text_of_find?
  removeAll_sublist _ := keepUnmatched_sublist _ _ _

end Pattern
end Graft
