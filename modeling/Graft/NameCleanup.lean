import Graft.Pattern.Match

/-!
This module contains the cleanup of the names that an extraction tool reports: attributes and stop
words go by configured rules, a list of parameters at the end goes always.
-/

namespace Graft

/--
What to do with a name that matches a pattern.
-/
inductive StripAction where
  /-- Drop the definition. -/
  | discard
  /-- Remove what matches. -/
  | strip
  /-- Remove what matches together with the parenthesized group behind it. -/
  | stripClause
  deriving DecidableEq, Repr, Inhabited

namespace StripAction

def name : StripAction → String
  | .discard => "discard"
  | .strip => "strip"
  | .stripClause => "strip-clause"

def ofName? : String → Option StripAction
  | "discard" => some .discard
  | "strip" => some .strip
  | "strip-clause" => some .stripClause
  | _ => none

end StripAction

namespace NameCleanup

/--
What follows the bracket that closes the current one; `depth` brackets are open.
-/
def closeGroup? (opening closing : Char) (depth : Nat) : List Char → Option (List Char)
  | [] => none
  | c :: cs =>
    if c = opening then closeGroup? opening closing (depth + 1) cs
    else if c = closing then
      if depth ≤ 1 then some cs else closeGroup? opening closing (depth - 1) cs
    else closeGroup? opening closing depth cs

theorem closeGroup?_length_lt {opening closing : Char} {depth : Nat} {cs rest : List Char}
    (h : closeGroup? opening closing depth cs = some rest) : rest.length < cs.length := by
  induction cs generalizing depth with
  | nil => simp [closeGroup?] at h
  | cons c cs ih =>
    simp only [closeGroup?] at h
    split at h
    . exact Nat.lt_succ_of_lt (ih h)
    . split at h
      . split at h
        . simp_all
        . exact Nat.lt_succ_of_lt (ih h)
      . exact Nat.lt_succ_of_lt (ih h)

/--
The text behind the parenthesized group at its beginning. Without such a group it is the text itself,
and a group that is never closed extends to the end.
-/
def dropClause (cs : List Char) : List Char :=
  match Text.trimStart cs with
  | '(' :: rest => (closeGroup? '(' ')' 1 rest).getD []
  | _ => cs

theorem dropClause_length_le (cs : List Char) : (dropClause cs).length ≤ cs.length := by
  have h : (Text.trimStart cs).length ≤ cs.length := (List.dropWhile_sublist _).length_le
  simp only [dropClause]
  split
  . next rest heq =>
    rw [heq] at h
    cases hc : closeGroup? '(' ')' 1 rest with
    | none => simp
    | some tail =>
      have := closeGroup?_length_lt hc
      simp only [List.length_cons, Option.getD_some] at *
      omega
  . exact Nat.le_refl _

def removeClause (m : Pattern.Match) : List Char :=
  m.before ++ dropClause m.after

theorem removeClause_length_lt {m : Pattern.Match} (h : ¬ m.hit.isEmpty) :
    (removeClause m).length < m.text.length := by
  have hhit := List.length_pos_iff.2 (mt List.isEmpty_iff.2 h)
  have hafter := dropClause_length_le m.after
  simp only [removeClause, Pattern.Match.text, List.length_append]
  omega

/--
Remove matches with the groups behind them until none is left or the first one is empty.
-/
def stripClauses (s : Pattern.Search) (cs : List Char) : List Char :=
  match _h : s.find? cs with
  | none => cs
  | some m => if _hhit : m.hit.isEmpty then cs else stripClauses s (removeClause m)
termination_by cs.length
decreasing_by
  have := removeClause_length_lt _hhit
  rwa [s.text_of_find? _h] at this

/--
The text without white space at its end and without the parenthesized group there. If the group at
the end is not balanced it stays.
-/
def stripTrailingGroup (cs : List Char) : List Char :=
  let trimmed := Text.trimEnd cs
  match trimmed.reverse with
  | ')' :: front =>
    match closeGroup? ')' '(' 1 front with
    | some rest => Text.trimEnd rest.reverse
    | none => trimmed
  | _ => trimmed

/--
What is done to a name by a rule: the parts of the name that it is about, and what becomes of them.
-/
structure Step where
  search : Pattern.Search
  action : StripAction

namespace Step

def result? (step : Step) (name : List Char) : Option (List Char) :=
  match step.action with
  | .discard => if step.search.isMatch name then none else some name
  | .strip => some (step.search.removeAll name)
  | .stripClause => some (stripClauses step.search name)

end Step

/--
A name without the group at its end, if anything is left of it.
-/
def finish? (name : List Char) : Option (List Char) :=
  let name := Text.trim (stripTrailingGroup name)
  if name.isEmpty then none else some name

/--
The name that a reported name stands for, if there is one: all steps are taken in order, then the
group at the end goes.
-/
def cleanBy? (steps : List Step) (raw : List Char) : Option (List Char) := do
  let name ← steps.foldlM (fun name step => step.result? name) (Text.trim raw)
  finish? name

end NameCleanup
end Graft
