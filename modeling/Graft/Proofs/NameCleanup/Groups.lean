import Graft.NameCleanup
import Graft.Proofs.Text.Words

/-!
This module contains what the cleanup of names takes for a parenthesized group, by a grammar of
balanced texts, and that such a group at the end of a text goes, and nothing but such a group.
-/

namespace Graft
namespace NameCleanup

/--
A text in which each opening bracket has a closing bracket of its own behind it, and the other way
round.
-/
inductive Balanced (opening closing : Char) : List Char → Prop
  | nil : Balanced opening closing []
  | other {c : Char} {cs : List Char} (hopening : c ≠ opening) (hclosing : c ≠ closing)
    (h : Balanced opening closing cs) : Balanced opening closing (c :: cs)
  | group {inside rest : List Char} (hinside : Balanced opening closing inside)
    (hrest : Balanced opening closing rest) :
    Balanced opening closing (opening :: (inside ++ closing :: rest))

namespace Balanced

variable {opening closing : Char} {as bs : List Char}

theorem append (ha : Balanced opening closing as) (hb : Balanced opening closing bs) :
    Balanced opening closing (as ++ bs) := by
  induction ha with
  | nil => exact hb
  | other hopening hclosing _ ih => exact .other hopening hclosing ih
  | group hinside _ _ ih =>
    rw [List.cons_append, List.append_assoc, List.cons_append]
    exact .group hinside ih

/--
Read from its end, a balanced text is balanced with the brackets in each other's place.
-/
theorem reverse (h : Balanced opening closing as) : Balanced closing opening as.reverse := by
  induction h with
  | nil => exact .nil
  | other hopening hclosing _ ih =>
    rw [List.reverse_cons]
    exact ih.append (.other hclosing hopening .nil)
  | group _ _ ihinside ihrest =>
    rw [List.reverse_cons, List.reverse_append, List.reverse_cons, List.append_assoc,
      List.append_assoc, List.singleton_append]
    exact ihrest.append (.group ihinside .nil)

end Balanced

section

variable {opening closing : Char}

theorem closeGroup?_add (m n : Nat) (cs : List Char) :
    closeGroup? opening closing (m + 1 + (n + 1)) cs
      =
    (closeGroup? opening closing (m + 1) cs).bind (closeGroup? opening closing (n + 1)) := by
  induction cs generalizing m with
  | nil => rfl
  | cons c cs ih =>
    by_cases hopening : c = opening
    . rw [closeGroup?, if_pos hopening, closeGroup?, if_pos hopening, ← ih]
      congr 1
      omega
    . by_cases hclosing : c = closing
      . rw [closeGroup?, if_neg hopening, if_pos hclosing, if_neg (by omega), closeGroup?,
          if_neg hopening, if_pos hclosing]
        cases m with
        | zero =>
          rw [if_pos (Nat.le_refl 1), Option.bind_some]
          congr 1
          omega
        | succ m =>
          rw [if_neg (by omega), Nat.add_sub_cancel, ← ih]
          congr 1
          omega
      . rw [closeGroup?, if_neg hopening, if_neg hclosing, closeGroup?, if_neg hopening,
          if_neg hclosing, ih]

theorem exists_balanced_of_closeGroup? {cs rest : List Char}
    (h : closeGroup? opening closing 1 cs = some rest) :
    ∃ inside, Balanced opening closing inside ∧ cs = inside ++ closing :: rest := by
  induction hlength : cs.length using Nat.strongRecOn generalizing cs rest with
  | ind length ih =>
    cases cs with
    | nil => contradiction
    | cons c cs =>
      rw [List.length_cons] at hlength
      by_cases hopening : c = opening
      . -- A group within: its own closing bracket comes first, and then the one that is looked for.
        rw [closeGroup?, if_pos hopening, closeGroup?_add 0 0, Option.bind_eq_some_iff] at h
        obtain ⟨middle, hmiddle, hrest⟩ := h
        have hshorter := closeGroup?_length_lt hmiddle
        obtain ⟨inside, hinside, rfl⟩ := ih _ (by omega) hmiddle rfl
        obtain ⟨behind, hbehind, rfl⟩ := ih _ (by omega) hrest rfl
        refine ⟨_, .group hinside hbehind, ?_⟩
        rw [hopening, List.cons_append, List.append_assoc, List.cons_append]
      . by_cases hclosing : c = closing
        . rw [closeGroup?, if_neg hopening, if_pos hclosing, if_pos (Nat.le_refl 1),
            Option.some_inj] at h
          exact ⟨[], .nil, by rw [hclosing, h, List.nil_append]⟩
        . rw [closeGroup?, if_neg hopening, if_neg hclosing] at h
          obtain ⟨inside, hinside, rfl⟩ := ih _ (by omega) h rfl
          exact ⟨c :: inside, .other hopening hclosing hinside, rfl⟩

variable (hne : opening ≠ closing)

include hne

theorem closeGroup?_balanced_append {inside : List Char} (h : Balanced opening closing inside)
    (depth : Nat) (rest : List Char) :
    closeGroup? opening closing (depth + 1) (inside ++ rest)
      =
    closeGroup? opening closing (depth + 1) rest := by
  induction h generalizing depth rest with
  | nil => rfl
  | other hopening hclosing _ ih =>
    rw [List.cons_append, closeGroup?, if_neg hopening, if_neg hclosing, ih]
  | group _ _ ihinside ihrest =>
    rw [List.cons_append, closeGroup?, if_pos rfl, List.append_assoc, ihinside, List.cons_append,
      closeGroup?, if_neg hne.symm, if_pos rfl, if_neg (by omega), Nat.add_sub_cancel, ihrest]

theorem closeGroup?_eq_some_iff {cs rest : List Char} :
    closeGroup? opening closing 1 cs = some rest
      ↔
    ∃ inside, Balanced opening closing inside ∧ cs = inside ++ closing :: rest := by
  constructor
  . exact exists_balanced_of_closeGroup?
  . rintro ⟨inside, hinside, rfl⟩
    rw [closeGroup?_balanced_append hne hinside, closeGroup?, if_neg hne.symm, if_pos rfl,
      if_pos (Nat.le_refl 1)]

theorem balanced_iff {cs : List Char} :
    Balanced opening closing cs ↔ closeGroup? opening closing 1 (cs ++ [closing]) = some [] := by
  rw [closeGroup?_eq_some_iff hne]
  constructor
  . intro h
    exact ⟨cs, h, rfl⟩
  . rintro ⟨inside, hinside, heq⟩
    rw [List.append_cancel_right heq]
    exact hinside

end

instance (cs : List Char) : Decidable (Balanced '(' ')' cs) :=
  decidable_of_iff _ (balanced_iff (by decide)).symm

/--
The search for the end of a group with a counter that must not fall below zero: there is no outcome
if it does. The outcome is what follows the group, if the group is closed at all.
-/
def countedClose? (opening closing : Char) : Nat → List Char → Option (Option (List Char))
  | _, [] => some none
  | depth, c :: cs =>
    if c = opening then countedClose? opening closing (depth + 1) cs
    else if c = closing then
      match depth with
      | 0 => none
      | 1 => some (some cs)
      | depth + 2 => countedClose? opening closing (depth + 1) cs
    else countedClose? opening closing depth cs

theorem countedClose?_succ (opening closing : Char) (depth : Nat) (cs : List Char) :
    countedClose? opening closing (depth + 1) cs
      =
    some (closeGroup? opening closing (depth + 1) cs) := by
  induction cs generalizing depth with
  | nil => rfl
  | cons c cs ih =>
    unfold countedClose? closeGroup?
    split
    . exact ih _
    . split
      . cases depth with
        | zero => rfl
        | succ depth => exact ih depth
      . exact ih depth

theorem countedClose?_opening (opening closing : Char) (cs : List Char) :
    countedClose? opening closing 0 (opening :: cs) = some (closeGroup? opening closing 1 cs) := by
  rw [countedClose?, if_pos rfl, countedClose?_succ]

def grouped (inside : List Char) : List Char :=
  '(' :: (inside ++ [')'])

variable {cs front : List Char}

theorem stripTrailingGroup_of_getLast?_ne (h : (Text.trimEnd cs).getLast? ≠ some ')') :
    stripTrailingGroup cs = Text.trimEnd cs := by
  unfold stripTrailingGroup
  dsimp only
  split
  . next front hreverse =>
    rw [← List.head?_reverse, hreverse] at h
    contradiction
  . rfl

theorem stripTrailingGroup_of_concat (h : Text.trimEnd cs = front ++ [')']) :
    stripTrailingGroup cs
      =
    (closeGroup? ')' '(' 1 front.reverse).elim (Text.trimEnd cs) (Text.trimEnd ·.reverse) := by
  have hreverse : (Text.trimEnd cs).reverse = ')' :: front.reverse := by
    rw [h, List.reverse_concat]
  unfold stripTrailingGroup
  dsimp only
  split
  . next front' hfront =>
    rw [hreverse, List.cons_inj_right] at hfront
    rw [hfront]
    split <;> simp_all
  . next hnone =>
    exact absurd hreverse (hnone _)

theorem closeGroup?_reverse_eq_some_iff {rest : List Char} :
    closeGroup? ')' '(' 1 front.reverse = some rest
      ↔
    ∃ inside, Balanced '(' ')' inside ∧ front ++ [')'] = rest.reverse ++ grouped inside := by
  rw [closeGroup?_eq_some_iff (by decide)]
  constructor
  . rintro ⟨inside, hinside, hscanned⟩
    refine ⟨inside.reverse, hinside.reverse, ?_⟩
    rw [← List.reverse_reverse front, hscanned, grouped]
    simp
  . rintro ⟨inside, hinside, heq⟩
    refine ⟨inside.reverse, hinside.reverse, ?_⟩
    have hfront : front = rest.reverse ++ '(' :: inside := by
      apply List.append_cancel_right
      rw [heq, grouped, List.append_assoc, List.cons_append]
    rw [hfront]
    simp

theorem stripTrailingGroup_of_grouped {inside : List Char} (hinside : Balanced '(' ')' inside)
    (h : Text.trimEnd cs = front ++ grouped inside) :
    stripTrailingGroup cs = Text.trimEnd front := by
  have hconcat : front ++ grouped inside = (front ++ '(' :: inside) ++ [')'] := by
    rw [grouped, List.append_assoc, List.cons_append]
  have hclose : closeGroup? ')' '(' 1 (front ++ '(' :: inside).reverse = some front.reverse := by
    rw [closeGroup?_reverse_eq_some_iff, List.reverse_reverse]
    exact ⟨inside, hinside, hconcat.symm⟩
  rw [stripTrailingGroup_of_concat (h.trans hconcat), hclose, Option.elim_some,
    List.reverse_reverse]

theorem stripTrailingGroup_of_no_group
    (h : ∀ inside, Balanced '(' ')' inside → ¬ grouped inside <:+ Text.trimEnd cs) :
    stripTrailingGroup cs = Text.trimEnd cs := by
  by_cases hlast : (Text.trimEnd cs).getLast? = some ')'
  . obtain ⟨front, hfront⟩ := List.getLast?_eq_some_iff.mp hlast
    rw [stripTrailingGroup_of_concat hfront]
    cases hclose : closeGroup? ')' '(' 1 front.reverse with
    | none => rfl
    | some rest =>
      obtain ⟨inside, hinside, heq⟩ := closeGroup?_reverse_eq_some_iff.mp hclose
      refine absurd ?_ (h inside hinside)
      rw [hfront, heq]
      exact List.suffix_append _ _
  . exact stripTrailingGroup_of_getLast?_ne hlast

theorem exists_countedClose? (h : (Text.trimEnd cs).getLast? = some ')') :
    ∃ outcome, countedClose? ')' '(' 0 (Text.trimEnd cs).reverse = some outcome
      ∧ (∀ rest ∈ outcome, rest.reverse <+: Text.trimEnd cs)
      ∧ stripTrailingGroup cs = outcome.elim (Text.trimEnd cs) (Text.trimEnd ·.reverse) := by
  obtain ⟨front, hfront⟩ := List.getLast?_eq_some_iff.mp h
  refine ⟨closeGroup? ')' '(' 1 front.reverse, ?_, ?_, stripTrailingGroup_of_concat hfront⟩
  . rw [hfront, List.reverse_concat, countedClose?_opening]
  . intro rest hrest
    obtain ⟨inside, -, heq⟩ := closeGroup?_reverse_eq_some_iff.mp hrest
    rw [hfront, heq]
    exact List.prefix_append _ _

theorem stripTrailingGroup_isPrefix (cs : List Char) :
    stripTrailingGroup cs <+: Text.trimEnd cs := by
  by_cases hlast : (Text.trimEnd cs).getLast? = some ')'
  . obtain ⟨outcome, -, hkept, hresult⟩ := exists_countedClose? hlast
    rw [hresult]
    cases outcome with
    | none => exact List.prefix_rfl
    | some rest => exact (Text.trimEnd_isPrefix _).trans (hkept _ rfl)
  . refine ⟨[], ?_⟩
    rw [List.append_nil, stripTrailingGroup_of_getLast?_ne hlast]

/--
A group at the end of a text goes, together with the white space before and behind it; a text without
one only loses the white space at its end. The counter of open brackets never falls below zero, and
every cut is made between two characters.
-/
theorem stripTrailingGroup_exact :
    (∀ name blanks inside after : List Char, name.getLast?.all (!Text.isBlank ·) →
      Text.AllBlank blanks → Balanced '(' ')' inside → Text.AllBlank after →
      stripTrailingGroup (name ++ blanks ++ grouped inside ++ after) = name)
    ∧ (∀ cs, (∀ inside, Balanced '(' ')' inside → ¬ grouped inside <:+ Text.trimEnd cs) →
      stripTrailingGroup cs = Text.trimEnd cs)
    ∧ (∀ cs, (Text.trimEnd cs).getLast? = some ')' →
      ∃ outcome, countedClose? ')' '(' 0 (Text.trimEnd cs).reverse = some outcome
        ∧ (∀ rest ∈ outcome, rest.reverse <+: Text.trimEnd cs)
        ∧ stripTrailingGroup cs = outcome.elim (Text.trimEnd cs) (Text.trimEnd ·.reverse))
    ∧ ∀ cs, stripTrailingGroup cs <+: Text.trimEnd cs ∧ Text.trimEnd cs <+: cs := by
  refine ⟨?_, fun _ => stripTrailingGroup_of_no_group, fun _ => exists_countedClose?,
    fun cs => ⟨stripTrailingGroup_isPrefix cs, Text.trimEnd_isPrefix cs⟩⟩
  intro name blanks inside after hname hblanks hinside hafter
  have htrim : Text.trimEnd (name ++ blanks ++ grouped inside ++ after)
      = name ++ blanks ++ grouped inside := by
    rw [Text.trimEnd_append_allBlank _ hafter]
    apply Text.dropEndWhile_eq_self
    rw [grouped, ← List.cons_append, ← List.append_assoc, List.getLast?_concat]
    rfl
  rw [stripTrailingGroup_of_grouped hinside htrim, Text.trimEnd_append_allBlank _ hblanks]
  exact Text.dropEndWhile_eq_self hname

theorem stripTrailingGroup_exact_callback :
    (Balanced '(' ')' "struct socket *so, int (*cb)(void *)".toList
      ∧ stripTrailingGroup "sosend (struct socket *so, int (*cb)(void *))\t".toList
        = "sosend".toList)
    ∧ ((∀ inside, Balanced '(' ')' inside → ¬ grouped inside <:+ Text.trimEnd "broken) ".toList)
      ∧ stripTrailingGroup "broken) ".toList = "broken)".toList)
    ∧ ((Text.trimEnd "broken) ".toList).getLast? = some ')'
      ∧ ∃ outcome, countedClose? ')' '(' 0 (Text.trimEnd "broken) ".toList).reverse = some outcome
        ∧ "broken)".toList
          = outcome.elim (Text.trimEnd "broken) ".toList) (Text.trimEnd ·.reverse)) := by
  have hinside : Balanced '(' ')' "struct socket *so, int (*cb)(void *)".toList := by decide
  have hno : ∀ inside, Balanced '(' ')' inside →
      ¬ grouped inside <:+ Text.trimEnd "broken) ".toList := by
    intro inside _ hsuffix
    have hmem : '(' ∈ Text.trimEnd "broken) ".toList := hsuffix.subset List.mem_cons_self
    revert hmem
    decide
  have hlast : (Text.trimEnd "broken) ".toList).getLast? = some ')' := by decide
  obtain ⟨hgroup, hrest, hscan, -⟩ := stripTrailingGroup_exact
  have hbroken : stripTrailingGroup "broken) ".toList = "broken)".toList := hrest _ hno
  refine ⟨⟨hinside, ?_⟩, ⟨hno, hbroken⟩, hlast, ?_⟩
  . exact hgroup "sosend".toList " ".toList _ "\t".toList (by decide) (by simp [Text.isBlank])
      hinside (by simp [Text.isBlank])
  . obtain ⟨outcome, hcounted, -, hresult⟩ := hscan _ hlast
    exact ⟨outcome, hcounted, hbroken.symm.trans hresult⟩

end NameCleanup
end Graft
