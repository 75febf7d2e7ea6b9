import Graft.Proofs.NameCleanup.Groups
import Graft.Proofs.Text.Offsets

/-!
This module contains the removal of a clause by byte offsets: what goes with the matched part is the
parenthesized group behind it, and nothing but such a group.
-/

namespace Graft
namespace NameCleanup

/--
The offset behind the bracket that closes the first group, if it is closed. There is no outcome if
the counter of open brackets falls below zero.
-/
def groupEnd? (depth offset : Nat) : List Char → Option (Option Nat)
  | [] => some none
  | c :: cs =>
    if c = '(' then groupEnd? (depth + 1) (offset + c.utf8Size) cs
    else if c = ')' then
      if depth = 0 then none
      else if depth = 1 then some (some (offset + 1))
      else groupEnd? (depth - 1) (offset + c.utf8Size) cs
    else groupEnd? depth (offset + c.utf8Size) cs

/--
The offset where a clause ends whose matched part ends at `stop`; `skipped` bytes of white space
follow, and then `behind`. A group that is never closed extends to the end of the text, which has
`size` bytes.
-/
def clauseEnd? (size stop skipped : Nat) (behind : List Char) : Option Nat :=
  if behind.head? = some '(' then
    (groupEnd? 0 0 behind).map fun
      | some offset => stop + skipped + offset
      | none => size
  else some stop

/--
The text without what is between two offsets and without the group behind it. There is no outcome if
the text is cut within a character or beyond its end, or if the counter of open brackets falls below
zero.
-/
def removeClauseAt? (text : List Char) (start stop : Nat) : Option (List Char) := do
  let (_, rest) ← Text.splitAtByte? stop text
  let skipped := Text.byteSize rest - Text.byteSize (Text.trimStart rest)
  let (_, behind) ← Text.splitAtByte? skipped rest
  let clauseEnd ← clauseEnd? (Text.byteSize text) stop skipped behind
  let (front, _) ← Text.splitAtByte? start text
  let (_, back) ← Text.splitAtByte? clauseEnd text
  return front ++ back

theorem groupEnd?_balanced_append {inside : List Char} (h : Balanced '(' ')' inside)
    (depth offset : Nat) (rest : List Char) :
    groupEnd? (depth + 1) offset (inside ++ rest)
      =
    groupEnd? (depth + 1) (offset + Text.byteSize inside) rest := by
  induction h generalizing depth offset rest with
  | nil => rfl
  | other hopening hclosing _ ih =>
    rw [List.cons_append, groupEnd?, if_neg hopening, if_neg hclosing, ih, Text.byteSize_cons,
      Nat.add_assoc]
  | group _ _ ihinside ihrest =>
    rw [List.cons_append, groupEnd?, if_pos rfl, List.append_assoc, ihinside, List.cons_append,
      groupEnd?, if_neg (by decide), if_pos rfl, if_neg (by omega), if_neg (by omega),
      Nat.add_sub_cancel, ihrest, Text.byteSize_cons, Text.byteSize_append, Text.byteSize_cons]
    congr 1
    omega

theorem groupEnd?_grouped {inside : List Char} (h : Balanced '(' ')' inside) (tail : List Char) :
    groupEnd? 0 0 (grouped inside ++ tail) = some (some (Text.byteSize (grouped inside))) := by
  have hclosing : Char.utf8Size ')' = 1 := rfl
  have hscan : grouped inside ++ tail = '(' :: (inside ++ ')' :: tail) := by
    rw [grouped, List.cons_append, List.append_assoc, List.singleton_append]
  rw [hscan, groupEnd?, if_pos rfl, groupEnd?_balanced_append h, groupEnd?, if_neg (by decide),
    if_pos rfl, if_neg (by omega), if_pos rfl, grouped, Text.byteSize_cons, Text.byteSize_append,
    Text.byteSize_cons, Text.byteSize_nil, hclosing]
  simp only [Option.some_inj]
  omega

theorem groupEnd?_of_closeGroup?_eq_none {depth : Nat} {cs : List Char}
    (h : closeGroup? '(' ')' (depth + 1) cs = none) (offset : Nat) :
    groupEnd? (depth + 1) offset cs = some none := by
  induction cs generalizing depth offset with
  | nil => rfl
  | cons c cs ih =>
    rw [closeGroup?] at h
    rw [groupEnd?]
    split at h
    . next hopening =>
      rw [if_pos hopening]
      exact ih h _
    . next hopening =>
      rw [if_neg hopening]
      split at h
      . next hclosing =>
        rw [if_pos hclosing, if_neg (by omega)]
        cases depth with
        | zero => contradiction
        | succ depth =>
          rw [if_neg (by omega)] at h ⊢
          exact ih h _
      . next hclosing =>
        rw [if_neg hclosing]
        exact ih h _

section

variable {rest behind tail inside : List Char}

theorem dropClause_of_opening (h : Text.trimStart rest = '(' :: behind) :
    dropClause rest = (closeGroup? '(' ')' 1 behind).getD [] := by
  unfold dropClause
  rw [h]
  rfl

theorem dropClause_of_grouped (hinside : Balanced '(' ')' inside)
    (h : Text.trimStart rest = grouped inside ++ tail) :
    dropClause rest = tail := by
  have hclose : closeGroup? '(' ')' 1 (inside ++ ')' :: tail) = some tail := by
    rw [closeGroup?_eq_some_iff (by decide)]
    exact ⟨inside, hinside, rfl⟩
  rw [grouped, List.cons_append, List.append_assoc, List.singleton_append] at h
  rw [dropClause_of_opening h, hclose, Option.getD_some]

theorem dropClause_of_head?_ne (h : (Text.trimStart rest).head? ≠ some '(') :
    dropClause rest = rest := by
  unfold dropClause
  split
  . next heq =>
    rw [heq] at h
    contradiction
  . rfl

/--
An opening bracket that is not closed: the scan reaches the end with the bracket open.
-/
theorem closeGroup?_of_no_group
    (h : ∀ inside, Balanced '(' ')' inside → ¬ grouped inside <+: '(' :: rest) :
    closeGroup? '(' ')' 1 rest = none := by
  cases hclose : closeGroup? '(' ')' 1 rest with
  | none => rfl
  | some tail =>
    obtain ⟨inside, hinside, rfl⟩ := exists_balanced_of_closeGroup? hclose
    refine absurd ?_ (h inside hinside)
    exact ⟨tail, by simp [grouped]⟩

theorem dropClause_of_no_group (hhead : (Text.trimStart rest).head? = some '(')
    (h : ∀ inside, Balanced '(' ')' inside → ¬ grouped inside <+: Text.trimStart rest) :
    dropClause rest = [] := by
  obtain ⟨behind, hbehind⟩ := List.head?_eq_some_iff.mp hhead
  rw [hbehind] at h
  rw [dropClause_of_opening hbehind, closeGroup?_of_no_group h, Option.getD_none]

theorem exists_clauseEnd? (front rest : List Char) :
    ∃ dropped, front ++ rest = dropped ++ dropClause rest
      ∧ clauseEnd? (Text.byteSize (front ++ rest)) (Text.byteSize front)
          (Text.byteSize (rest.takeWhile Text.isBlank)) (Text.trimStart rest)
        = some (Text.byteSize dropped) := by
  have hrest : rest = rest.takeWhile Text.isBlank ++ Text.trimStart rest :=
    (List.takeWhile_append_dropWhile).symm
  unfold clauseEnd?
  by_cases hhead : (Text.trimStart rest).head? = some '('
  . rw [if_pos hhead]
    by_cases hgroup : ∃ inside, Balanced '(' ')' inside ∧ grouped inside <+: Text.trimStart rest
    . obtain ⟨inside, hinside, tail, htail⟩ := hgroup
      refine ⟨front ++ (rest.takeWhile Text.isBlank ++ grouped inside), ?_, ?_⟩
      . rw [dropClause_of_grouped hinside htail.symm, List.append_assoc, List.append_assoc, htail,
          ← hrest]
      . rw [← htail, groupEnd?_grouped hinside]
        simp only [Option.map_some, Text.byteSize_append, Nat.add_assoc]
    . rw [not_exists] at hgroup
      have hno : ∀ inside, Balanced '(' ')' inside →
          ¬ grouped inside <+: Text.trimStart rest := by
        intro inside hinside hprefix
        exact hgroup inside ⟨hinside, hprefix⟩
      refine ⟨front ++ rest, by rw [dropClause_of_no_group hhead hno, List.append_nil], ?_⟩
      obtain ⟨behind, hbehind⟩ := List.head?_eq_some_iff.mp hhead
      rw [hbehind] at hno ⊢
      rw [groupEnd?, if_pos rfl, groupEnd?_of_closeGroup?_eq_none (closeGroup?_of_no_group hno)]
      rfl
  . rw [if_neg hhead]
    exact ⟨front, by rw [dropClause_of_head?_ne hhead], rfl⟩

theorem removeClauseAt?_eq (m : Pattern.Match) :
    removeClauseAt? m.text (Text.byteSize m.before) (Text.byteSize (m.before ++ m.hit))
      =
    some (removeClause m) := by
  obtain ⟨before, hit, rest⟩ := m
  have htext : before ++ (hit ++ rest) = (before ++ hit) ++ rest := by
    rw [List.append_assoc]
  have hblanks : Text.splitAtByte? (Text.byteSize (rest.takeWhile Text.isBlank)) rest
      = some (rest.takeWhile Text.isBlank, Text.trimStart rest) := by
    have hsplit := Text.splitAtByte?_byteSize (rest.takeWhile Text.isBlank) (Text.trimStart rest)
    unfold Text.trimStart at hsplit ⊢
    rwa [List.takeWhile_append_dropWhile] at hsplit
  have hskipped : Text.byteSize rest - Text.byteSize (Text.trimStart rest)
      = Text.byteSize (rest.takeWhile Text.isBlank) := by
    have hsize : Text.byteSize (rest.takeWhile Text.isBlank ++ Text.trimStart rest)
        = Text.byteSize rest := congrArg Text.byteSize List.takeWhile_append_dropWhile
    rw [Text.byteSize_append] at hsize
    omega
  obtain ⟨dropped, hdropped, hend⟩ := exists_clauseEnd? (before ++ hit) rest
  have hback : Text.splitAtByte? (Text.byteSize dropped) (before ++ hit ++ rest)
      = some (dropped, dropClause rest) := by
    rw [hdropped, Text.splitAtByte?_byteSize]
  unfold removeClauseAt? Pattern.Match.text
  dsimp only
  rw [htext, Text.splitAtByte?_byteSize]
  simp only [Option.bind_eq_bind, Option.bind_some]
  rw [hskipped, hblanks]
  simp only [Option.bind_some]
  rw [hend, ← htext, Text.splitAtByte?_byteSize]
  simp only [Option.bind_some]
  rw [htext, hback]
  rfl

end

theorem match_eq_of_byteSize {m m' : Pattern.Match} (htext : m.text = m'.text)
    (hbefore : Text.byteSize m.before = Text.byteSize m'.before)
    (hhit : Text.byteSize (m.before ++ m.hit) = Text.byteSize (m'.before ++ m'.hit)) :
    m = m' := by
  obtain ⟨before, hit, after⟩ := m
  obtain ⟨before', hit', after'⟩ := m'
  rw [Text.byteSize_append, Text.byteSize_append, hbefore, Nat.add_left_cancel_iff] at hhit
  obtain ⟨rfl, hrest⟩ := Text.append_inj_of_byteSize htext hbefore
  obtain ⟨rfl, rfl⟩ := Text.append_inj_of_byteSize hrest hhit
  rfl

/--
The removal of a clause is exact and always has an outcome: between valid offsets no cut is out of
range or within a character, and the counter of open brackets does not fall below zero. With the
matched part goes the group behind it together with the white space in between; a bracket that is
never closed takes the rest of the text with it; and without a bracket nothing goes but the matched
part.
-/
theorem removeClauseAt?_exact {text : List Char} {start stop : Nat} (hle : start ≤ stop)
    (hstart : String.Pos.Raw.IsValid (.ofList text) ⟨start⟩)
    (hstop : String.Pos.Raw.IsValid (.ofList text) ⟨stop⟩) :
    ∃ m : Pattern.Match, m.text = text ∧ Text.byteSize m.before = start
      ∧ Text.byteSize (m.before ++ m.hit) = stop
      ∧ removeClauseAt? text start stop = some (removeClause m)
      ∧ (∀ blanks inside tail, Text.AllBlank blanks → Balanced '(' ')' inside →
        m.after = blanks ++ (grouped inside ++ tail) → removeClause m = m.before ++ tail)
      ∧ ((Text.trimStart m.after).head? = some '(' →
        (∀ inside, Balanced '(' ')' inside → ¬ grouped inside <+: Text.trimStart m.after) →
        removeClause m = m.before)
      ∧ ((Text.trimStart m.after).head? ≠ some '(' → removeClause m = m.before ++ m.after) := by
  obtain ⟨before, hit, rest, rfl, rfl, rfl⟩ := Text.exists_range_of_isValid hle hstart hstop
  refine ⟨⟨before, hit, rest⟩, rfl, rfl, rfl, removeClauseAt?_eq ⟨before, hit, rest⟩, ?_, ?_, ?_⟩
  . rintro blanks inside tail hblanks hinside rfl
    have htrim : Text.trimStart (blanks ++ (grouped inside ++ tail)) = grouped inside ++ tail :=
      List.dropWhile_append_of_pos hblanks
    unfold removeClause
    rw [dropClause_of_grouped hinside htrim]
  . intro hhead hno
    unfold removeClause
    rw [dropClause_of_no_group hhead hno, List.append_nil]
  . intro hhead
    unfold removeClause
    rw [dropClause_of_head?_ne hhead]

theorem removeClauseAt?_exact_prototype :
    (2 ≤ 5 ∧ String.Pos.Raw.IsValid (.ofList "é__P\u2003((void))ü".toList) ⟨2⟩
        ∧ String.Pos.Raw.IsValid (.ofList "é__P\u2003((void))ü".toList) ⟨5⟩
        ∧ removeClauseAt? "é__P\u2003((void))ü".toList 2 5
          = some ("é".toList ++ "ü".toList))
      ∧ (0 ≤ 3 ∧ String.Pos.Raw.IsValid (.ofList "__P (void".toList) ⟨0⟩
        ∧ String.Pos.Raw.IsValid (.ofList "__P (void".toList) ⟨3⟩
        ∧ removeClauseAt? "__P (void".toList 0 3 = some []) := by
  have hvalid : String.Pos.Raw.IsValid (.ofList "é__P\u2003((void))ü".toList) ⟨2⟩
      ∧ String.Pos.Raw.IsValid (.ofList "é__P\u2003((void))ü".toList) ⟨5⟩ := by
    decide +kernel
  have hvalid' : String.Pos.Raw.IsValid (.ofList "__P (void".toList) ⟨0⟩
      ∧ String.Pos.Raw.IsValid (.ofList "__P (void".toList) ⟨3⟩ := by
    decide +kernel
  refine ⟨⟨by decide, hvalid.1, hvalid.2, ?_⟩, by decide, hvalid'.1, hvalid'.2, ?_⟩
  . obtain ⟨m, htext, hbefore, hhit, hresult, hgroup, -, -⟩ :=
      removeClauseAt?_exact (by decide) hvalid.1 hvalid.2
    have hm : m = ⟨"é".toList, "__P".toList, "\u2003((void))ü".toList⟩ :=
      match_eq_of_byteSize htext hbefore hhit
    subst hm
    have hinside : Balanced '(' ')' "(void)".toList := by decide
    have hblank : ∀ c ∈ "\u2003".toList, Text.isBlank c := by simp [Text.isBlank]
    rw [hresult, hgroup "\u2003".toList "(void)".toList "ü".toList hblank hinside rfl]
  . obtain ⟨m, htext, hbefore, hhit, hresult, -, hopen, -⟩ :=
      removeClauseAt?_exact (by decide) hvalid'.1 hvalid'.2
    have hm : m = ⟨[], "__P".toList, " (void".toList⟩ :=
      match_eq_of_byteSize htext hbefore hhit
    subst hm
    have hno : ∀ inside, Balanced '(' ')' inside →
        ¬ grouped inside <+: Text.trimStart " (void".toList := by
      intro inside _ hprefix
      have hmem : ')' ∈ Text.trimStart " (void".toList := by
        apply hprefix.subset
        simp [grouped]
      revert hmem
      decide
    rw [hresult, hopen (by decide) hno]

end NameCleanup
end Graft
