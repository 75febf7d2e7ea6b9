import Graft.Proofs.Text.Words

/-!
This module contains texts that consist of layers, each with characters of one kind, and that what
drops one kind of character at an end takes the outermost layer off.
-/

namespace Graft
namespace Text

/--
A text of layers, one for each kind of character, in order. A layer may be empty.
-/
inductive Layered : List (Char → Bool) → List Char → Prop
  | nil : Layered [] []
  | cons {p : Char → Bool} {ps : List (Char → Bool)} {layer rest : List Char}
    (hlayer : ∀ c ∈ layer, p c = true) (hrest : Layered ps rest) : Layered (p :: ps) (layer ++ rest)

namespace Layered

variable {p : Char → Bool} {ps qs : List (Char → Bool)} {cs as bs : List Char}

theorem eq_nil (h : Layered [] cs) : cs = [] := by
  cases h
  rfl

theorem single (h : ∀ c ∈ cs, p c = true) : Layered [p] cs := by
  rw [← List.append_nil cs]
  exact .cons h .nil

theorem append (ha : Layered ps as) (hb : Layered qs bs) : Layered (ps ++ qs) (as ++ bs) := by
  induction ha with
  | nil => exact hb
  | cons hlayer _ ih =>
    rw [List.append_assoc]
    exact .cons hlayer ih

theorem reverse (h : Layered ps cs) : Layered ps.reverse cs.reverse := by
  induction h with
  | nil => exact .nil
  | cons hlayer _ ih =>
    rw [List.reverse_cons, List.reverse_append]
    apply ih.append (single _)
    simpa using hlayer

theorem of_suffix (h : Layered ps cs) (hsuffix : as <:+ cs) : Layered ps as := by
  induction h generalizing as with
  | nil =>
    rw [List.suffix_nil.mp hsuffix]
    exact .nil
  | cons hlayer hrest ih =>
    obtain ⟨front, heq⟩ := hsuffix
    rcases List.append_eq_append_iff.mp heq with ⟨layer, rfl, rfl⟩ | ⟨front', rfl, rfl⟩
    . exact .cons (fun c hc => hlayer c (List.mem_append_right _ hc)) hrest
    . rw [← List.nil_append as]
      exact .cons (by simp) (ih (List.suffix_append _ _))

theorem dropWhile (h : Layered (p :: ps) cs) : Layered ps (cs.dropWhile p) := by
  cases h with
  | cons hlayer hrest =>
    rw [List.dropWhile_append_of_pos hlayer]
    exact hrest.of_suffix (List.dropWhile_suffix _)

theorem dropEndWhile (h : Layered (ps ++ [p]) cs) : Layered ps (dropEndWhile p cs) := by
  have hreverse := h.reverse
  rw [List.reverse_concat] at hreverse
  have hdropped := hreverse.dropWhile.reverse
  rwa [List.reverse_reverse] at hdropped

theorem dropBothWhile (h : Layered (p :: (ps ++ [p])) cs) : Layered ps (dropBothWhile p cs) :=
  h.dropWhile.dropEndWhile

end Layered

/--
What is dropped at the ends of a text does not reach what stands bare in its middle.
-/
theorem dropWhile_append_bare {p : Char → Bool} {middle : List Char} (hne : middle ≠ [])
    (h : middle.head?.all (!p ·)) (front back : List Char) :
    (front ++ (middle ++ back)).dropWhile p = front.dropWhile p ++ (middle ++ back) := by
  have hmiddle : (middle ++ back).dropWhile p = middle ++ back := by
    apply dropWhile_eq_self
    rwa [List.head?_append_of_ne_nil _ hne]
  rw [List.dropWhile_append]
  split
  . next hempty =>
    rw [List.isEmpty_iff.mp hempty, hmiddle, List.nil_append]
  . rfl

theorem dropEndWhile_append_bare {p : Char → Bool} {middle : List Char} (hne : middle ≠ [])
    (h : middle.getLast?.all (!p ·)) (front back : List Char) :
    dropEndWhile p (front ++ (middle ++ back)) = front ++ (middle ++ dropEndWhile p back) := by
  have hreverse : middle.reverse.head?.all (!p ·) := by
    rwa [List.head?_reverse]
  have hdropped := dropWhile_append_bare (by simpa using hne) hreverse back.reverse front.reverse
  unfold dropEndWhile
  rw [List.reverse_append, List.reverse_append, List.append_assoc, hdropped]
  simp

theorem dropBothWhile_append_bare {p : Char → Bool} {middle : List Char} (hne : middle ≠ [])
    (h : IsBare p middle) (front back : List Char) :
    dropBothWhile p (front ++ (middle ++ back))
      =
    front.dropWhile p ++ (middle ++ dropEndWhile p back) := by
  unfold dropBothWhile
  rw [dropWhile_append_bare hne h.1, dropEndWhile_append_bare hne h.2]

end Text
end Graft
