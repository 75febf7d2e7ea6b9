import Mathlib.Data.List.Basic

/-!
This module contains texts that are cut at byte offsets. A cut has an outcome only between two
characters.
-/

namespace Graft
namespace Text

def byteSize (cs : List Char) : Nat :=
  (String.ofList cs).utf8ByteSize

@[simp]
theorem byteSize_nil : byteSize [] = 0 := rfl

@[simp]
theorem byteSize_cons (c : Char) (cs : List Char) :
    byteSize (c :: cs) = c.utf8Size + byteSize cs := by
  unfold byteSize
  rw [String.ofList_cons, String.utf8ByteSize_append, String.utf8ByteSize_singleton]

@[simp]
theorem byteSize_append (as bs : List Char) : byteSize (as ++ bs) = byteSize as + byteSize bs := by
  unfold byteSize
  rw [String.ofList_append, String.utf8ByteSize_append]

/--
The two parts of a text at a byte offset. There is no outcome beyond the end of the text, nor within
a character.
-/
def splitAtByte? : Nat → List Char → Option (List Char × List Char)
  | 0, cs => some ([], cs)
  | _ + 1, [] => none
  | n + 1, c :: cs =>
    if n + 1 < c.utf8Size then none
    else (splitAtByte? (n + 1 - c.utf8Size) cs).map fun (front, back) => (c :: front, back)

theorem splitAtByte?_byteSize (front back : List Char) :
    splitAtByte? (byteSize front) (front ++ back) = some (front, back) := by
  induction front with
  | nil => cases back <;> rfl
  | cons c front ih =>
    obtain ⟨n, hn⟩ := Nat.exists_eq_add_one.mpr c.utf8Size_pos
    have hrest : n + byteSize front + 1 - c.utf8Size = byteSize front := by omega
    rw [byteSize_cons, hn, Nat.add_right_comm, List.cons_append, splitAtByte?, if_neg (by omega),
      hrest, ih]
    rfl

theorem append_inj_of_byteSize {front back front' back' : List Char}
    (h : front ++ back = front' ++ back') (hsize : byteSize front = byteSize front') :
    front = front' ∧ back = back' := by
  have hsplit := splitAtByte?_byteSize front back
  rw [h, hsize, splitAtByte?_byteSize, Option.some_inj, Prod.mk.injEq] at hsplit
  exact ⟨hsplit.1.symm, hsplit.2.symm⟩

theorem exists_append_of_isValid {cs : List Char} {n : Nat}
    (h : String.Pos.Raw.IsValid (.ofList cs) ⟨n⟩) :
    ∃ front back, cs = front ++ back ∧ byteSize front = n := by
  obtain ⟨front, back, heq, hsize⟩ := String.Pos.Raw.isValid_iff_exists_append.mp h
  refine ⟨front.toList, back.toList, ?_, ?_⟩
  . rw [← String.toList_append, ← heq, String.toList_ofList]
  . unfold byteSize
    rw [String.ofList_toList]
    exact congrArg String.Pos.Raw.byteIdx hsize.symm

theorem exists_range_of_isValid {cs : List Char} {start stop : Nat} (hle : start ≤ stop)
    (hstart : String.Pos.Raw.IsValid (.ofList cs) ⟨start⟩)
    (hstop : String.Pos.Raw.IsValid (.ofList cs) ⟨stop⟩) :
    ∃ front middle back, cs = front ++ (middle ++ back) ∧ byteSize front = start
      ∧ byteSize (front ++ middle) = stop := by
  obtain ⟨front, rest, rfl, rfl⟩ := exists_append_of_isValid hstart
  obtain ⟨front', back, heq, rfl⟩ := exists_append_of_isValid hstop
  rcases List.append_eq_append_iff.mp heq with ⟨middle, rfl, rfl⟩ | ⟨middle, rfl, rfl⟩
  . exact ⟨front, middle, back, rfl, rfl, rfl⟩
  . -- The second part ends first, so that nothing is between the two.
    rw [byteSize_append] at hle
    have hmiddle : middle = [] := by
      cases middle with
      | nil => rfl
      | cons c middle =>
        have := c.utf8Size_pos
        rw [byteSize_cons] at hle
        omega
    subst hmiddle
    exact ⟨front', [], rest, by simp, by simp, by simp⟩

end Text
end Graft
