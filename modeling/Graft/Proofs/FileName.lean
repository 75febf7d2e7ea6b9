import Graft.FileName
import Mathlib.Data.List.Lex
import Mathlib.Order.Lattice

/-!
This module contains names in directories by their bytes. They are in lexicographic order, and the
bytes of a text begin and end like those of another one if and only if the texts do.
-/

namespace Graft
namespace FileName

def IsText (n : FileName) : Prop :=
  ∃ name, n.text? = some name

def BeginsWithDot (n : FileName) : Prop :=
  n.bytes.head? = some 46

instance (n : FileName) : Decidable n.BeginsWithDot :=
  inferInstanceAs (Decidable (_ = _))

def EndsWithOneOf (suffixes : List String) (n : FileName) : Prop :=
  ∃ suffix ∈ suffixes, (ofText suffix.toList).bytes <:+ n.bytes

theorem key_injective : Function.Injective key := by
  rintro ⟨bytes⟩ ⟨bytes'⟩ h
  rw [mk.injEq]
  exact List.map_injective_iff.mpr (fun _ _ => UInt8.toNat_inj.mp) h

instance : LinearOrder FileName :=
  LinearOrder.lift' key key_injective

theorem toByteArray_ofText (name : List Char) : (ofText name).bytes.toByteArray = name.utf8Encode :=
  rfl

theorem eq_ofText_of_text? {n : FileName} {name : List Char} (h : n.text? = some name) :
    n = ofText name := by
  obtain ⟨bytes⟩ := n
  unfold text? String.fromUTF8? at h
  split at h
  . next hvalid =>
    rw [Option.map_some, Option.some_inj] at h
    rw [mk.injEq, ← List.toByteArray_inj, toByteArray_ofText, ← h, String.utf8Encode_toList]
    rfl
  . contradiction

theorem ofText_append (front back : List Char) :
    (ofText (front ++ back)).bytes = (ofText front).bytes ++ (ofText back).bytes :=
  List.flatMap_append

theorem bytes_prefix_iff {front name : List Char} :
    (ofText front).bytes <+: (ofText name).bytes ↔ front <+: name := by
  constructor
  . rintro ⟨rest, hrest⟩
    apply List.isPrefix_of_utf8Encode_append_eq_utf8Encode rest.toByteArray
    rw [← toByteArray_ofText, ← toByteArray_ofText, ← hrest, List.toByteArray_append]
  . rintro ⟨rest, rfl⟩
    rw [ofText_append]
    exact List.prefix_append _ _

/--
A character begins wherever the bytes of a text begin.
-/
theorem exists_text_of_append {rest : List UInt8} {back name : List Char}
    (h : rest ++ (ofText back).bytes = (ofText name).bytes) :
    ∃ front, rest = (ofText front).bytes := by
  let s := String.ofList name
  have hbytes : s.toByteArray = rest.toByteArray ++ back.utf8Encode := by
    rw [String.toByteArray_ofList, ← toByteArray_ofText, ← toByteArray_ofText, ← h,
      List.toByteArray_append]
  have hsize : s.utf8ByteSize = rest.toByteArray.size + back.utf8Encode.size := by
    rw [← String.size_toByteArray, hbytes, ByteArray.size_append]
  have hle : (⟨rest.length⟩ : String.Pos.Raw) ≤ s.rawEndPos := by
    rw [String.Pos.Raw.le_iff, String.byteIdx_rawEndPos, hsize, List.size_toByteArray]
    exact Nat.le_add_right _ _
  have hback : (s.toByteArray.extract rest.length s.utf8ByteSize).IsValidUTF8 := by
    rw [hbytes, ByteArray.extract_append_eq_right List.size_toByteArray.symm hsize]
    exact ByteArray.isValidUTF8_utf8Encode
  have hpos : (⟨rest.length⟩ : String.Pos.Raw).IsValid s :=
    String.Pos.Raw.isValid_iff_isValidUTF8_extract_utf8ByteSize.mpr ⟨hle, hback⟩
  have hfront := hpos.isValidUTF8_extract_zero
  rw [hbytes, ByteArray.extract_append_eq_left List.size_toByteArray.symm] at hfront
  obtain ⟨front, hfront⟩ := hfront
  exact ⟨front, List.toByteArray_inj.mp hfront⟩

theorem bytes_suffix_iff {back name : List Char} :
    (ofText back).bytes <:+ (ofText name).bytes ↔ back <:+ name := by
  constructor
  . rintro ⟨rest, hrest⟩
    obtain ⟨front, rfl⟩ := exists_text_of_append hrest
    rw [← ofText_append] at hrest
    exact ⟨front, ofText_inj.mp (congrArg mk hrest)⟩
  . rintro ⟨rest, rfl⟩
    rw [ofText_append]
    exact List.suffix_append _ _

theorem beginsWithDot_ofText_iff {name : List Char} :
    (ofText name).BeginsWithDot ↔ name.head? = some '.' := by
  have hdot : (ofText ['.']).bytes = [46] := by decide
  unfold BeginsWithDot
  rw [← List.singleton_prefix_iff_head?_eq_some, ← hdot, bytes_prefix_iff,
    List.singleton_prefix_iff_head?_eq_some]

theorem isHidden_iff {n : FileName} : n.isHidden ↔ n.IsText ∧ n.BeginsWithDot := by
  unfold isHidden IsText
  cases htext : n.text? with
  | none => simp
  | some name =>
    rw [eq_ofText_of_text? htext, beginsWithDot_ofText_iff]
    simp

theorem hasSuffix_iff {suffixes : List String} {n : FileName} :
    n.hasSuffix suffixes ↔ n.IsText ∧ n.EndsWithOneOf suffixes := by
  unfold hasSuffix IsText EndsWithOneOf
  cases htext : n.text? with
  | none => simp
  | some name =>
    rw [eq_ofText_of_text? htext]
    simp [bytes_suffix_iff]

end FileName
end Graft
