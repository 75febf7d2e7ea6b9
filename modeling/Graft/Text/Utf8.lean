/-!
This module contains the decoding of bytes that are meant to be UTF-8 but need not be.
-/

namespace Graft
namespace Text

/--
The number of bytes that follow a first byte and the range of the second one. Bytes that begin no
character have none.
-/
def sequenceOf (b : UInt8) : Option (Nat × UInt8 × UInt8) :=
  if b < 0x80 then some (0, 0, 0)
  else if 0xc2 ≤ b && b ≤ 0xdf then some (1, 0x80, 0xbf)
  else if b == 0xe0 then some (2, 0xa0, 0xbf)
  else if b == 0xed then some (2, 0x80, 0x9f)
  else if 0xe1 ≤ b && b ≤ 0xef then some (2, 0x80, 0xbf)
  else if b == 0xf0 then some (3, 0x90, 0xbf)
  else if 0xf1 ≤ b && b ≤ 0xf3 then some (3, 0x80, 0xbf)
  else if b == 0xf4 then some (3, 0x80, 0x8f)
  else none

/--
Take up to `n` bytes that continue a character, the first of them within a range. Every byte adds
six bits to `code`.
-/
def takeTail (n : Nat) (lo hi : UInt8) (code : Nat) (bytes : List UInt8) : Nat × Nat × List UInt8 :=
  match n, bytes with
  | n + 1, b :: rest =>
    if lo ≤ b && b ≤ hi then takeTail n 0x80 0xbf (code * 64 + (b.toNat - 0x80)) rest
    else (n + 1, code, b :: rest)
  | n, bytes => (n, code, bytes)

theorem takeTail_length_le (n : Nat) (lo hi : UInt8) (code : Nat) (bytes : List UInt8) :
    (takeTail n lo hi code bytes).2.2.length ≤ bytes.length := by
  induction bytes generalizing n lo hi code with
  | nil => cases n <;> simp [takeTail]
  | cons b rest ih =>
    cases n with
    | zero => simp [takeTail]
    | succ n =>
      simp only [takeTail]
      split
      . exact Nat.le_succ_of_le (ih ..)
      . simp

/--
The character in front of a byte sequence, and the bytes behind it. A sequence that breaks off
counts as one replacement character, and so does a byte that begins no character.
-/
def nextChar (b : UInt8) (rest : List UInt8) : Char × List UInt8 :=
  match sequenceOf b with
  | none => ('\ufffd', rest)
  | some (0, _, _) => (Char.ofNat b.toNat, rest)
  | some (n, lo, hi) =>
    match takeTail n lo hi (b.toNat % (1 <<< (6 - n))) rest with
    | (0, code, rest) => (Char.ofNat code, rest)
    | (_, _, rest) => ('\ufffd', rest)

theorem nextChar_length_le (b : UInt8) (rest : List UInt8) :
    (nextChar b rest).2.length ≤ rest.length := by
  simp only [nextChar]
  split
  . simp
  . simp
  . next n lo hi _ _ =>
    have := takeTail_length_le n lo hi (b.toNat % (1 <<< (6 - n))) rest
    split <;> simp_all

def decodeChars : List UInt8 → List Char
  | [] => []
  | b :: rest =>
    (nextChar b rest).1 :: decodeChars (nextChar b rest).2
termination_by bytes => bytes.length
decreasing_by
  exact Nat.lt_succ_of_le (nextChar_length_le b rest)

/--
The text of a byte sequence, with U+FFFD in place of what is no UTF-8.
-/
def decode (bytes : ByteArray) : String :=
  match String.fromUTF8? bytes with
  | some text => text
  | none => .ofList (decodeChars bytes.toList)

end Text
end Graft
