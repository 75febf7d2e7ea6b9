/-!
This module contains the digits of numbers in bases up to 36.
-/

namespace Graft
namespace Text

/--
The value of a digit; letters of either case follow `9`.
-/
def digitValue? (base : Nat) (c : Char) : Option Nat :=
  let value? :=
    if c.isDigit then some (c.toNat - '0'.toNat)
    else if c.isLower then some (c.toNat - 'a'.toNat + 10)
    else if c.isUpper then some (c.toNat - 'A'.toNat + 10)
    else none
  value?.filter (· < base)

def ofDigits (base : Nat) (digits : List Nat) : Nat :=
  digits.foldl (fun n d => n * base + d) 0

/--
Read exactly `count` decimal digits.
-/
def fixedWidth? : Nat → List Char → Option (List Nat × List Char)
  | 0, cs => some ([], cs)
  | _ + 1, [] => none
  | count + 1, c :: cs => do
    let d ← digitValue? 10 c
    let (digits, cs) ← fixedWidth? count cs
    return (d :: digits, cs)

def twoDigits (n : Nat) : List Char :=
  [Nat.digitChar (n / 10 % 10), Nat.digitChar (n % 10)]

end Text
end Graft
