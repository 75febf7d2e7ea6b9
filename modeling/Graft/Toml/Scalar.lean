import Graft.Toml.Value

/-!
This module contains the values that are written as one word: numbers, truth values, dates and times.
-/

namespace Graft
namespace Toml

/--
The digits of a number. An underscore may stand between two of them.
-/
def groupedDigits? (base : Nat) : List Char → Option (List Nat)
  | [] => none
  | [c] => do return [← Text.digitValue? base c]
  | c :: '_' :: cs => do return (← Text.digitValue? base c) :: (← groupedDigits? base cs)
  | c :: cs => do return (← Text.digitValue? base c) :: (← groupedDigits? base cs)

/--
The digits of a decimal number, which begins with zero only if it is zero.
-/
def decimalDigits? (cs : List Char) : Option (List Nat) := do
  let digits ← groupedDigits? 10 cs
  if digits.head? = some 0 && cs.length ≠ 1 then none else some digits

/--
Take a sign; the first part is set for `-`.
-/
def splitSign : List Char → Bool × List Char
  | '-' :: cs => (true, cs)
  | '+' :: cs => (false, cs)
  | cs => (false, cs)

def signed (negative : Bool) (n : Nat) : Int :=
  if negative then -n else n

def fits (n : Int) : Bool :=
  -0x8000000000000000 ≤ n && n ≤ 0x7fffffffffffffff

/--
The integer that a word stands for. Only decimal numbers have a sign.
-/
def integer? (cs : List Char) : Option Int := do
  let n : Int ← match cs with
    | '0' :: 'x' :: cs => (groupedDigits? 16 cs).map (Text.ofDigits 16 ·)
    | '0' :: 'o' :: cs => (groupedDigits? 8 cs).map (Text.ofDigits 8 ·)
    | '0' :: 'b' :: cs => (groupedDigits? 2 cs).map (Text.ofDigits 2 ·)
    | cs =>
      let (negative, cs) := splitSign cs
      (decimalDigits? cs).map fun digits => signed negative (Text.ofDigits 10 digits)
  if fits n then some n else none

/--
A decimal number: `digits * 10 ^ exponent`, negated if `negative` is set.
-/
structure Scientific where
  negative : Bool
  digits : Nat
  exponent : Int
  deriving DecidableEq, Repr, Inhabited

namespace Scientific

/--
The least number that double precision rounds to infinity.
-/
def bound : Nat := (1 <<< 1024) - (1 <<< 970)

/--
Whether double precision rounds the number to positive infinity. The number of its digits settles
that for all but a few exponents.
-/
def overflows (s : Scientific) : Bool :=
  let magnitude : Int := (Nat.toDigits 10 s.digits).length + s.exponent
  if s.negative || s.digits = 0 || magnitude < 300 then false
  else if 320 < magnitude then true
  else bound * Nat.pow 10 (-s.exponent).toNat ≤ s.digits * Nat.pow 10 s.exponent.toNat

/--
The number that a word with a fraction, an exponent or both stands for.
-/
def ofChars? (cs : List Char) : Option Scientific := do
  let (negative, cs) := splitSign cs
  let isMark (c : Char) : Bool := c == 'e' || c == 'E'
  let mantissa := cs.takeWhile (!isMark ·)
  let exponent : Int ← match cs.dropWhile (!isMark ·) with
    | [] => if '.' ∈ mantissa then some 0 else none
    | _ :: cs =>
      let (negative, cs) := splitSign cs
      (groupedDigits? 10 cs).map fun digits => signed negative (Text.ofDigits 10 digits)
  let whole ← decimalDigits? (mantissa.takeWhile (· != '.'))
  let fraction ← match mantissa.dropWhile (· != '.') with
    | [] => some []
    | _ :: cs => groupedDigits? 10 cs
  return ⟨negative, Text.ofDigits 10 (whole ++ fraction), exponent - fraction.length⟩

end Scientific

def isFloat (cs : List Char) : Bool :=
  match (splitSign cs).2 with
  | ['i', 'n', 'f'] | ['n', 'a', 'n'] => true
  | _ => (Scientific.ofChars? cs).any (!·.overflows)

namespace Value

/--
The value that a word without quotes stands for.
-/
def ofWord? (cs : List Char) : Option Value :=
  match cs with
  | ['t', 'r', 'u', 'e'] => some (.boolean true)
  | ['f', 'a', 'l', 's', 'e'] => some (.boolean false)
  | _ =>
    match integer? cs, Moment.ofChars? cs with
    | some n, _ => some (.integer n)
    | none, some m => some (.moment m)
    | none, none => if isFloat cs then some (.float (.ofList cs)) else none

/--
The characters of words without quotes.
-/
def isWordChar (c : Char) : Bool :=
  c.isAlphanum || c == '_' || c == '+' || c == '-' || c == '.' || c == ':'

/--
Read a word without quotes. A space may take the place of the letter between a date and a time.
-/
def word? (cs : List Char) : Option (Value × List Char) := do
  let word := cs.takeWhile isWordChar
  let rest := cs.dropWhile isWordChar
  let v ← ofWord? word
  match v, rest with
  | .moment (.date _), ' ' :: more =>
    match Moment.ofChars? (word ++ 'T' :: more.takeWhile isWordChar) with
    | some m => some (.moment m, more.dropWhile isWordChar)
    | none => some (v, rest)
  | _, _ => some (v, rest)

end Value
end Toml
end Graft
