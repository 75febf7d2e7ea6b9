import Graft.Text.Radix

/-!
This module contains dates and times. A date, a time or both may be given, and an offset from universal
time only with both.
-/

namespace Graft
namespace Toml

structure Date where
  year : Nat
  month : Nat
  day : Nat
  deriving DecidableEq, Repr, Inhabited

structure Time where
  hour : Nat
  minute : Nat
  second : Nat
  nanosecond : Nat := 0
  deriving DecidableEq, Repr, Inhabited

inductive Offset where
  | universal
  /-- Minutes ahead of universal time. -/
  | minutes (n : Int)
  deriving DecidableEq, Repr, Inhabited

inductive Moment where
  | date (d : Date)
  | time (t : Time)
  | both (d : Date) (t : Time) (o : Option Offset)
  deriving DecidableEq, Repr, Inhabited

namespace Date

def isLeapYear (year : Nat) : Bool :=
  year % 4 = 0 && (year % 100 != 0 || year % 400 = 0)

def daysIn (year month : Nat) : Nat :=
  if month = 2 then if isLeapYear year then 29 else 28
  else if month = 4 ∨ month = 6 ∨ month = 9 ∨ month = 11 then 30
  else 31

def isValid (d : Date) : Bool :=
  1 ≤ d.month && d.month ≤ 12 && 1 ≤ d.day && d.day ≤ daysIn d.year d.month

/--
Read a date such as `1979-05-27`.
-/
def read? (cs : List Char) : Option (Date × List Char) := do
  let (year, cs) ← Text.fixedWidth? 4 cs
  let '-' :: cs := cs | none
  let (month, cs) ← Text.fixedWidth? 2 cs
  let '-' :: cs := cs | none
  let (day, cs) ← Text.fixedWidth? 2 cs
  let d : Date := ⟨Text.ofDigits 10 year, Text.ofDigits 10 month, Text.ofDigits 10 day⟩
  if d.isValid then some (d, cs) else none

def text (d : Date) : List Char :=
  Text.twoDigits (d.year / 100) ++ Text.twoDigits d.year ++ '-' :: Text.twoDigits d.month
    ++ '-' :: Text.twoDigits d.day

end Date

namespace Time

/--
A second of 60 is one that was inserted.
-/
def isValid (t : Time) : Bool :=
  t.hour ≤ 23 && t.minute ≤ 59 && t.second ≤ 60

/--
Read a time such as `07:32:00.5`. Digits behind the ninth of a fraction are dropped.
-/
def read? (cs : List Char) : Option (Time × List Char) := do
  let (hour, cs) ← Text.fixedWidth? 2 cs
  let ':' :: cs := cs | none
  let (minute, cs) ← Text.fixedWidth? 2 cs
  let ':' :: cs := cs | none
  let (second, cs) ← Text.fixedWidth? 2 cs
  let t : Time := ⟨Text.ofDigits 10 hour, Text.ofDigits 10 minute, Text.ofDigits 10 second, 0⟩
  if !t.isValid then none
  else
    match cs with
    | '.' :: cs =>
      let fraction := cs.takeWhile Char.isDigit
      if fraction.isEmpty then none
      else do
        let (digits, _) ← Text.fixedWidth? 9 ((fraction ++ List.replicate 9 '0').take 9)
        return ({ t with nanosecond := Text.ofDigits 10 digits }, cs.dropWhile Char.isDigit)
    | _ => some (t, cs)

/--
The fraction of a second in nine digits without the zeros at their end.
-/
def fraction (t : Time) : List Char :=
  if t.nanosecond = 0 then []
  else
    let digits := Nat.toDigits 10 t.nanosecond
    let padded := List.replicate (9 - digits.length) '0' ++ digits
    '.' :: (padded.reverse.dropWhile (· = '0')).reverse

def text (t : Time) : List Char :=
  Text.twoDigits t.hour ++ ':' :: Text.twoDigits t.minute ++ ':' :: Text.twoDigits t.second
    ++ t.fraction

end Time

namespace Offset

/--
Read an offset such as `Z` or `-07:00`.
-/
def read? : List Char → Option (Offset × List Char)
  | [] => none
  | c :: cs =>
    if c = 'Z' ∨ c = 'z' then some (.universal, cs)
    else if c = '+' ∨ c = '-' then do
      let (hour, cs) ← Text.fixedWidth? 2 cs
      let ':' :: cs := cs | none
      let (minute, cs) ← Text.fixedWidth? 2 cs
      let hour := Text.ofDigits 10 hour
      let minute := Text.ofDigits 10 minute
      let n : Int := hour * 60 + minute
      if hour ≤ 23 && minute ≤ 59 then some (.minutes (if c = '-' then -n else n), cs) else none
    else none

def text : Offset → List Char
  | .universal => ['Z']
  | .minutes n =>
    (if n < 0 then '-' else '+') :: Text.twoDigits (n.natAbs / 60)
      ++ ':' :: Text.twoDigits (n.natAbs % 60)

end Offset

namespace Moment

/--
The moment that the whole of `cs` gives. A letter stands between a date and a time.
-/
def ofChars? (cs : List Char) : Option Moment :=
  match Date.read? cs with
  | some (d, []) => some (.date d)
  | some (d, c :: cs) =>
    if c = 'T' ∨ c = 't' then
      match Time.read? cs with
      | some (t, []) => some (.both d t none)
      | some (t, cs) =>
        match Offset.read? cs with
        | some (o, []) => some (.both d t (some o))
        | _ => none
      | none => none
    else none
  | none =>
    match Time.read? cs with
    | some (t, []) => some (.time t)
    | _ => none

def text : Moment → List Char
  | .date d => d.text
  | .time t => t.text
  | .both d t o => d.text ++ 'T' :: t.text ++ (o.map Offset.text).getD []

end Moment
end Toml
end Graft
