import Graft.Text.Radix
import Graft.Tree

/-!
This module contains the small programs that build scripts use most: what each prints and the status it
ends with. None of them changes the tree.
-/

namespace Graft
namespace Shell

/--
What a program did. The parts of its output carry whether they are error messages.
-/
structure Outcome where
  chunks : List (Bool × ByteArray) := []
  status : Nat := 0
  /-- What is left of its input. -/
  input : ByteArray := .empty
  deriving DecidableEq, Inhabited

namespace Outcome

def print (bytes : ByteArray) (status : Nat := 0) : Outcome :=
  { chunks := [(false, bytes)], status }

def complain (message : String) (status : Nat) : Outcome :=
  { chunks := [(true, (message ++ "\n").toUTF8)], status }

def andThen (a b : Outcome) : Outcome where
  chunks := a.chunks ++ b.chunks
  status := if b.status = 0 then a.status else b.status
  input := b.input

end Outcome

/-! Escapes in texts that are printed. -/

def isOctal (c : Char) : Bool :=
  (Text.digitValue? 8 c).isSome

def octalByte (digits : List Char) : UInt8 :=
  .ofNat (Text.ofDigits 8 (digits.filterMap (Text.digitValue? 8)))

def escapeByte? : Char → Option UInt8
  | 'a' => some 7
  | 'b' => some 8
  | 't' => some 9
  | 'n' => some 10
  | 'v' => some 11
  | 'f' => some 12
  | 'r' => some 13
  | '\\' => some 92
  | _ => none

/--
The bytes of a text with its escapes replaced, and whether `\c` cut it off. Octal digits follow a zero
if `zeroFirst` is set. `skip` characters belong to the last escape.
-/
def unescape (zeroFirst : Bool) : Nat → List Char → List UInt8 × Bool
  | _, [] => ([], false)
  | skip + 1, _ :: cs => unescape zeroFirst skip cs
  | 0, c :: cs =>
    let go (bytes : List UInt8) (skip : Nat) : List UInt8 × Bool :=
      let (rest, cut) := unescape zeroFirst skip cs
      (bytes ++ rest, cut)
    let plain := go (String.singleton c).toUTF8.toList 0
    if c ≠ '\\' then plain
    else
      match cs with
      | [] => plain
      | d :: more =>
        if zeroFirst && d == 'c' then ([], true)
        else
          match escapeByte? d with
          | some b => go [b] 1
          | none =>
            if zeroFirst then
              if d = '0' then
                let digits := (more.takeWhile isOctal).take 3
                go [octalByte digits] (digits.length + 1)
              else plain
            else if isOctal d then
              let digits := (cs.takeWhile isOctal).take 3
              go [octalByte digits] digits.length
            else plain

/--
Print the arguments on one line. A shell replaces escapes, the program does so only if it is told to.
-/
def echo (inShell : Bool) (args : List String) : Outcome :=
  let isOption (arg : String) : Bool :=
    match arg.toList with
    | '-' :: c :: cs => (c :: cs).all fun c => c == 'n' || (!inShell && (c == 'e' || c == 'E'))
    | _ => false
  let options := if inShell then args.take 1 |>.filter (· == "-n") else args.takeWhile isOption
  let text := " ".intercalate (args.drop options.length)
  let letters := options.flatMap (·.toList)
  let escapes := inShell || (letters.filter (· != 'n')).getLast? == some 'e'
  let (bytes, cut) := if escapes then unescape true 0 text.toList else (text.toUTF8.toList, false)
  let ending : List UInt8 := if cut || letters.contains 'n' then [] else [10]
  .print ⟨(bytes ++ ending).toArray⟩

/-! Formatted output. -/

/--
A part of a format: text, or the place of an argument with the letter that says how it is printed.
-/
inductive FormatItem where
  | text (bytes : List UInt8)
  | argument (letter : Char)
  deriving DecidableEq, Repr, Inhabited

/--
The parts of a format. `pending` holds the text in front, the last character first.
-/
def formatItems (pending : List Char) : List Char → List FormatItem
  | [] => [.text (unescape false 0 pending.reverse).1]
  | '%' :: '%' :: cs => formatItems ('%' :: pending) cs
  | '%' :: c :: cs =>
    .text (unescape false 0 pending.reverse).1 :: .argument c :: formatItems [] cs
  | '\\' :: c :: cs => formatItems (c :: '\\' :: pending) cs
  | c :: cs => formatItems (c :: pending) cs

def number? (s : String) : Option Int :=
  match s.toList with
  | '-' :: cs => (digits? cs).map fun n => -n
  | '+' :: cs => digits? cs
  | cs => digits? cs
where
  digits? (cs : List Char) : Option Int := do
    if cs.isEmpty then none
    return Text.ofDigits 10 (← cs.mapM (Text.digitValue? 10))

/--
Print the items with the arguments that are given, and say which arguments are left.
-/
def formatOnce : List FormatItem → List String → Outcome × List String
  | [], args => ({}, args)
  | .text bytes :: items, args =>
    let (o, args) := formatOnce items args
    ((Outcome.print ⟨bytes.toArray⟩).andThen o, args)
  | .argument letter :: items, args =>
    let arg := args.headD ""
    let shown : Outcome :=
      match letter with
      | 's' => .print arg.toUTF8
      | 'b' => .print ⟨(unescape true 0 arg.toList).1.toArray⟩
      | 'c' => .print (String.ofList (arg.toList.take 1)).toUTF8
      | 'd' | 'i' =>
        match number? arg with
        | some n => .print (toString n).toUTF8
        | none =>
          if args.isEmpty then .print "0".toUTF8
          else (Outcome.complain ("printf: " ++ arg ++ ": expected numeric value") 1).andThen
            (.print "0".toUTF8)
      | c => .complain ("printf: %" ++ .singleton c ++ ": invalid directive") 1
    let (o, args) := formatOnce items args.tail
    (shown.andThen o, args)

/--
Print the items again and again, at most `rounds` times, as long as arguments are left.
-/
def formatAll (items : List FormatItem) : Nat → List String → Outcome
  | 0, _ => {}
  | rounds + 1, args =>
    let (o, rest) := formatOnce items args
    if rest.isEmpty || rest.length = args.length then o else o.andThen (formatAll items rounds rest)

def printf : List String → Outcome
  | [] => .complain "printf: usage: printf format [arg ...]" 2
  | format :: args => formatAll (formatItems [] format.toList) (args.length + 1) args

/-! Files. -/

/--
Print files one after the other. Without any, and for `-`, the input is printed.
-/
def cat (t : Tree) (input : ByteArray) (args : List String) : Outcome :=
  let names := if args.isEmpty then ["-"] else args
  names.foldl (fun o name =>
    let next : Outcome :=
      if name = "-" then { Outcome.print o.input with input := .empty }
      else
        match t.read ⟨name⟩ with
        | .ok content => { Outcome.print content with input := o.input }
        | .error e => { Outcome.complain ("cat: " ++ name ++ ": " ++ e.reason) 1 with input := o.input }
    o.andThen next) { input }

/-! Conditions. -/

/--
Whether a file meets the condition with a letter.
-/
def fileTest? (t : Tree) (letter name : String) : Option Bool :=
  let p : Path := ⟨name⟩
  match letter with
  | "-e" | "-r" | "-w" => some (t.pathExists p)
  | "-f" => some (t.isFile p)
  | "-d" | "-x" => some (t.isDirectory p)
  | "-s" => some ((t.read p).toOption.any (·.size != 0) || t.isDirectory p)
  | _ => none

def compare? (a operator b : String) : Option Bool := do
  match operator with
  | "=" | "==" => some (a = b)
  | "!=" => some (a ≠ b)
  | _ =>
    let m ← number? a
    let n ← number? b
    match operator with
    | "-eq" => some (m = n)
    | "-ne" => some (m ≠ n)
    | "-lt" => some (m < n)
    | "-le" => some (m ≤ n)
    | "-gt" => some (m > n)
    | "-ge" => some (m ≥ n)
    | _ => none

/--
The truth of a condition. There is none for one that is not well formed.
-/
def condition? (t : Tree) : List String → Option Bool
  | [] => some false
  | [s] => some (!s.isEmpty)
  | "!" :: args => (condition? t args).map (!·)
  | ["-n", s] => some (!s.isEmpty)
  | ["-z", s] => some s.isEmpty
  | [letter, name] => fileTest? t letter name
  | a :: operator :: b :: rest =>
    match rest with
    | [] => compare? a operator b
    | "-a" :: more => do return (← compare? a operator b) && (← condition? t more)
    | "-o" :: more => do return (← compare? a operator b) || (← condition? t more)
    | _ => none

def test (t : Tree) (name : String) (args : List String) : Outcome :=
  let args? :=
    if name = "[" then if args.getLast? = some "]" then some args.dropLast else none else some args
  match args?.bind (condition? t) with
  | some true => {}
  | some false => { status := 1 }
  | none => .complain (name ++ ": bad condition") 2

end Shell
end Graft
