import Graft.Shell.Token

/-!
This module contains the grammar of scripts. Every reader takes the tokens that are left and returns
those behind what it has read; a script that is not well formed yields nothing.
-/

namespace Graft
namespace Shell
namespace Script

def keyword? : List Token → Option String
  | .word w :: _ => w.plain?
  | _ => none

def expect? (word : String) (ts : List Token) : Option (List Token) :=
  if keyword? ts = some word then some ts.tail else none

def dropLineEnds : List Token → List Token
  | .operator "\n" :: ts => dropLineEnds ts
  | ts => ts

def endsList (ts : List Token) : Bool :=
  match ts with
  | [] => true
  | .operator s :: _ => s == ")"
  | _ => ["\x7d", "then", "elif", "else", "fi"].any (some · == keyword? ts)

def redirects? : List Token → Option (List Redirect × List Token)
  | .redirect stream kind :: .word w :: ts => do
    let (others, ts) ← redirects? ts
    return (⟨stream, kind, w⟩ :: others, ts)
  | .redirect .. :: _ => none
  | ts => some ([], ts)

/--
Split a word that sets a variable.
-/
def assignment? (w : Word) : Option (String × Word) := do
  let name := (w.takeWhile fun
    | .text ['='] => false
    | .text _ => true
    | _ => false)
  let name ← Word.plain? name
  match w.dropWhile (fun | .text ['='] => false | .text _ => true | _ => false) with
  | .text ['='] :: value =>
    match name.toList with
    | c :: cs => if Token.isNameStart c && cs.all Token.isNameChar then some (name, value) else none
    | [] => none
  | _ => none

/--
Read the words and redirections of a simple command. A word sets a variable only in front of all words
that do not.
-/
def simple? : List Token →
    Option (List (String × Word) × List Word × List Redirect × List Token)
  | .word w :: ts => do
    let (assignments, words, redirects, rest) ← simple? ts
    match assignment? w with
    | some assignment => return (assignment :: assignments, words, redirects, rest)
    | none =>
      let late := assignments.map fun (name, value) => name.toList.map (.text [·]) ++ .text ['='] :: value
      return ([], w :: late ++ words, redirects, rest)
  | .redirect stream kind :: .word w :: ts => do
    let (assignments, words, redirects, rest) ← simple? ts
    return (assignments, words, ⟨stream, kind, w⟩ :: redirects, rest)
  | .redirect .. :: _ => none
  | ts => some ([], [], [], ts)

mutual

def list? : Nat → List Token → Option (Script × List Token)
  | 0, _ => none
  | fuel + 1, ts =>
    let ts := dropLineEnds ts
    if endsList ts then some (.skip, ts)
    else do
      let (first, ts) ← andOr? fuel ts
      match ts with
      | .operator s :: rest =>
        if s = ";" ∨ s = "\n" ∨ s = "&" then do
          let (others, rest) ← list? fuel rest
          return (.sequence first others, rest)
        else return (first, ts)
      | _ => return (first, ts)

def andOr? : Nat → List Token → Option (Script × List Token)
  | 0, _ => none
  | fuel + 1, ts => do
    let (first, ts) ← pipeline? fuel ts
    andOrFrom? fuel first ts

def andOrFrom? : Nat → Script → List Token → Option (Script × List Token)
  | 0, _, _ => none
  | fuel + 1, first, ts =>
    match ts with
    | .operator "&&" :: ts => do
      let (second, ts) ← pipeline? fuel (dropLineEnds ts)
      andOrFrom? fuel (.both first second) ts
    | .operator "||" :: ts => do
      let (second, ts) ← pipeline? fuel (dropLineEnds ts)
      andOrFrom? fuel (.either first second) ts
    | ts => some (first, ts)

def pipeline? : Nat → List Token → Option (Script × List Token)
  | 0, _ => none
  | fuel + 1, ts =>
    match expect? "!" ts with
    | some ts => do
      let (body, ts) ← pipeline? fuel ts
      return (.negate body, ts)
    | none => do
      let (first, ts) ← command? fuel ts
      match ts with
      | .operator "|" :: ts => do
        let (second, ts) ← pipeline? fuel (dropLineEnds ts)
        return (.pipe first second, ts)
      | ts => return (first, ts)

/--
Read one command. Two parentheses behind a word would define a function, which is not known.
-/
def command? : Nat → List Token → Option (Script × List Token)
  | 0, _ => none
  | fuel + 1, ts =>
    match ts with
    | .operator "(" :: ts => do
      let (body, ts) ← list? fuel ts
      let .operator ")" :: ts := ts | none
      let (redirects, ts) ← redirects? ts
      return (.subshell body redirects, ts)
    | ts =>
      match keyword? ts with
      | some "\x7b" => do
        let (body, ts) ← list? fuel ts.tail
        let (redirects, ts) ← redirects? (← expect? "\x7d" ts)
        return (.group body redirects, ts)
      | some "if" => do
        let (test, ts) ← list? fuel ts.tail
        let (yes, ts) ← list? fuel (← expect? "then" ts)
        let (no, ts) ← otherwise? fuel ts
        let (redirects, ts) ← redirects? ts
        return (.conditional test yes no redirects, ts)
      | some "for" | some "while" | some "until" | some "case" => none
      | _ => do
        let (assignments, words, redirects, rest) ← simple? ts
        if assignments.isEmpty && words.isEmpty && redirects.isEmpty || endsList ts then none
        if rest.head? = some (.operator "(") then none
        return (.simple assignments words redirects, rest)

def otherwise? : Nat → List Token → Option (Script × List Token)
  | 0, _ => none
  | fuel + 1, ts =>
    match keyword? ts with
    | some "fi" => some (.skip, ts.tail)
    | some "else" => do
      let (no, ts) ← list? fuel ts.tail
      return (no, ← expect? "fi" ts)
    | some "elif" => do
      let (test, ts) ← list? fuel ts.tail
      let (yes, ts) ← list? fuel (← expect? "then" ts)
      let (no, ts) ← otherwise? fuel ts
      return (.conditional test yes no [], ts)
    | _ => none

end

def parse? (text : String) : Option Script := do
  let ts ← tokens? text
  match ← list? (6 * ts.length + 6) ts with
  | (s, []) => some s
  | _ => none

end Script
end Shell
end Graft
