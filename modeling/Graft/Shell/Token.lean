import Graft.Shell.Script
import Graft.Text.Radix

/-!
This module contains the words and operators that the text of a script consists of.
-/

namespace Graft
namespace Shell

inductive Token where
  | word (w : Word)
  /-- A control operator; the end of a line is one. -/
  | operator (s : String)
  | redirect (stream : Nat) (kind : RedirectKind)
  deriving DecidableEq, Repr, Inhabited

namespace Token

def isBlank (c : Char) : Bool :=
  c == ' ' || c == '\t'

def endsWord (c : Char) : Bool :=
  isBlank c || [';', '&', '|', '(', ')', '<', '>', '\n'].contains c

def isNameStart (c : Char) : Bool :=
  c.isAlpha || c == '_'

def isNameChar (c : Char) : Bool :=
  c.isAlphanum || c == '_'

def isSpecial (c : Char) : Bool :=
  c.isDigit || ['#', '?', '$', '@', '*'].contains c

def isParameter (name : List Char) : Bool :=
  match name with
  | [] => false
  | [c] => isSpecial c || isNameStart c
  | c :: cs => (isNameStart c && cs.all isNameChar) || (c :: cs).all Char.isDigit

/--
Read what follows a dollar sign. A dollar sign that names no parameter stands for itself; commands
whose output becomes part of a word are not known.
-/
def parameter? (inQuotes : Bool) : List Char → Option (Piece × List Char)
  | '(' :: _ => none
  | '\x7b' :: cs =>
    let name := cs.takeWhile (· != '\x7d')
    match cs.dropWhile (· != '\x7d') with
    | _ :: rest =>
      if isParameter name then some (.parameter (.ofList name) inQuotes, rest) else none
    | [] => none
  | c :: cs =>
    if isSpecial c then some (.parameter (.singleton c) inQuotes, cs)
    else if isNameStart c then
      some (.parameter (.ofList (c :: cs.takeWhile isNameChar)) inQuotes, cs.dropWhile isNameChar)
    else some (.quoted ['$'], c :: cs)
  | [] => some (.quoted ['$'], [])

/--
Read the pieces between double quotes up to the closing one, at most `count` of them.
-/
def doubleQuoted? : Nat → List Char → Option (Word × List Char)
  | 0, _ => none
  | _ + 1, [] => none
  | count + 1, c :: cs => do
    if c = '"' then return ([], cs)
    if c = '\x60' then none
    let (piece, cs) ←
      if c = '$' then parameter? true cs
      else if c = '\\' then
        match cs with
        | '\n' :: cs => some (.quoted [], cs)
        | d :: cs =>
          if ['$', '\x60', '"', '\\'].contains d then some (.quoted [d], cs)
          else some (.quoted ['\\', d], cs)
        | [] => none
      else some (.quoted [c], cs)
    let (w, cs) ← doubleQuoted? count cs
    return (piece :: w, cs)

/--
Read a word of at most `count` pieces. Quotes without text still make a word.
-/
def word? : Nat → List Char → Option (Word × List Char)
  | 0, _ => none
  | _ + 1, [] => some ([], [])
  | count + 1, c :: cs => do
    if endsWord c then return ([], c :: cs)
    if c = '\x60' then none
    let (pieces, cs) ←
      if c = '\x27' then
        match cs.dropWhile (· != '\x27') with
        | _ :: rest => some ([Piece.quoted (cs.takeWhile (· != '\x27'))], rest)
        | [] => none
      else if c = '"' then (doubleQuoted? (cs.length + 1) cs).map fun (w, rest) => (.quoted [] :: w, rest)
      else if c = '$' then (parameter? false cs).map fun (piece, rest) => ([piece], rest)
      else if c = '\\' then
        match cs with
        | '\n' :: cs => some ([], cs)
        | d :: cs => some ([.quoted [d]], cs)
        | [] => some ([.quoted ['\\']], [])
      else some ([.text [c]], cs)
    let (w, cs) ← word? count cs
    return (pieces ++ w, cs)

/--
Read the operator of a redirection, given the number of the stream if there is one.
-/
def redirect? (stream : Option Nat) : List Char → Option (Token × List Char)
  | '>' :: '>' :: cs => some (.redirect (stream.getD 1) .append, cs)
  | '>' :: '&' :: cs => some (.redirect (stream.getD 1) .duplicate, cs)
  | '>' :: '|' :: cs => some (.redirect (stream.getD 1) .output, cs)
  | '>' :: cs => some (.redirect (stream.getD 1) .output, cs)
  | '<' :: '<' :: _ => none
  | '<' :: '&' :: cs => some (.redirect (stream.getD 0) .duplicate, cs)
  | '<' :: '>' :: _ => none
  | '<' :: cs => some (.redirect (stream.getD 0) .input, cs)
  | _ => none

def read? : List Char → Option (Token × List Char)
  | '\n' :: cs => some (.operator "\n", cs)
  | ';' :: ';' :: _ => none
  | ';' :: cs => some (.operator ";", cs)
  | '&' :: '&' :: cs => some (.operator "&&", cs)
  | '&' :: cs => some (.operator "&", cs)
  | '|' :: '|' :: cs => some (.operator "||", cs)
  | '|' :: cs => some (.operator "|", cs)
  | '(' :: cs => some (.operator "(", cs)
  | ')' :: cs => some (.operator ")", cs)
  | c :: cs =>
    if c = '<' ∨ c = '>' then redirect? none (c :: cs)
    else
      match Text.digitValue? 10 c, cs.head? with
      | some n, some '<' | some n, some '>' => redirect? (some n) cs
      | _, _ => (word? (cs.length + 2) (c :: cs)).map fun (w, rest) => (.word w, rest)
  | [] => none

/--
The tokens of a text that has at most `count` of them.
-/
def readAll? : Nat → List Char → Option (List Token)
  | 0, _ => none
  | count + 1, cs =>
    match cs.dropWhile isBlank with
    | [] => some []
    | '#' :: cs => readAll? count (cs.dropWhile (· != '\n'))
    | '\\' :: '\n' :: cs => readAll? count cs
    | cs => do
      let (token, rest) ← read? cs
      return token :: (← readAll? count rest)

end Token

def tokens? (text : String) : Option (List Token) :=
  Token.readAll? (text.length + 1) text.toList

end Shell
end Graft
