import Graft.Toml.Quotation
import Graft.Toml.Scalar

/-!
This module contains the text form of configuration tables. Every reader takes the characters that are
left and returns those behind what it has read.
-/

namespace Graft
namespace Toml

/--
Arrays and braces may stand in each other up to this depth, and a dotted key may have as many parts.
-/
def depthLimit : Nat := 79

def dropBlank (cs : List Char) : List Char :=
  cs.dropWhile isBlank

def dropComment : List Char → List Char
  | '#' :: cs => cs.dropWhile isPlain
  | cs => cs

/--
Take what may follow at the end of a line, and the end itself. The end of the text ends a line too.
-/
def endLine? (cs : List Char) : Option (List Char) :=
  match dropComment (dropBlank cs) with
  | [] => some []
  | cs => newline? cs

/--
The text behind comments, spaces and ends of lines, of which there are at most `count`.
-/
def dropGaps : Nat → List Char → List Char
  | 0, cs => cs
  | count + 1, cs =>
    match dropSpace cs with
    | '#' :: cs => dropGaps count (dropComment ('#' :: cs))
    | cs => cs

def simpleKey? : List Char → Option (String × List Char)
  | [] => none
  | c :: cs =>
    if c = '"' ∨ c = '\x27' then (singleLine? c cs).map fun (s, rest) => (.ofList s, rest)
    else
      let isBare (c : Char) : Bool := c.isAlphanum || c == '_' || c == '-'
      let name := (c :: cs).takeWhile isBare
      if name.isEmpty then none else some (.ofList name, (c :: cs).dropWhile isBare)

/--
Read a key of at most `limit` parts, with the spaces around it.
-/
def key? : Nat → List Char → Option (Key × List Char)
  | 0, _ => none
  | limit + 1, cs => do
    let (name, cs) ← simpleKey? (dropBlank cs)
    match dropBlank cs with
    | '.' :: cs => do
      let (key, cs) ← key? limit cs
      return (⟨name :: key.parents, key.name⟩, cs)
    | cs => some (⟨[], name⟩, cs)

def field? (value? : List Char → Option (Value × List Char)) (cs : List Char) :
    Option ((Key × Value) × List Char) := do
  let (key, cs) ← key? depthLimit cs
  let '=' :: cs := cs | none
  let (v, cs) ← value? (dropBlank cs)
  return ((key, v), dropBlank cs)

/--
Read the items of an array up to its closing bracket. A comma may follow the last one.
-/
def items? (value? : List Char → Option (Value × List Char)) :
    Nat → List Char → Option (List Value × List Char)
  | 0, _ => none
  | count + 1, cs =>
    match dropGaps cs.length cs with
    | ']' :: cs => some ([], cs)
    | cs => do
      let (v, cs) ← value? cs
      match dropGaps cs.length cs with
      | ',' :: cs => do
        let (vs, cs) ← items? value? count cs
        return (v :: vs, cs)
      | ']' :: cs => some ([v], cs)
      | _ => none

/--
Read the fields of a table between braces up to the closing one.
-/
def fields? (value? : List Char → Option (Value × List Char)) :
    Nat → List Char → Option (List (Key × Value) × List Char)
  | 0, _ => none
  | count + 1, cs => do
    let (first, cs) ← field? value? cs
    match cs with
    | ',' :: cs => do
      let (others, cs) ← fields? value? count cs
      return (first :: others, cs)
    | '\x7d' :: cs => some ([first], cs)
    | _ => none

/--
Read a value in which arrays and braces stand in each other at most `depth` times.
-/
def value? : Nat → List Char → Option (Value × List Char)
  | _, [] => none
  | depth, c :: cs =>
    if c = '"' ∨ c = '\x27' then (quotation? c cs).map fun (s, rest) => (.string (.ofList s), rest)
    else if c = '[' then
      match depth with
      | 0 => none
      | depth + 1 => (items? (value? depth) (cs.length + 1) cs).map fun (vs, rest) => (.array vs, rest)
    else if c = '\x7b' then
      match depth with
      | 0 => none
      | depth + 1 =>
        match dropBlank cs with
        | '\x7d' :: rest => some (.table .braces .empty, rest)
        | cs => do
          let (fields, rest) ← fields? (value? depth) (cs.length + 1) cs
          let t ← Table.assignAll? .empty fields
          return (.table .braces t, rest)
    else Value.word? (c :: cs)

/--
Read a heading, given what follows its first bracket.
-/
def heading? : List Char → Option (Heading × List Char)
  | '[' :: cs => do
    let (key, cs) ← key? depthLimit cs
    let ']' :: ']' :: cs := cs | none
    return (.row key, ← endLine? cs)
  | cs => do
    let (key, cs) ← key? depthLimit cs
    let ']' :: cs := cs | none
    return (.table key, ← endLine? cs)

/--
Read lines into sections. `heading` and `fields` are those of the current one, the last field first.
-/
def sections? : Nat → Heading → List (Key × Value) → List Char →
    Option (List (Heading × List (Key × Value)))
  | 0, _, _, _ => none
  | count + 1, heading, fields, cs =>
    match dropBlank cs with
    | [] => some [(heading, fields.reverse)]
    | '[' :: cs => do
      let (next, cs) ← heading? cs
      return (heading, fields.reverse) :: (← sections? count next [] cs)
    | c :: cs =>
      if c = '#' ∨ c = '\n' ∨ c = '\r' then do
        sections? count heading fields (← endLine? (c :: cs))
      else do
        let (field, cs) ← field? (value? depthLimit) (c :: cs)
        sections? count heading (field :: fields) (← endLine? cs)

/--
The table that a text describes. A byte order mark in front does not count.
-/
def parse (text : String) : Option Table := do
  let cs := match text.toList with
    | '\ufeff' :: cs => cs
    | cs => cs
  Table.ofSections? (← sections? (cs.length + 1) .top [] cs)

end Toml
end Graft
