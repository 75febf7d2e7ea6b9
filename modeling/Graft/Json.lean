/-!
This module contains the values that reports are made of and their two written forms, on one line
and indented.
-/

namespace Graft

/--
A JSON value. All numbers are natural, and the fields of an object keep their order.
-/
inductive Json where
  | null
  | bool (b : Bool)
  | num (n : Nat)
  | str (s : String)
  | arr (items : List Json)
  | obj (fields : List (String × Json))
  deriving Inhabited

namespace Json

def strings (ss : List String) : Json :=
  .arr (ss.map .str)

def optional (f : α → Json) : Option α → Json
  | none => .null
  | some a => f a

def hexDigit (n : Nat) : Char :=
  (Nat.toDigits 16 (n % 16)).headD '0'

/--
The written form of one character inside a string. Control characters, the quotation mark and the
backslash are escaped, all others are written as they are.
-/
def escapeChar (c : Char) : List Char :=
  if c == '"' then ['\\', '"']
  else if c == '\\' then ['\\', '\\']
  else if c == '\x08' then ['\\', 'b']
  else if c == '\x0c' then ['\\', 'f']
  else if c == '\n' then ['\\', 'n']
  else if c == '\r' then ['\\', 'r']
  else if c == '\t' then ['\\', 't']
  else if c.toNat < 0x20 then ['\\', 'u', '0', '0', hexDigit (c.toNat / 16), hexDigit c.toNat]
  else [c]

def quote (s : String) : String :=
  "\"" ++ .ofList (s.toList.flatMap escapeChar) ++ "\""

def literal (b : Bool) : String :=
  if b then "true" else "false"

mutual

/--
The value on one line without spaces.
-/
def compact : Json → String
  | .null => "null"
  | .bool b => literal b
  | .num n => toString n
  | .str s => quote s
  | .arr items => "[" ++ ",".intercalate (compactItems items) ++ "]"
  | .obj fields => "\x7b" ++ ",".intercalate (compactFields fields) ++ "\x7d"

def compactItems : List Json → List String
  | [] => []
  | item :: items => item.compact :: compactItems items

def compactFields : List (String × Json) → List String
  | [] => []
  | (key, value) :: fields => (quote key ++ ":" ++ value.compact) :: compactFields fields

end

/--
Items one under the other between two brackets, `depth` levels deep. Without items the brackets
stand side by side.
-/
def block (opening closing : String) (depth : Nat) (items : List String) : String :=
  if items.isEmpty then opening ++ closing
  else
    let margin := "".pushn ' ' (2 * depth)
    opening ++ "\n" ++ ",\n".intercalate (items.map (margin ++ "  " ++ ·)) ++ "\n" ++ margin ++ closing

mutual

/--
The value with two spaces of indentation for every level.
-/
def pretty (depth : Nat) : Json → String
  | .null => "null"
  | .bool b => literal b
  | .num n => toString n
  | .str s => quote s
  | .arr items => block "[" "]" depth (prettyItems (depth + 1) items)
  | .obj fields => block "\x7b" "\x7d" depth (prettyFields (depth + 1) fields)

def prettyItems (depth : Nat) : List Json → List String
  | [] => []
  | item :: items => item.pretty depth :: prettyItems depth items

def prettyFields (depth : Nat) : List (String × Json) → List String
  | [] => []
  | (key, value) :: fields => (quote key ++ ": " ++ value.pretty depth) :: prettyFields depth fields

end

end Json
end Graft
