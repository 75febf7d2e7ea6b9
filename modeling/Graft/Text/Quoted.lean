import Graft.Text.Printable

/-!
This module contains the quoted form of a text, in which every character can be seen.
-/

namespace Graft
namespace Text

/--
The written form of one character between quotation marks. Characters that would not show are given
by their code point in hexadecimal digits.
-/
def showChar (c : Char) : List Char :=
  if c == '"' then ['\\', '"']
  else if c == '\\' then ['\\', '\\']
  else if c == '\t' then ['\\', 't']
  else if c == '\n' then ['\\', 'n']
  else if c == '\r' then ['\\', 'r']
  else if c == '\x00' then ['\\', '0']
  else if isPrintable c then [c]
  else ['\\', 'u', '\x7b'] ++ Nat.toDigits 16 c.toNat ++ ['\x7d']

def quoted (s : String) : String :=
  "\"" ++ .ofList (s.toList.flatMap showChar) ++ "\""

def quotedList (ss : List String) : String :=
  "[" ++ ", ".intercalate (ss.map quoted) ++ "]"

end Text
end Graft
