import Graft.Text.Blank

/-!
This module contains the names of linker symbols and the removal of what toolchains wrap around
names in their messages.
-/

namespace Graft

/--
The quote characters found around names: apostrophe, quotation mark, backtick and the two
typographic single quotes.
-/
def isQuote (c : Char) : Bool :=
  c == '\'' || c == '"' || c == '\x60' || c == '\u2018' || c == '\u2019'

def isSentenceEnd (c : Char) : Bool :=
  c == ',' || c == ';' || c == ':'

/--
The name inside a token: the white space around it, then punctuation at the end, then quotes on
both sides, then white space again are dropped, each once and in this order.
-/
def bareName (token : List Char) : List Char :=
  Text.trim (Text.dropBothWhile isQuote (Text.dropEndWhile isSentenceEnd (Text.trim token)))

def stripDecoration (token : String) : String :=
  .ofList (bareName token.toList)

/--
A bare symbol name as the linker sees it.
-/
structure Symbol where
  name : String
  deriving DecidableEq, Repr, Inhabited

namespace Symbol

/--
The symbol named by a token of a message, if anything is left without the decoration.
-/
def ofToken? (token : String) : Option Symbol :=
  let bare := stripDecoration token
  if bare.isEmpty then none else some ⟨bare⟩

end Symbol
end Graft
