import Graft.Diagnostics.Event
import Graft.Diagnostics.Grammar
import Graft.Text.Affix
import Graft.Text.Digit

/-!
This module contains the recognizers, one for each shape of diagnostic.
-/

namespace Graft
namespace Diagnostics

def afterNumber? (cs : List Char) : Option (List Char) :=
  if (cs.takeWhile Text.isDigit).isEmpty then none
  else Text.stripStart? [':'] (cs.dropWhile Text.isDigit)

/--
Divide a line of the form `<file>:<line>:[<col>:] <message>` into file and message. The message
stays on one line.
-/
def splitLocation? (line : List Char) : Option (List Char × List Char) :=
  let file := line.takeWhile (· != ':')
  if file.isEmpty || (file.head?.any Text.isBlank) then none
  else do
    let rest ← Text.stripStart? [':'] (line.dropWhile (· != ':'))
    let rest ← afterNumber? rest
    let message := Text.trimStart ((afterNumber? rest).getD rest)
    if message.contains '\n' then none else some (file, message)

def beforeSuffix? (suffixes : List String) (cs : List Char) : Option (List Char) :=
  suffixes.findSome? fun suffix => Text.stripEnd? suffix.toList cs

def afterMarker? (markers : List String) (cs : List Char) : Option (List Char) :=
  markers.findSome? fun marker => Text.stripStart? marker.toList cs

def headerName (suffixes : List String) (body : List Char) : List Char :=
  match beforeSuffix? suffixes (Text.trim body) with
  | some front => bareName (Text.dropEndWhile (· == ':') (Text.trim front))
  | none => []

/--
Recognize `foo.c:3:10: fatal error: sys/mbuf.h: No such file or directory`.
-/
def classifyMissingInclude (g : Grammar) (line : List Char) : Verdict :=
  let line := Text.trim line
  if (beforeSuffix? g.missingIncludeSuffixes line).isNone then .noMatch
  else
    match splitLocation? line with
    | none => .ambiguous .noLocation
    | some (file, message) =>
      match afterMarker? g.errorMarkers message with
      | none => .ambiguous .noMarker
      | some body =>
        let header := headerName g.missingIncludeSuffixes body
        if header.isEmpty then .ambiguous .emptyHeader
        else .event (.missingInclude ⟨.ofList (Text.trim file), .ofList header⟩)

/--
Recognize ``uipc.c:(.text+0x2a): undefined reference to `mbuf_alloc'``. All announcing words have to
be on the line, and its last word is the symbol unless it is one of them.
-/
def classifyUndefinedReference (g : Grammar) (line : List Char) : Verdict :=
  let words := Text.words line
  let tokens := g.undefinedTokens.map (·.toList)
  if tokens.isEmpty || !tokens.all (words.contains ·) then .noMatch
  else
    match words.getLast? with
    | none => .noMatch
    | some last =>
      if tokens.contains last then .ambiguous .noSymbol
      else
        match Symbol.ofToken? (.ofList last) with
        | some symbol => .event (.undefinedSymbol symbol)
        | none => .ambiguous .onlyDecoration

/--
Letters and digits of ASCII with the signs that assemblers allow in names; a digit or `@` is not the
first.
-/
def isSymbolLike : List Char → Bool
  | [] => false
  | c :: cs =>
    (c.isAlpha || c == '_' || c == '.' || c == '$')
      && cs.all fun c => c.isAlphanum || c == '_' || c == '.' || c == '$' || c == '@'

/--
The names of object files and libraries. An extension alone is no such name.
-/
def isObjectName (name : List Char) : Bool :=
  [".o", ".obj", ".a", ".so", ".lo"].any fun extension =>
    extension.length < name.length && extension.toList.isSuffixOf name

/--
Recognize the symbol on a line that opens a block of a listing, such as `U mbuf_alloc` after a blank
line.
-/
def classifyBlankSeparatedSymbol (followsBlank : Bool) (line : List Char) : Verdict :=
  if !followsBlank then .noMatch
  else
    match (Text.words line)[1]? with
    | none => .noMatch
    | some token =>
      if token.getLast? == some ':' then .ambiguous (.isLocation (.ofList token))
      else
        let bare := bareName token
        if !isSymbolLike bare || isObjectName bare then .ambiguous (.notASymbol (.ofList token))
        else .event (.undefinedSymbol ⟨.ofList bare⟩)

end Diagnostics

inductive Recognizer where
  | missingInclude
  | undefinedReference
  | blankSeparatedSymbol
  deriving DecidableEq, Repr, Inhabited

namespace Recognizer

def name : Recognizer → String
  | .missingInclude => "missing-include"
  | .undefinedReference => "undefined-reference"
  | .blankSeparatedSymbol => "blank-separated-symbol"

/--
What a recognizer makes of a line, given whether the line before it is blank.
-/
def classify (g : Grammar) (followsBlank : Bool) (line : List Char) : Recognizer → Verdict
  | .missingInclude => Diagnostics.classifyMissingInclude g line
  | .undefinedReference => Diagnostics.classifyUndefinedReference g line
  | .blankSeparatedSymbol => Diagnostics.classifyBlankSeparatedSymbol followsBlank line

end Recognizer

def Grammar.recognizers (g : Grammar) : List Recognizer :=
  [.missingInclude, .undefinedReference]
    ++ (if g.blankSeparatedSymbols then [.blankSeparatedSymbol] else [])

end Graft
