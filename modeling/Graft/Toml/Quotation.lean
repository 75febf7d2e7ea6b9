import Graft.Text.Radix

/-!
This module contains quoted strings. There are two kinds of quotes: between `"` a backslash begins an
escape, between `'` every character stands for itself. A string that begins with three quotes ends with
three and may have several lines.
-/

namespace Graft
namespace Toml

def isPlain (c : Char) : Bool :=
  c == '\t' || (0x20 ≤ c.toNat && c.toNat ≠ 0x7f)

def isBlank (c : Char) : Bool :=
  c == ' ' || c == '\t'

def newline? : List Char → Option (List Char)
  | '\n' :: cs => some cs
  | '\r' :: '\n' :: cs => some cs
  | _ => none

theorem newline?_length_lt {cs rest : List Char} (h : newline? cs = some rest) :
    rest.length < cs.length := by
  unfold newline? at h
  split at h
  . cases h
    simp
  . cases h
    simp only [List.length_cons]
    omega
  . cases h

def dropSpace : List Char → List Char
  | [] => []
  | ' ' :: cs | '\t' :: cs | '\n' :: cs => dropSpace cs
  | '\r' :: '\n' :: cs => dropSpace cs
  | cs => cs

theorem dropSpace_length_le (cs : List Char) : (dropSpace cs).length ≤ cs.length := by
  fun_induction dropSpace cs <;> simp_all <;> omega

def codePoint? (count : Nat) (cs : List Char) : Option (Char × List Char) := do
  if cs.length < count then none
  let digits ← (cs.take count).mapM (Text.digitValue? 16)
  let n := Text.ofDigits 16 digits
  if n.isValidChar then some (Char.ofNat n, cs.drop count) else none

/--
Read what follows the backslash of an escape.
-/
def escape? : List Char → Option (Char × List Char)
  | 'b' :: cs => some ('\x08', cs)
  | 't' :: cs => some ('\t', cs)
  | 'n' :: cs => some ('\n', cs)
  | 'f' :: cs => some ('\x0c', cs)
  | 'r' :: cs => some ('\r', cs)
  | '"' :: cs => some ('"', cs)
  | '\\' :: cs => some ('\\', cs)
  | 'u' :: cs => codePoint? 4 cs
  | 'U' :: cs => codePoint? 8 cs
  | _ => none

theorem codePoint?_length_le {count : Nat} {cs rest : List Char} {c : Char}
    (h : codePoint? count cs = some (c, rest)) : rest.length ≤ cs.length := by
  simp only [codePoint?, Option.bind_eq_bind] at h
  split at h
  . simp at h
  . simp only [Option.bind_eq_some_iff] at h
    obtain ⟨digits, -, h⟩ := h
    split at h <;> simp_all
    rw [← h.2]
    simp

theorem escape?_length_lt {cs rest : List Char} {c : Char} (h : escape? cs = some (c, rest)) :
    rest.length < cs.length := by
  unfold escape? at h
  split at h <;> simp_all
  . have := codePoint?_length_le h
    omega
  . have := codePoint?_length_le h
    omega

def prepend (front : List Char) (r : Option (List Char × List Char)) :
    Option (List Char × List Char) :=
  r.map fun (s, rest) => (front ++ s, rest)

/--
Read a string in one line, given what follows its opening quote.
-/
def singleLine? (quote : Char) (cs : List Char) : Option (List Char × List Char) :=
  match cs with
  | [] => none
  | c :: cs =>
    if c = quote then some ([], cs)
    else if c = '\\' ∧ quote = '"' then
      match _h : escape? cs with
      | none => none
      | some (e, rest) => prepend [e] (singleLine? quote rest)
    else if isPlain c then prepend [c] (singleLine? quote cs)
    else none
termination_by cs.length
decreasing_by
  . have := escape?_length_lt _h
    simp only [List.length_cons]
    omega
  . simp

/--
The text behind a backslash at the end of a line: the spaces at the beginning of the lines that follow
do not count.
-/
def continued? (cs : List Char) : Option (List Char) :=
  (newline? (cs.dropWhile isBlank)).map dropSpace

theorem continued?_length_lt {cs rest : List Char} (h : continued? cs = some rest) :
    rest.length < cs.length := by
  obtain ⟨r, hr, rfl⟩ := Option.map_eq_some_iff.1 h
  have h₁ := newline?_length_lt hr
  have h₂ := dropSpace_length_le r
  have h₃ := (List.dropWhile_sublist isBlank (l := cs)).length_le
  omega

/--
Read the rest of a string in several lines. One or two quotes stand for themselves, and so do two more
in front of the three at the end.
-/
def multiLine? (quote : Char) (cs : List Char) : Option (List Char × List Char) :=
  match cs with
  | [] => none
  | c :: cs =>
    if c = quote then
      let more := (cs.takeWhile (· == quote)).length
      if more < 2 then prepend (List.replicate (more + 1) quote) (multiLine? quote (cs.drop more))
      else
        let extra := min (more - 2) 2
        some (List.replicate extra quote, cs.drop (extra + 2))
    else if c = '\\' ∧ quote = '"' then
      match _h : continued? cs with
      | some rest => multiLine? quote rest
      | none =>
        match _h' : escape? cs with
        | none => none
        | some (e, rest) => prepend [e] (multiLine? quote rest)
    else
      match _h : newline? (c :: cs) with
      | some rest => prepend ['\n'] (multiLine? quote rest)
      | none => if isPlain c then prepend [c] (multiLine? quote cs) else none
termination_by cs.length
decreasing_by
  . simp only [List.length_cons, List.length_drop]
    omega
  . have := continued?_length_lt _h
    simp only [List.length_cons]
    omega
  . have := escape?_length_lt _h'
    simp only [List.length_cons]
    omega
  . exact newline?_length_lt _h
  . simp

/--
Read a string, given what follows the first of its quotes. The end of the line right behind three
quotes does not belong to it.
-/
def quotation? (quote : Char) (cs : List Char) : Option (List Char × List Char) :=
  match cs with
  | c :: d :: rest =>
    if c = quote ∧ d = quote then multiLine? quote ((newline? rest).getD rest)
    else singleLine? quote cs
  | _ => singleLine? quote cs

end Toml
end Graft
