/-!
This module contains the white space rules that every text is read with: trimming at both ends and
splitting into words. All functions work on the characters of a text.
-/

namespace Graft
namespace Text

/--
The characters with the Unicode property `White_Space`.
-/
def isBlank (c : Char) : Bool :=
  let n := c.toNat
  (0x09 ≤ n && n ≤ 0x0d) || n == 0x20 || n == 0x85 || n == 0xa0 || n == 0x1680
    || (0x2000 ≤ n && n ≤ 0x200a) || n == 0x2028 || n == 0x2029 || n == 0x202f || n == 0x205f
    || n == 0x3000

def dropEndWhile (p : Char → Bool) (cs : List Char) : List Char :=
  (cs.reverse.dropWhile p).reverse

@[simp]
theorem dropEndWhile_nil (p : Char → Bool) : dropEndWhile p [] = [] := rfl

theorem dropEndWhile_concat (p : Char → Bool) (cs : List Char) (c : Char) :
    dropEndWhile p (cs ++ [c]) = if p c then dropEndWhile p cs else cs ++ [c] := by
  simp only [dropEndWhile, List.reverse_append, List.reverse_cons, List.reverse_nil, List.nil_append,
    List.singleton_append, List.dropWhile_cons]
  split <;> simp

def dropBothWhile (p : Char → Bool) (cs : List Char) : List Char :=
  dropEndWhile p (cs.dropWhile p)

def trimStart (cs : List Char) : List Char :=
  cs.dropWhile isBlank

def trimEnd (cs : List Char) : List Char :=
  dropEndWhile isBlank cs

def trim (cs : List Char) : List Char :=
  trimEnd (trimStart cs)

def words (cs : List Char) : List (List Char) :=
  (cs.splitOnP isBlank).filter (!·.isEmpty)

/--
Cut a text at its first white space character, which belongs to neither half.
-/
def splitAtBlank? (cs : List Char) : Option (List Char × List Char) :=
  match cs.dropWhile (!isBlank ·) with
  | [] => none
  | _ :: rest => some (cs.takeWhile (!isBlank ·), rest)

def trimmed (s : String) : String :=
  .ofList (trim s.toList)

def isBlankText (s : String) : Bool :=
  s.toList.all isBlank

end Text
end Graft
