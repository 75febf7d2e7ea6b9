/-!
This module contains the removal of a given beginning or ending from a text.
-/

namespace Graft
namespace Text

def stripStart? (pre cs : List Char) : Option (List Char) :=
  if pre.isPrefixOf cs then some (cs.drop pre.length) else none

def stripEnd? (suf cs : List Char) : Option (List Char) :=
  if suf.isSuffixOf cs then some (cs.take (cs.length - suf.length)) else none

theorem stripStart?_eq_some_iff {pre cs rest : List Char} :
    stripStart? pre cs = some rest ↔ cs = pre ++ rest := by
  simp only [stripStart?, Option.ite_none_right_eq_some, Option.some.injEq, List.isPrefixOf_iff_prefix]
  constructor
  . rintro ⟨⟨t, rfl⟩, rfl⟩
    simp
  . rintro rfl
    simp

theorem stripEnd?_eq_some_iff {suf cs rest : List Char} :
    stripEnd? suf cs = some rest ↔ cs = rest ++ suf := by
  simp only [stripEnd?, Option.ite_none_right_eq_some, Option.some.injEq, List.isSuffixOf_iff_suffix]
  constructor
  . rintro ⟨⟨t, rfl⟩, rfl⟩
    simp
  . rintro rfl
    simp

def endsWith (s suf : String) : Bool :=
  suf.toList.isSuffixOf s.toList

end Text
end Graft
