import Graft.Text.Utf8

/-!
This module contains the names in directories. A name consists of bytes; they need not encode a text.
-/

namespace Graft

structure FileName where
  bytes : List UInt8
  deriving DecidableEq, Repr, Inhabited

namespace FileName

def ofText (name : List Char) : FileName :=
  ⟨name.flatMap String.utf8EncodeChar⟩

/--
The text that a name encodes, if it encodes one.
-/
def text? (n : FileName) : Option (List Char) :=
  (String.fromUTF8? n.bytes.toByteArray).map (·.toList)

/--
The text that stands for a name, with U+FFFD in place of what is no UTF-8.
-/
def shown (n : FileName) : List Char :=
  (Text.decode n.bytes.toByteArray).toList

/--
A name that is a text is hidden if it begins with a dot. Other names never are.
-/
def isHidden (n : FileName) : Bool :=
  match n.text? with
  | some name => name.head? = some '.'
  | none => false

/--
Whether a name is a text that ends with one of the suffixes.
-/
def hasSuffix (suffixes : List String) (n : FileName) : Bool :=
  match n.text? with
  | some name => suffixes.any fun suffix => suffix.toList.isSuffixOf name
  | none => false

/--
What names are compared by.
-/
def key (n : FileName) : List Nat :=
  n.bytes.map (·.toNat)

instance : LT FileName := ⟨fun a b => a.key < b.key⟩

instance decidableLt : DecidableLT FileName := fun a b =>
  inferInstanceAs (Decidable (a.key < b.key))

@[simp]
theorem text?_ofText (name : List Char) : (ofText name).text? = some name := by
  have hvalid : (ofText name).bytes.toByteArray.IsValidUTF8 := ⟨name, rfl⟩
  unfold text? String.fromUTF8?
  rw [dif_pos hvalid, Option.map_some, Option.some_inj]
  exact String.toList_ofList

@[simp]
theorem ofText_inj {a b : List Char} : ofText a = ofText b ↔ a = b := by
  constructor
  . intro h
    have htext := congrArg text? h
    rwa [text?_ofText, text?_ofText, Option.some_inj] at htext
  . rintro rfl
    rfl

@[simp]
theorem map_ofText_inj {a b : List (List Char)} : a.map ofText = b.map ofText ↔ a = b :=
  List.map_inj_right fun _ _ => ofText_inj.mp

end FileName
end Graft
