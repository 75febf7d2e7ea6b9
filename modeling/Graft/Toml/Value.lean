import Graft.Register
import Graft.Toml.Moment

/-!
This module contains the values of a configuration text.
-/

namespace Graft
namespace Toml

/--
How a table came about, which settles whether later lines may add to it.
-/
inductive Origin where
  /-- Written between braces: complete. -/
  | braces
  /-- Opened by a header of its own: closed to dotted keys from elsewhere. -/
  | header
  /-- Named on the way to another header. -/
  | implied
  /-- Named by a dotted key. -/
  | dotted
  deriving DecidableEq, Repr, Inhabited

inductive Value where
  | string (s : String)
  | integer (n : Int)
  /-- A number with a fraction or an exponent, in its written form. -/
  | float (written : String)
  | boolean (b : Bool)
  | moment (m : Moment)
  | array (items : List Value)
  | table (origin : Origin) (fields : Register String Value)
  /-- Tables that follow each other under headers in double brackets. -/
  | rows (tables : List (Register String Value))
  deriving Inhabited

abbrev Table := Register String Value

namespace Table

def set (t : Table) (key : String) (v : Value) : Table :=
  t.update key fun _ => v

/--
Apply `f` to the table at the end of a path, together with its origin. On the way, tables that are
missing arise, a row of tables stands for its last one, and a table must be open: to a header unless
it stands between braces, and to a dotted key only if no header opened it either.
-/
def enter (byHeader : Bool) (f : Origin → Table → Option Table) :
    List String → Origin → Table → Option Table
  | [], origin, t => f origin t
  | key :: path, _, t =>
    match t.get? key with
    | none =>
      let origin := if byHeader then .implied else .dotted
      (enter byHeader f path origin .empty).map fun inner => t.set key (.table origin inner)
    | some (.table origin inner) =>
      if origin = .braces ∨ (origin = .header ∧ !byHeader) then none
      else (enter byHeader f path origin inner).map fun inner => t.set key (.table origin inner)
    | some (.rows tables) =>
      match tables.reverse with
      | [] => none
      | last :: before =>
        (enter byHeader f path .header last).map fun last =>
          t.set key (.rows (before.reverse ++ [last]))
    | some _ => none

end Table

/--
The name of a value below some tables.
-/
structure Key where
  parents : List String
  name : String
  deriving DecidableEq, Repr, Inhabited

namespace Table

/--
Enter the value of a dotted key. A dotted key may add only to tables that dotted keys made, and a key
has one value.
-/
def assign? (t : Table) (key : Key) (v : Value) : Option Table :=
  t.enter false (fun origin inner =>
    if inner.contains key.name || (!key.parents.isEmpty && origin ≠ .dotted) then none
    else some (inner.set key.name v)) key.parents .header

def assignAll? (t : Table) (fields : List (Key × Value)) : Option Table :=
  fields.foldlM (fun t (key, v) => t.assign? key v) t

end Table

/--
What the lines up to the next header belong to.
-/
inductive Heading where
  | top
  | table (key : Key)
  | row (key : Key)
  deriving DecidableEq, Repr, Inhabited

namespace Table

/--
Enter the lines below a heading. A table is opened once, though it may have been named on the way to
another one before; a row follows the earlier rows with its key.
-/
def addSection? (t : Table) (fields : List (Key × Value)) : Heading → Option Table
  | .top => t.assignAll? fields
  | .table key =>
    t.enter true (fun _ parent =>
      match parent.get? key.name with
      | none => (assignAll? .empty fields).map fun new => parent.set key.name (.table .header new)
      | some (.table .implied base) =>
        (assignAll? base fields).map fun new => parent.set key.name (.table .header new)
      | some _ => none) key.parents .header
  | .row key =>
    t.enter true (fun _ parent =>
      match parent.get? key.name with
      | none => (assignAll? .empty fields).map fun new => parent.set key.name (.rows [new])
      | some (.rows tables) =>
        (assignAll? .empty fields).map fun new => parent.set key.name (.rows (tables ++ [new]))
      | some _ => none) key.parents .header

def ofSections? (sections : List (Heading × List (Key × Value))) : Option Table :=
  sections.foldlM (fun t (heading, fields) => t.addSection? fields heading) .empty

end Table
end Toml
end Graft
