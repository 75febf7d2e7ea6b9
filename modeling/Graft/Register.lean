/-!
This module contains an association list that keeps its keys in the order of their first entry.
-/

namespace Graft

/--
One value per key, keys in the order in which they were first entered.
-/
structure Register (κ : Type) (α : Type) where
  entries : List (κ × α)
  deriving Repr

namespace Register

variable {κ α : Type}

instance : Inhabited (Register κ α) := ⟨⟨[]⟩⟩

def empty : Register κ α := ⟨[]⟩

def keys (r : Register κ α) : List κ :=
  r.entries.map (·.1)

@[simp]
theorem keys_empty : (empty : Register κ α).keys = [] := rfl

def size (r : Register κ α) : Nat :=
  r.entries.length

variable [DecidableEq κ]

def get? (r : Register κ α) (k : κ) : Option α :=
  go r.entries
where
  go : List (κ × α) → Option α
    | [] => none
    | (k', a) :: rest => if k' = k then some a else go rest

def contains (r : Register κ α) (k : κ) : Bool :=
  (r.get? k).isSome

/--
Replace the value of a key by `f` of it. A key without a value is entered last, with `f none`.
-/
def update (r : Register κ α) (k : κ) (f : Option α → α) : Register κ α :=
  ⟨go r.entries⟩
where
  go : List (κ × α) → List (κ × α)
    | [] => [(k, f none)]
    | (k', a) :: rest => if k' = k then (k', f (some a)) :: rest else (k', a) :: go rest

@[simp]
theorem get?_empty (k : κ) : (empty : Register κ α).get? k = none := rfl

theorem get?.go_eq_none_iff (k : κ) (entries : List (κ × α)) :
    go k entries = none ↔ k ∉ entries.map (·.1) := by
  induction entries with
  | nil => simp [go]
  | cons e rest ih =>
    by_cases h : e.1 = k
    . simp [go, h]
    . simp [go, h, ih, Ne.symm h]

theorem get?_eq_none_iff {r : Register κ α} {k : κ} : r.get? k = none ↔ k ∉ r.keys :=
  get?.go_eq_none_iff k r.entries

theorem contains_iff {r : Register κ α} {k : κ} : r.contains k = true ↔ k ∈ r.keys := by
  have := @get?_eq_none_iff κ α _ r k
  cases h : r.get? k <;> simp_all [contains]

theorem update.go_map_fst (k : κ) (f : Option α → α) (entries : List (κ × α)) :
    (go k f entries).map (·.1)
      =
    if k ∈ entries.map (·.1) then entries.map (·.1) else entries.map (·.1) ++ [k] := by
  induction entries with
  | nil => simp [go]
  | cons e rest ih =>
    by_cases h : e.1 = k
    . simp [go, h]
    . simp only [go, h, if_false, List.map_cons, ih, List.mem_cons, Ne.symm h, false_or]
      split <;> simp

theorem keys_update (r : Register κ α) (k : κ) (f : Option α → α) :
    (r.update k f).keys = if k ∈ r.keys then r.keys else r.keys ++ [k] :=
  update.go_map_fst k f r.entries

theorem get?_update (r : Register κ α) (k k' : κ) (f : Option α → α) :
    (r.update k f).get? k' = if k' = k then some (f (r.get? k)) else r.get? k' := by
  simp only [get?, update]
  induction r.entries with
  | nil => simp [update.go, get?.go, eq_comm]
  | cons e rest ih =>
    by_cases h : e.1 = k
    . by_cases h' : k' = k <;> simp [update.go, get?.go, h, h', Ne.symm]
    . by_cases h' : e.1 = k'
      . subst h'
        simp [update.go, get?.go, h]
      . simp [update.go, get?.go, h, h', ih]

end Register
end Graft
