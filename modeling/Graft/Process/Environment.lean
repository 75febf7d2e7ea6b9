/-!
This module contains the variables that are added to the environment of a command. They are kept in the
order of their names, so that two environments with the same variables are equal.
-/

namespace Graft

structure Environment where
  entries : List (String × String)
  ascending : entries.Pairwise (fun a b => a.1 < b.1)
  deriving DecidableEq, Repr

namespace Environment

def empty : Environment := ⟨[], .nil⟩

instance : Inhabited Environment := ⟨empty⟩

def get? (e : Environment) (name : String) : Option String :=
  e.entries.lookup name

def setIn (name value : String) : List (String × String) → List (String × String)
  | [] => [(name, value)]
  | (n, v) :: rest =>
    if name < n then (name, value) :: (n, v) :: rest
    else if name = n then (name, value) :: rest
    else (n, v) :: setIn name value rest

theorem mem_setIn {name value : String} {x : String × String} {entries : List (String × String)}
    (h : x ∈ setIn name value entries) : x = (name, value) ∨ x ∈ entries := by
  induction entries with
  | nil => simpa [setIn] using h
  | cons e rest ih =>
    simp only [setIn] at h
    split at h
    . simpa using h
    . split at h
      . rcases List.mem_cons.1 h with h | h
        . exact .inl h
        . exact .inr (.tail _ h)
      . rcases List.mem_cons.1 h with h | h
        . exact .inr (h ▸ .head _)
        . rcases ih h with h | h
          . exact .inl h
          . exact .inr (.tail _ h)

theorem lt_of_not_lt {a b : String} (h : ¬ a < b) (hne : ¬ a = b) : b < a :=
  Std.lt_of_le_of_ne (String.not_lt.1 h) (Ne.symm hne)

theorem pairwise_setIn (name value : String) {entries : List (String × String)}
    (h : entries.Pairwise (fun a b => a.1 < b.1)) :
    (setIn name value entries).Pairwise (fun a b => a.1 < b.1) := by
  induction entries with
  | nil => simp [setIn]
  | cons e rest ih =>
    obtain ⟨hall, hrest⟩ := List.pairwise_cons.1 h
    simp only [setIn]
    split
    . next hlt =>
      refine List.pairwise_cons.2 ⟨fun x hx => ?_, h⟩
      rcases List.mem_cons.1 hx with rfl | hx
      . exact hlt
      . exact String.lt_trans hlt (hall x hx)
    . next hnlt =>
      split
      . next heq =>
        exact List.pairwise_cons.2 ⟨fun x hx => heq ▸ hall x hx, hrest⟩
      . next hne =>
        refine List.pairwise_cons.2 ⟨fun x hx => ?_, ih hrest⟩
        rcases mem_setIn hx with rfl | hx
        . exact lt_of_not_lt hnlt hne
        . exact hall x hx

def set (e : Environment) (name value : String) : Environment :=
  ⟨setIn name value e.entries, pairwise_setIn name value e.ascending⟩

def ofList (entries : List (String × String)) : Environment :=
  entries.foldl (fun e (name, value) => e.set name value) empty

def union (earlier later : Environment) : Environment :=
  later.entries.foldl (fun e (name, value) => e.set name value) earlier

theorem lookup_cons_ite (x : String × String) (rest : List (String × String)) (k : String) :
    (x :: rest).lookup k = if k = x.1 then some x.2 else rest.lookup k := by
  obtain ⟨name, value⟩ := x
  rw [List.lookup_cons]
  cases h : k == name with
  | true => simp [beq_iff_eq.1 h]
  | false => simp [beq_eq_false_iff_ne.1 h]

theorem lookup_setIn (name value k : String) (entries : List (String × String)) :
    (setIn name value entries).lookup k = if k = name then some value else entries.lookup k := by
  induction entries with
  | nil => simp [setIn]
  | cons e rest ih =>
    simp only [setIn]
    split
    . simp [lookup_cons_ite]
    . split
      . next heq =>
        by_cases h : k = name <;> simp [lookup_cons_ite, h, ← heq]
      . next hne =>
        by_cases h : k = e.1
        . subst h
          simp [lookup_cons_ite, Ne.symm hne]
        . simp [lookup_cons_ite, h, ih]

@[simp]
theorem get?_empty (k : String) : empty.get? k = none := rfl

@[simp]
theorem get?_set (e : Environment) (name value k : String) :
    (e.set name value).get? k = if k = name then some value else e.get? k :=
  lookup_setIn name value k e.entries

theorem lookup_eq_none_of_forall_lt {k : String} {entries : List (String × String)}
    (h : ∀ x ∈ entries, k < x.1) : entries.lookup k = none := by
  induction entries with
  | nil => rfl
  | cons e rest ih =>
    have hne : k ≠ e.1 := fun heq => String.lt_irrefl _ (heq ▸ h e (.head _))
    rw [lookup_cons_ite, if_neg hne]
    exact ih fun x hx => h x (.tail _ hx)

/--
In ascending lists a first name that comes before another first name is missing there.
-/
theorem lookup_cons_eq_none_of_lt {k : String} {x : String × String} {rest : List (String × String)}
    (hx : ∀ y ∈ rest, x.1 < y.1) (h : k < x.1) : (x :: rest).lookup k = none := by
  refine lookup_eq_none_of_forall_lt fun y hy => ?_
  rcases List.mem_cons.1 hy with rfl | hy
  . exact h
  . exact String.lt_trans h (hx y hy)

/--
Ascending lists with the same values for all names are equal.
-/
theorem eq_of_lookup_eq {as bs : List (String × String)} (ha : as.Pairwise (fun a b => a.1 < b.1))
    (hb : bs.Pairwise (fun a b => a.1 < b.1)) (h : ∀ k, as.lookup k = bs.lookup k) : as = bs := by
  induction as generalizing bs with
  | nil =>
    cases bs with
    | nil => rfl
    | cons b bs => simpa [lookup_cons_ite] using h b.1
  | cons a as ih =>
    obtain ⟨ha', has⟩ := List.pairwise_cons.1 ha
    cases bs with
    | nil => simpa [lookup_cons_ite] using h a.1
    | cons b bs =>
      obtain ⟨hb', hbs⟩ := List.pairwise_cons.1 hb
      have hname : a.1 = b.1 := by
        by_cases hlt : a.1 < b.1
        . have := h a.1
          rw [lookup_cons_eq_none_of_lt hb' hlt] at this
          simp [lookup_cons_ite] at this
        . by_cases heq : a.1 = b.1
          . exact heq
          . have := h b.1
            rw [lookup_cons_eq_none_of_lt ha' (lt_of_not_lt hlt heq)] at this
            simp [lookup_cons_ite] at this
      have hvalue : a.2 = b.2 := by
        have := h a.1
        simpa [lookup_cons_ite, hname] using this
      have hrest : as = bs := by
        refine ih has hbs fun k => ?_
        by_cases hk : k = a.1
        . subst hk
          rw [lookup_eq_none_of_forall_lt ha', lookup_eq_none_of_forall_lt (hname ▸ hb')]
        . have := h k
          rwa [lookup_cons_ite, lookup_cons_ite, if_neg hk, if_neg (hname ▸ hk)] at this
      rw [hrest, Prod.ext hname hvalue]

theorem ext_get? {e e' : Environment} (h : ∀ k, e.get? k = e'.get? k) : e = e' := by
  obtain ⟨as, ha⟩ := e
  obtain ⟨bs, hb⟩ := e'
  have heq : as = bs := eq_of_lookup_eq ha hb h
  subst heq
  rfl

theorem lookup_foldl_set (entries : List (String × String))
    (h : entries.Pairwise (fun a b => a.1 < b.1)) (e : Environment) (k : String) :
    (entries.foldl (fun e (name, value) => e.set name value) e).get? k
      =
    (entries.lookup k).or (e.get? k) := by
  induction entries generalizing e with
  | nil => simp
  | cons x rest ih =>
    obtain ⟨hx, hrest⟩ := List.pairwise_cons.1 h
    rw [List.foldl_cons, ih hrest, get?_set, lookup_cons_ite]
    by_cases hk : k = x.1
    . subst hk
      simp [lookup_eq_none_of_forall_lt hx]
    . simp [hk]

theorem get?_union (earlier later : Environment) (k : String) :
    (earlier.union later).get? k = (later.get? k).or (earlier.get? k) :=
  lookup_foldl_set later.entries later.ascending earlier k

end Environment
end Graft
