/-!
This module contains the removal of repetitions from a list.
-/

namespace Graft

/--
The entries with a key that is not `seen` yet and that no earlier entry has.
-/
def newBy [DecidableEq β] (key : α → β) (seen : List β) : List α → List α
  | [] => []
  | a :: as =>
    if key a ∈ seen then newBy key seen as else a :: newBy key (key a :: seen) as

def distinct [DecidableEq α] : List α → List α
  | [] => []
  | a :: as => a :: (distinct as).filter (· ≠ a)

@[simp]
theorem mem_distinct [DecidableEq α] {a : α} {as : List α} : a ∈ distinct as ↔ a ∈ as := by
  induction as with
  | nil => simp [distinct]
  | cons b as ih =>
    by_cases h : a = b <;> simp [distinct, ih, h]

theorem nodup_distinct [DecidableEq α] (as : List α) : (distinct as).Nodup := by
  induction as with
  | nil => simp [distinct]
  | cons a as ih =>
    simp only [distinct, List.nodup_cons, List.mem_filter, decide_not, Bool.not_eq_true',
      decide_eq_false_iff_not]
    exact ⟨by simp, ih.filter _⟩

end Graft
