import Mathlib.Data.List.Basic

/-!
# Bounded FIFO queues

The queue carries its bound as a field, so that no operation can overfill it. `put` on a full queue
and `get` on an empty one are `none`: a caller that would wait there is not enabled.
-/

/-- A FIFO queue of at most `bound` elements. -/
structure BoundedQueue (bound : Nat) (α : Type*) where
  items : List α
  length_le : items.length ≤ bound
deriving DecidableEq

namespace BoundedQueue

variable {bound : Nat} {α : Type*}

@[ext] theorem ext {q r : BoundedQueue bound α} (h : q.items = r.items) : q = r := by
  cases q
  cases r
  simpa using h

def empty : BoundedQueue bound α := ⟨[], Nat.zero_le _⟩

def full (q : BoundedQueue bound α) : Bool := decide (bound ≤ q.items.length)

def put (q : BoundedQueue bound α) (x : α) : Option (BoundedQueue bound α) :=
  if h : q.items.length < bound then
    some ⟨q.items ++ [x], by simpa [Nat.succ_le_iff] using h⟩
  else none

def get : BoundedQueue bound α → Option (α × BoundedQueue bound α)
  | ⟨[], _⟩ => none
  | ⟨x :: xs, h⟩ => some (x, ⟨xs, Nat.le_of_succ_le h⟩)

@[simp] theorem empty_items : (empty : BoundedQueue bound α).items = [] := rfl

theorem full_iff (q : BoundedQueue bound α) : q.full = true ↔ bound ≤ q.items.length := by
  simp [full]

theorem put_eq_some_iff (q r : BoundedQueue bound α) (x : α) :
    q.put x = some r ↔ q.full = false ∧ r.items = q.items ++ [x] := by
  unfold put full
  split
  · rename_i h
    simp only [Option.some.injEq, decide_eq_false_iff_not, Nat.not_le, h, true_and]
    constructor
    · intro hr
      rw [← hr]
    · intro hr
      exact ext hr.symm
  · rename_i h
    simp only [reduceCtorEq, decide_eq_false_iff_not, Nat.not_le, h, false_and]

theorem put_eq_none_iff (q : BoundedQueue bound α) (x : α) : q.put x = none ↔ q.full = true := by
  unfold put full
  split <;> simp_all

theorem get_eq_some_iff (q r : BoundedQueue bound α) (x : α) :
    q.get = some (x, r) ↔ q.items = x :: r.items := by
  obtain ⟨items, h⟩ := q
  cases items with
  | nil => simp [get]
  | cons y ys =>
      simp only [get, Option.some.injEq, Prod.mk.injEq, List.cons.injEq]
      constructor
      · rintro ⟨hy, hr⟩
        exact ⟨hy, by rw [← hr]⟩
      · rintro ⟨hy, hr⟩
        exact ⟨hy, ext hr⟩

theorem get_eq_none_iff (q : BoundedQueue bound α) : q.get = none ↔ q.items = [] := by
  obtain ⟨items, h⟩ := q
  cases items <;> simp [get]

theorem get_of_full (q : BoundedQueue bound α) (hb : 0 < bound) (hf : q.full = true) :
    ∃ x r, q.get = some (x, r) ∧ r.full = false := by
  obtain ⟨items, h⟩ := q
  cases items with
  | nil =>
      rw [full_iff] at hf
      simp at hf
      omega
  | cons x xs =>
      refine ⟨x, ⟨xs, Nat.le_of_succ_le h⟩, rfl, ?_⟩
      simp only [List.length_cons] at h
      simp only [full, decide_eq_false_iff_not, Nat.not_le]
      omega

end BoundedQueue
