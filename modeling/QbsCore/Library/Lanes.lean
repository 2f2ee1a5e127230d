import Mathlib.Data.List.Basic

/-!
# Streams of tagged messages

A stream carries messages of several parties, each tagged with the party it belongs to.
The lane of a party is the part of the stream that belongs to it, in order.

Main results:

- Theorems {lit}`Lanes.lane_append`, {lit}`Lanes.lane_cons_self` and
  {lit}`Lanes.lane_cons_of_ne`: what a message does to the lane of its party and to others.

Current gaps:

- None.
-/

namespace Lanes

variable {κ α : Type*} [DecidableEq κ]

/-- The messages of one party in order. -/
def lane (k : κ) (l : List (κ × α)) : List α :=
  l.filterMap fun x => if x.1 = k then some x.2 else none

@[simp]
theorem lane_nil (k : κ) : lane k ([] : List (κ × α)) = [] :=
  rfl

@[simp]
theorem lane_append (k : κ) (l m : List (κ × α)) : lane k (l ++ m) = lane k l ++ lane k m := by
  simp [lane, List.filterMap_append]

@[simp]
theorem lane_cons_self (k : κ) (a : α) (l : List (κ × α)) : lane k ((k, a) :: l) = a :: lane k l := by
  simp [lane]

theorem lane_cons_of_ne {k k' : κ} (h : k' ≠ k) (a : α) (l : List (κ × α)) :
    lane k ((k', a) :: l) = lane k l := by
  simp [lane, h]

/-- A party whose lane is empty has no message in the stream. -/
theorem lane_eq_nil_iff (k : κ) (l : List (κ × α)) :
    lane k l = [] ↔ ∀ a, (k, a) ∉ l := by
  induction l with
  | nil => simp
  | cons x l ih =>
      rcases x with ⟨k', a⟩
      by_cases h : k' = k
      · subst h
        simp only [lane_cons_self, List.mem_cons, Prod.mk.injEq, true_and]
        constructor
        · intro hnil
          cases hnil
        · intro hno
          exact absurd (Or.inl rfl) (hno a)
      · rw [lane_cons_of_ne h, ih]
        simp [Ne.symm h]

end Lanes
