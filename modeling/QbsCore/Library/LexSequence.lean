import Mathlib.Order.PiLex

/-!
# Sequences in lexicographic order

Sequences that are compared at the first position where they differ.  A map on the elements
can lose or turn around an order.

Main results:

- Theorem {lit}`LexSequence.lt_iff_head`: the comparison looks at the heads first.
- Theorem {lit}`LexSequence.keepsOrder_iff`: when the images are ordered as the sequences are.
-/

namespace LexSequence

variable {α β : Type*}

/-- A sequence without its first element. -/
def tail (f : ℕ → α) (i : ℕ) : α :=
  f (i + 1)

theorem eq_iff_head {f g : ℕ → α} : f = g ↔ f 0 = g 0 ∧ tail f = tail g := by
  constructor
  · intro h
    simp [h]
  · intro ⟨hhead, htail⟩
    funext i
    cases i with
    | zero => exact hhead
    | succ i => exact congrFun htail i

section Order

variable [LinearOrder α] [LinearOrder β]

/-- Sequences are compared by their heads, and by their tails if the heads are equal. -/
theorem lt_iff_head {f g : ℕ → α} :
    toLex f < toLex g ↔ f 0 < g 0 ∨ f 0 = g 0 ∧ toLex (tail f) < toLex (tail g) := by
  constructor
  · intro ⟨i, hsame, hlt⟩
    cases i with
    | zero => exact .inl hlt
    | succ i => exact .inr ⟨hsame 0 (by omega), i, fun j hj => hsame (j + 1) (by omega), hlt⟩
  · intro h
    rcases h with hlt | ⟨heq, i, hsame, hlt⟩
    · exact ⟨0, by simp, hlt⟩
    · refine ⟨i + 1, fun j hj => ?_, hlt⟩
      cases j with
      | zero => exact heq
      | succ j => exact hsame j (by omega)

theorem lt_iff_tail {f g : ℕ → α} (hhead : f 0 = g 0) :
    toLex f < toLex g ↔ toLex (tail f) < toLex (tail g) := by
  rw [lt_iff_head]
  constructor
  · intro h
    exact h.elim (fun hlt => absurd hhead hlt.ne) And.right
  · intro h
    exact .inr ⟨hhead, h⟩

/-! ## Maps on the elements -/

/-- Where one sequence gets less than another one, the images of both are the same for a while
and then ordered in the same way. -/
def KeepsOrder (φ : α → β) (f g : ℕ → α) : Prop :=
  ∀ i, (∀ k < i, f k = g k) → f i < g i →
    ∃ j, i ≤ j ∧ (∀ k, i ≤ k → k < j → φ (f k) = φ (g k)) ∧ φ (f j) < φ (g j)

variable {φ : α → β} {f g : ℕ → α}

theorem keepsOrder_iff_lt :
    KeepsOrder φ f g ↔ (toLex f < toLex g → toLex (φ ∘ f) < toLex (φ ∘ g)) := by
  constructor
  · intro hkeeps ⟨i, hsame, hlt⟩
    obtain ⟨j, hij, himages, hj⟩ := hkeeps i hsame hlt
    refine ⟨j, fun k hk => ?_, hj⟩
    rcases lt_or_ge k i with hki | hki
    · exact congrArg φ (hsame k hki)
    · exact himages k hki hk
  · intro h i hsame hlt
    obtain ⟨j, himages, hj⟩ := h ⟨i, hsame, hlt⟩
    refine ⟨j, ?_, fun k _ hk => himages k hk, hj⟩
    by_contra hji
    have heq : f j = g j := hsame j (by omega)
    have hj : φ (f j) < φ (g j) := hj
    simp [heq] at hj

/-- A map that keeps the order in both directions gives sequences that compare as before. -/
theorem keepsOrder_iff :
    KeepsOrder φ f g ∧ KeepsOrder φ g f ↔
      (toLex (φ ∘ f) < toLex (φ ∘ g) ↔ toLex f < toLex g) ∧ (φ ∘ f = φ ∘ g ↔ f = g) ∧
        (toLex (φ ∘ g) < toLex (φ ∘ f) ↔ toLex g < toLex f) := by
  rw [keepsOrder_iff_lt, keepsOrder_iff_lt]
  constructor
  · intro ⟨hfg, hgf⟩
    rcases lt_trichotomy (toLex f) (toLex g) with hlt | heq | hlt
    · have himages := hfg hlt
      have hne : f ≠ g := fun h => hlt.ne (congrArg toLex h)
      have himages_ne : φ ∘ f ≠ φ ∘ g := fun h => himages.ne (congrArg toLex h)
      exact ⟨iff_of_true himages hlt, iff_of_false himages_ne hne,
        iff_of_false himages.not_gt hlt.not_gt⟩
    · have heq : f = g := heq
      subst heq
      exact ⟨iff_of_false (lt_irrefl _) (lt_irrefl _), iff_of_true rfl rfl,
        iff_of_false (lt_irrefl _) (lt_irrefl _)⟩
    · have himages := hgf hlt
      have hne : f ≠ g := fun h => hlt.ne' (congrArg toLex h)
      have himages_ne : φ ∘ f ≠ φ ∘ g := fun h => himages.ne' (congrArg toLex h)
      exact ⟨iff_of_false himages.not_gt hlt.not_gt, iff_of_false himages_ne hne,
        iff_of_true himages hlt⟩
  · intro ⟨hlt, _, hgt⟩
    exact ⟨hlt.mpr, hgt.mpr⟩

end Order

end LexSequence
