import Mathlib.Data.List.Infix

/-!
# Occurrences of a pattern

The first place at which a pattern occurs in a list.

Main results:

- Theorem {lit}`Occurrences.indexOf_append`: an occurrence stays the first one when the list grows.
- Theorem {lit}`Occurrences.indexOf_of_free`: a pattern whose first element does not come again in
  it is found behind all that does not contain it.
-/

namespace Occurrences

variable {α : Type*} {l noise xs : List α}

/-- The pattern does not begin in what comes before it. -/
theorem not_prefix_of_free {m : α} (hm : m ∉ l) (hnoise : noise ≠ []) (hfree : ¬ m :: l <:+: noise)
    (rest : List α) : ¬ m :: l <+: noise ++ (m :: l ++ rest) := by
  intro hstarts
  have hnoise' : noise <+: noise ++ (m :: l ++ rest) := List.prefix_append _ _
  rcases List.prefix_or_prefix_of_prefix hstarts hnoise' with hinside | hlonger
  · exact hfree hinside.isInfix
  · -- The pattern goes on with its first element where it comes after the noise.
    obtain ⟨t, ht⟩ := hlonger
    obtain ⟨a, noise, rfl⟩ := List.exists_cons_of_ne_nil hnoise
    have ht' : t <+: m :: l ++ rest := by
      apply (List.prefix_append_right_inj (a :: noise)).mp
      rw [ht]
      exact hstarts
    cases t with
    | nil => exact hfree (by rw [← ht]; simp)
    | cons b t =>
        obtain rfl : b = m := (List.cons_prefix_cons.mp ht').1
        obtain ⟨_, hl⟩ : a = b ∧ noise ++ b :: t = l := by simpa using ht
        exact hm (by simp [← hl])

variable [DecidableEq α] {pattern : List α}

/-- The first position at which the pattern occurs. -/
def indexOf (pattern : List α) : List α → Option ℕ
  | [] => if pattern = [] then some 0 else none
  | a :: xs => if pattern <+: a :: xs then some 0 else (indexOf pattern xs).map (· + 1)

theorem indexOf_of_prefix (h : pattern <+: xs) : indexOf pattern xs = some 0 := by
  cases xs with
  | nil => simpa [indexOf] using h
  | cons a xs => simp [indexOf, h]

/-- There is the whole pattern at the position. -/
theorem length_of_indexOf {i : ℕ} (h : indexOf pattern xs = some i) :
    i + pattern.length ≤ xs.length := by
  induction xs generalizing i with
  | nil =>
      obtain ⟨hpattern, rfl⟩ : pattern = [] ∧ 0 = i := by simpa [indexOf] using h
      simp [hpattern]
  | cons a xs ih =>
      by_cases hstarts : pattern <+: a :: xs
      · obtain rfl : 0 = i := by simpa [indexOf, hstarts] using h
        simpa using hstarts.length_le
      · obtain ⟨j, hj, rfl⟩ : ∃ j, indexOf pattern xs = some j ∧ j + 1 = i := by
          simpa [indexOf, hstarts] using h
        have hle := ih hj
        simp only [List.length_cons]
        omega

theorem indexOf_append {i : ℕ} (h : indexOf pattern xs = some i) (ys : List α) :
    indexOf pattern (xs ++ ys) = some i := by
  induction xs generalizing i with
  | nil =>
      obtain ⟨hpattern, rfl⟩ : pattern = [] ∧ 0 = i := by simpa [indexOf] using h
      exact indexOf_of_prefix (by simp [hpattern])
  | cons a xs ih =>
      by_cases hstarts : pattern <+: a :: xs
      · obtain rfl : 0 = i := by simpa [indexOf, hstarts] using h
        exact indexOf_of_prefix (hstarts.trans (List.prefix_append _ _))
      · obtain ⟨j, hj, rfl⟩ : ∃ j, indexOf pattern xs = some j ∧ j + 1 = i := by
          simpa [indexOf, hstarts] using h
        have hle := length_of_indexOf hj
        have hnot : ¬ pattern <+: a :: (xs ++ ys) := fun hlong =>
          hstarts (List.prefix_of_prefix_length_le hlong (List.prefix_append (a :: xs) ys)
            (by simp only [List.length_cons]; omega))
        simp [indexOf, hnot, ih hj]

theorem indexOf_of_free {m : α} (hm : m ∉ l) (hfree : ¬ m :: l <:+: noise) (rest : List α) :
    indexOf (m :: l) (noise ++ (m :: l ++ rest)) = some noise.length := by
  induction noise with
  | nil => exact indexOf_of_prefix (List.prefix_append _ _)
  | cons a noise ih =>
      have hnot := not_prefix_of_free hm (List.cons_ne_nil a noise) hfree rest
      have hrest := ih fun hinfix => hfree (List.infix_cons hinfix)
      rw [List.cons_append] at hnot ⊢
      rw [indexOf, if_neg hnot, hrest]
      simp

end Occurrences
