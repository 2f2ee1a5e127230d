import Mathlib.Data.List.Basic
import Mathlib.Data.List.Induction
import Mathlib.Data.List.Nodup

/-!
# First visits

A list is walked through, and what is seen for the first time is put in front.  In the end
each element is there once, and those that were seen late are in front of those that were seen
early.

Main results:

- Theorems {lit}`FirstVisits.mem_newestFirst` and {lit}`FirstVisits.nodup_newestFirst`: each
  element is there once.
- Theorem {lit}`FirstVisits.pairwise_newestFirst`: the order.

Current gaps:

- None.
-/

namespace FirstVisits

variable {α : Type} [DecidableEq α]

/-- Put an element in front if it has not been seen yet. -/
def visit (seen : List α) (a : α) : List α :=
  if a ∈ seen then seen else a :: seen

/-- The elements of a list, the one that was seen last first. -/
def newestFirst (l : List α) : List α :=
  l.foldl visit []

theorem newestFirst_concat (l : List α) (a : α) :
    newestFirst (l ++ [a]) = visit (newestFirst l) a := by
  unfold newestFirst
  rw [List.foldl_append]
  rfl

theorem mem_visit {seen : List α} {a b : α} : b ∈ visit seen a ↔ b ∈ seen ∨ b = a := by
  unfold visit
  split_ifs with h
  · refine ⟨Or.inl, fun hb => hb.elim id ?_⟩
    rintro rfl
    exact h
  · rw [List.mem_cons, or_comm]

theorem mem_newestFirst {l : List α} {a : α} : a ∈ newestFirst l ↔ a ∈ l := by
  induction l using List.reverseRecOn with
  | nil => exact Iff.rfl
  | append_singleton l b ih =>
      rw [newestFirst_concat, mem_visit, ih, List.mem_append, List.mem_singleton]

theorem nodup_newestFirst (l : List α) : (newestFirst l).Nodup := by
  induction l using List.reverseRecOn with
  | nil => exact List.nodup_nil
  | append_singleton l b ih =>
      rw [newestFirst_concat]
      unfold visit
      split_ifs with h
      · exact ih
      · exact List.nodup_cons.mpr ⟨h, ih⟩

/-- Wherever the list is cut, what is seen behind the cut only is in front of the rest. -/
theorem pairwise_newestFirst (l : List α) :
    (newestFirst l).Pairwise fun a b => ∀ before after, l = before ++ after → a ∈ before →
      b ∈ before := by
  induction l using List.reverseRecOn with
  | nil => exact List.Pairwise.nil
  | append_singleton l c ih =>
      -- a cut is one of the shorter list, or everything is before it
      have hcut : ∀ a b : α, b ∈ l → (∀ before after, l = before ++ after → a ∈ before →
          b ∈ before) → ∀ before after, l ++ [c] = before ++ after → a ∈ before →
            b ∈ before := by
        intro a b hb hshorter before after hl ha
        rcases List.eq_nil_or_concat after with rfl | ⟨after, d, rfl⟩
        · rw [List.append_nil] at hl
          rw [← hl]
          exact List.mem_append_left _ hb
        · rw [List.concat_eq_append, ← List.append_assoc] at hl
          exact hshorter before after (List.append_inj_left' hl rfl) ha
      rw [newestFirst_concat]
      unfold visit
      split_ifs with hseen
      · exact ih.imp_of_mem fun _ hb h => hcut _ _ (mem_newestFirst.mp hb) h
      · refine List.pairwise_cons.mpr ⟨fun b hb => ?_, ih.imp_of_mem fun _ hb h =>
          hcut _ _ (mem_newestFirst.mp hb) h⟩
        refine hcut c b (mem_newestFirst.mp hb) fun before after hl hc => ?_
        rw [mem_newestFirst, hl] at hseen
        exact absurd (List.mem_append_left _ hc) hseen

end FirstVisits
