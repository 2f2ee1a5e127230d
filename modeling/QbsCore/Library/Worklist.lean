import Mathlib.Logic.Relation

/-!
# Worklists

A loop over a list of elements that are still to be handled.  An element that is handled for
the first time puts its successors at the end of the list.

Main results:

- Theorem {lit}`Worklist.mem_close_iff`: with enough fuel the handled elements are those that
  can be reached from the first ones.
- Theorem {lit}`Worklist.edges_mem_close_iff`: for the successors along a list of edges there
  is enough fuel if it counts the first elements and the edges.

Current gaps:

- None.
-/

namespace Worklist

variable {α : Type*} [DecidableEq α] (next : α → List α)

/-- Handle the elements of a list and their successors, each once. -/
def close : Nat → List α → List α → List α
  | 0, _, handled => handled
  | _ + 1, [], handled => handled
  | fuel + 1, a :: rest, handled =>
      if a ∈ handled then close fuel rest handled
      else close fuel (rest ++ next a) (a :: handled)

variable {next}

variable {handled rest : List α}

theorem subset_close {fuel : Nat} {a : α} (ha : a ∈ handled) :
    a ∈ close next fuel rest handled := by
  induction fuel generalizing rest handled with
  | zero => exact ha
  | succ fuel ih =>
      cases rest with
      | nil => exact ha
      | cons b rest =>
          simp only [close]
          split
          · exact ih ha
          · exact ih (List.mem_cons_of_mem b ha)

/-- What is handled can be reached. -/
theorem reachable_of_mem_close {fuel : Nat} {a : α} (ha : a ∈ close next fuel rest handled) :
    a ∈ handled ∨ ∃ b, b ∈ rest ∧ Relation.ReflTransGen (fun x y => y ∈ next x) b a := by
  induction fuel generalizing rest handled with
  | zero => exact Or.inl ha
  | succ fuel ih =>
      cases rest with
      | nil => exact Or.inl ha
      | cons b rest =>
          simp only [close] at ha
          split at ha
          · rcases ih ha with h | ⟨c, hc, hpath⟩
            · exact Or.inl h
            · exact Or.inr ⟨c, List.mem_cons_of_mem b hc, hpath⟩
          · rcases ih ha with h | ⟨c, hc, hpath⟩
            · rcases List.mem_cons.mp h with rfl | h
              · exact Or.inr ⟨a, by simp, Relation.ReflTransGen.refl⟩
              · exact Or.inl h
            · rcases List.mem_append.mp hc with hc | hc
              · exact Or.inr ⟨c, List.mem_cons_of_mem b hc, hpath⟩
              · exact Or.inr ⟨b, by simp, Relation.ReflTransGen.head hc hpath⟩

/-- What has not been handled bounds the work that is still to come. -/
def Bounds (next : α → List α) (bound : List α → Nat) : Prop :=
  ∀ a handled, a ∉ handled → bound (a :: handled) + (next a).length ≤ bound handled

/-- With enough fuel everything in the list is handled, and what is handled is closed. -/
theorem close_closed {bound : List α → Nat} (hbound : Bounds next bound) {fuel : Nat}
    (hfuel : rest.length + bound handled ≤ fuel)
    (hhandled : ∀ a, a ∈ handled → ∀ b, b ∈ next a → b ∈ handled ∨ b ∈ rest) :
    (∀ a, a ∈ rest → a ∈ close next fuel rest handled) ∧
      ∀ a, a ∈ close next fuel rest handled → ∀ b, b ∈ next a →
        b ∈ close next fuel rest handled := by
  induction fuel generalizing rest handled with
  | zero =>
      have hrest : rest = [] := List.length_eq_zero_iff.mp (by omega)
      subst hrest
      simpa [close] using hhandled
  | succ fuel ih =>
      cases rest with
      | nil => simpa [close] using hhandled
      | cons c rest =>
          simp only [List.length_cons] at hfuel
          simp only [close]
          by_cases hc : c ∈ handled
          · rw [if_pos hc]
            have hclosed : ∀ a, a ∈ handled → ∀ b, b ∈ next a → b ∈ handled ∨ b ∈ rest := by
              intro a ha b hb
              rcases hhandled a ha b hb with h | h
              · exact Or.inl h
              · rcases List.mem_cons.mp h with rfl | h
                · exact Or.inl hc
                · exact Or.inr h
            rcases ih (by omega) hclosed with ⟨hmem, hstep⟩
            refine ⟨?_, hstep⟩
            intro a ha
            rcases List.mem_cons.mp ha with rfl | ha
            · exact subset_close hc
            · exact hmem a ha
          · rw [if_neg hc]
            have hlt := hbound c handled hc
            have hclosed : ∀ a, a ∈ c :: handled → ∀ b, b ∈ next a →
                b ∈ c :: handled ∨ b ∈ rest ++ next c := by
              intro a ha b hb
              rcases List.mem_cons.mp ha with rfl | ha
              · exact Or.inr (List.mem_append_right rest hb)
              · rcases hhandled a ha b hb with h | h
                · exact Or.inl (List.mem_cons_of_mem c h)
                · rcases List.mem_cons.mp h with rfl | h
                  · exact Or.inl (by simp)
                  · exact Or.inr (List.mem_append_left _ h)
            rcases ih (by rw [List.length_append]; omega) hclosed with ⟨hmem, hstep⟩
            refine ⟨?_, hstep⟩
            intro a ha
            rcases List.mem_cons.mp ha with rfl | ha
            · exact subset_close (by simp)
            · exact hmem a (List.mem_append_left _ ha)

/-- With enough fuel the handled elements are those that can be reached. -/
theorem mem_close_iff {bound : List α → Nat} (hbound : Bounds next bound) {fuel : Nat}
    {start : List α} (hfuel : start.length + bound [] ≤ fuel) {a : α} :
    a ∈ close next fuel start [] ↔
      ∃ b, b ∈ start ∧ Relation.ReflTransGen (fun x y => y ∈ next x) b a := by
  have hnone : ∀ a, a ∈ [] → ∀ b, b ∈ next a → b ∈ [] ∨ b ∈ start := by
    simp
  rcases close_closed hbound hfuel hnone with ⟨hmem, hstep⟩
  constructor
  · intro ha
    rcases reachable_of_mem_close ha with h | h
    · exact absurd h List.not_mem_nil
    · exact h
  · rintro ⟨b, hb, hpath⟩
    induction hpath with
    | refl => exact hmem b hb
    | tail _ hedge ih => exact hstep _ ih _ hedge

/-! ## Successors along edges -/

variable (edges : List (α × α))

/-- The targets of the edges from an element. -/
def targets (a : α) : List α :=
  (edges.filter fun e => e.1 = a).map Prod.snd

variable {edges}

theorem mem_targets {a b : α} : b ∈ targets edges a ↔ (a, b) ∈ edges := by
  simp [targets]

/-- The edges from elements that have not been handled bound the work. -/
theorem bounds_targets :
    Bounds (targets edges) fun handled => (edges.filter fun e => e.1 ∉ handled).length := by
  intro a handled ha
  simp only [targets, List.length_map, ← List.countP_eq_length_filter]
  induction edges with
  | nil => simp
  | cons e edges ih =>
      simp only [List.countP_cons]
      by_cases hea : e.1 = a
      · have hin : e.1 ∉ handled := by rwa [hea]
        have hnot : ¬e.1 ∉ a :: handled := by simp [hea]
        simp only [decide_eq_true_eq, if_pos hea, if_pos hin, if_neg hnot]
        omega
      · by_cases hin : e.1 ∈ handled
        · simpa [hea, hin] using ih
        · have hnot : e.1 ∉ a :: handled := by simp [hea, hin]
          simp only [decide_eq_true_eq, if_neg hea, if_pos hin, if_pos hnot]
          omega

/-- Fuel for the first elements and the edges is enough. -/
theorem edges_mem_close_iff {start : List α} {a : α} :
    a ∈ close (targets edges) (start.length + edges.length) start [] ↔
      ∃ b, b ∈ start ∧ Relation.ReflTransGen (fun x y => (x, y) ∈ edges) b a := by
  have hfuel : start.length + (edges.filter fun e => e.1 ∉ []).length ≤
      start.length + edges.length := by
    have hle := List.length_filter_le (fun e : α × α => decide (e.1 ∉ [])) edges
    omega
  simpa only [mem_targets] using mem_close_iff bounds_targets hfuel

end Worklist
