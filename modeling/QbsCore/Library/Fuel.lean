import Mathlib.Logic.Basic

/-!
# Computations with fuel

A recursion that may not come to an end is cut off by fuel.  Its limit is the result that it
has with enough fuel.  A computation on a state computes a result if it gives this result from
every state that satisfies an invariant, whatever else is in the state.

Main results:

- Theorem {lit}`Fuel.limit_eq_some_iff`: the limit of a recursion that keeps its results.
- Theorems {lit}`Fuel.Computes.pure` and {lit}`Fuel.Computes.bind`: the rules for computations
  on a state.
- Theorem {lit}`Fuel.Computes.result_iff`: the result does not depend on the state.

Current gaps:

- None.
-/

namespace Fuel

universe u

variable {σ α β : Type u}

/-- A result that there is with some fuel is there with more fuel. -/
def Monotone (f : Nat → Option α) : Prop :=
  ∀ n a, f n = some a → f (n + 1) = some a

theorem Monotone.le {f : Nat → Option α} (hf : Monotone f) {n m : Nat} {a : α}
    (h : f n = some a) (hnm : n ≤ m) : f m = some a := by
  induction hnm with
  | refl => exact h
  | step _ ih => exact hf _ a ih

open Classical in
/-- The result with enough fuel. -/
noncomputable def limit (f : Nat → Option α) : Option α :=
  if h : ∃ a n, f n = some a then some h.choose else none

theorem limit_eq_some_iff {f : Nat → Option α} (hf : Monotone f) {a : α} :
    limit f = some a ↔ ∃ n, f n = some a := by
  unfold limit
  split <;> rename_i h
  · rcases h.choose_spec with ⟨m, hm⟩
    constructor
    · intro hEq
      rw [Option.some.inj hEq] at hm
      exact ⟨m, hm⟩
    · rintro ⟨n, hn⟩
      have hmax := (hf.le hm (Nat.le_max_left m n)).symm.trans (hf.le hn (Nat.le_max_right m n))
      exact hmax
  · constructor
    · intro hEq
      cases hEq
    · rintro ⟨n, hn⟩
      exact absurd ⟨a, n, hn⟩ h

/-- Recursions with the same results with each fuel have the same limit. -/
theorem limit_congr {f g : Nat → Option α} (h : ∀ n, f n = g n) : limit f = limit g := by
  rw [funext h]

/-! ## Computations on a state -/

/-- From the states that satisfy the invariant a computation gives no result but one. It keeps
the invariant. -/
def Yields (Inv : σ → Prop) (m : StateT σ Option α) (o : Option α) : Prop :=
  ∀ s a t, Inv s → m s = some (a, t) → Inv t ∧ o = some a

/-- From all states that satisfy the invariant a computation gives a result. -/
def Reaches (Inv : σ → Prop) (m : StateT σ Option α) (a : α) : Prop :=
  ∀ s, Inv s → ∃ t, m s = some (a, t)

/-- A computation gives a result if and only if there is one, with enough fuel. -/
structure Computes (Inv : σ → Prop) (f : Nat → StateT σ Option α) (o : Option α) : Prop where
  yields : ∀ n, Yields Inv (f n) o
  reaches : ∀ a, o = some a → ∃ n, ∀ m, n ≤ m → Reaches Inv (f m) a

section Rules

variable {Inv : σ → Prop} {m : StateT σ Option α} {o : Option α} {a : α}

theorem bind_apply (m : StateT σ Option α) (k : α → StateT σ Option β) (s : σ) :
    (m >>= k) s = (m s).bind fun x => k x.1 x.2 :=
  rfl

theorem Yields.pure (a : α) : Yields Inv (Pure.pure a : StateT σ Option α) (some a) := by
  intro s b t hs h
  cases h
  exact ⟨hs, rfl⟩

theorem Yields.bind {k : α → StateT σ Option β} {p : α → Option β} (hm : Yields Inv m o)
    (hk : ∀ a, o = some a → Yields Inv (k a) (p a)) : Yields Inv (m >>= k) (o.bind p) := by
  intro s b t hs h
  rw [bind_apply] at h
  rcases Option.bind_eq_some_iff.mp h with ⟨⟨a, s'⟩, hma, hka⟩
  rcases hm s a s' hs hma with ⟨hs', ho⟩
  rcases hk a ho s' b t hs' hka with ⟨ht, hp⟩
  exact ⟨ht, by rw [ho]; exact hp⟩

theorem Reaches.pure (a : α) : Reaches Inv (Pure.pure a : StateT σ Option α) a :=
  fun s _ => ⟨s, rfl⟩

theorem Reaches.bind {k : α → StateT σ Option β} {b : β} (hm : Reaches Inv m a)
    (hkeep : Yields Inv m o) (hk : Reaches Inv (k a) b) : Reaches Inv (m >>= k) b := by
  intro s hs
  rcases hm s hs with ⟨s', hs'⟩
  rcases hk s' (hkeep s a s' hs hs').1 with ⟨t, ht⟩
  refine ⟨t, ?_⟩
  rw [bind_apply, hs']
  exact ht

end Rules

namespace Computes

variable {Inv : σ → Prop} {f : Nat → StateT σ Option α} {o : Option α}

theorem pure (a : α) : Computes Inv (fun _ => (Pure.pure a : StateT σ Option α)) (some a) := by
  refine ⟨fun _ => Yields.pure a, ?_⟩
  intro b hb
  cases hb
  exact ⟨0, fun _ _ => Reaches.pure a⟩

theorem bind {g : α → Nat → StateT σ Option β} {p : α → Option β} (hf : Computes Inv f o)
    (hg : ∀ a, Computes Inv (g a) (p a)) :
    Computes Inv (fun n => f n >>= fun a => g a n) (o.bind p) := by
  refine ⟨fun n => (hf.yields n).bind fun a _ => (hg a).yields n, ?_⟩
  intro b hb
  rcases Option.bind_eq_some_iff.mp hb with ⟨a, ho, hp⟩
  rcases hf.reaches a ho with ⟨n, hn⟩
  rcases (hg a).reaches b hp with ⟨n', hn'⟩
  refine ⟨max n n', ?_⟩
  intro m hm
  exact (hn m (by omega)).bind (hf.yields m) (hn' m (by omega))

/-- Whether there is a result, and which, does not depend on the state. -/
theorem result_iff (hf : Computes Inv f o) {s : σ} (hs : Inv s) {a : α} :
    (∃ n t, f n s = some (a, t)) ↔ o = some a := by
  constructor
  · rintro ⟨n, t, h⟩
    exact (hf.yields n s a t hs h).2
  · intro ho
    rcases hf.reaches a ho with ⟨n, hn⟩
    rcases hn n (Nat.le_refl n) s hs with ⟨t, ht⟩
    exact ⟨n, t, ht⟩

end Computes

end Fuel
