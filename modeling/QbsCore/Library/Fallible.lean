import Mathlib.Data.List.Forall2
import Mathlib.Logic.Basic

/-!
# Computations that may fail

Inversion of successful computations in {lit}`Except`, and the induction rule for a
loop over a list whose body may fail.

Main results:

- Theorem {lit}`Fallible.bind_eq_ok_iff`: a sequence succeeds exactly when both of
  its parts do.
- Theorem {lit}`Fallible.foldlM_invariant`: what each iteration of a loop keeps,
  the loop keeps.
- Theorem {lit}`Fallible.foldlM_total`: a loop whose iterations all succeed succeeds.
- Theorem {lit}`Fallible.foldlM_map_eq_ok_iff`: the same for independent iterations.
- Theorem {lit}`Fallible.forM_eq_ok_iff`: the same for a loop without a state.
- Theorem {lit}`Fallible.exists_of_mem_mapM`: where the results of a loop come from.

Current gaps:

- None.
-/

namespace Fallible

universe u v w

variable {ε : Type v} {α β σ : Type u} {ι : Type w}

@[simp]
theorem bind_eq_ok_iff {x : Except ε α} {f : α → Except ε β} {b : β} :
    (x >>= f) = Except.ok b ↔ ∃ a, x = Except.ok a ∧ f a = Except.ok b := by
  cases x with
  | error e => simp [bind, Except.bind]
  | ok a => simp [bind, Except.bind]

/-- A sequence fails exactly when its first part does, or its second part after it. -/
theorem bind_eq_error_iff {x : Except ε α} {f : α → Except ε β} {e : ε} :
    (x >>= f) = Except.error e ↔
      x = Except.error e ∨ ∃ a, x = Except.ok a ∧ f a = Except.error e := by
  cases x with
  | error e => simp [bind, Except.bind]
  | ok a => simp [bind, Except.bind]

@[simp]
theorem pure_eq_ok_iff {a b : α} : (pure a : Except ε α) = Except.ok b ↔ a = b := by
  simp [pure, Except.pure]

theorem map_eq_ok_iff {x : Except ε α} {f : α → β} {b : β} :
    x.map f = Except.ok b ↔ ∃ a, x = Except.ok a ∧ f a = b := by
  cases x with
  | error e => simp [Except.map]
  | ok a => simp [Except.map]

variable {l : List ι}

/-- What each successful iteration of a loop keeps, a successful loop keeps. -/
theorem foldlM_invariant {P : σ → Prop} {f : σ → ι → Except ε σ} {s s' : σ}
    (hstep : ∀ s a s', a ∈ l → P s → f s a = Except.ok s' → P s') (h0 : P s)
    (h : l.foldlM f s = Except.ok s') : P s' := by
  induction l generalizing s with
  | nil =>
      simp only [List.foldlM_nil, pure_eq_ok_iff] at h
      rwa [← h]
  | cons a l ih =>
      simp only [List.foldlM_cons, bind_eq_ok_iff] at h
      rcases h with ⟨t, ht, hrest⟩
      refine ih (fun s a s' ha => hstep s a s' (List.mem_cons_of_mem _ ha)) ?_ hrest
      exact hstep s a t (by simp) h0 ht

/-- A loop each of whose iterations succeeds and keeps an invariant succeeds. -/
theorem foldlM_total {P : σ → Prop} {f : σ → ι → Except ε σ} {s : σ}
    (hstep : ∀ s a, a ∈ l → P s → ∃ s', f s a = Except.ok s' ∧ P s') (h0 : P s) :
    ∃ s', l.foldlM f s = Except.ok s' ∧ P s' := by
  induction l generalizing s with
  | nil => exact ⟨s, rfl, h0⟩
  | cons a l ih =>
      rcases hstep s a (by simp) h0 with ⟨t, ht, hPt⟩
      rcases ih (fun s a ha => hstep s a (List.mem_cons_of_mem _ ha)) hPt with ⟨s', hs', hP⟩
      refine ⟨s', ?_, hP⟩
      simp only [List.foldlM_cons, bind_eq_ok_iff]
      exact ⟨t, ht, hs'⟩

/-- A loop whose iterations compute something independently and add it to the state succeeds
exactly when all computations do. -/
theorem foldlM_map_eq_ok_iff {g : ι → Except ε β} {op : σ → β → σ} {s t : σ} :
    l.foldlM (fun s a => (g a).map (op s)) s = Except.ok t ↔
      ∃ bs, List.Forall₂ (fun a b => g a = Except.ok b) l bs ∧ t = bs.foldl op s := by
  induction l generalizing s with
  | nil =>
      simp only [List.foldlM_nil, pure_eq_ok_iff, List.forall₂_nil_left_iff, exists_eq_left,
        List.foldl_nil]
      exact eq_comm
  | cons a l ih =>
      simp only [List.foldlM_cons, bind_eq_ok_iff, ih, List.forall₂_cons_left_iff]
      constructor
      · rintro ⟨s', hs', bs, hbs, ht⟩
        cases hg : g a with
        | error e =>
            rw [hg] at hs'
            cases hs'
        | ok b =>
            rw [hg] at hs'
            cases hs'
            exact ⟨b :: bs, ⟨b, bs, rfl, hbs, rfl⟩, ht⟩
      · rintro ⟨_, ⟨b, bs, hb, hbs, rfl⟩, ht⟩
        exact ⟨op s b, by rw [hb]; rfl, bs, hbs, ht⟩

/-- Computations that do the same for each element of a list do the same for the list. -/
theorem mapM_congr {f g : ι → Except ε β} (h : ∀ a, a ∈ l → f a = g a) :
    l.mapM f = l.mapM g := by
  induction l with
  | nil => rfl
  | cons a l ih =>
      rw [List.mapM_cons, List.mapM_cons, h a List.mem_cons_self,
        ih fun b hb => h b (List.mem_cons_of_mem a hb)]

/-- Each result of a computation for a list comes from one of its elements. -/
theorem exists_of_mem_mapM {f : ι → Except ε β} {bs : List β} {b : β} (h : l.mapM f = Except.ok bs)
    (hb : b ∈ bs) : ∃ a, a ∈ l ∧ f a = Except.ok b := by
  induction l generalizing bs with
  | nil =>
      rw [List.mapM_nil, pure_eq_ok_iff] at h
      rw [← h] at hb
      exact absurd hb List.not_mem_nil
  | cons a l ih =>
      simp only [List.mapM_cons, bind_eq_ok_iff, pure_eq_ok_iff] at h
      rcases h with ⟨c, hc, cs, hcs, rfl⟩
      rcases List.mem_cons.mp hb with rfl | hb
      · exact ⟨a, List.mem_cons_self, hc⟩
      · rcases ih hcs hb with ⟨d, hd, hfd⟩
        exact ⟨d, List.mem_cons_of_mem a hd, hfd⟩

/-- A loop succeeds exactly when each of its iterations does. -/
theorem forM_eq_ok_iff {f : ι → Except ε PUnit} :
    l.forM f = Except.ok PUnit.unit ↔ ∀ a, a ∈ l → f a = Except.ok PUnit.unit := by
  induction l with
  | nil => simp [List.forM, pure, Except.pure]
  | cons a l ih =>
      change (f a >>= fun _ => l.forM f) = Except.ok PUnit.unit ↔ _
      rw [bind_eq_ok_iff, List.forall_mem_cons]
      constructor
      · rintro ⟨u, ha, hl⟩
        exact ⟨ha, ih.mp hl⟩
      · rintro ⟨ha, hl⟩
        exact ⟨PUnit.unit, ha, ih.mpr hl⟩

/-- The error of a loop is the error of one of its iterations. -/
theorem forM_eq_error {f : ι → Except ε PUnit} {e : ε} (h : l.forM f = Except.error e) :
    ∃ a, a ∈ l ∧ f a = Except.error e := by
  induction l with
  | nil => cases h
  | cons a l ih =>
      change (f a >>= fun _ => l.forM f) = Except.error e at h
      rcases bind_eq_error_iff.mp h with ha | ⟨_, -, hl⟩
      · exact ⟨a, by simp, ha⟩
      · rcases ih hl with ⟨b, hb, hf⟩
        exact ⟨b, List.mem_cons_of_mem a hb, hf⟩

end Fallible
