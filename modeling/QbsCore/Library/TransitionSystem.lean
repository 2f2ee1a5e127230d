import Mathlib.Logic.Relation

/-!
# Runs of labelled transition systems

A run is a sequence of labelled steps.  Its trace lists for each step the state before
the step and the label.

Main results:

- Theorem {lit}`TransitionSystem.Run.invariant`: what every step of a kind keeps holds
  at the end of every run of such steps.
- Theorem {lit}`TransitionSystem.Run.invariant_trace`: it also holds before each step.
- Theorem {lit}`TransitionSystem.Run.invariant_iff`: when all states of a run have a property.

Current gaps:

- None.
-/

namespace TransitionSystem

variable {σ ι : Type*}

/-- A run from one state to another with its trace. -/
inductive Run (step : σ → ι → σ → Prop) (s : σ) : List (σ × ι) → σ → Prop
  | nil : Run step s [] s
  | snoc {trace : List (σ × ι)} {t u : σ} {label : ι} (hrun : Run step s trace t)
      (hstep : step t label u) : Run step s (trace ++ [(t, label)]) u

namespace Run

variable {step : σ → ι → σ → Prop} {s s' : σ} {trace : List (σ × ι)} {P : σ → Prop}

/-- What every step of a kind keeps holds at the end of every run of such steps. -/
theorem invariant (ok : σ → ι → Prop) (hkeep : ∀ t label u, P t → ok t label → step t label u → P u)
    (h0 : P s) (hrun : Run step s trace s') (hok : ∀ e, e ∈ trace → ok e.1 e.2) : P s' := by
  induction hrun with
  | nil => exact h0
  | snoc _ hstep ih =>
      refine hkeep _ _ _ (ih fun e he => hok e (List.mem_append_left _ he)) ?_ hstep
      exact hok (_, _) (List.mem_append_right _ (List.mem_singleton_self _))

/-- What every step of a kind keeps holds before each step of every run of such steps. -/
theorem invariant_trace (ok : σ → ι → Prop)
    (hkeep : ∀ t label u, P t → ok t label → step t label u → P u) (h0 : P s)
    (hrun : Run step s trace s') (hok : ∀ e, e ∈ trace → ok e.1 e.2) :
    ∀ e, e ∈ trace → P e.1 := by
  induction hrun with
  | nil => simp
  | snoc hrun hstep ih =>
      have hok' := fun e he => hok e (List.mem_append_left _ he)
      intro e he
      rcases List.mem_append.mp he with he | he
      · exact ih hok' e he
      · rw [List.mem_singleton.mp he]
        exact hrun.invariant ok hkeep h0 hok'

/-- What every step keeps holds at the end of every run. -/
theorem invariant_of_steps (hkeep : ∀ t label u, P t → step t label u → P u) (h0 : P s)
    (hrun : Run step s trace s') : P s' :=
  hrun.invariant (fun _ _ => True) (fun t label u ht _ => hkeep t label u ht) h0 fun _ _ => trivial

/-- If each step leads from the property to the property exactly when it is of a kind, then all
states of a run have the property exactly when all of its steps are of that kind. -/
theorem invariant_iff {W : σ → Prop} (ok : σ → ι → Prop)
    (hkeep : ∀ t label u, W t → step t label u → W u)
    (hstep : ∀ t label u, W t → P t → step t label u → (P u ↔ ok t label)) (hw0 : W s) (h0 : P s)
    (hrun : Run step s trace s') :
    ((∀ e, e ∈ trace → P e.1) ∧ P s') ↔ ∀ e, e ∈ trace → ok e.1 e.2 := by
  induction hrun with
  | nil => exact ⟨fun _ e he => absurd he List.not_mem_nil, fun _ => ⟨fun e he => absurd he
      List.not_mem_nil, h0⟩⟩
  | @snoc trace t u label hrun hlast ih =>
      have hw : W t := hrun.invariant_of_steps hkeep hw0
      have hmem : (t, label) ∈ trace ++ [(t, label)] :=
        List.mem_append_right _ (List.mem_singleton_self _)
      constructor
      · rintro ⟨hbefore, hu⟩ e he
        have ht : P t := hbefore (t, label) hmem
        rcases List.mem_append.mp he with he | he
        · exact ih.mp ⟨fun e he => hbefore e (List.mem_append_left _ he), ht⟩ e he
        · rw [List.mem_singleton.mp he]
          exact (hstep t label u hw ht hlast).mp hu
      · intro hok
        have hih := ih.mpr fun e he => hok e (List.mem_append_left _ he)
        refine ⟨fun e he => ?_, (hstep t label u hw hih.2 hlast).mpr (hok (t, label) hmem)⟩
        rcases List.mem_append.mp he with he | he
        · exact hih.1 e he
        · rw [List.mem_singleton.mp he]
          exact hih.2

end Run

end TransitionSystem
