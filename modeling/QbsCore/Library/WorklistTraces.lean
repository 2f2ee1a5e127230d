import Mathlib.Data.List.Nodup
import Mathlib.Logic.Relation

/-!
# Traces of worklists

A loop over a list of elements that are still to be handled, where the successors of an element
only become known when it is handled.  The trace of the loop lists what was handled, each with the
successors that were put at the end of the list.

Main results:

- Theorem {lit}`Worklist.Trace.handled_iff`: the elements of a trace are those that can be reached
  from the first ones along the successors in the trace.

Current gaps:

- None.
-/

namespace Worklist

variable {α : Type*}

/-- The loop over a list, with the elements that have been handled, and what it handles. -/
inductive Trace : List α → List α → List (α × List α) → Prop where
  | done (handled : List α) : Trace [] handled []
  | skip {a : α} {rest handled : List α} {visits : List (α × List α)} :
      a ∈ handled → Trace rest handled visits → Trace (a :: rest) handled visits
  | visit {a : α} {rest handled next : List α} {visits : List (α × List α)} :
      a ∉ handled → Trace (rest ++ next) (a :: handled) visits →
        Trace (a :: rest) handled ((a, next) :: visits)

/-- An element leads to the ones that were put on the list when it was handled. -/
def LeadsTo (visits : List (α × List α)) (a b : α) : Prop :=
  ∃ next, (a, next) ∈ visits ∧ b ∈ next

theorem leadsTo_cons {visits : List (α × List α)} {a b c : α} {next : List α} :
    LeadsTo ((c, next) :: visits) a b ↔ a = c ∧ b ∈ next ∨ LeadsTo visits a b := by
  simp [LeadsTo, or_and_right, exists_or, and_assoc, eq_comm]

namespace Trace

variable {rest handled : List α} {visits : List (α × List α)}

/-- All that is in the list gets handled, and so do all successors. -/
theorem closed (h : Trace rest handled visits) :
    (∀ a, a ∈ rest → a ∈ handled ∨ a ∈ visits.map Prod.fst) ∧
      ∀ a b, LeadsTo visits a b → b ∈ handled ∨ b ∈ visits.map Prod.fst := by
  induction h with
  | done handled =>
      refine ⟨fun a ha => absurd ha List.not_mem_nil, ?_⟩
      rintro a b ⟨next, hnext, -⟩
      exact absurd hnext List.not_mem_nil
  | skip ha _ ih =>
      refine ⟨?_, ih.2⟩
      intro b hb
      rcases List.mem_cons.mp hb with rfl | hb
      · exact .inl ha
      · exact ih.1 b hb
  | @visit a rest handled next visits ha _ ih =>
      have hkeep : ∀ b, b ∈ a :: handled ∨ b ∈ visits.map Prod.fst →
          b ∈ handled ∨ b ∈ ((a, next) :: visits).map Prod.fst := by
        rintro b (hb | hb)
        · rcases List.mem_cons.mp hb with rfl | hb
          · exact .inr List.mem_cons_self
          · exact .inl hb
        · exact .inr (List.mem_cons_of_mem _ hb)
      constructor
      · intro b hb
        rcases List.mem_cons.mp hb with rfl | hb
        · exact .inr List.mem_cons_self
        · exact hkeep b (ih.1 b (List.mem_append_left _ hb))
      · intro c b hleads
        rcases leadsTo_cons.mp hleads with ⟨-, hb⟩ | hleads
        · exact hkeep b (ih.1 b (List.mem_append_right _ hb))
        · exact hkeep b (ih.2 c b hleads)

/-- What had been handled before is not handled again. -/
theorem not_mem_handled (h : Trace rest handled visits) {a : α}
    (ha : a ∈ visits.map Prod.fst) : a ∉ handled := by
  induction h with
  | done handled => exact absurd ha List.not_mem_nil
  | skip _ _ ih => exact ih ha
  | visit hnew _ ih =>
      rcases List.mem_cons.mp ha with rfl | ha
      · exact hnew
      · exact fun hb => ih ha (List.mem_cons_of_mem _ hb)

/-- Nothing is handled twice. -/
theorem nodup (h : Trace rest handled visits) : (visits.map Prod.fst).Nodup := by
  induction h with
  | done handled => exact List.nodup_nil
  | skip _ _ ih => exact ih
  | visit _ htail ih =>
      exact List.nodup_cons.mpr ⟨fun ha => htail.not_mem_handled ha List.mem_cons_self, ih⟩

/-- What is handled can be reached from the list. -/
theorem reached (h : Trace rest handled visits) {a : α} (ha : a ∈ visits.map Prod.fst) :
    ∃ b, b ∈ rest ∧ Relation.ReflTransGen (LeadsTo visits) b a := by
  induction h with
  | done handled => exact absurd ha List.not_mem_nil
  | skip _ _ ih =>
      rcases ih ha with ⟨b, hb, hpath⟩
      exact ⟨b, List.mem_cons_of_mem _ hb, hpath⟩
  | @visit c rest handled next visits _ _ ih =>
      rcases List.mem_cons.mp ha with rfl | ha
      · exact ⟨_, List.mem_cons_self, .refl⟩
      · rcases ih ha with ⟨b, hb, hpath⟩
        have hpath' : Relation.ReflTransGen (LeadsTo ((c, next) :: visits)) b a :=
          Relation.ReflTransGen.mono (fun _ _ hstep => leadsTo_cons.mpr (.inr hstep)) _ _ hpath
        rcases List.mem_append.mp hb with hb | hb
        · exact ⟨b, List.mem_cons_of_mem c hb, hpath'⟩
        · exact ⟨c, List.mem_cons_self, .head (leadsTo_cons.mpr (.inl ⟨rfl, hb⟩)) hpath'⟩

/-- What is handled is what can be reached. -/
theorem handled_iff {start : List α} (h : Trace start [] visits) {a : α} :
    a ∈ visits.map Prod.fst ↔
      ∃ b, b ∈ start ∧ Relation.ReflTransGen (LeadsTo visits) b a := by
  have hclosed := h.closed
  simp only [List.not_mem_nil, false_or] at hclosed
  constructor
  · exact h.reached
  · rintro ⟨b, hb, hpath⟩
    induction hpath with
    | refl => exact hclosed.1 b hb
    | tail _ hstep _ => exact hclosed.2 _ _ hstep

end Trace

end Worklist
