import QbsCore.Library.CycleSearch
import QbsCore.Library.SortedSet

/-!
# Checking for cycles

A depth-first search that goes on from every node once and stops at the first node
that is on the current branch for the second time.  On its way back it collects the
nodes of the branch.

Main results:

- Theorem {lit}`CycleCheck.firstCycle_eq_none_iff`: nothing is found exactly if no
  root leads to a cycle.

Current gaps:

- That the collected nodes lead from the root to the cycle is not stated.
-/

/-- The state of a check: the nodes it went on from, those on the current branch, and the way to
a cycle. -/
structure CycleCheck (α : Type*) [LinearOrder α] where
  checked : SortedSet α
  branch : SortedSet α
  error : List α

namespace CycleCheck

open CycleSearch

variable {α : Type*} [LinearOrder α] (next : α → List α)

/-- Check one node after the other, up to the first one that leads to a cycle. The first argument
checks one node. -/
def visitAny (visit : α → CycleCheck α → Bool × CycleCheck α) :
    List α → CycleCheck α → Bool × CycleCheck α
  | [], s => (false, s)
  | c :: cs, s =>
      match visit c s with
      | (true, s') => (true, { s' with error := c :: s'.error })
      | (false, s') => visitAny visit cs s'

/-- Check a node. -/
def visit : Nat → α → CycleCheck α → Bool × CycleCheck α
  | 0, _, s => (false, s)
  | fuel + 1, u, s =>
      if u ∈ s.branch then (true, s)
      else if u ∈ s.checked then (false, s)
      else
        match visitAny (visit fuel) (next u)
            { s with checked := insert u s.checked, branch := insert u s.branch } with
        | (true, s') => (true, s')
        | (false, s') => (false, { s' with branch := s'.branch.remove u })

/-- Check from one root after the other, each with a new branch; returns the way to a cycle. -/
def firstCycle (fuel : Nat) : List α → SortedSet α → Option (List α)
  | [], _ => none
  | r :: rs, checked =>
      match visit next fuel r ⟨checked, ∅, []⟩ with
      | (true, s) => some (r :: s.error)
      | (false, s) => firstCycle fuel rs s.checked

/-- The branch of a check is known, and what was checked outside it does not lead to a cycle. -/
structure Sound (path : List α) (s : CycleCheck α) : Prop where
  branch : ∀ a, a ∈ s.branch ↔ a ∈ path
  checked : ∀ a, a ∈ s.checked → a ∉ path → ¬LeadsToCycle next a

/-- What a check of some nodes finds. -/
inductive Outcome (path : List α) (leads : Prop) : Bool × CycleCheck α → Prop where
  | found {s : CycleCheck α} (hleads : leads) : Outcome path leads (true, s)
  | clean {s : CycleCheck α} (hnot : ¬leads) (hsound : Sound next path s) :
      Outcome path leads (false, s)

variable {next} {nodes path : List α}

/-- The check of some nodes, from what the check of one node does. -/
theorem visitAny_outcome {fuel : Nat} {us : List α}
    (hvisit : ∀ u, u ∈ us → ∀ s, Sound next path s →
      Outcome next path (LeadsToCycle next u) (visit next fuel u s))
    {s : CycleCheck α} (hs : Sound next path s) :
    Outcome next path (∃ u, u ∈ us ∧ LeadsToCycle next u) (visitAny (visit next fuel) us s) := by
  induction us generalizing s with
  | nil =>
      apply Outcome.clean
      · simp
      · exact hs
  | cons u us ih =>
      have hu := hvisit u List.mem_cons_self s hs
      unfold visitAny
      generalize visit next fuel u s = o at hu
      cases hu with
      | found hleads => exact Outcome.found ⟨u, List.mem_cons_self, hleads⟩
      | @clean s' hnot hsound =>
          have hrest := ih (fun w hw => hvisit w (List.mem_cons_of_mem u hw)) hsound
          dsimp only
          generalize visitAny (visit next fuel) us s' = o' at hrest
          cases hrest with
          | found hleads =>
              rcases hleads with ⟨w, hw, hleads⟩
              exact Outcome.found ⟨w, List.mem_cons_of_mem u hw, hleads⟩
          | clean hnot' hsound' =>
              apply Outcome.clean _ hsound'
              intro hleads
              rcases hleads with ⟨w, hw, hleads⟩
              rcases List.mem_cons.mp hw with rfl | hw
              · exact hnot hleads
              · exact hnot' ⟨w, hw, hleads⟩

/-- A node that is entered comes to the front of the branch. -/
theorem Sound.enter {s : CycleCheck α} (hs : Sound next path s) (u : α) :
    Sound next (u :: path)
      { s with checked := insert u s.checked, branch := insert u s.branch } := by
  constructor
  · intro a
    rw [SortedSet.mem_insert, List.mem_cons, hs.branch]
  · intro a ha hpath
    rw [List.mem_cons, not_or] at hpath
    exact hs.checked a (((SortedSet.mem_insert).mp ha).resolve_left hpath.1) hpath.2

/-- A node that does not lead to a cycle can be left. -/
theorem Sound.leave {s : CycleCheck α} {u : α} (hs : Sound next (u :: path) s) (hu : u ∉ path)
    (hnot : ¬LeadsToCycle next u) :
    Sound next path { s with branch := s.branch.remove u } := by
  constructor
  · intro a
    rw [SortedSet.mem_remove, hs.branch, List.mem_cons]
    constructor
    · intro h
      exact h.1.resolve_left h.2
    · intro ha
      exact ⟨Or.inr ha, fun hEq => hu (hEq ▸ ha)⟩
  · intro a ha hpath
    by_cases hEq : a = u
    · rw [hEq]
      exact hnot
    · exact hs.checked a ha (by simp [hEq, hpath])

section Spec

variable (hclosed : ∀ a, a ∈ nodes → ∀ b, b ∈ next a → b ∈ nodes)

include hclosed

/-- The check of a node finds out whether it leads to a cycle. Its fuel is enough if all nodes
fit on a branch. -/
theorem visit_outcome {fuel : Nat} {u : α} {path : List α} (habove : Above next nodes path u)
    (hu : u ∈ nodes) (hfuel : nodes.length < path.length + fuel) {s : CycleCheck α}
    (hs : Sound next path s) :
    Outcome next path (LeadsToCycle next u) (visit next fuel u s) := by
  induction fuel generalizing u path s with
  | zero =>
      have hle := habove.length_le
      omega
  | succ fuel ih =>
      unfold visit
      split_ifs with hbranch hchecked
      · exact Outcome.found ⟨u, Relation.ReflTransGen.refl,
          habove.reaches u ((hs.branch u).mp hbranch)⟩
      · have hpath : u ∉ path := fun h => hbranch ((hs.branch u).mpr h)
        exact Outcome.clean (hs.checked u hchecked hpath) hs
      · have hpath : u ∉ path := fun h => hbranch ((hs.branch u).mpr h)
        have hchild : ∀ c, c ∈ next u → Above next nodes (u :: path) c := by
          intro c hc
          constructor
          · exact List.nodup_cons.mpr ⟨hpath, habove.nodup⟩
          · intro a ha
            rcases List.mem_cons.mp ha with rfl | ha
            · exact hu
            · exact habove.mem a ha
          · intro a ha
            rcases List.mem_cons.mp ha with rfl | ha
            · exact Relation.TransGen.single hc
            · exact (habove.reaches a ha).tail hc
        have hchildren : Outcome next (u :: path) (∃ c, c ∈ next u ∧ LeadsToCycle next c)
            (visitAny (visit next fuel) (next u)
              { s with checked := insert u s.checked, branch := insert u s.branch }) := by
          apply visitAny_outcome _ (hs.enter u)
          intro c hc s' hs'
          exact ih (hchild c hc) (hclosed u hu c hc) (by rw [List.length_cons]; omega) hs'
        generalize visitAny (visit next fuel) (next u)
          { s with checked := insert u s.checked, branch := insert u s.branch } = o at hchildren
        cases hchildren with
        | found hleads =>
            rcases hleads with ⟨c, hc, hleads⟩
            exact Outcome.found (hleads.of_edge hc)
        | clean hnot hsound =>
            have hleads : ¬LeadsToCycle next u := fun hleads => hnot hleads.exists_next
            exact Outcome.clean hleads (hsound.leave hpath hleads)

/-- Nothing is found exactly if no root leads to a cycle. -/
theorem firstCycle_eq_none_iff {fuel : Nat} (hfuel : nodes.length < fuel) {roots : List α}
    (hroots : ∀ r, r ∈ roots → r ∈ nodes) {checked : SortedSet α}
    (hchecked : ∀ a, a ∈ checked → ¬LeadsToCycle next a) :
    firstCycle next fuel roots checked = none ↔ ∀ r, r ∈ roots → ¬LeadsToCycle next r := by
  induction roots generalizing checked with
  | nil => simp [firstCycle]
  | cons r rs ih =>
      have hsound : Sound next [] (⟨checked, ∅, []⟩ : CycleCheck α) := by
        constructor
        · simp
        · intro a ha _
          exact hchecked a ha
      have hr : Outcome next [] (LeadsToCycle next r) (visit next fuel r ⟨checked, ∅, []⟩) := by
        apply visit_outcome hclosed (Above.nil next nodes r) (hroots r List.mem_cons_self) _ hsound
        simpa using hfuel
      unfold firstCycle
      generalize visit next fuel r ⟨checked, ∅, []⟩ = o at hr
      cases hr with
      | found hleads =>
          apply iff_of_false
          · simp
          · intro h
            exact h r List.mem_cons_self hleads
      | clean hnot hsound' =>
          dsimp only
          rw [ih (fun a ha => hroots a (List.mem_cons_of_mem r ha))
            (fun a ha => hsound'.checked a ha List.not_mem_nil), List.forall_mem_cons]
          exact ⟨fun h => ⟨hnot, h⟩, fun h => h.2⟩

end Spec

end CycleCheck
