import QbsCore.Library.TransitionSystem
import QbsCore.Tools.Set

/-!
# Programs that work with sets

A program has set variables and performs one operation after the other on them.  Beside the
vectors it is recorded what the variables should be as mathematical sets.

Main results:

- Theorem {lit}`SetData.rightStates_iff`: the programs in whose states all vectors are strictly
  ascending and all observations are those of the mathematical sets.
-/

namespace Qbs

namespace SetData

variable {α : Type*} [LinearOrder α] {data other : SetData α} {set set' : Finset α} {v : α}

/-! ## Sequences of operations -/

/-- An operation on set variables, which are given by numbers. The operators that only have
another spelling are left out. -/
inductive Operation (α : Type*)
  | default (r : Nat)
  | initializerList (r : Nat) (list : List α)
  | range (r : Nat) (elements : List α)
  | assign (r s : Nat)
  | swap (r s : Nat)
  | clear (r : Nat)
  | insert (r : Nat) (v : α)
  | remove (r : Nat) (v : α)
  | erase (r : Nat) (it : Nat)
  | eraseRange (r : Nat) (first last : Nat)
  | unite (r s : Nat)
  | subtract (r s : Nat)
  | intersect (r s : Nat)
  | intersectElem (r : Nat) (v : α)
  | plus (t r s : Nat)
  | minus (t r s : Nat)
  | conj (t r s : Nat)

namespace Operation

/-- The iterators belong to the set. -/
def IteratorsValid (m : Nat → SetData α) : Operation α → Prop
  | erase r it => it < (m r).length
  | eraseRange r first last => first ≤ last ∧ last ≤ (m r).length
  | _ => True

/-- Perform an operation on the vectors. There is no result if the behaviour is undefined: when a
set is subtracted from itself, erasing its first element invalidates the iterator that walks
through it. The union of a set with itself inserts nothing, and its intersection with itself erases
nothing. -/
def perform (m : Nat → SetData α) : Operation α → Option (Nat → SetData α)
  | default r => some (Function.update m r [])
  | initializerList r list => some (Function.update m r (ofInitializerList list))
  | range r elements => some (Function.update m r (ofRange elements))
  | assign r s => some (Function.update m r (m s))
  | swap r s => some (Function.update (Function.update m r (m s)) s (m r))
  | clear r => some (Function.update m r [])
  | insert r v => some (Function.update m r ((m r).insert v).1)
  | remove r v => some (Function.update m r ((m r).remove v).1)
  | erase r it => some (Function.update m r ((m r).eraseIdx it))
  | eraseRange r first last => some (Function.update m r ((m r).eraseRange first last))
  | unite r s => some (Function.update m r ((m r).unite (m s)))
  | subtract r s =>
      if r = s ∧ m r ≠ [] then none else some (Function.update m r ((m r).subtract (m s)))
  | intersect r s => some (Function.update m r ((m r).intersect (m s)))
  | intersectElem r v => some (Function.update m r ((m r).intersect (ofInitializerList [v])))
  | plus t r s => some (Function.update m t ((m r).plus (m s)))
  | minus t r s => some (Function.update m t ((m r).minus (m s)))
  | conj t r s => some (Function.update m t ((m r).conj (m s)))

/-- What an operation is on mathematical sets. -/
def meaning (sets : Nat → Finset α) : Operation α → Nat → Finset α
  | default r => Function.update sets r ∅
  | initializerList r list => Function.update sets r list.toFinset
  | range r elements => Function.update sets r elements.toFinset
  | assign r s => Function.update sets r (sets s)
  | swap r s => Function.update (Function.update sets r (sets s)) s (sets r)
  | clear r => Function.update sets r ∅
  | insert r v => Function.update sets r (Insert.insert v (sets r))
  | remove r v => Function.update sets r ((sets r).erase v)
  | erase r it => Function.update sets r ((sets r).filter fun v => rank (sets r) v ≠ it)
  | eraseRange r first last =>
      Function.update sets r
        ((sets r).filter fun v => ¬(first ≤ rank (sets r) v ∧ rank (sets r) v < last))
  | unite r s => Function.update sets r (sets r ∪ sets s)
  | subtract r s => Function.update sets r (sets r \ sets s)
  | intersect r s => Function.update sets r (sets r ∩ sets s)
  | intersectElem r v => Function.update sets r (sets r ∩ {v})
  | plus t r s => Function.update sets t (sets r ∪ sets s)
  | minus t r s => Function.update sets t (sets r \ sets s)
  | conj t r s => Function.update sets t (sets r ∩ sets s)

/-- A range is free of duplicates, and no set with elements is subtracted from itself. -/
def Harmless (m : Nat → SetData α) : Operation α → Prop
  | range _ elements => elements.Nodup
  | subtract r s => r = s → m r = []
  | _ => True

end Operation

/-- The set variables of a program, which has no memory left after undefined behaviour, and the
mathematical sets that they should be. -/
structure Variables (α : Type*) where
  memory : Option (Nat → SetData α)
  sets : Nat → Finset α

/-- One operation. -/
inductive Step : Variables α → Operation α → Variables α → Prop
  | perform {m : Nat → SetData α} {sets : Nat → Finset α} {op : Operation α}
      (hvalid : op.IteratorsValid m) :
      Step ⟨some m, sets⟩ op ⟨op.perform m, op.meaning sets⟩

/-- All variables are empty at the start. -/
def Variables.start : Variables α :=
  ⟨some fun _ => [], fun _ => ∅⟩

/-- All vectors are strictly ascending, and what can be observed of them is what holds for the
mathematical sets. -/
structure Right (m : Nat → SetData α) (sets : Nat → Finset α) : Prop where
  sorted : ∀ r, (m r).Pairwise (· < ·)
  contains_iff : ∀ r v, (m r).contains v = true ↔ v ∈ sets r
  size_eq : ∀ r, (m r).length = (sets r).card
  eq_iff : ∀ r s, m r = m s ↔ sets r = sets s
  containsSet_iff : ∀ r s, (m r).containsSet (m s) = true ↔ sets s ⊆ sets r
  intersects_iff : ∀ r s, (m r).intersects (m s) = true ↔ (sets r ∩ sets s).Nonempty
  minus_eq : ∀ r s, (m r).minus (m s) = (m r).subtract (m s)
  conj_eq : ∀ r s, (m r).conj (m s) = (m r).intersect (m s)

/-- The variables are as they should be. -/
def Variables.IsRight (x : Variables α) : Prop :=
  ∃ m, x.memory = some m ∧ Right m x.sets

variable {m : Nat → SetData α} {sets : Nat → Finset α}

/-- All of that holds exactly if each vector represents its set. -/
theorem right_iff : Right m sets ↔ ∀ r, Represents (m r) (sets r) := by
  constructor
  · intro h r
    refine ⟨h.sorted r, ?_⟩
    intro v
    rw [← contains_iff (h.sorted r), h.contains_iff]
  · intro h
    constructor
    · exact fun r => (h r).sorted
    · intro r v
      rw [contains_iff (h r).sorted, (h r).mem_iff]
    · exact fun r => (h r).size_eq
    · exact fun r s => (h r).eq_iff (h s)
    · intro r s
      rw [containsSet_iff (h r).sorted (h s).sorted]
      simp only [(h r).mem_iff, (h s).mem_iff]
      rfl
    · intro r s
      rw [intersects_iff (h r).sorted (h s).sorted]
      simp only [(h r).mem_iff, (h s).mem_iff]
      simp [Finset.Nonempty]
    · exact fun r s => ((h r).minus (h s)).unique ((h r).subtract (h s))
    · exact fun r s => conj_eq_intersect _ _

theorem represents_update (h : ∀ r, Represents (m r) (sets r)) (t : Nat)
    (hdata : Represents data set) (r : Nat) :
    Represents (Function.update m t data r) (Function.update sets t set r) := by
  by_cases hr : r = t
  · rw [hr, Function.update_self, Function.update_self]
    exact hdata
  · rw [Function.update_of_ne hr, Function.update_of_ne hr]
    exact h r

theorem Represents.erase (h : Represents data set) (it : Nat) :
    Represents (data.eraseIdx it) (set.filter fun v => rank set v ≠ it) := by
  have hrange := h.eraseRange (Nat.le_succ it)
  unfold SetData.eraseRange at hrange
  rw [← List.eraseIdx_eq_take_drop_succ] at hrange
  convert hrange using 3
  omega

/-- What an operation makes of right variables, if its behaviour is defined and all ranges are free
of duplicates. -/
theorem exists_perform (h : ∀ r, Represents (m r) (sets r)) {op : Operation α}
    (hvalid : op.IteratorsValid m) (hharmless : op.Harmless m) :
    ∃ m', op.perform m = some m' ∧ ∀ r, Represents (m' r) (op.meaning sets r) := by
  cases op with
  | default r => exact ⟨_, rfl, represents_update h r represents_nil⟩
  | initializerList r list => exact ⟨_, rfl, represents_update h r (represents_ofInitializerList _)⟩
  | range r elements =>
      exact ⟨_, rfl, represents_update h r ((represents_ofRange_iff elements).mpr hharmless)⟩
  | assign r s => exact ⟨_, rfl, represents_update h r (h s)⟩
  | swap r s => exact ⟨_, rfl, represents_update (represents_update h r (h s)) s (h r)⟩
  | clear r => exact ⟨_, rfl, represents_update h r represents_nil⟩
  | insert r v => exact ⟨_, rfl, represents_update h r ((h r).insert v).1⟩
  | remove r v => exact ⟨_, rfl, represents_update h r ((h r).remove v).1⟩
  | erase r it => exact ⟨_, rfl, represents_update h r ((h r).erase it)⟩
  | eraseRange r first last => exact ⟨_, rfl, represents_update h r ((h r).eraseRange hvalid.1)⟩
  | unite r s => exact ⟨_, rfl, represents_update h r ((h r).unite (h s))⟩
  | subtract r s =>
      have hdefined : ¬(r = s ∧ m r ≠ []) := fun hself => hself.2 (hharmless hself.1)
      exact ⟨_, if_neg hdefined, represents_update h r ((h r).subtract (h s))⟩
  | intersect r s => exact ⟨_, rfl, represents_update h r ((h r).intersect (h s))⟩
  | intersectElem r v =>
      refine ⟨_, rfl, represents_update h r ?_⟩
      simpa using (h r).intersect (represents_ofInitializerList [v])
  | plus t r s => exact ⟨_, rfl, represents_update h t ((h r).unite (h s))⟩
  | minus t r s => exact ⟨_, rfl, represents_update h t ((h r).minus (h s))⟩
  | conj t r s =>
      refine ⟨_, rfl, represents_update h t ?_⟩
      rw [conj_eq_intersect]
      exact (h r).intersect (h s)

/-- An operation keeps the variables right exactly if it is harmless. -/
theorem isRight_step_iff {x y : Variables α} {op : Operation α} (hx : x.IsRight)
    (hstep : Step x op y) : y.IsRight ↔ ∀ m, x.memory = some m → op.Harmless m := by
  cases hstep with
  | @perform m sets _ hvalid =>
      rcases hx with ⟨_, hmemory, hright⟩
      cases hmemory
      rw [right_iff] at hright
      constructor
      · rintro ⟨m', hperform, hright'⟩ _ hmemory
        cases hmemory
        rw [right_iff] at hright'
        cases op with
        | range r elements =>
            have hr := hright' r
            cases hperform
            simp only [Operation.meaning, Function.update_self] at hr
            exact (represents_ofRange_iff elements).mp hr
        | subtract r s =>
            intro hself
            by_contra hne
            have hundefined : (Operation.subtract r s).perform m = none := if_pos ⟨hself, hne⟩
            rw [hundefined] at hperform
            simp at hperform
        | _ => trivial
      · intro hharmless
        rcases exists_perform hright hvalid (hharmless m rfl) with ⟨m', hperform, hm'⟩
        exact ⟨m', hperform, right_iff.mpr hm'⟩

theorem isRight_start : (Variables.start : Variables α).IsRight :=
  ⟨_, rfl, right_iff.mpr fun _ => represents_nil⟩

/-- The variables are right in all states of a sequence of operations exactly if no range that a set
is made of has duplicates, and no set with elements is subtracted from itself. -/
theorem rightStates_iff (trace : List (Variables α × Operation α)) (x : Variables α)
    (hrun : TransitionSystem.Run Step Variables.start trace x) :
    ((∀ e, e ∈ trace → e.1.IsRight) ∧ x.IsRight) ↔
      ∀ e, e ∈ trace → ∀ m, e.1.memory = some m → e.2.Harmless m :=
  hrun.invariant_iff (W := fun _ => True)
    (fun (x : Variables α) (op : Operation α) => ∀ m, x.memory = some m → op.Harmless m)
    (fun _ _ _ _ _ => trivial) (fun _ _ _ _ hx hstep => isRight_step_iff hx hstep) trivial
    isRight_start

/-- A set of a range without duplicates, from which another set is subtracted. -/
theorem rightStates_iff_sample :
    ∃ trace x, TransitionSystem.Run Step (Variables.start : Variables Nat) trace x ∧
      trace.map Prod.snd = [.range 0 [3, 1, 2], .subtract 0 1] ∧
      (∀ e, e ∈ trace → e.1.IsRight) ∧ x.IsRight := by
  have hrange : Step (Variables.start : Variables Nat) (.range 0 [3, 1, 2]) _ :=
    Step.perform trivial
  have hsubtract : Step ⟨(Operation.range 0 [3, 1, 2]).perform fun _ => [],
      (Operation.range 0 [3, 1, 2]).meaning fun _ => ∅⟩ (.subtract 0 1) _ :=
    Step.perform trivial
  have hrun := (TransitionSystem.Run.nil.snoc hrange).snoc hsubtract
  refine ⟨_, _, hrun, rfl, (rightStates_iff _ _ hrun).mpr fun e he m _ => ?_⟩
  rcases List.mem_cons.mp he with rfl | he
  · show List.Nodup [3, 1, 2]
    decide
  · rw [List.mem_singleton.mp he]
    exact fun h => absurd h (by decide)

/-- A set of a range keeps a repeated element twice. -/
theorem not_right_sample :
    ¬∀ (trace : List (Variables Nat × Operation Nat)) (x : Variables Nat),
      TransitionSystem.Run Step Variables.start trace x → x.IsRight := by
  intro h
  have hstep : Step (Variables.start : Variables Nat) (.range 0 [1, 1]) _ := Step.perform trivial
  rcases h _ _ (TransitionSystem.Run.nil.snoc hstep) with ⟨m, hmemory, hright⟩
  cases hmemory
  have hsorted := hright.sorted 0
  rw [Function.update_self] at hsorted
  exact absurd hsorted (by decide)

end SetData

end Qbs
