import QbsCore.Library.SortedSet
import Mathlib.Logic.Relation

/-!
# Depth-first search for a path

A recursive search from a node for a goal that passes a set of seen nodes along
and stops at the first success.  The depth of the recursion is bounded by fuel.

Main results:

- Theorem {lit}`GraphSearch.visit_found`: a successful search gives a path.
- Theorem {lit}`GraphSearch.visit_closed`: after a failed search with enough fuel
  the newly seen nodes are closed under successors and contain the start.
- Theorem {lit}`GraphSearch.search_eq_true_iff`: with as much fuel as there are
  nodes, the search succeeds exactly when there is a path.
- Theorem {lit}`GraphSearch.acyclic_of_addEdge`: an edge without a path back closes
  no cycle.

Current gaps:

- None.
-/

namespace GraphSearch

variable {α : Type*} [LinearOrder α] (next : α → SortedSet α) (goal : α)

/-- An edge of the graph that is searched. -/
def Edge (a b : α) : Prop :=
  b ∈ next a

/-- Search from the nodes of a list until one search succeeds; returns whether the goal was
found and the seen nodes. The first argument is the search from one node. -/
def visitAny (visit : α → SortedSet α → Bool × SortedSet α) :
    List α → SortedSet α → Bool × SortedSet α
  | [], seen => (false, seen)
  | u :: us, seen =>
      match visit u seen with
      | (true, seen') => (true, seen')
      | (false, seen') => visitAny visit us seen'

/-- Search from a node. -/
def visit : Nat → α → SortedSet α → Bool × SortedSet α
  | 0, _, seen => (false, seen)
  | fuel + 1, u, seen =>
      if u = goal then (true, seen)
      else if u ∈ seen then (false, seen)
      else visitAny (visit fuel) (next u).elems (insert u seen)

/-- Search for a path between two nodes. -/
def search (fuel : Nat) (u : α) : Bool :=
  (visit next goal fuel u ∅).1

/-! ## A success is a path -/

variable {nodes seen : SortedSet α}

theorem visitAny_found {fuel : Nat} {us : List α} {seen : SortedSet α}
    (hvisit : ∀ u seen, (visit next goal fuel u seen).1 = true →
      Relation.ReflTransGen (Edge next) u goal)
    (h : (visitAny (visit next goal fuel) us seen).1 = true) :
    ∃ u, u ∈ us ∧ Relation.ReflTransGen (Edge next) u goal := by
  induction us generalizing seen with
  | nil => simp [visitAny] at h
  | cons u us ih =>
      simp only [visitAny] at h
      split at h
      · rename_i seen' hu
        exact ⟨u, by simp, hvisit u seen (by rw [hu])⟩
      · rcases ih h with ⟨w, hw, hpath⟩
        exact ⟨w, List.mem_cons_of_mem u hw, hpath⟩

/-- A successful search gives a path. -/
theorem visit_found (fuel : Nat) (u : α) (seen : SortedSet α)
    (h : (visit next goal fuel u seen).1 = true) :
    Relation.ReflTransGen (Edge next) u goal := by
  induction fuel generalizing u seen with
  | zero => simp [visit] at h
  | succ fuel ih =>
      simp only [visit] at h
      split at h <;> rename_i hu
      · rw [hu]
      · split at h
        · simp at h
        · rcases visitAny_found next goal ih h with ⟨w, hw, hpath⟩
          exact Relation.ReflTransGen.head hw hpath

/-! ## A failure closes the seen nodes -/

/-- What a failed search has achieved: the set of seen nodes has grown, misses the
goal if it did, and each new node has all of its successors in it. -/
structure Explored (seen seen' : SortedSet α) : Prop where
  subset : ∀ a, a ∈ seen → a ∈ seen'
  goal_new : goal ∈ seen' → goal ∈ seen
  closed : ∀ a, a ∈ seen' → a ∉ seen → ∀ b, b ∈ next a → b ∈ seen'

theorem Explored.refl (seen : SortedSet α) : Explored next goal seen seen :=
  ⟨fun _ h => h, fun h => h, fun _ h hn => absurd h hn⟩

variable {next goal}

theorem Explored.trans {s t r : SortedSet α} (hst : Explored next goal s t)
    (htr : Explored next goal t r) : Explored next goal s r := by
  refine ⟨fun a h => htr.subset a (hst.subset a h), fun h => hst.goal_new (htr.goal_new h), ?_⟩
  intro a har has b hb
  by_cases hat : a ∈ t
  · exact htr.subset b (hst.closed a hat has b hb)
  · exact htr.closed a har hat b hb

/-- The nodes that are still to be seen. -/
def unseen (nodes seen : SortedSet α) : Nat :=
  (nodes.subtract seen).size

theorem unseen_le (nodes : SortedSet α) {seen' : SortedSet α} (h : ∀ a, a ∈ seen → a ∈ seen') :
    unseen nodes seen' ≤ unseen nodes seen := by
  apply SortedSet.size_le_of_subset
  intro a ha
  rw [SortedSet.mem_subtract] at ha ⊢
  exact ⟨ha.1, fun hs => ha.2 (h a hs)⟩

theorem unseen_insert_lt {a : α} (ha : a ∈ nodes) (hs : a ∉ seen) :
    unseen nodes (insert a seen) < unseen nodes seen := by
  have hEq : nodes.subtract (insert a seen) = (nodes.subtract seen).remove a := by
    ext b
    simp only [SortedSet.mem_subtract, SortedSet.mem_insert, SortedSet.mem_remove]
    tauto
  unfold unseen
  rw [hEq]
  exact SortedSet.size_remove_lt (SortedSet.mem_subtract.mpr ⟨ha, hs⟩)

theorem visitAny_explored {nodes : SortedSet α} {fuel : Nat}
    (hvisit : ∀ u seen, u ∈ nodes → unseen nodes seen < fuel →
      (visit next goal fuel u seen).1 = false →
      Explored next goal seen (visit next goal fuel u seen).2 ∧
        u ∈ (visit next goal fuel u seen).2)
    {us : List α} {seen : SortedSet α} (hus : ∀ u, u ∈ us → u ∈ nodes)
    (hfuel : unseen nodes seen < fuel) (h : (visitAny (visit next goal fuel) us seen).1 = false) :
    Explored next goal seen (visitAny (visit next goal fuel) us seen).2 ∧
      ∀ u, u ∈ us → u ∈ (visitAny (visit next goal fuel) us seen).2 := by
  induction us generalizing seen with
  | nil =>
      simp only [visitAny]
      exact ⟨Explored.refl next goal seen, by simp⟩
  | cons u us ih =>
      simp only [visitAny] at h ⊢
      split at h
      · simp at h
      · rename_i seen' hu
        have hstep := hvisit u seen (hus u (by simp)) hfuel (by rw [hu])
        rw [hu] at hstep
        have hfuel' := lt_of_le_of_lt (unseen_le nodes hstep.1.subset) hfuel
        rcases ih (fun w hw => hus w (List.mem_cons_of_mem u hw)) hfuel' h with ⟨hrest, hmem⟩
        refine ⟨hstep.1.trans hrest, ?_⟩
        intro w hw
        rcases List.mem_cons.mp hw with rfl | hw
        · exact hrest.subset _ hstep.2
        · exact hmem w hw

/-- A failed search with enough fuel has seen its start and everything behind it. -/
theorem visit_closed (hnodes : ∀ a, a ∈ nodes → ∀ b, b ∈ next a → b ∈ nodes) (fuel : Nat) (u : α)
    (seen : SortedSet α) (hu : u ∈ nodes) (hfuel : unseen nodes seen < fuel)
    (h : (visit next goal fuel u seen).1 = false) :
    Explored next goal seen (visit next goal fuel u seen).2 ∧
      u ∈ (visit next goal fuel u seen).2 := by
  induction fuel generalizing u seen with
  | zero => exact absurd hfuel (Nat.not_lt_zero _)
  | succ fuel ih =>
      simp only [visit] at h ⊢
      split at h
      · simp at h
      · rename_i hgoal
        rw [if_neg hgoal]
        split at h <;> rename_i hseen
        · rw [if_pos hseen]
          exact ⟨Explored.refl next goal seen, hseen⟩
        · rw [if_neg hseen]
          have hlt : unseen nodes (insert u seen) < fuel :=
            lt_of_lt_of_le (unseen_insert_lt hu hseen) (Nat.lt_succ_iff.mp hfuel)
          rcases visitAny_explored ih (fun w hw => hnodes u hu w hw) hlt h with ⟨hrest, hmem⟩
          refine ⟨⟨?_, ?_, ?_⟩, hrest.subset u (SortedSet.mem_insert_self u seen)⟩
          · intro a ha
            exact hrest.subset a (SortedSet.mem_insert.mpr (Or.inr ha))
          · intro hg
            rcases SortedSet.mem_insert.mp (hrest.goal_new hg) with hEq | hg
            · exact absurd hEq.symm hgoal
            · exact hg
          · intro a ha has b hb
            by_cases hau : a = u
            · subst hau
              exact hmem b hb
            · refine hrest.closed a ha ?_ b hb
              simp [hau, has]

/-- A set without the goal that is closed under successors has no path to it. -/
theorem not_path_of_closed {s : SortedSet α} (hgoal : goal ∉ s)
    (hclosed : ∀ a, a ∈ s → ∀ b, b ∈ next a → b ∈ s) {u : α} (hu : u ∈ s) :
    ¬Relation.ReflTransGen (Edge next) u goal := by
  intro hpath
  induction hpath using Relation.ReflTransGen.head_induction_on with
  | refl => exact hgoal hu
  | head hedge _ ih => exact ih (hclosed _ hu _ hedge)

/-- With as much fuel as there are nodes, the search decides whether there is a path. -/
theorem search_eq_true_iff (nodes : SortedSet α)
    (hnodes : ∀ a, a ∈ nodes → ∀ b, b ∈ next a → b ∈ nodes) {fuel : Nat} {u : α}
    (hu : u ∈ nodes) (hfuel : nodes.size < fuel) :
    search next goal fuel u = true ↔ Relation.ReflTransGen (Edge next) u goal := by
  constructor
  · exact visit_found next goal fuel u ∅
  · intro hpath
    by_contra hne
    have hfalse : (visit next goal fuel u ∅).1 = false := by simpa [search] using hne
    have hunseen : unseen nodes ∅ < fuel :=
      lt_of_le_of_lt (SortedSet.size_le_of_subset fun a ha => (SortedSet.mem_subtract.mp ha).1) hfuel
    rcases visit_closed hnodes fuel u ∅ hu hunseen hfalse with ⟨hexp, hmem⟩
    refine not_path_of_closed ?_ ?_ hmem hpath
    · exact fun hg => SortedSet.not_mem_empty _ (hexp.goal_new hg)
    · exact fun a ha => hexp.closed a ha (SortedSet.not_mem_empty a)

/-! ## Adding an edge -/

/-- No path with at least one edge leads back to its start. -/
def Acyclic {β : Type*} (r : β → β → Prop) : Prop :=
  ∀ a, ¬Relation.TransGen r a a

section AddEdge

variable {β : Type*} {r s : β → β → Prop} {u v : β}

/-- A path that may use a new edge avoids it or has an old part on either side. -/
theorem transGen_addEdge (hs : ∀ a b, s a b → r a b ∨ a = u ∧ b = v) {a b : β}
    (h : Relation.TransGen s a b) :
    Relation.TransGen r a b ∨ Relation.ReflTransGen r a u ∧ Relation.ReflTransGen r v b := by
  induction h with
  | single hab =>
      rcases hs _ _ hab with hr | ⟨rfl, rfl⟩
      · exact Or.inl (Relation.TransGen.single hr)
      · exact Or.inr ⟨Relation.ReflTransGen.refl, Relation.ReflTransGen.refl⟩
  | tail _ hbc ih =>
      rcases hs _ _ hbc with hr | ⟨rfl, rfl⟩
      · rcases ih with hab | ⟨hau, hvb⟩
        · exact Or.inl (hab.tail hr)
        · exact Or.inr ⟨hau, hvb.tail hr⟩
      · rcases ih with hab | ⟨hau, -⟩
        · exact Or.inr ⟨hab.to_reflTransGen, Relation.ReflTransGen.refl⟩
        · exact Or.inr ⟨hau, Relation.ReflTransGen.refl⟩

/-- An edge without a path back closes no cycle. -/
theorem acyclic_of_addEdge (hr : Acyclic r) (hs : ∀ a b, s a b → r a b ∨ a = u ∧ b = v)
    (hback : ¬Relation.ReflTransGen r v u) : Acyclic s := by
  intro a ha
  rcases transGen_addEdge hs ha with hcycle | ⟨hau, hva⟩
  · exact hr a hcycle
  · exact hback (hva.trans hau)

/-- Fewer edges close no cycle. -/
theorem Acyclic.mono (hr : Acyclic r) (hs : ∀ a b, s a b → r a b) : Acyclic s :=
  fun a ha => hr a (Relation.TransGen.mono hs a a ha)

end AddEdge

end GraphSearch
