import QbsCore.Library.GraphSearch
import Mathlib.Data.List.Chain

/-!
# The first cycle of a depth-first search

A depth-first search from a list of roots leaves a node at once, or after a
complete visit, if no cycle can be reached from it.  So the way to the first cycle
takes at each node the first successor that leads to a cycle, until a node comes up
for the second time.

Main results:

- Definition {lit}`CycleSearch.ClosedWalk`: walks that end where they start.
- Definition {lit}`CycleSearch.FirstBackEdge`: the end of the way to the first cycle.
- Theorem {lit}`CycleSearch.FirstBackEdge.unique`: there is at most one such end.
- Theorem {lit}`CycleSearch.Above.length_le`: how deep a search without cycles can be.

Current gaps:

- None.
-/

namespace CycleSearch

variable {α : Type*} (next : α → List α) (roots : List α)

/-- An edge of the graph that is searched. -/
def Edge (a b : α) : Prop :=
  b ∈ next a

/-- Some node on a cycle can be reached. -/
def LeadsToCycle (a : α) : Prop :=
  ∃ c, Relation.ReflTransGen (Edge next) a c ∧ Relation.TransGen (Edge next) c c

/-- The nodes of a walk between two nodes, both included. -/
structure Walk (a b : α) (l : List α) : Prop where
  head : l.head? = some a
  last : l.getLast? = some b
  chain : l.IsChain (Edge next)

/-- The nodes of a walk with at least one edge that ends where it starts. -/
structure ClosedWalk (l : List α) : Prop where
  length : 2 ≤ l.length
  chain : l.IsChain (Edge next)
  closed : l.head? = l.getLast?

/-- The way that a depth-first search takes to the first cycle, with the current node first,
and the nodes that were visited completely at its roots and among the successors of its nodes. -/
inductive Way : List α → List α → Prop where
  | root {before after : List α} {r : α} (split : roots = before ++ r :: after)
      (passed : ∀ x, x ∈ before → ¬LeadsToCycle next x) (leads : LeadsToCycle next r) :
      Way [r] before
  | step {path visited before after : List α} {u c : α} (way : Way (u :: path) visited)
      (split : next u = before ++ c :: after) (passed : ∀ x, x ∈ before → ¬LeadsToCycle next x)
      (leads : LeadsToCycle next c) (new : c ∉ u :: path) :
      Way (c :: u :: path) (visited ++ before)

/-- The end of the way to the first cycle: the first successor of its last node that leads to a
cycle is on the way. -/
structure FirstBackEdge (u : α) (path visited before : List α) (d : α) : Prop where
  way : Way next roots (u :: path) visited
  split : ∃ after, next u = before ++ d :: after
  passed : ∀ x, x ∈ before → ¬LeadsToCycle next x
  back : d ∈ u :: path

variable {next roots}

/-! ## Walks -/

namespace Walk

variable {a b c : α} {l : List α}

theorem single (next : α → List α) (a : α) : Walk next a a [a] :=
  ⟨rfl, rfl, List.isChain_singleton a⟩

theorem cons (hb : b ∈ next a) (h : Walk next b c l) : Walk next a c (a :: l) := by
  constructor
  · rfl
  · cases l with
    | nil => cases h.head
    | cons x l => simpa using h.last
  · rw [List.isChain_cons]
    refine ⟨?_, h.chain⟩
    intro x hx
    rw [h.head] at hx
    rw [← Option.some.inj hx]
    exact hb

theorem reaches (h : Walk next a b l) : Relation.ReflTransGen (Edge next) a b := by
  induction l generalizing a with
  | nil => cases h.head
  | cons x l ih =>
      obtain rfl : x = a := Option.some.inj h.head
      cases l with
      | nil =>
          obtain rfl : x = b := Option.some.inj h.last
          exact Relation.ReflTransGen.refl
      | cons y l =>
          rcases List.isChain_cons_cons.mp h.chain with ⟨hxy, hchain⟩
          exact Relation.ReflTransGen.head hxy (ih ⟨rfl, by simpa using h.last, hchain⟩)

/-- A walk goes on along an edge exactly if its last node has this edge. -/
theorem isChain_append_iff (h : Walk next a b l) :
    (l ++ [c]).IsChain (Edge next) ↔ c ∈ next b := by
  rw [List.isChain_append]
  constructor
  · rintro ⟨-, -, hlast⟩
    exact hlast b h.last c rfl
  · intro hc
    refine ⟨h.chain, List.isChain_singleton c, ?_⟩
    intro x hx y hy
    rw [h.last] at hx
    rw [← Option.some.inj hx, ← Option.some.inj hy]
    exact hc

/-- A walk and its first node are a closed walk exactly if the last node has an edge to it. -/
theorem closedWalk_iff (h : Walk next a b l) : ClosedWalk next (l ++ [a]) ↔ a ∈ next b := by
  rw [← h.isChain_append_iff]
  constructor
  · exact ClosedWalk.chain
  · intro hchain
    cases l with
    | nil => cases h.head
    | cons x l =>
        obtain rfl : x = a := Option.some.inj h.head
        have hlast : (x :: l ++ [x]).getLast? = some x := List.getLast?_concat
        exact ⟨by simp, hchain, hlast.symm⟩

end Walk

/-! ## Nodes that lead to a cycle -/

theorem LeadsToCycle.of_path {a b : α} (hpath : Relation.ReflTransGen (Edge next) a b)
    (h : LeadsToCycle next b) : LeadsToCycle next a := by
  rcases h with ⟨c, hc, hcycle⟩
  exact ⟨c, hpath.trans hc, hcycle⟩

theorem LeadsToCycle.of_edge {a b : α} (hedge : b ∈ next a) (h : LeadsToCycle next b) :
    LeadsToCycle next a :=
  h.of_path (Relation.ReflTransGen.single hedge)

/-- From a node that leads to a cycle there is a successor that does. -/
theorem LeadsToCycle.exists_next {a : α} (h : LeadsToCycle next a) :
    ∃ b, b ∈ next a ∧ LeadsToCycle next b := by
  rcases h with ⟨c, hpath, hcycle⟩
  rcases Relation.ReflTransGen.cases_head hpath with rfl | ⟨b, hb, hrest⟩
  · rcases Relation.TransGen.head'_iff.mp hcycle with ⟨b, hb, hrest⟩
    exact ⟨b, hb, a, hrest, hcycle⟩
  · exact ⟨b, hb, c, hrest, hcycle⟩

/-- Two nodes that can be reached from each other along an edge lead to a cycle. -/
theorem leadsToCycle_of_return {a b : α} (hedge : b ∈ next a)
    (hback : Relation.ReflTransGen (Edge next) b a) : LeadsToCycle next a :=
  ⟨a, Relation.ReflTransGen.refl, Relation.TransGen.head' hedge hback⟩

/-! ## Depth of a search -/

/-- The nodes from which a search without cycles has come to a node, each of them once. -/
structure Above (next : α → List α) (nodes above : List α) (u : α) : Prop where
  nodup : above.Nodup
  mem : ∀ a, a ∈ above → a ∈ nodes
  reaches : ∀ a, a ∈ above → Relation.TransGen (Edge next) a u

namespace Above

variable {nodes above : List α} {u v : α}

theorem nil (next : α → List α) (nodes : List α) (u : α) : Above next nodes [] u :=
  ⟨List.nodup_nil, by simp, by simp⟩

theorem cons (h : Above next nodes above u) (hu : u ∈ nodes)
    (hcycle : ¬Relation.TransGen (Edge next) u u) (hv : v ∈ next u) :
    Above next nodes (u :: above) v := by
  constructor
  · exact List.nodup_cons.mpr ⟨fun hmem => hcycle (h.reaches u hmem), h.nodup⟩
  · intro a ha
    rcases List.mem_cons.mp ha with rfl | ha
    · exact hu
    · exact h.mem a ha
  · intro a ha
    rcases List.mem_cons.mp ha with rfl | ha
    · exact Relation.TransGen.single hv
    · exact (h.reaches a ha).tail hv

/-- A search without cycles is not deeper than there are nodes. -/
theorem length_le (h : Above next nodes above u) : above.length ≤ nodes.length :=
  (List.subperm_of_subset h.nodup h.mem).length_le

end Above

/-! ## First elements -/

/-- A list with an element of a kind can be split at the first such element. -/
theorem exists_first {P : α → Prop} {l : List α} (h : ∃ x, x ∈ l ∧ P x) :
    ∃ before x after, l = before ++ x :: after ∧ P x ∧ ∀ y, y ∈ before → ¬P y := by
  classical
  rcases h with ⟨x, hx, hPx⟩
  have hsome : (l.find? fun y => decide (P y)).isSome = true :=
    List.find?_isSome.mpr ⟨x, hx, by simpa using hPx⟩
  rcases Option.isSome_iff_exists.mp hsome with ⟨y, hy⟩
  rcases List.find?_eq_some_iff_append.mp hy with ⟨hPy, before, after, hl, hbefore⟩
  exact ⟨before, y, after, hl, by simpa using hPy, fun z hz => by simpa using hbefore z hz⟩

/-- The first element of a kind and the elements before it are determined. -/
theorem first_unique {P : α → Prop} {before before' after after' : List α} {x x' : α}
    (h : before ++ x :: after = before' ++ x' :: after') (hx : P x) (hx' : P x')
    (hbefore : ∀ y, y ∈ before → ¬P y) (hbefore' : ∀ y, y ∈ before' → ¬P y) :
    before = before' ∧ x = x' := by
  induction before generalizing before' with
  | nil =>
      cases before' with
      | nil => exact ⟨rfl, (List.cons.inj h).1⟩
      | cons y before' =>
          have hEq : x = y := (List.cons.inj h).1
          exact absurd (hEq ▸ hx) (hbefore' y (by simp))
  | cons y before ih =>
      cases before' with
      | nil =>
          have hEq : y = x' := (List.cons.inj h).1
          exact absurd (hEq ▸ hx') (hbefore y (by simp))
      | cons y' before' =>
          rcases List.cons.inj h with ⟨rfl, htail⟩
          rcases ih htail (fun z hz => hbefore z (by simp [hz]))
            (fun z hz => hbefore' z (by simp [hz])) with ⟨rfl, rfl⟩
          exact ⟨rfl, rfl⟩

/-! ## The way to the first cycle -/

namespace Way

variable {path visited : List α} {u : α}

theorem leads (h : Way next roots path visited) : ∀ p, p ∈ path → LeadsToCycle next p := by
  induction h with
  | root _ _ hleads => simpa using hleads
  | step _ _ _ hleads _ ih =>
      intro p hp
      rcases List.mem_cons.mp hp with rfl | hp
      · exact hleads
      · exact ih p hp

/-- The way starts at a root. -/
theorem exists_root (h : Way next roots path visited) : ∃ r, r ∈ roots ∧ LeadsToCycle next r := by
  induction h with
  | root hsplit _ hleads => exact ⟨_, by rw [hsplit]; simp, hleads⟩
  | step _ _ _ _ _ ih => exact ih

theorem not_leads (h : Way next roots path visited) :
    ∀ x, x ∈ visited → ¬LeadsToCycle next x := by
  induction h with
  | root _ hpassed _ => exact hpassed
  | step _ _ hpassed _ _ ih =>
      intro x hx
      rcases List.mem_append.mp hx with hx | hx
      · exact ih x hx
      · exact hpassed x hx

theorem nodup (h : Way next roots path visited) : path.Nodup := by
  induction h with
  | root => simp
  | step _ _ _ _ hnew ih => exact List.nodup_cons.mpr ⟨hnew, ih⟩

/-- A closed set with the roots has all nodes of the way. -/
theorem mem_of_closed {S : α → Prop} (hroots : ∀ r, r ∈ roots → S r)
    (hclosed : ∀ a, S a → ∀ b, b ∈ next a → S b) (h : Way next roots path visited) :
    (∀ p, p ∈ path → S p) ∧ ∀ x, x ∈ visited → S x := by
  induction h with
  | root hsplit =>
      constructor
      · intro p hp
        exact hroots p (by rw [List.mem_singleton.mp hp, hsplit]; simp)
      · exact fun x hx => hroots x (by rw [hsplit]; simp [hx])
  | @step path' visited' before after w c _ hsplit _ _ _ ih =>
      have hw : S w := ih.1 w (by simp)
      constructor
      · intro p hp
        rcases List.mem_cons.mp hp with rfl | hp
        · exact hclosed w hw p (by rw [hsplit]; simp)
        · exact ih.1 p hp
      · intro x hx
        rcases List.mem_append.mp hx with hx | hx
        · exact ih.2 x hx
        · exact hclosed w hw x (by rw [hsplit]; simp [hx])

/-- The way is determined by its length. -/
theorem unique {path' visited' : List α} (h : Way next roots path visited)
    (h' : Way next roots path' visited') (hlength : path.length = path'.length) :
    path = path' ∧ visited = visited' := by
  induction h generalizing path' visited' with
  | root hsplit hpassed hleads =>
      cases h' with
      | root hsplit' hpassed' hleads' =>
          rcases first_unique (hsplit.symm.trans hsplit') hleads hleads' hpassed hpassed' with
            ⟨rfl, rfl⟩
          exact ⟨rfl, rfl⟩
      | step => simp at hlength
  | step _ hsplit hpassed hleads _ ih =>
      cases h' with
      | root => simp at hlength
      | step hway' hsplit' hpassed' hleads' _ =>
          rcases ih hway' (by simpa using hlength) with ⟨heq, rfl⟩
          rcases List.cons.inj heq with ⟨rfl, rfl⟩
          rcases first_unique (hsplit.symm.trans hsplit') hleads hleads' hpassed hpassed' with
            ⟨rfl, rfl⟩
          exact ⟨rfl, rfl⟩

end Way

namespace FirstBackEdge

variable {u d : α} {path visited before : List α}

theorem leads (h : FirstBackEdge next roots u path visited before d) : LeadsToCycle next d :=
  h.way.leads d h.back

/-- The way does not go on after its end. -/
theorem length_le (h : FirstBackEdge next roots u path visited before d)
    {path' visited' : List α} (h' : Way next roots path' visited') :
    path'.length ≤ (u :: path).length := by
  induction h' with
  | root => simp
  | step hway hsplit hpassed hleads hnew ih =>
      apply Nat.lt_of_le_of_ne ih
      intro hlength
      rcases hway.unique h.way hlength with ⟨heq, -⟩
      rcases List.cons.inj heq with ⟨rfl, rfl⟩
      rcases h.split with ⟨after, hsplit'⟩
      rcases first_unique (hsplit.symm.trans hsplit') hleads h.leads hpassed h.passed with ⟨-, rfl⟩
      exact hnew h.back

/-- The end of the way to the first cycle is determined. -/
theorem unique (h : FirstBackEdge next roots u path visited before d) {u' d' : α}
    {path' visited' before' : List α}
    (h' : FirstBackEdge next roots u' path' visited' before' d') :
    u :: path = u' :: path' ∧ visited = visited' ∧ before = before' := by
  have hlength := Nat.le_antisymm (h'.length_le h.way) (h.length_le h'.way)
  rcases h.way.unique h'.way hlength with ⟨heq, hvisited⟩
  rcases List.cons.inj heq with ⟨rfl, rfl⟩
  rcases h.split with ⟨after, hsplit⟩
  rcases h'.split with ⟨after', hsplit'⟩
  rcases first_unique (hsplit.symm.trans hsplit') h.leads h'.leads h.passed h'.passed with
    ⟨hbefore, -⟩
  exact ⟨rfl, hvisited, hbefore⟩

end FirstBackEdge

end CycleSearch
