import QbsCore.Library.AssocMap
import QbsCore.Library.PostOrder
import Mathlib.Algebra.Group.Nat.Defs
import Mathlib.Data.Finset.Card
import Mathlib.Tactic.SplitIfs

/-!
# Priorities of products

Before a build the products get priorities: the traversal of the dependencies starts at the
products that no other product depends on, and a product gets the next lower priority after its
dependencies.  The leaves of the build graph are handed out by the priorities of their products.

Main results:

- Theorem {lit}`ProductPrioritySetter.apply_eq`: the priorities follow the traversal in
  post-order.
- Theorem {lit}`ProductPrioritySetter.apply_prioritized`: without cycles a product has a lower
  priority than its dependencies, and all priorities are different, as long as there are not more
  products than priorities.

Current gaps:

- None.
-/

namespace Qbs

/-- The products of a project with their dependencies, which are products of the project. -/
structure ProductGraph (Product : Type*) where
  allProducts : List Product
  dependencies : Product → List Product
  hasBuildData : Product → Bool
  nodup : allProducts.Nodup
  closed : ∀ p d, d ∈ dependencies p → p ∈ allProducts ∧ d ∈ allProducts

/-- The state while priorities are set: the next priority, the seen products in the order of their
addresses, and the priorities that have been set. -/
structure ProductPrioritySetter (Product : Type*) [LinearOrder Product] where
  priority : UInt32
  seenProducts : SortedSet Product
  buildPriorities : AssocMap Product UInt32

namespace ProductPrioritySetter

variable {Product : Type*} [LinearOrder Product] (g : ProductGraph Product)

/-- The priority of a product, zero if none has been set. -/
def buildPriority (s : ProductPrioritySetter Product) (p : Product) : UInt32 :=
  (s.buildPriorities.lookup p).getD 0

/-- Set the priority of a product, if it has build data. -/
def setBuildPriority (s : ProductPrioritySetter Product) (p : Product) :
    ProductPrioritySetter Product :=
  if !g.hasBuildData p then s
  else
    { s with
      priority := s.priority - 1
      buildPriorities := AList.insert p s.priority s.buildPriorities }

/-- Traverse the dependencies of a product that has not been seen. -/
def traverse : Nat → Product → ProductPrioritySetter Product → ProductPrioritySetter Product
  | 0, _, s => s
  | fuel + 1, p, s =>
      if p ∈ s.seenProducts then s
      else
        let entered := { s with seenProducts := insert p s.seenProducts }
        setBuildPriority g ((g.dependencies p).foldl (fun s d => traverse fuel d s) entered) p

/-- The products that no product depends on. -/
def rootProducts : SortedSet Product :=
  (SortedSet.ofList g.allProducts).subtract
    (SortedSet.ofList (g.allProducts.flatMap g.dependencies))

def maxPriority : UInt32 :=
  0xFFFFFFFF

/-- Nothing has been seen yet. -/
def start : ProductPrioritySetter Product :=
  ⟨maxPriority, ∅, ∅⟩

/-- Set the priorities of the products. -/
def apply : ProductPrioritySetter Product :=
  (rootProducts g).elems.foldl (fun s p => traverse g (g.allProducts.length + 1) p s) start

/-! ## The traversal -/

/-- The state after a traversal in post-order. -/
def ofPostOrder (t : PostOrder Product) : ProductPrioritySetter Product :=
  { t.order.foldl (setBuildPriority g) start with seenProducts := t.seen }

variable {g}

theorem setBuildPriority_ofPostOrder (t : PostOrder Product) (p : Product) :
    setBuildPriority g (ofPostOrder g t) p = ofPostOrder g (PostOrder.leave p t) := by
  unfold ofPostOrder PostOrder.leave setBuildPriority
  rw [List.foldl_append]
  cases h : g.hasBuildData p with
  | false => simp [h]
  | true => simp [h]

theorem traverse_ofPostOrder (fuel : Nat) (p : Product) (t : PostOrder Product) :
    traverse g fuel p (ofPostOrder g t) =
      ofPostOrder g (PostOrder.traverse g.dependencies fuel p t) := by
  induction fuel generalizing p t with
  | zero => rfl
  | succ fuel ih =>
      unfold traverse PostOrder.traverse
      have hseen : (ofPostOrder g t).seenProducts = t.seen := rfl
      rw [hseen]
      split_ifs with hp
      · rfl
      · rw [← setBuildPriority_ofPostOrder]
        have hfoldl : (g.dependencies p).foldl (fun s d => traverse g fuel d s)
            (ofPostOrder g (PostOrder.enter p t)) = ofPostOrder g ((g.dependencies p).foldl
              (fun t d => PostOrder.traverse g.dependencies fuel d t) (PostOrder.enter p t)) :=
          List.foldl_hom (ofPostOrder g) fun t d => ih d t
        rw [← hfoldl]
        rfl

/-- The priorities are set in post-order. -/
theorem apply_eq : apply g = ofPostOrder g
    (PostOrder.traverseAll g.dependencies (g.allProducts.length + 1) (rootProducts g).elems
      PostOrder.start) := by
  have hstart : (start : ProductPrioritySetter Product) = ofPostOrder g PostOrder.start := rfl
  unfold apply PostOrder.traverseAll
  rw [hstart]
  exact List.foldl_hom (ofPostOrder g) fun t p => traverse_ofPostOrder _ p t

/-- Setting priorities one after the other, for products with build data. -/
theorem lookup_foldl_setBuildPriority {order : List Product} (hnodup : order.Nodup)
    (hdata : ∀ p, p ∈ order → g.hasBuildData p = true) (s : ProductPrioritySetter Product)
    (p : Product) :
    (order.foldl (setBuildPriority g) s).buildPriorities.lookup p =
      if p ∈ order then some (s.priority - UInt32.ofNat (order.idxOf p))
      else s.buildPriorities.lookup p := by
  induction order generalizing s with
  | nil => simp
  | cons q order ih =>
      rcases List.nodup_cons.mp hnodup with ⟨hq, hnodup⟩
      have hset : setBuildPriority g s q = { s with
          priority := s.priority - 1
          buildPriorities := AList.insert q s.priority s.buildPriorities } := by
        unfold setBuildPriority
        rw [hdata q List.mem_cons_self]
        rfl
      rw [List.foldl_cons, ih hnodup (fun d hd => hdata d (List.mem_cons_of_mem q hd)), hset]
      by_cases hp : p = q
      · rw [hp, if_neg hq, if_pos List.mem_cons_self, List.idxOf_cons_self, AList.lookup_insert]
        simp
      · have hmem : p ∈ q :: order ↔ p ∈ order := by simp [hp]
        rw [AList.lookup_insert_ne hp]
        split_ifs with h h' h'
        · rw [List.idxOf_cons_ne order (Ne.symm hp)]
          have hsucc : UInt32.ofNat (order.idxOf p).succ = UInt32.ofNat (order.idxOf p) + 1 :=
            UInt32.ofNat_add (order.idxOf p) 1
          have hminus : s.priority - 1 - UInt32.ofNat (order.idxOf p) =
              s.priority - UInt32.ofNat (order.idxOf p).succ := by
            rw [hsucc]
            grind
          exact congrArg some hminus
        · exact absurd (hmem.mpr h) h'
        · exact absurd (hmem.mp h') h
        · rfl

/-- The priority at a place, as long as there are priorities left. -/
theorem toNat_maxPriority_sub {i : Nat} (hi : i < 2 ^ 32) :
    (maxPriority - UInt32.ofNat i).toNat = 2 ^ 32 - 1 - i := by
  unfold maxPriority
  rw [UInt32.toNat_sub, UInt32.toNat_ofNat']
  have hmax : (0xFFFFFFFF : UInt32).toNat = 2 ^ 32 - 1 := rfl
  rw [hmax]
  omega

/-! ## The order of the products -/

variable (g) in
/-- The products in the order in which they get their priorities. -/
def order : List Product :=
  (PostOrder.traverseAll g.dependencies (g.allProducts.length + 1) (rootProducts g).elems
    PostOrder.start).order

theorem closed_ofList (p : Product) (_ : p ∈ SortedSet.ofList g.allProducts) (d : Product)
    (hd : d ∈ g.dependencies p) : d ∈ SortedSet.ofList g.allProducts :=
  SortedSet.mem_ofList.mpr (g.closed p d hd).2

variable {p : Product}

theorem mem_rootProducts_iff :
    p ∈ rootProducts g ↔ p ∈ g.allProducts ∧ ∀ q, p ∉ g.dependencies q := by
  unfold rootProducts
  rw [SortedSet.mem_subtract, SortedSet.mem_ofList, SortedSet.mem_ofList, List.mem_flatMap]
  constructor
  · rintro ⟨hp, hdep⟩
    exact ⟨hp, fun q hq => hdep ⟨q, (g.closed q p hq).1, hq⟩⟩
  · rintro ⟨hp, hdep⟩
    exact ⟨hp, fun ⟨q, _, hq⟩ => hdep q hq⟩

theorem rootProducts_subset (p : Product) (hp : p ∈ (rootProducts g).elems) :
    p ∈ SortedSet.ofList g.allProducts :=
  SortedSet.mem_ofList.mpr (mem_rootProducts_iff.mp hp).1

theorem size_lt : (SortedSet.ofList g.allProducts).size < g.allProducts.length + 1 := by
  have hsub : (SortedSet.ofList g.allProducts).elems.Subperm g.allProducts :=
    List.subperm_of_subset (SortedSet.nodup _) fun p hp => SortedSet.mem_ofList.mp hp
  exact Nat.lt_succ_of_le hsub.length_le

theorem order_nodup : (order g).Nodup :=
  PostOrder.order_nodup closed_ofList rootProducts_subset size_lt

/-- Without cycles the traversal comes across all products. -/
theorem mem_order_iff (hacyclic : GraphSearch.Acyclic (PostOrder.Edge g.dependencies)) :
    p ∈ order g ↔ p ∈ g.allProducts := by
  unfold order
  rw [PostOrder.mem_order_iff closed_ofList rootProducts_subset size_lt]
  constructor
  · rintro ⟨r, hr, hpath⟩
    rcases Relation.ReflTransGen.cases_tail hpath with rfl | ⟨q, -, hq⟩
    · exact (mem_rootProducts_iff.mp hr).1
    · exact (g.closed q p hq).2
  · intro hp
    have hsource : ∀ a b, PostOrder.Edge g.dependencies a b → a ∈ SortedSet.ofList g.allProducts :=
      fun a b hab => SortedSet.mem_ofList.mpr (g.closed a b hab).1
    rcases PostOrder.exists_root hacyclic hsource p with ⟨root, hroot, hpath⟩
    refine ⟨root, mem_rootProducts_iff.mpr ⟨?_, hroot⟩, hpath⟩
    rcases Relation.ReflTransGen.cases_head hpath with rfl | ⟨b, hb, -⟩
    · exact hp
    · exact (g.closed root b hb).1

theorem length_order_le (hacyclic : GraphSearch.Acyclic (PostOrder.Edge g.dependencies)) :
    (order g).length ≤ g.allProducts.length := by
  have hsub : (order g).Subperm g.allProducts :=
    List.subperm_of_subset order_nodup fun p hp => (mem_order_iff hacyclic).mp hp
  exact hsub.length_le

/-- Without cycles a dependency comes first. -/
theorem idxOf_dependency_lt (hacyclic : GraphSearch.Acyclic (PostOrder.Edge g.dependencies))
    {d : Product} (hd : d ∈ g.dependencies p) :
    (order g).idxOf d < (order g).idxOf p := by
  have hpairwise : (order g).Pairwise fun a b => b ∉ g.dependencies a :=
    PostOrder.order_pairwise closed_ofList rootProducts_subset size_lt hacyclic
  have hp : (order g).idxOf p < (order g).length :=
    List.idxOf_lt_length_iff.mpr ((mem_order_iff hacyclic).mpr (g.closed p d hd).1)
  have hd' : (order g).idxOf d < (order g).length :=
    List.idxOf_lt_length_iff.mpr ((mem_order_iff hacyclic).mpr (g.closed p d hd).2)
  by_contra hle
  rcases Nat.lt_or_eq_of_le (Nat.le_of_not_lt hle) with hlt | heq
  · have hnot := List.pairwise_iff_getElem.mp hpairwise _ _ hp hd' hlt
    rw [List.getElem_idxOf hp, List.getElem_idxOf hd'] at hnot
    exact hnot hd
  · have hsame : p = d :=
      (List.idxOf_inj ((mem_order_iff hacyclic).mpr (g.closed p d hd).1)).mp heq
    rw [hsame] at hd
    exact hacyclic d (Relation.TransGen.single hd)

/-! ## Priorities -/

/-- One leaf comes after another one in the queue. -/
def comparePriority {Node : Type} (s : ProductPrioritySetter Product) (productOf : Node → Product)
    (x y : Node) : Prop :=
  s.buildPriority (productOf x) < s.buildPriority (productOf y)

/-- A leaf is at the top of the queue: it comes after no other one. -/
def IsTop {Node : Type} (s : ProductPrioritySetter Product) (productOf : Node → Product)
    (leaves : List Node) (x : Node) : Prop :=
  x ∈ leaves ∧ ∀ y, y ∈ leaves → ¬s.comparePriority productOf x y

/-- All products have different priorities, those of dependencies are higher, and no leaf is handed
out before one of a product that its own depends on. -/
structure Prioritized (g : ProductGraph Product) (s : ProductPrioritySetter Product) : Prop where
  assigned : ∀ p, p ∈ g.allProducts → (s.buildPriorities.lookup p).isSome = true
  distinct : ∀ p q, p ∈ g.allProducts → q ∈ g.allProducts →
    s.buildPriority p = s.buildPriority q → p = q
  dependency : ∀ p d, d ∈ g.dependencies p → s.buildPriority p < s.buildPriority d
  leaves : ∀ (Node : Type) (productOf : Node → Product) (leaves : List Node) x,
    s.IsTop productOf leaves x → ∀ y, y ∈ leaves →
      ¬Relation.TransGen (PostOrder.Edge g.dependencies) (productOf x) (productOf y)

theorem lookup_apply (hacyclic : GraphSearch.Acyclic (PostOrder.Edge g.dependencies))
    (hdata : ∀ p, p ∈ g.allProducts → g.hasBuildData p = true) (hp : p ∈ g.allProducts) :
    (apply g).buildPriorities.lookup p =
      some (maxPriority - UInt32.ofNat ((order g).idxOf p)) := by
  have hmem : ∀ q, q ∈ order g → g.hasBuildData q = true :=
    fun q hq => hdata q ((mem_order_iff hacyclic).mp hq)
  have hlookup := lookup_foldl_setBuildPriority order_nodup hmem start p
  rw [if_pos ((mem_order_iff hacyclic).mpr hp)] at hlookup
  rw [apply_eq]
  exact hlookup

theorem toNat_buildPriority_apply (hacyclic : GraphSearch.Acyclic (PostOrder.Edge g.dependencies))
    (hdata : ∀ p, p ∈ g.allProducts → g.hasBuildData p = true)
    (hcount : g.allProducts.length ≤ 2 ^ 32) (hp : p ∈ g.allProducts) :
    ((apply g).buildPriority p).toNat = 2 ^ 32 - 1 - (order g).idxOf p := by
  have hidx : (order g).idxOf p < (order g).length :=
    List.idxOf_lt_length_iff.mpr ((mem_order_iff hacyclic).mpr hp)
  have hlength := length_order_le hacyclic
  unfold buildPriority
  rw [lookup_apply hacyclic hdata hp]
  exact toNat_maxPriority_sub (by omega)

/-- Without cycles the priorities of products are right, if there are enough of them. -/
theorem apply_prioritized (g : ProductGraph Product)
    (hacyclic : GraphSearch.Acyclic (PostOrder.Edge g.dependencies))
    (hdata : ∀ p, p ∈ g.allProducts → g.hasBuildData p = true)
    (hcount : g.allProducts.length ≤ 2 ^ 32) : Prioritized g (apply g) := by
  have hpriority : ∀ p, p ∈ g.allProducts →
      ((apply g).buildPriority p).toNat = 2 ^ 32 - 1 - (order g).idxOf p :=
    fun p hp => toNat_buildPriority_apply hacyclic hdata hcount hp
  have hlength := length_order_le hacyclic
  have hidx : ∀ p, p ∈ g.allProducts → (order g).idxOf p < (order g).length :=
    fun p hp => List.idxOf_lt_length_iff.mpr ((mem_order_iff hacyclic).mpr hp)
  have hdependency : ∀ p d, d ∈ g.dependencies p →
      (apply g).buildPriority p < (apply g).buildPriority d := by
    intro p d hd
    have hlt := idxOf_dependency_lt hacyclic hd
    have hp := hidx p (g.closed p d hd).1
    rw [UInt32.lt_iff_toNat_lt, hpriority p (g.closed p d hd).1, hpriority d (g.closed p d hd).2]
    omega
  refine ⟨fun p hp => ?_, fun p q hp hq heq => ?_, hdependency, ?_⟩
  · rw [lookup_apply hacyclic hdata hp]
    rfl
  · have hnat := congrArg UInt32.toNat heq
    rw [hpriority p hp, hpriority q hq] at hnat
    have hpidx := hidx p hp
    have hqidx := hidx q hq
    exact (List.idxOf_inj ((mem_order_iff hacyclic).mpr hp)).mp (by omega)
  · intro Node productOf leaves x htop y hy hdeps
    have hbelow : ∀ p d, Relation.TransGen (PostOrder.Edge g.dependencies) p d →
        (apply g).buildPriority p < (apply g).buildPriority d := by
      intro p d hpath
      induction hpath with
      | single hd => exact hdependency _ _ hd
      | tail _ hd ih => exact UInt32.lt_trans ih (hdependency _ _ hd)
    exact htop.2 y hy (hbelow _ _ hdeps)

/-! ## Examples -/

/-- An application, its library and a library that both use. -/
def sampleGraph : ProductGraph Nat where
  allProducts := [2, 0, 1]
  dependencies := fun p => if p = 0 then [1, 2] else if p = 1 then [2] else []
  hasBuildData := fun _ => true
  nodup := by decide
  closed := by
    intro p d hd
    split_ifs at hd
    · simp_all
      omega
    · simp_all
    · simp_all

theorem sampleGraph_acyclic : GraphSearch.Acyclic (PostOrder.Edge sampleGraph.dependencies) := by
  have hlt : ∀ p d, Relation.TransGen (PostOrder.Edge sampleGraph.dependencies) p d → p < d := by
    intro p d hpath
    have hedge : ∀ p d, PostOrder.Edge sampleGraph.dependencies p d → p < d := by
      intro p d hd
      unfold PostOrder.Edge sampleGraph at hd
      dsimp only at hd
      split_ifs at hd
      · simp_all
        omega
      · simp_all
      · simp_all
    induction hpath with
    | single hd => exact hedge _ _ hd
    | tail _ hd ih => exact Nat.lt_trans ih (hedge _ _ hd)
  exact fun p hp => Nat.lt_irrefl p (hlt p p hp)

theorem apply_prioritized_sampleGraph :
    Prioritized sampleGraph (apply sampleGraph) :=
  apply_prioritized sampleGraph sampleGraph_acyclic (fun _ _ => rfl) (by decide)

example : [0, 1, 2].map (apply sampleGraph).buildPriority =
    [0xFFFFFFFD, 0xFFFFFFFE, 0xFFFFFFFF] := by
  decide

/-- Products that do not depend on each other. -/
def unrelatedProducts (count : Nat) : ProductGraph Nat where
  allProducts := List.range count
  dependencies := fun _ => []
  hasBuildData := fun _ => true
  nodup := List.nodup_range
  closed := fun _ _ hd => absurd hd List.not_mem_nil

/-- Different priorities are enough for so many products only. -/
theorem count_le_of_prioritized {count : Nat} {s : ProductPrioritySetter Nat}
    (h : Prioritized (unrelatedProducts count) s) : count ≤ 2 ^ 32 := by
  have hcard : (Finset.range count).card ≤ (Finset.range (2 ^ 32)).card := by
    apply Finset.card_le_card_of_injOn fun p => (s.buildPriority p).toNat
    · intro p _
      exact Finset.mem_coe.mpr (Finset.mem_range.mpr (UInt32.toNat_lt _))
    · intro p hp q hq heq
      have hp' : p ∈ (unrelatedProducts count).allProducts :=
        List.mem_range.mpr (Finset.mem_range.mp (Finset.mem_coe.mp hp))
      have hq' : q ∈ (unrelatedProducts count).allProducts :=
        List.mem_range.mpr (Finset.mem_range.mp (Finset.mem_coe.mp hq))
      exact h.distinct p q hp' hq' (UInt32.toNat_inj.mp heq)
  rw [Finset.card_range, Finset.card_range] at hcard
  exact hcard

/-- There are not enough priorities for one more product. -/
theorem unrelatedProducts_not_prioritized :
    ¬∀ g : ProductGraph Nat, GraphSearch.Acyclic (PostOrder.Edge g.dependencies) →
      (∀ p, p ∈ g.allProducts → g.hasBuildData p = true) → Prioritized g (apply g) := by
  intro h
  have hacyclic : GraphSearch.Acyclic
      (PostOrder.Edge (unrelatedProducts (2 ^ 32 + 1)).dependencies) := by
    intro p hp
    rcases Relation.TransGen.head'_iff.mp hp with ⟨d, hd, -⟩
    exact absurd hd List.not_mem_nil
  have hcount := count_le_of_prioritized (h _ hacyclic fun _ _ => rfl)
  omega

end ProductPrioritySetter

end Qbs
