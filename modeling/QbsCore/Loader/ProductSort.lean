import QbsCore.Tools.Error
import QbsCore.Library.AssocMap
import QbsCore.Library.PostOrder

/-!
# Sorting products by their dependencies

The products of all projects are put into an order in which they can be handled: the
traversal starts at the products that no other product depends on, and a search for a
cycle follows only if the traversal has not come across all products.

Main results:

- Theorems {lit}`ProductSortByDependencies.apply_of_behindRoot` and
  {lit}`ProductSortByDependencies.apply_of_not_behindRoot`: the outcome depends on whether
  all products are behind a root.
- Theorem {lit}`ProductSortByDependencies.findCycle_ok`: a search that ends without an
  error has come across no cycle.
- Theorem {lit}`ProductSortByDependencies.sorted_iff`: products are sorted or a cycle is
  reported unless there is a cycle and all products are behind a root.

Current gaps:

- The locations in errors are left out.
-/

namespace Qbs

/-- The address of a product context. -/
abbrev ProductAddr := Nat

/-- A dependency on a product; the profile {lit}`*` stands for all products of the name. -/
structure Dependency where
  name : String
  profile : String
  multiplexConfigurationId : String
deriving DecidableEq

/-- A product that is being loaded. -/
structure ProductContext where
  addr : ProductAddr
  name : String
  multiplexConfigurationId : String
  usedProducts : List Dependency
deriving DecidableEq

/-- The products of all projects; each has its own address. -/
structure TopLevelProjectContext where
  projects : List (List ProductContext)
  distinct : (projects.flatten.map ProductContext.addr).Nodup

namespace TopLevelProjectContext

variable (tlp : TopLevelProjectContext)

/-- All products. -/
def allProducts : List ProductContext :=
  tlp.projects.flatten

/-- The addresses of all products. -/
def addrs : List ProductAddr :=
  tlp.allProducts.map ProductContext.addr

/-- The name of the product with an address. -/
def nameOf (a : ProductAddr) : String :=
  ((tlp.allProducts.find? fun p => p.addr = a).map ProductContext.name).getD ""

end TopLevelProjectContext

/-- The name of a product together with its multiplex configuration. -/
def fullDisplayName (multiplexIdToString : String → String) (name id : String) : String :=
  if id = "" then name else name ++ " " ++ multiplexIdToString id

namespace ProductSortByDependencies

/-- The dependencies of all products, and all products that are one. -/
structure DependencyState where
  dependencyMap : AssocMap ProductAddr (List ProductAddr)
  allDependencies : SortedSet ProductAddr

section Algorithm

variable (multiplexIdToString : String → String) (allProducts : List ProductContext)

/-- The products with a name. -/
def productsMap (name : String) : List ProductContext :=
  allProducts.filter fun p => p.name = name

/-- The products that fulfil a dependency. -/
def resolve (product : ProductContext) (dep : Dependency) : Except ErrorInfo (List ProductAddr) := do
  qbsCheck (dep.name ≠ "") "!dep.name.isEmpty()"
  let deps := productsMap allProducts dep.name
  if dep.profile = "*" then
    qbsCheck (!deps.isEmpty) "!deps.empty()"
    return (deps.filter fun p => p.addr ≠ product.addr).map ProductContext.addr
  else
    match deps.find? fun p => p.multiplexConfigurationId = dep.multiplexConfigurationId with
    | some p => return [p.addr]
    | none =>
        qbsCheck (product.multiplexConfigurationId ≠ "")
          "!productContext->multiplexConfigurationId.isEmpty()"
        let productName :=
          fullDisplayName multiplexIdToString product.name product.multiplexConfigurationId
        let depName := fullDisplayName multiplexIdToString dep.name dep.multiplexConfigurationId
        throw (.message
          s!"Dependency from product '{productName}' to product '{depName}' not fulfilled.")

/-- The dependencies of a product, in the order in which it lists them. -/
def productDependencies (product : ProductContext) : Except ErrorInfo (List ProductAddr) :=
  product.usedProducts.foldlM
    (fun acc dep => return acc ++ (← resolve multiplexIdToString allProducts product dep)) []

/-- Note down the dependencies of one product. -/
def noteDependencies (s : DependencyState) (product : ProductContext) :
    Except ErrorInfo DependencyState := do
  let deps ← productDependencies multiplexIdToString allProducts product
  return {
    dependencyMap := s.dependencyMap.insert product.addr deps
    allDependencies := s.allDependencies.unite (SortedSet.ofList deps) }

end Algorithm

/-- The noted dependencies of a product. -/
def DependencyState.value (s : DependencyState) (p : ProductAddr) : List ProductAddr :=
  (s.dependencyMap.lookup p).getD []

/-- The error for a path that has come back to one of its products. -/
def cycleError (nameOf : ProductAddr → String) (path : List ProductAddr) (product : ProductAddr) :
    ErrorInfo :=
  .ofItems ("Cyclic dependencies detected." :: (path ++ [product]).map nameOf)

/-- Follow all dependencies of a product until a path comes back to one of its products. -/
def findCycle (next : ProductAddr → List ProductAddr) (nameOf : ProductAddr → String) :
    Nat → ProductAddr → List ProductAddr → Except ErrorInfo Unit
  | 0, _, _ => .error .outOfFuel
  | fuel + 1, product, path =>
      if product ∈ path then .error (cycleError nameOf path product)
      else (next product).forM fun dep => findCycle next nameOf fuel dep (path ++ [product])

/-- Traverse the products behind those that no product depends on. -/
def traverseRoots (tlp : TopLevelProjectContext) (s : DependencyState) : List ProductAddr :=
  let rootProducts := (SortedSet.ofList tlp.addrs).subtract s.allDependencies
  (PostOrder.traverseAll s.value (tlp.addrs.length + 1) rootProducts.elems PostOrder.start).order

/-- Sort the products; the result lists each product after its dependencies. -/
def apply (multiplexIdToString : String → String) (tlp : TopLevelProjectContext) :
    Except ErrorInfo (List ProductAddr) := do
  let s ← tlp.allProducts.foldlM (noteDependencies multiplexIdToString tlp.allProducts) ⟨∅, ∅⟩
  let sortedProducts := traverseRoots tlp s
  if sortedProducts.length < tlp.addrs.length then
    tlp.addrs.forM fun product =>
      findCycle s.value tlp.nameOf (tlp.addrs.length + 1) product []
  qbsCheck (sortedProducts.length = tlp.addrs.length)
    "m_sortedProducts.size() == allProducts.size()"
  return sortedProducts

/-! ## The search for a cycle -/

section FindCycle

variable {next : ProductAddr → List ProductAddr} {nameOf : ProductAddr → String}
  {path : List ProductAddr}

variable {a : ProductAddr}

/-- A search that ends without an error has also ended so at each successor. -/
theorem findCycle_ok_next {fuel : Nat} (h : findCycle next nameOf fuel a path = .ok ()) :
    ∀ b, b ∈ next a → ∃ fuel', findCycle next nameOf fuel' b (path ++ [a]) = .ok () := by
  cases fuel with
  | zero => cases h
  | succ fuel =>
      simp only [findCycle] at h
      split at h
      · cases h
      · intro b hb
        exact ⟨fuel, Fallible.forM_eq_ok_iff.mp h b hb⟩

/-- A search that ends without an error has also ended so behind its start. -/
theorem findCycle_ok_of_path {b : ProductAddr} (hpath : Relation.TransGen (PostOrder.Edge next) a b)
    {fuel : Nat} (h : findCycle next nameOf fuel a path = .ok ()) :
    ∃ fuel' path', findCycle next nameOf fuel' b path' = .ok () ∧ a ∈ path' := by
  induction hpath with
  | single hab =>
      rcases findCycle_ok_next h _ hab with ⟨fuel', hb⟩
      exact ⟨fuel', _, hb, by simp⟩
  | tail _ hbc ih =>
      rcases ih with ⟨fuel', path', hb, ha⟩
      rcases findCycle_ok_next hb _ hbc with ⟨fuel'', hc⟩
      exact ⟨fuel'', _, hc, List.mem_append_left _ ha⟩

/-- A search that ends without an error has come across no cycle. -/
theorem findCycle_ok {fuel : Nat} {path : List ProductAddr}
    (h : findCycle next nameOf fuel a path = .ok ()) :
    ¬Relation.TransGen (PostOrder.Edge next) a a := by
  intro hcycle
  rcases findCycle_ok_of_path hcycle h with ⟨fuel', path', hok, ha⟩
  cases fuel' with
  | zero => cases hok
  | succ fuel' =>
      simp only [findCycle, if_pos ha] at hok
      cases hok

/-- A path never has more products than there are, so the search is never cut off. -/
theorem findCycle_ne_outOfFuel {nodes : SortedSet ProductAddr}
    (hnodes : ∀ a, a ∈ nodes → ∀ b, b ∈ next a → b ∈ nodes) {fuel : Nat} (ha : a ∈ nodes)
    (hpath : ∀ b, b ∈ path → b ∈ nodes) (hnodup : path.Nodup)
    (hfuel : fuel + path.length = nodes.size + 1) :
    findCycle next nameOf fuel a path ≠ .error .outOfFuel := by
  induction fuel generalizing a path with
  | zero =>
      have hle : path.length ≤ nodes.size := (List.subperm_of_subset hnodup hpath).length_le
      omega
  | succ fuel ih =>
      intro h
      simp only [findCycle] at h
      split at h <;> rename_i hmem
      · cases h
      · rcases Fallible.forM_eq_error h with ⟨b, hb, herror⟩
        refine ih (hnodes a ha b hb) ?_ ?_ ?_ herror
        · intro c hc
          rcases List.mem_append.mp hc with hc | hc
          · exact hpath c hc
          · rw [List.mem_singleton.mp hc]
            exact ha
        · refine List.nodup_append.mpr ⟨hnodup, by simp, ?_⟩
          rintro c hc d hd rfl
          exact hmem (List.mem_singleton.mp hd ▸ hc)
        · simp only [List.length_append, List.length_singleton]
          omega

end FindCycle

end ProductSortByDependencies

/-! ## The dependency relation -/

namespace TopLevelProjectContext

variable (tlp : TopLevelProjectContext)

/-- A product fulfils a dependency of another. -/
def Fulfils (product : ProductContext) (dep : Dependency) (q : ProductContext) : Prop :=
  if dep.profile = "*" then q ∈ tlp.allProducts ∧ q.name = dep.name ∧ q.addr ≠ product.addr
  else (tlp.allProducts.find? fun q => q.name = dep.name &&
    q.multiplexConfigurationId = dep.multiplexConfigurationId) = some q

/-- One product depends on another. -/
def DependsOn (a b : ProductAddr) : Prop :=
  ∃ p, p ∈ tlp.allProducts ∧ p.addr = a ∧
    ∃ dep, dep ∈ p.usedProducts ∧ ∃ q, tlp.Fulfils p dep q ∧ q.addr = b

/-- Every dependency names a product that exists. -/
def Resolvable : Prop :=
  ∀ p, p ∈ tlp.allProducts → ∀ dep, dep ∈ p.usedProducts → dep.name ≠ "" ∧
    ∃ q, q ∈ tlp.allProducts ∧ q.name = dep.name ∧
      (dep.profile = "*" ∨ q.multiplexConfigurationId = dep.multiplexConfigurationId)

/-- A product that no product depends on. -/
def IsRoot (a : ProductAddr) : Prop :=
  a ∈ tlp.addrs ∧ ∀ b, ¬tlp.DependsOn b a

/-- A product that a root depends on, directly or through others, or that is a root. -/
def BehindRoot (a : ProductAddr) : Prop :=
  ∃ r, tlp.IsRoot r ∧ Relation.ReflTransGen tlp.DependsOn r a

/-- The dependencies have no cycle. -/
def Acyclic : Prop :=
  GraphSearch.Acyclic tlp.DependsOn

end TopLevelProjectContext

namespace ProductSortByDependencies

variable {tlp : TopLevelProjectContext} (multiplexIdToString : String → String)

variable {p : ProductContext}

/-- A dependency on an existing product is resolved to the products that fulfil it. -/
theorem resolve_spec {p : ProductContext} {dep : Dependency} (hname : dep.name ≠ "")
    (hdep : ∃ q, q ∈ tlp.allProducts ∧ q.name = dep.name ∧
      (dep.profile = "*" ∨ q.multiplexConfigurationId = dep.multiplexConfigurationId)) :
    ∃ l, resolve multiplexIdToString tlp.allProducts p dep = .ok l ∧
      ∀ b, b ∈ l ↔ ∃ q, tlp.Fulfils p dep q ∧ q.addr = b := by
  rcases hdep with ⟨q₀, hq₀, hname₀, hkind⟩
  have hcheck : qbsCheck (dep.name ≠ "") "!dep.name.isEmpty()" = .ok () := by simpa using hname
  have hmem : q₀ ∈ productsMap tlp.allProducts dep.name := by simp [productsMap, hq₀, hname₀]
  by_cases hstar : dep.profile = "*"
  · have hdeps : qbsCheck (!(productsMap tlp.allProducts dep.name).isEmpty) "!deps.empty()"
        = .ok () := by
      rw [qbsCheck_eq_ok_iff, Bool.not_eq_true', List.isEmpty_eq_false_iff]
      exact List.ne_nil_of_mem hmem
    refine ⟨((productsMap tlp.allProducts dep.name).filter fun q => q.addr ≠ p.addr).map
      ProductContext.addr, ?_, ?_⟩
    · simp only [resolve, hcheck, hstar, if_true, hdeps]
      rfl
    · intro b
      simp only [productsMap, TopLevelProjectContext.Fulfils, hstar, if_true, List.mem_map,
        List.mem_filter, decide_eq_true_eq, and_assoc]
  · have hid := hkind.resolve_left hstar
    have hfind : (productsMap tlp.allProducts dep.name).find?
        (fun q => q.multiplexConfigurationId = dep.multiplexConfigurationId) =
        tlp.allProducts.find? fun q => q.name = dep.name &&
          q.multiplexConfigurationId = dep.multiplexConfigurationId := by
      simp [productsMap]
    cases hq : tlp.allProducts.find? fun q => q.name = dep.name &&
        q.multiplexConfigurationId = dep.multiplexConfigurationId with
    | none =>
        have hnot := List.find?_eq_none.mp hq q₀ hq₀
        simp [hname₀, hid] at hnot
    | some q =>
        refine ⟨[q.addr], ?_, ?_⟩
        · simp only [resolve, hcheck, hstar, if_false, hfind, hq]
          rfl
        · intro b
          simp only [TopLevelProjectContext.Fulfils, hstar, if_false, hq, List.mem_singleton,
            Option.some.injEq, exists_eq_left']
          exact eq_comm

/-- A product has a dependency that another product fulfils. -/
def NeedsAddr (tlp : TopLevelProjectContext) (p : ProductContext) (b : ProductAddr) : Prop :=
  ∃ dep, dep ∈ p.usedProducts ∧ ∃ q, tlp.Fulfils p dep q ∧ q.addr = b

/-- All dependencies of a product are resolved when each can be. -/
theorem productDependencies_spec (hres : tlp.Resolvable) (hp : p ∈ tlp.allProducts) :
    ∃ l, productDependencies multiplexIdToString tlp.allProducts p = .ok l ∧
      ∀ b, b ∈ l ↔ NeedsAddr tlp p b := by
  have hloop : ∀ deps : List Dependency, (∀ dep, dep ∈ deps → dep ∈ p.usedProducts) →
      ∀ acc : List ProductAddr, ∃ l,
        deps.foldlM (fun acc dep =>
          return acc ++ (← resolve multiplexIdToString tlp.allProducts p dep)) acc = .ok l ∧
        ∀ b, b ∈ l ↔ b ∈ acc ∨ ∃ dep, dep ∈ deps ∧ ∃ q, tlp.Fulfils p dep q ∧ q.addr = b := by
    intro deps
    induction deps with
    | nil => exact fun _ acc => ⟨acc, rfl, by simp⟩
    | cons dep deps ih =>
        intro hdeps acc
        rcases hres p hp dep (hdeps dep (by simp)) with ⟨hname, hdep⟩
        rcases resolve_spec multiplexIdToString (p := p) hname hdep
          with ⟨l, hl, hmem⟩
        rcases ih (fun d hd => hdeps d (List.mem_cons_of_mem _ hd)) (acc ++ l) with ⟨l', hl', hmem'⟩
        refine ⟨l', ?_, ?_⟩
        · rw [List.foldlM_cons, hl]
          exact hl'
        · intro b
          rw [hmem', List.mem_append, hmem]
          simp only [List.mem_cons, exists_eq_or_imp, or_assoc]
  rcases hloop p.usedProducts (fun _ h => h) [] with ⟨l, hl, hmem⟩
  exact ⟨l, hl, by simpa [NeedsAddr] using hmem⟩

/-- What the loop has noted down when it has come across some of the products. -/
structure Noted (tlp : TopLevelProjectContext) (products : List ProductContext)
    (s : DependencyState) : Prop where
  mem_value : ∀ a b, b ∈ s.value a ↔ ∃ p, p ∈ products ∧ p.addr = a ∧ NeedsAddr tlp p b
  mem_all : ∀ b, b ∈ s.allDependencies ↔ ∃ p, p ∈ products ∧ NeedsAddr tlp p b

variable {s : DependencyState}

/-- One more product is noted down. -/
theorem Noted.snoc {products : List ProductContext} {l : List ProductAddr}
    (h : Noted tlp products s) (hp : ∀ q, q ∈ products → q.addr ≠ p.addr)
    (hl : ∀ b, b ∈ l ↔ NeedsAddr tlp p b) :
    Noted tlp (products ++ [p]) ⟨s.dependencyMap.insert p.addr l,
      s.allDependencies.unite (SortedSet.ofList l)⟩ := by
  constructor
  · intro a b
    by_cases ha : a = p.addr
    · subst ha
      simp only [DependencyState.value, AList.lookup_insert, Option.getD_some, hl]
      constructor
      · exact fun hb => ⟨p, by simp, rfl, hb⟩
      · rintro ⟨q, hq, hEq, hb⟩
        rcases List.mem_append.mp hq with hq | hq
        · exact absurd hEq (hp q hq)
        · rwa [List.mem_singleton.mp hq] at hb
    · have hvalue := h.mem_value a b
      simp only [DependencyState.value] at hvalue ⊢
      rw [AList.lookup_insert_ne ha, hvalue]
      constructor
      · rintro ⟨q, hq, hEq, hb⟩
        exact ⟨q, List.mem_append_left _ hq, hEq, hb⟩
      · rintro ⟨q, hq, hEq, hb⟩
        rcases List.mem_append.mp hq with hq | hq
        · exact ⟨q, hq, hEq, hb⟩
        · exact absurd hEq.symm (List.mem_singleton.mp hq ▸ ha)
  · intro b
    rw [SortedSet.mem_unite, h.mem_all, SortedSet.mem_ofList, hl]
    simp only [List.mem_append, List.mem_singleton, or_and_right, exists_or, exists_eq_left]

/-- The loop over all products notes down their dependencies. -/
theorem foldlM_noteDependencies (hres : tlp.Resolvable) :
    ∃ s, tlp.allProducts.foldlM (noteDependencies multiplexIdToString tlp.allProducts) ⟨∅, ∅⟩
      = .ok s ∧ Noted tlp tlp.allProducts s := by
  have hloop : ∀ todo done s, tlp.allProducts = done ++ todo → Noted tlp done s →
      ∃ s', todo.foldlM (noteDependencies multiplexIdToString tlp.allProducts) s = .ok s' ∧
        Noted tlp tlp.allProducts s' := by
    intro todo
    induction todo with
    | nil =>
        intro done s hall hs
        rw [List.append_nil] at hall
        exact ⟨s, rfl, hall ▸ hs⟩
    | cons p todo ih =>
        intro done s hall hs
        have hp : p ∈ tlp.allProducts := by simp [hall]
        rcases productDependencies_spec multiplexIdToString hres hp
          with ⟨l, hl, hmem⟩
        have hstep : noteDependencies multiplexIdToString tlp.allProducts s p = .ok
            ⟨s.dependencyMap.insert p.addr l, s.allDependencies.unite (SortedSet.ofList l)⟩ := by
          simp only [noteDependencies, hl]
          rfl
        have hnew : ∀ q, q ∈ done → q.addr ≠ p.addr := by
          have hdistinct := tlp.distinct
          change (tlp.allProducts.map ProductContext.addr).Nodup at hdistinct
          rw [hall, List.map_append, List.nodup_append] at hdistinct
          intro q hq
          exact hdistinct.2.2 q.addr (List.mem_map_of_mem hq) p.addr (by simp)
        rw [List.foldlM_cons, hstep]
        exact ih (done ++ [p]) _ (by simp [hall]) (hs.snoc hnew hmem)
  exact hloop tlp.allProducts [] ⟨∅, ∅⟩ rfl ⟨by simp [DependencyState.value], by simp⟩

/-! ## The outcome -/

/-- The noted dependencies are the edges of the dependency relation. -/
theorem Noted.edge_iff (h : Noted tlp tlp.allProducts s) (a b : ProductAddr) :
    PostOrder.Edge s.value a b ↔ tlp.DependsOn a b :=
  h.mem_value a b

theorem Noted.edge_eq (h : Noted tlp tlp.allProducts s) :
    PostOrder.Edge s.value = tlp.DependsOn :=
  funext fun a => funext fun b => propext (h.edge_iff a b)

theorem Noted.mem_all_iff (h : Noted tlp tlp.allProducts s) (b : ProductAddr) :
    b ∈ s.allDependencies ↔ ∃ a, tlp.DependsOn a b := by
  rw [h.mem_all]
  constructor
  · rintro ⟨p, hp, hb⟩
    exact ⟨p.addr, p, hp, rfl, hb⟩
  · rintro ⟨a, p, hp, -, hb⟩
    exact ⟨p, hp, hb⟩

theorem dependsOn_addrs {a b : ProductAddr} (h : tlp.DependsOn a b) :
    a ∈ tlp.addrs ∧ b ∈ tlp.addrs := by
  rcases h with ⟨p, hp, rfl, dep, -, q, hq, rfl⟩
  refine ⟨List.mem_map_of_mem hp, List.mem_map_of_mem ?_⟩
  unfold TopLevelProjectContext.Fulfils at hq
  split at hq
  · exact hq.1
  · exact List.mem_of_find?_eq_some hq

/-- Either a cycle is reported, or each product is listed once and none before a product it
depends on. -/
structure SortedOrCyclic (tlp : TopLevelProjectContext)
    (result : Except ErrorInfo (List ProductAddr)) : Prop where
  throws_iff : (∃ e, result = .error e ∧ e ≠ .outOfFuel) ↔ ¬tlp.Acyclic
  sorted : tlp.Acyclic → ∃ l, result = .ok l ∧ l.Perm tlp.addrs ∧
    l.Pairwise fun a b => ¬tlp.DependsOn a b

section Outcome

variable {s : DependencyState} {a : ProductAddr}

theorem mem_addrs_iff : a ∈ SortedSet.ofList tlp.addrs ↔ a ∈ tlp.addrs :=
  SortedSet.mem_ofList

theorem size_addrs : (SortedSet.ofList tlp.addrs).size = tlp.addrs.length := by
  apply List.Perm.length_eq
  apply (List.perm_ext_iff_of_nodup (SortedSet.nodup _) tlp.distinct).mpr
  exact fun a => mem_addrs_iff

theorem Noted.closed (h : Noted tlp tlp.allProducts s) :
    ∀ a, a ∈ SortedSet.ofList tlp.addrs → ∀ b, b ∈ s.value a → b ∈ SortedSet.ofList tlp.addrs :=
  fun a _ b hb => mem_addrs_iff.mpr (dependsOn_addrs ((h.edge_iff a b).mp hb)).2

theorem Noted.mem_roots_iff (h : Noted tlp tlp.allProducts s) :
    a ∈ ((SortedSet.ofList tlp.addrs).subtract s.allDependencies).elems ↔ tlp.IsRoot a := by
  rw [← SortedSet.mem_def, SortedSet.mem_subtract, mem_addrs_iff, h.mem_all_iff, not_exists]
  rfl

/-- The traversal of the roots lists the products behind a root. -/
theorem Noted.mem_traverseRoots_iff (h : Noted tlp tlp.allProducts s) :
    a ∈ traverseRoots tlp s ↔ tlp.BehindRoot a := by
  unfold traverseRoots
  rw [PostOrder.mem_order_iff h.closed (fun r hr => mem_addrs_iff.mpr (h.mem_roots_iff.mp hr).1)
    (by rw [size_addrs]; omega), h.edge_eq]
  simp only [h.mem_roots_iff, TopLevelProjectContext.BehindRoot]

theorem Noted.traverseRoots_nodup (h : Noted tlp tlp.allProducts s) :
    (traverseRoots tlp s).Nodup :=
  PostOrder.order_nodup h.closed (fun r hr => mem_addrs_iff.mpr (h.mem_roots_iff.mp hr).1)
    (by rw [size_addrs]; omega)

/-- Without cycles the traversal lists no product before one it depends on. -/
theorem Noted.traverseRoots_pairwise (h : Noted tlp tlp.allProducts s) (hacyclic : tlp.Acyclic) :
    (traverseRoots tlp s).Pairwise fun a b => ¬tlp.DependsOn a b := by
  have hedge : GraphSearch.Acyclic (PostOrder.Edge s.value) := by
    rw [h.edge_eq]
    exact hacyclic
  have hpairwise : (traverseRoots tlp s).Pairwise fun a b => b ∉ s.value a :=
    PostOrder.order_pairwise h.closed
      (fun r hr => mem_addrs_iff.mpr (h.mem_roots_iff.mp hr).1) (by rw [size_addrs]; omega) hedge
  exact hpairwise.imp fun hab hdep => hab ((h.edge_iff _ _).mpr hdep)

theorem behindRoot_addrs (h : tlp.BehindRoot a) : a ∈ tlp.addrs := by
  rcases h with ⟨r, hr, hpath⟩
  rcases Relation.ReflTransGen.cases_tail hpath with rfl | ⟨b, -, hb⟩
  · exact hr.1
  · exact (dependsOn_addrs hb).2

/-- Without cycles every product is behind a root. -/
theorem behindRoot_of_acyclic (hacyclic : tlp.Acyclic) (ha : a ∈ tlp.addrs) :
    tlp.BehindRoot a := by
  have hsource : ∀ a b, tlp.DependsOn a b → a ∈ SortedSet.ofList tlp.addrs :=
    fun a b hab => mem_addrs_iff.mpr (dependsOn_addrs hab).1
  rcases PostOrder.exists_root hacyclic hsource a with ⟨root, hroot, hpath⟩
  refine ⟨root, ⟨?_, hroot⟩, hpath⟩
  rcases Relation.ReflTransGen.cases_head hpath with rfl | ⟨b, hb, -⟩
  · exact ha
  · exact (dependsOn_addrs hb).1

/-- If all products are behind a root, the traversal lists all products. -/
theorem Noted.traverseRoots_perm (h : Noted tlp tlp.allProducts s)
    (hall : ∀ a, a ∈ tlp.addrs → tlp.BehindRoot a) : (traverseRoots tlp s).Perm tlp.addrs := by
  apply (List.perm_ext_iff_of_nodup h.traverseRoots_nodup tlp.distinct).mpr
  intro a
  rw [h.mem_traverseRoots_iff]
  exact ⟨behindRoot_addrs, hall a⟩

theorem Noted.traverseRoots_length_lt (h : Noted tlp tlp.allProducts s) (ha : a ∈ tlp.addrs)
    (hbehind : ¬tlp.BehindRoot a) :
    (traverseRoots tlp s).length < tlp.addrs.length := by
  have hsub : List.Subperm (traverseRoots tlp s) (tlp.addrs.erase a) := by
    apply List.subperm_of_subset h.traverseRoots_nodup
    intro b hb
    have hb' := h.mem_traverseRoots_iff.mp hb
    apply (List.mem_erase_of_ne ?_).mpr (behindRoot_addrs hb')
    rintro rfl
    exact hbehind hb'
  have hle := hsub.length_le
  have hpos := List.length_pos_of_mem ha
  rw [List.length_erase_of_mem ha] at hle
  omega

/-- The search over all products fails exactly because of a cycle. -/
theorem Noted.findCycle_error (h : Noted tlp tlp.allProducts s) (hcyclic : ¬tlp.Acyclic) :
    ∃ e, (tlp.addrs.forM fun product => findCycle s.value tlp.nameOf (tlp.addrs.length + 1)
      product []) = .error e ∧ e ≠ .outOfFuel := by
  cases hloop : (tlp.addrs.forM fun product => findCycle s.value tlp.nameOf (tlp.addrs.length + 1)
      product []) with
  | ok u =>
      refine absurd ?_ hcyclic
      intro a ha
      have hmem : a ∈ tlp.addrs := by
        rcases Relation.TransGen.head'_iff.mp ha with ⟨b, hb, -⟩
        exact (dependsOn_addrs hb).1
      rw [← h.edge_eq] at ha
      exact findCycle_ok (Fallible.forM_eq_ok_iff.mp hloop a hmem) ha
  | error e =>
      refine ⟨e, rfl, ?_⟩
      rintro rfl
      rcases Fallible.forM_eq_error hloop with ⟨a, ha, herror⟩
      refine findCycle_ne_outOfFuel h.closed (mem_addrs_iff.mpr ha) (by simp) List.nodup_nil ?_ herror
      rw [size_addrs, List.length_nil]

end Outcome

/-- If all products are behind a root, the result is the list of the traversal. -/
theorem apply_of_behindRoot (hres : tlp.Resolvable)
    (hall : ∀ a, a ∈ tlp.addrs → tlp.BehindRoot a) :
    ∃ s, Noted tlp tlp.allProducts s ∧ apply multiplexIdToString tlp = .ok (traverseRoots tlp s) := by
  rcases foldlM_noteDependencies multiplexIdToString hres
    with ⟨s, hloop, hs⟩
  have hlength := (hs.traverseRoots_perm hall).length_eq
  refine ⟨s, hs, ?_⟩
  simp only [apply, hloop]
  simp [bind, Except.bind, pure, Except.pure, qbsCheck, hlength]

/-- If a product is not behind a root, a cycle is reported. -/
theorem apply_of_not_behindRoot (hres : tlp.Resolvable) {a : ProductAddr} (ha : a ∈ tlp.addrs)
    (hbehind : ¬tlp.BehindRoot a) :
    ¬tlp.Acyclic ∧ ∃ e, apply multiplexIdToString tlp = .error e ∧ e ≠ .outOfFuel := by
  have hcyclic : ¬tlp.Acyclic := fun hacyclic => hbehind (behindRoot_of_acyclic hacyclic ha)
  rcases foldlM_noteDependencies multiplexIdToString hres
    with ⟨s, hloop, hs⟩
  rcases hs.findCycle_error hcyclic with ⟨e, herror, hfuel⟩
  refine ⟨hcyclic, e, ?_, hfuel⟩
  simp only [apply, hloop]
  simp [bind, Except.bind, hs.traverseRoots_length_lt ha hbehind, herror]

/-- Products are sorted or a cycle is reported unless there is a cycle and all products are
behind a root. -/
theorem sorted_iff (multiplexIdToString : String → String) (tlp : TopLevelProjectContext)
    (hres : tlp.Resolvable) :
    SortedOrCyclic tlp (apply multiplexIdToString tlp) ↔
      tlp.Acyclic ∨ ∃ a, a ∈ tlp.addrs ∧ ¬tlp.BehindRoot a := by
  by_cases hall : ∀ a, a ∈ tlp.addrs → tlp.BehindRoot a
  · rcases apply_of_behindRoot multiplexIdToString hres hall
      with ⟨s, hs, hresult⟩
    rw [hresult]
    constructor
    · intro h
      left
      by_contra hcyclic
      rcases h.throws_iff.mpr hcyclic with ⟨e, herror, -⟩
      cases herror
    · rintro (hacyclic | ⟨a, ha, hbehind⟩)
      · refine ⟨⟨?_, fun h => absurd hacyclic h⟩, fun _ => ?_⟩
        · rintro ⟨e, herror, -⟩
          cases herror
        · exact ⟨_, rfl, hs.traverseRoots_perm hall, hs.traverseRoots_pairwise hacyclic⟩
      · exact absurd (hall a ha) hbehind
  · push Not at hall
    rcases hall with ⟨a, ha, hbehind⟩
    rcases apply_of_not_behindRoot multiplexIdToString hres ha hbehind
      with ⟨hcyclic, herror⟩
    constructor
    · exact fun _ => Or.inr ⟨a, ha, hbehind⟩
    · exact fun _ => ⟨iff_of_true herror hcyclic, fun h => absurd h hcyclic⟩

/-! ## A cycle behind a root -/

/-- A product without configurations that depends on others by name. -/
def plainProduct (addr : ProductAddr) (name : String) (deps : List String) : ProductContext :=
  ⟨addr, name, "", deps.map fun dep => ⟨dep, "", ""⟩⟩

/-- The application depends on the first of two libraries that depend on each other. -/
def cycleBehindRoot : TopLevelProjectContext where
  projects := [[plainProduct 0 "app" ["a"], plainProduct 1 "a" ["b"], plainProduct 2 "b" ["a"]]]
  distinct := by decide

theorem cycleBehindRoot_resolvable : cycleBehindRoot.Resolvable := by
  intro p hp dep hdep
  simp only [TopLevelProjectContext.allProducts, cycleBehindRoot, List.flatten_singleton,
    List.mem_cons, List.not_mem_nil, or_false] at hp
  rcases hp with rfl | rfl | rfl
  · cases List.mem_singleton.mp hdep
    exact ⟨by decide, plainProduct 1 "a" ["b"], by decide, rfl, Or.inr rfl⟩
  · cases List.mem_singleton.mp hdep
    exact ⟨by decide, plainProduct 2 "b" ["a"], by decide, rfl, Or.inr rfl⟩
  · cases List.mem_singleton.mp hdep
    exact ⟨by decide, plainProduct 1 "a" ["b"], by decide, rfl, Or.inr rfl⟩

theorem sorted_iff_cycleBehindRoot :
    SortedOrCyclic cycleBehindRoot (apply id cycleBehindRoot) ↔
      cycleBehindRoot.Acyclic ∨
        ∃ a, a ∈ cycleBehindRoot.addrs ∧ ¬cycleBehindRoot.BehindRoot a :=
  sorted_iff id cycleBehindRoot cycleBehindRoot_resolvable

theorem cycleBehindRoot_cyclic : ¬cycleBehindRoot.Acyclic := by
  have hab : cycleBehindRoot.DependsOn 1 2 :=
    ⟨plainProduct 1 "a" ["b"], by decide, rfl, ⟨"b", "", ""⟩, by decide,
      plainProduct 2 "b" ["a"], rfl, rfl⟩
  have hba : cycleBehindRoot.DependsOn 2 1 :=
    ⟨plainProduct 2 "b" ["a"], by decide, rfl, ⟨"a", "", ""⟩, by decide,
      plainProduct 1 "a" ["b"], rfl, rfl⟩
  exact fun h => h 1 (Relation.TransGen.head hab (Relation.TransGen.single hba))

/-- The cycle is not reported, and a library is listed before one it depends on. -/
theorem cycleBehindRoot_not_sorted :
    cycleBehindRoot.Resolvable ∧ apply id cycleBehindRoot = .ok [2, 1, 0] ∧
      ¬SortedOrCyclic cycleBehindRoot (apply id cycleBehindRoot) := by
  have hresult : apply id cycleBehindRoot = .ok [2, 1, 0] := by decide
  refine ⟨cycleBehindRoot_resolvable, hresult, ?_⟩
  intro h
  rcases h.throws_iff.mpr cycleBehindRoot_cyclic with ⟨e, herror, -⟩
  rw [hresult] at herror
  cases herror

end ProductSortByDependencies

end Qbs
