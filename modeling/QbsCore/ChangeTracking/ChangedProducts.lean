import QbsCore.Library.CycleSearch

/-!
# Products that depend on changed products

A product that depends on a changed product is treated as changed, too.  Products that depend on
no changed product are remembered, and the search among the dependencies of a product ends at the
first changed one.

Main results:

- Theorem {lit}`ChangedProducts.checkProductForChangedDependency_spec`: what the search from one
  product finds and adds.
- Theorem {lit}`ChangedProducts.makeChangedProductsListComplete_spec`: the completed list has
  exactly the affected products, each once.

Current gaps:

- Products are given by numbers; of their data only the dependencies are used.
-/

namespace Qbs

namespace ChangedProducts

/-- The restored products and their dependencies, which are restored products as well. -/
structure RestoredProducts where
  products : List Nat
  dependencies : Nat → List Nat
  closed : ∀ p, p ∈ products → ∀ d, d ∈ dependencies p → d ∈ products

/-- The list of changed products and the products known to depend on none of them. -/
structure State where
  changedProducts : List Nat
  seenProducts : SortedSet Nat

variable (dependencies : Nat → List Nat)

/-- Search for a changed product among some products; the first argument is the search from one
product. There is no result if the search from some product has none. -/
def anyChanged (check : Nat → State → Option (Bool × State)) :
    List Nat → State → Option (Bool × State)
  | [], s => some (false, s)
  | dep :: deps, s =>
      (check dep s).bind fun x => if x.1 then some (true, x.2) else anyChanged check deps x.2

/-- Whether a product depends on a changed product. The depth of the recursion is bounded. -/
def checkProductForChangedDependency : Nat → Nat → State → Option (Bool × State)
  | 0, _, _ => none
  | fuel + 1, product, s =>
      if product ∈ s.seenProducts then some (false, s)
      else if product ∈ s.changedProducts then some (true, s)
      else
        (anyChanged (checkProductForChangedDependency fuel) (dependencies product) s).map fun x =>
          if x.1 then (true, { x.2 with changedProducts := x.2.changedProducts ++ [product] })
          else (false, { x.2 with seenProducts := insert product x.2.seenProducts })

/-- Add the products that depend on changed products. -/
def makeChangedProductsListComplete (fuel : Nat) (changedProducts allRestoredProducts : List Nat) :
    Option (List Nat) :=
  (allRestoredProducts.foldlM
    (fun s p => (checkProductForChangedDependency dependencies fuel p s).map Prod.snd)
    ⟨changedProducts, ∅⟩).map State.changedProducts

/-! ## Affected products -/

/-- A product has another one among its dependencies. -/
def DependsOn (p d : Nat) : Prop :=
  d ∈ dependencies p

/-- Through its dependencies a product reaches one that has changed initially. -/
def Affected (initial : List Nat) (p : Nat) : Prop :=
  ∃ c, c ∈ initial ∧ Relation.ReflTransGen (DependsOn dependencies) p c

variable {dependencies} {initial : List Nat}

/-- A product is affected if it has changed itself or depends on an affected product. -/
theorem affected_iff {p : Nat} : Affected dependencies initial p ↔
    p ∈ initial ∨ ∃ d, d ∈ dependencies p ∧ Affected dependencies initial d := by
  constructor
  · rintro ⟨c, hc, hpath⟩
    rcases Relation.ReflTransGen.cases_head hpath with rfl | ⟨d, hd, hrest⟩
    · exact Or.inl hc
    · exact Or.inr ⟨d, hd, c, hc, hrest⟩
  · rintro (hp | ⟨d, hd, c, hc, hrest⟩)
    · exact ⟨p, hp, Relation.ReflTransGen.refl⟩
    · exact ⟨c, hc, Relation.ReflTransGen.head hd hrest⟩

variable (dependencies initial) in
/-- The list and the memory are right as far as they go. -/
structure Right (s : State) : Prop where
  initial_subset : ∀ p, p ∈ initial → p ∈ s.changedProducts
  nodup : s.changedProducts.Nodup
  changed : ∀ p, p ∈ s.changedProducts → Affected dependencies initial p
  seen : ∀ p, p ∈ s.seenProducts → ¬Affected dependencies initial p

variable (dependencies initial) in
/-- What a search adds: the products that it adds are behind the start, and nothing is lost. -/
structure Adds (starts : List Nat) (s s' : State) : Prop where
  right : Right dependencies initial s'
  subset : ∀ p, p ∈ s.changedProducts → p ∈ s'.changedProducts
  behind : ∀ p, p ∈ s'.changedProducts → p ∈ s.changedProducts ∨
    ∃ r, r ∈ starts ∧ Relation.ReflTransGen (DependsOn dependencies) r p

theorem Adds.refl {starts : List Nat} {s : State} (h : Right dependencies initial s) :
    Adds dependencies initial starts s s :=
  ⟨h, fun _ hp => hp, fun _ hp => Or.inl hp⟩

theorem Adds.trans {starts starts' : List Nat} {s s' s'' : State}
    (h : Adds dependencies initial starts s s') (h' : Adds dependencies initial starts' s' s'') :
    Adds dependencies initial (starts ++ starts') s s'' := by
  refine ⟨h'.right, fun p hp => h'.subset p (h.subset p hp), ?_⟩
  intro p hp
  rcases h'.behind p hp with hp | ⟨r, hr, hpath⟩
  · rcases h.behind p hp with hp | ⟨r, hr, hpath⟩
    · exact Or.inl hp
    · exact Or.inr ⟨r, List.mem_append_left _ hr, hpath⟩
  · exact Or.inr ⟨r, List.mem_append_right _ hr, hpath⟩

theorem anyChanged_spec {check : Nat → State → Option (Bool × State)} {deps : List Nat}
    (hcheck : ∀ d, d ∈ deps → ∀ s, Right dependencies initial s → ∃ b s', check d s = some (b, s') ∧
      (b = true ↔ Affected dependencies initial d) ∧ Adds dependencies initial [d] s s')
    {s : State} (hs : Right dependencies initial s) :
    ∃ b s', anyChanged check deps s = some (b, s') ∧
      (b = true ↔ ∃ d, d ∈ deps ∧ Affected dependencies initial d) ∧
      Adds dependencies initial deps s s' := by
  induction deps generalizing s with
  | nil => exact ⟨false, s, rfl, by simp, Adds.refl hs⟩
  | cons d deps ih =>
      rcases hcheck d (by simp) s hs with ⟨b, s', heq, hb, hadds⟩
      simp only [anyChanged, heq, Option.bind_some]
      cases b with
      | true =>
          refine ⟨true, s', rfl, ?_, ?_⟩
          · simp only [true_iff]
            exact ⟨d, by simp, hb.mp rfl⟩
          · exact hadds.trans (Adds.refl hadds.right)
      | false =>
          have hrest := fun d' (hd' : d' ∈ deps) => hcheck d' (List.mem_cons_of_mem d hd')
          rcases ih hrest hadds.right with ⟨b', s'', heq', hb', hadds'⟩
          refine ⟨b', s'', by simpa using heq', ?_, hadds.trans hadds'⟩
          have hd : ¬Affected dependencies initial d := fun h => Bool.false_ne_true (hb.mpr h)
          rw [hb']
          simp [hd]

/-! ## The search from one product -/

section Search

variable {project : RestoredProducts}
  (hacyclic : GraphSearch.Acyclic (DependsOn project.dependencies))
include hacyclic

variable {product : Nat} {s s' : State}

/-- A product that is added after its dependencies was not added by them. -/
theorem Adds.not_mem (h : Adds project.dependencies initial (project.dependencies product) s s')
    (hproduct : product ∉ s.changedProducts) : product ∉ s'.changedProducts := by
  intro hmem
  rcases h.behind product hmem with hold | ⟨d, hd, hpath⟩
  · exact hproduct hold
  · exact hacyclic product (Relation.TransGen.head' hd hpath)

theorem Adds.addChanged (h : Adds project.dependencies initial (project.dependencies product) s s')
    (hproduct : product ∉ s.changedProducts)
    (haffected : Affected project.dependencies initial product) :
    Adds project.dependencies initial [product] s
      { s' with changedProducts := s'.changedProducts ++ [product] } := by
  have hfresh := h.not_mem hacyclic hproduct
  constructor
  · constructor
    · intro p hp
      exact List.mem_append_left _ (h.right.initial_subset p hp)
    · rw [List.nodup_append]
      refine ⟨h.right.nodup, by simp, ?_⟩
      intro p hp q hq heq
      rw [heq, List.mem_singleton.mp hq] at hp
      exact hfresh hp
    · intro p hp
      rcases List.mem_append.mp hp with hp | hp
      · exact h.right.changed p hp
      · rw [List.mem_singleton.mp hp]
        exact haffected
    · exact h.right.seen
  · exact fun p hp => List.mem_append_left _ (h.subset p hp)
  · intro p hp
    rcases List.mem_append.mp hp with hp | hp
    · rcases h.behind p hp with hold | ⟨d, hd, hpath⟩
      · exact Or.inl hold
      · exact Or.inr ⟨product, by simp, Relation.ReflTransGen.head hd hpath⟩
    · rw [List.mem_singleton.mp hp]
      exact Or.inr ⟨product, by simp, Relation.ReflTransGen.refl⟩

omit hacyclic in
theorem Adds.addSeen (h : Adds project.dependencies initial (project.dependencies product) s s')
    (haffected : ¬Affected project.dependencies initial product) :
    Adds project.dependencies initial [product] s
      { s' with seenProducts := insert product s'.seenProducts } := by
  constructor
  · refine ⟨h.right.initial_subset, h.right.nodup, h.right.changed, ?_⟩
    intro p hp
    rcases SortedSet.mem_insert.mp hp with rfl | hp
    · exact haffected
    · exact h.right.seen p hp
  · exact h.subset
  · intro p hp
    rcases h.behind p hp with hold | ⟨d, hd, hpath⟩
    · exact Or.inl hold
    · exact Or.inr ⟨product, by simp, Relation.ReflTransGen.head hd hpath⟩

/-- With enough fuel for the products that are not on the path to it, the search from a product
finds out whether it is affected; then the product is in the list. -/
theorem checkProductForChangedDependency_spec {fuel : Nat} {path : List Nat}
    (hpath : CycleSearch.Above project.dependencies project.products path product)
    (hproduct : product ∈ project.products) (hfuel : project.products.length < path.length + fuel)
    (hs : Right project.dependencies initial s) :
    ∃ b s', checkProductForChangedDependency project.dependencies fuel product s = some (b, s') ∧
      (b = true ↔ Affected project.dependencies initial product) ∧
      Adds project.dependencies initial [product] s s' ∧
      (b = true → product ∈ s'.changedProducts) := by
  induction fuel generalizing product path s with
  | zero =>
      have hle := hpath.length_le
      omega
  | succ fuel ih =>
      simp only [checkProductForChangedDependency]
      split_ifs with hseen hchanged
      · have hnot := hs.seen product hseen
        exact ⟨false, s, rfl, by simpa using hnot, Adds.refl hs, by simp⟩
      · have haffected := hs.changed product hchanged
        exact ⟨true, s, rfl, by simpa using haffected, Adds.refl hs, fun _ => hchanged⟩
      · have hcheck : ∀ d, d ∈ project.dependencies product →
            ∀ s, Right project.dependencies initial s →
            ∃ b s', checkProductForChangedDependency project.dependencies fuel d s = some (b, s') ∧
              (b = true ↔ Affected project.dependencies initial d) ∧
              Adds project.dependencies initial [d] s s' := by
          intro d hd s hs
          have hlength : project.products.length < (product :: path).length + fuel := by
            simp only [List.length_cons]
            omega
          rcases ih (hpath.cons hproduct (hacyclic product) hd)
            (project.closed product hproduct d hd) hlength hs with ⟨b, s', heq, hb, hadds, -⟩
          exact ⟨b, s', heq, hb, hadds⟩
        rcases anyChanged_spec hcheck hs with ⟨b, s', heq, hb, hadds⟩
        simp only [heq, Option.map_some]
        have hnotInitial : product ∉ initial := fun h => hchanged (hs.initial_subset product h)
        have haffected : b = true ↔ Affected project.dependencies initial product := by
          rw [hb, affected_iff]
          simp [hnotInitial]
        cases b with
        | true =>
            refine ⟨true, _, rfl, haffected, ?_, by simp⟩
            exact hadds.addChanged hacyclic hchanged (haffected.mp rfl)
        | false =>
            refine ⟨false, _, rfl, haffected, ?_, by simp⟩
            exact hadds.addSeen fun h => Bool.false_ne_true (haffected.mpr h)

/-! ## The completed list -/

theorem foldlM_check_spec {fuel : Nat} (hfuel : project.products.length < fuel)
    {products : List Nat} (hproducts : ∀ p, p ∈ products → p ∈ project.products)
    (hs : Right project.dependencies initial s) :
    ∃ s', products.foldlM (fun s p =>
        (checkProductForChangedDependency project.dependencies fuel p s).map Prod.snd) s = some s' ∧
      Adds project.dependencies initial products s s' ∧
      ∀ p, p ∈ products → Affected project.dependencies initial p → p ∈ s'.changedProducts := by
  induction products generalizing s with
  | nil => exact ⟨s, rfl, Adds.refl hs, by simp⟩
  | cons p products ih =>
      have hlength : project.products.length < ([] : List Nat).length + fuel := by simpa using hfuel
      rcases checkProductForChangedDependency_spec hacyclic
        (CycleSearch.Above.nil _ _ p) (hproducts p (by simp)) hlength hs with ⟨b, s', heq, hb, hadds, hmem⟩
      rcases ih (fun q hq => hproducts q (List.mem_cons_of_mem p hq)) hadds.right with
        ⟨s'', heq', hadds', hmem'⟩
      refine ⟨s'', ?_, hadds.trans hadds', ?_⟩
      · simpa [heq] using heq'
      · intro q hq haffected
        rcases List.mem_cons.mp hq with rfl | hq
        · exact hadds'.subset q (hmem (hb.mpr haffected))
        · exact hmem' q hq haffected

omit hacyclic in
theorem mem_products_of_path {p q : Nat} (hp : p ∈ project.products)
    (hpath : Relation.ReflTransGen (DependsOn project.dependencies) p q) :
    q ∈ project.products := by
  induction hpath with
  | refl => exact hp
  | tail _ hstep ih => exact project.closed _ ih _ hstep

end Search

/-- For an acyclic project, the completed list has each product once, and has exactly the products
that have changed initially and the restored products from which such a product is reachable; the
order of the products does not matter. -/
theorem makeChangedProductsListComplete_spec (project : RestoredProducts) (initial : List Nat)
    (hacyclic : GraphSearch.Acyclic (DependsOn project.dependencies)) (hinitial : initial.Nodup)
    (order : List Nat) (horder : order.Perm project.products) (fuel : Nat)
    (hfuel : project.products.length < fuel) :
    ∃ result,
      makeChangedProductsListComplete project.dependencies fuel initial order = some result ∧
      result.Nodup ∧
      ∀ p, p ∈ result ↔
        p ∈ initial ∨ p ∈ project.products ∧ Affected project.dependencies initial p := by
  have hright : Right project.dependencies initial ⟨initial, ∅⟩ := by
    refine ⟨fun p hp => hp, hinitial, ?_, by simp⟩
    exact fun p hp => affected_iff.mpr (Or.inl hp)
  have hproducts : ∀ p, p ∈ order → p ∈ project.products := fun p hp => horder.mem_iff.mp hp
  rcases foldlM_check_spec hacyclic hfuel hproducts hright with ⟨s, heq, hadds, hmem⟩
  refine ⟨s.changedProducts, by simp [makeChangedProductsListComplete, heq], hadds.right.nodup, ?_⟩
  intro p
  constructor
  · intro hp
    rcases hadds.behind p hp with hp | ⟨q, hq, hpath⟩
    · exact Or.inl hp
    · exact Or.inr ⟨mem_products_of_path (hproducts q hq) hpath, hadds.right.changed p ‹_›⟩
  · rintro (hp | ⟨hp, haffected⟩)
    · exact hadds.right.initial_subset p hp
    · exact hmem p (horder.mem_iff.mpr hp) haffected

/-- An application that depends on a changed library and on a plugin that depends on it as well. -/
def sampleProject : RestoredProducts where
  products := [0, 1, 2, 3]
  dependencies
    | 0 => [1, 2]
    | 1 => [2]
    | _ => []
  closed := by decide

theorem sampleProject_acyclic :
    GraphSearch.Acyclic (DependsOn sampleProject.dependencies) := by
  have hup : ∀ p d, DependsOn sampleProject.dependencies p d → p < d := by
    intro p d h
    rcases p with _ | _ | p
    · simp only [DependsOn, sampleProject, List.mem_cons, List.not_mem_nil, or_false] at h
      omega
    · simp only [DependsOn, sampleProject, List.mem_singleton] at h
      omega
    · simp [DependsOn, sampleProject] at h
  have hlt : ∀ p q, Relation.TransGen (DependsOn sampleProject.dependencies) p q → p < q := by
    intro p q h
    induction h with
    | single h => exact hup _ _ h
    | tail _ h ih => exact lt_trans ih (hup _ _ h)
  exact fun p h => lt_irrefl p (hlt p p h)

theorem makeChangedProductsListComplete_sampleProject :
    ∃ result,
      makeChangedProductsListComplete sampleProject.dependencies 5 [2] [3, 0, 2, 1] = some result ∧
      result.Nodup ∧
      ∀ p, p ∈ result ↔
        p ∈ [2] ∨ p ∈ sampleProject.products ∧ Affected sampleProject.dependencies [2] p :=
  makeChangedProductsListComplete_spec sampleProject [2] sampleProject_acyclic (by decide)
    [3, 0, 2, 1] (by decide) 5 (by decide)

end ChangedProducts

end Qbs
