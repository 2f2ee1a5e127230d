import QbsCore.Language.ProjectTree
import QbsCore.Library.Closures
import QbsCore.Library.CycleCheck
import QbsCore.Loader.ProductSort

/-!
# Dependencies between resolved products

After all products were resolved, the products that each of them uses become its
dependencies.  Then the dependencies must not have a cycle, and where errors in products
are tolerated, the products that depend on a disabled product are disabled.  The products behind
each product are kept in hash tables, whose order of iteration is not determined.

Main results:

- Theorem {lit}`ProjectResolver.disableProducts_spec`: which products are disabled.
- Theorem {lit}`ProjectResolver.resolveProductDependencies_right`: what holds of the outcome,
  and that it does not depend on the order in which the hash tables are visited.

Current gaps:

- Source locations in messages are left out.
- Names are ordered by their characters, not by their UTF-16 units.
- The warnings about disabled products are not compared for two orders of the hash tables.
-/

namespace Qbs

/-- What happens after an error in a product. -/
inductive ErrorHandlingMode where
  | strict
  | relaxed
deriving DecidableEq

/-- A product that another one uses, as the loader has found it. -/
structure UsedProduct extends Dependency where
  parameters : VariantMap
  limitToSubProject : Bool
  isRequired : Bool

def Dependency.uniqueName (dep : Dependency) : ProductId :=
  uniqueNameOf dep.name dep.multiplexConfigurationId

/-- The data of a resolved product before its dependencies are known: among them its project
and the parent projects of that, with the innermost first. -/
structure ProductData where
  name : String
  multiplexConfigurationId : String
  profile : String
  enabled : Bool
  projects : List ProjectAddr

namespace ProductData

def uniqueName (p : ProductData) : ProductId :=
  uniqueNameOf p.name p.multiplexConfigurationId

/-- Whether the project of another product is the one of a product or lies inside it. -/
def isInParentProject (p other : ProductData) : Bool :=
  match p.projects with
  | [] => false
  | project :: _ => other.projects.contains project

end ProductData

/-- A resolved product with its dependencies. -/
structure ProductNode extends ProductData where
  dependencies : List ProductAddr
  dependencyParameters : AssocMap ProductAddr VariantMap

/-- All resolved products, by their addresses. -/
abbrev ResolvedProducts := ProductAddr → ProductNode

/-- An order in which the entries of a hash table are visited. -/
structure HashOrder (α : Type) where
  visit : List α → List α
  perm (l : List α) : (visit l).Perm l

/-- The orders in which the hash tables are visited. -/
structure HashOrders where
  allDeps : HashOrder (Sigma fun _ : ProductAddr => SortedSet ProductAddr)
  allDepsReversed : HashOrder (Sigma fun _ : ProductAddr => SortedSet ProductAddr)

/-- The resolver after all products were resolved, which has created each of them without
dependencies. -/
structure ProjectResolver where
  allProducts : List ProductAddr
  distinct : allProducts.Nodup
  resolveOrder : List ProductAddr
  resolved : resolveOrder.Perm allProducts
  data : ProductAddr → ProductData
  usedProducts : ProductAddr → List UsedProduct
  productErrorMode : ErrorHandlingMode
  multiplexIdToString : String → String

/-- The dependencies of a product that its used products lead to. -/
structure ProductDependencyInfos where
  dependencies : List (ProductAddr × VariantMap)
  hasDisabledDependency : Bool

/-- The products with their dependencies, and the warnings about disabled products. -/
structure ResolvedDependencies where
  products : ResolvedProducts
  warnings : List String

/-- Add a dependency to a product, if it is new, with its parameters, if there are any. -/
def ProductNode.addDependency (p : ProductNode) (dep : ProductAddr × VariantMap) : ProductNode where
  toProductData := p.toProductData
  dependencies := if dep.1 ∈ p.dependencies then p.dependencies else p.dependencies ++ [dep.1]
  dependencyParameters :=
    if dep.2.isEmpty then p.dependencyParameters
    else AList.insert dep.1 dep.2 p.dependencyParameters

namespace ProjectResolver

variable (hash : HashOrders) (r : ProjectResolver)

/-- The products as they were created. -/
def created : ResolvedProducts :=
  fun p => ⟨r.data p, [], ∅⟩

/-- The products by their names; of products with one name, the one resolved last. -/
def productsByName : AssocMap ProductId ProductAddr :=
  r.resolveOrder.foldl (fun m p => AList.insert (r.data p).uniqueName p m) ∅

/-- The products in the order of their names. -/
def visitedProducts : List ProductAddr :=
  (r.productsByName.entries.mergeSort fun e e' => e.1 ≤ e'.1).map Sigma.snd

section Products

variable (data : ProductAddr → ProductData)

/-- Whether a product is one of those that a dependency for all profiles stands for. -/
def matchesAnyProfile (product : ProductAddr) (dep : UsedProduct) (p : ProductAddr) : Bool :=
  !((data p).name ≠ dep.name || p = product || !(data p).enabled ||
    (dep.limitToSubProject && !(data product).isInParentProject (data p)))

/-- Whether a product has the name and the profile that a dependency asks for. -/
def matchesProfile (dep : UsedProduct) (p : ProductAddr) : Bool :=
  (data p).name = dep.name && (data p).profile = dep.profile

/-- The product that a dependency not for all profiles is on. -/
def findUsedProduct (product : ProductAddr) (dep : UsedProduct) :
    Except ErrorInfo ProductAddr :=
  let productName := fullDisplayName r.multiplexIdToString (data product).name
    (data product).multiplexConfigurationId
  let depDisplayName := fullDisplayName r.multiplexIdToString dep.name dep.multiplexConfigurationId
  match r.productsByName.lookup dep.uniqueName with
  | none =>
      .error (.message
        s!"Product '{productName}' depends on '{depDisplayName}', which does not exist.")
  | some usedProduct =>
      if dep.profile ≠ "" && (data usedProduct).profile ≠ dep.profile then
        match (r.visitedProducts).find? (matchesProfile data dep) with
        | some p => .ok p
        | none =>
            .error (.message (s!"Product '{productName}' depends on '{depDisplayName}', which " ++
              s!"does not exist for the requested profile '{dep.profile}'."))
      else .ok usedProduct

/-- The dependencies for one more used product. -/
def addUsedProduct (product : ProductAddr) (infos : ProductDependencyInfos) (dep : UsedProduct) :
    Except ErrorInfo ProductDependencyInfos := do
  qbsCheck (dep.name ≠ "") "!dependency.name.isEmpty()"
  if dep.profile = "*" then
    let found := (r.visitedProducts).filter (matchesAnyProfile data product dep)
    return { infos with
      dependencies := infos.dependencies ++ found.map fun p => (p, dep.parameters) }
  else
    let usedProduct ← r.findUsedProduct data product dep
    if (data usedProduct).enabled then
      return { infos with
        dependencies := infos.dependencies ++ [(usedProduct, dep.parameters)] }
    else if !dep.isRequired then
      return infos
    else if r.productErrorMode = .strict then
      throw (.ofItems [
        s!"Product '{(data product).name}' depends on '{(data usedProduct).name}',",
        s!"but product '{(data usedProduct).name}' is disabled."])
    else
      return ⟨infos.dependencies ++ [(usedProduct, dep.parameters)], true⟩

/-- The dependencies that the used products of a product lead to. -/
def getProductDependencies (product : ProductAddr) : Except ErrorInfo ProductDependencyInfos :=
  (r.usedProducts product).foldlM (r.addUsedProduct data product) ⟨[], false⟩

end Products

/-- Record the dependencies of a product; the flag tells whether a dependency is disabled. -/
def recordDependencies (s : ResolvedProducts × Bool) (product : ProductAddr) :
    Except ErrorInfo (ResolvedProducts × Bool) := do
  if !(s.1 product).enabled then
    return s
  let depInfos ← r.getProductDependencies (fun p => (s.1 p).toProductData) product
  return (Function.update s.1 product
    (depInfos.dependencies.foldl ProductNode.addDependency (s.1 product)),
    s.2 || depInfos.hasDisabledDependency)

/-- Record the dependencies of all products. -/
def recordAll : Except ErrorInfo (ResolvedProducts × Bool) :=
  r.allProducts.foldlM (r.recordDependencies) (r.created, false)

/-- The dependencies of a product. -/
abbrev next (s : ResolvedProducts) (p : ProductAddr) : List ProductAddr :=
  (s p).dependencies

/-- No branch of a search is longer. -/
def bound : Nat :=
  r.allProducts.length + 1

/-- Check for cyclic dependencies. -/
def checkForCycles (s : ResolvedProducts) : Except ErrorInfo Unit :=
  match CycleCheck.firstCycle (next s) r.bound r.allProducts ∅ with
  | none => .ok ()
  | some way =>
      .error (.ofItems ("Cyclic dependencies detected." :: way.map fun p => (s p).name))

/-- All products behind each product. -/
def allDependencies (s : ResolvedProducts) : Closures ProductAddr :=
  Closures.gatherAll (next s) r.bound r.allProducts

/-- For each product in front of which there are others, all of these. -/
def reversed (entries : List (Sigma fun _ : ProductAddr => SortedSet ProductAddr)) :
    Closures ProductAddr :=
  entries.foldl (fun m e => e.2.elems.foldl (fun m dep => Closures.add m dep e.1) m) ∅

/-- Disable a product in front of a disabled one. -/
def disable (disabled : ProductAddr) (s : ResolvedDependencies) (dependingProduct : ProductAddr) :
    ResolvedDependencies :=
  if (s.products dependingProduct).enabled then
    { products := Function.update s.products dependingProduct
        { s.products dependingProduct with enabled := false }
      warnings := s.warnings ++
        [s!"Disabling product '{(s.products dependingProduct).name}', because it depends on " ++
          s!"disabled product '{(s.products disabled).name}'."] }
  else s

/-- Disable all products in front of a product, if it is disabled. -/
def disableDependingProducts (s : ResolvedDependencies)
    (e : Sigma fun _ : ProductAddr => SortedSet ProductAddr) : ResolvedDependencies :=
  if (s.products e.1).enabled then s else e.2.elems.foldl (disable e.1) s

/-- Mark all products as disabled that have a disabled dependency. -/
def disableProducts (s : ResolvedProducts) : ResolvedDependencies :=
  let allDepsReversed := reversed (hash.allDeps.visit (r.allDependencies s).entries)
  (hash.allDepsReversed.visit allDepsReversed.entries).foldl disableDependingProducts ⟨s, []⟩

/-- Resolve all dependencies between products. -/
def resolveProductDependencies : Except ErrorInfo ResolvedDependencies := do
  let s ← r.recordAll
  r.checkForCycles s.1
  if s.2 && r.productErrorMode = .relaxed then
    return r.disableProducts hash s.1
  else
    return ⟨s.1, []⟩

/-! ## Products by name -/

variable {hash r}

variable {l : List ProductAddr} {p product : ProductAddr} {f : ProductAddr → Bool}
  {data : ProductAddr → ProductData} {t : ResolvedDependencies} {s : ResolvedProducts × Bool}

theorem lookup_foldl_uniqueName {m : AssocMap ProductId ProductAddr} {name : ProductId}
    (h : (l.foldl (fun m p => AList.insert (data p).uniqueName p m) m).lookup name = some p) :
    (p ∈ l ∧ (data p).uniqueName = name) ∨ m.lookup name = some p := by
  induction l generalizing m with
  | nil => exact Or.inr h
  | cons q l ih =>
      rcases ih h with ⟨hp, hname⟩ | hp
      · exact Or.inl ⟨List.mem_cons_of_mem q hp, hname⟩
      · by_cases hname : name = (data q).uniqueName
        · rw [hname, AList.lookup_insert] at hp
          cases hp
          exact Or.inl ⟨List.mem_cons_self, hname.symm⟩
        · rw [AList.lookup_insert_ne hname] at hp
          exact Or.inr hp

/-- Only resolved products are found by their names. -/
theorem lookup_productsByName {name : ProductId} (h : r.productsByName.lookup name = some p) :
    p ∈ r.allProducts ∧ (r.data p).uniqueName = name := by
  rcases lookup_foldl_uniqueName h with ⟨hp, hname⟩ | hp
  · exact ⟨r.resolved.mem_iff.mp hp, hname⟩
  · simp at hp

theorem mem_of_mem_visitedProducts (h : p ∈ r.visitedProducts) :
    p ∈ r.allProducts := by
  rcases List.mem_map.mp h with ⟨e, he, rfl⟩
  exact (lookup_productsByName (AList.mem_lookup_iff.mpr (List.mem_mergeSort.mp he))).1

/-! ## One used product -/

section Used

variable {data : ProductAddr → ProductData} {product : ProductAddr} {dep : UsedProduct}

theorem mem_of_findUsedProduct {q : ProductAddr}
    (h : r.findUsedProduct data product dep = .ok q) : q ∈ r.allProducts := by
  unfold findUsedProduct at h
  dsimp only at h
  cases hlookup : r.productsByName.lookup dep.uniqueName with
  | none =>
      rw [hlookup] at h
      cases h
  | some u =>
      rw [hlookup] at h
      dsimp only at h
      split at h
      · cases hfind : (r.visitedProducts).find? (matchesProfile data dep) with
        | none =>
            rw [hfind] at h
            cases h
        | some p =>
            rw [hfind] at h
            cases h
            exact mem_of_mem_visitedProducts (List.mem_of_find?_eq_some hfind)
      · cases h
        exact (lookup_productsByName hlookup).1

/-- What a used product adds to the dependencies. -/
def usedBlock (r : ProjectResolver) (data : ProductAddr → ProductData)
    (product : ProductAddr) (dep : UsedProduct) : Except ErrorInfo ProductDependencyInfos :=
  r.addUsedProduct data product ⟨[], false⟩ dep

/-- Two parts of the dependencies of a product after each other. -/
def ProductDependencyInfos.append (a b : ProductDependencyInfos) : ProductDependencyInfos :=
  ⟨a.dependencies ++ b.dependencies, a.hasDisabledDependency || b.hasDisabledDependency⟩

theorem addUsedProduct_eq (infos : ProductDependencyInfos) :
    r.addUsedProduct data product infos dep =
      (r.usedBlock data product dep).map (ProductDependencyInfos.append infos) := by
  unfold usedBlock addUsedProduct
  cases hcheck : qbsCheck (dep.name ≠ "") "!dependency.name.isEmpty()" with
  | error e => rfl
  | ok u =>
      simp only [bind, Except.bind, pure, Except.pure]
      by_cases hstar : dep.profile = "*"
      · simp [hstar, ProductDependencyInfos.append, Except.map]
      · simp only [if_neg hstar]
        cases hused : r.findUsedProduct data product dep with
        | error e => rfl
        | ok q =>
            dsimp only
            split_ifs <;>
              simp [ProductDependencyInfos.append, Except.map, throw, throwThe,
                MonadExceptOf.throw]

/-- The dependencies for a used product: resolved products with its parameters. One of them is
disabled exactly if this is noted, which only happens if errors are tolerated. -/
structure RightBlock (r : ProjectResolver) (data : ProductAddr → ProductData)
    (parameters : VariantMap) (b : ProductDependencyInfos) : Prop where
  parameters_eq : ∀ e, e ∈ b.dependencies → e.2 = parameters
  mem : ∀ e, e ∈ b.dependencies → e.1 ∈ r.allProducts
  disabled_iff : b.hasDisabledDependency = true ↔
    ∃ e, e ∈ b.dependencies ∧ (data e.1).enabled = false
  relaxed : b.hasDisabledDependency = true → r.productErrorMode = .relaxed

theorem usedBlock_right {b : ProductDependencyInfos}
    (h : r.usedBlock data product dep = .ok b) : RightBlock r data dep.parameters b := by
  unfold usedBlock addUsedProduct at h
  simp only [Fallible.bind_eq_ok_iff, qbsCheck_eq_ok_iff, List.nil_append] at h
  rcases h with ⟨_, -, h⟩
  by_cases hstar : dep.profile = "*"
  · rw [if_pos hstar, Fallible.pure_eq_ok_iff] at h
    subst h
    constructor
    · intro e he
      rcases List.mem_map.mp he with ⟨p, -, rfl⟩
      rfl
    · intro e he
      rcases List.mem_map.mp he with ⟨p, hp, rfl⟩
      exact mem_of_mem_visitedProducts (List.mem_of_mem_filter hp)
    · apply iff_of_false
      · simp
      · intro hdisabled
        rcases hdisabled with ⟨e, he, hdisabled⟩
        rcases List.mem_map.mp he with ⟨p, hp, rfl⟩
        have hmatch := (List.mem_filter.mp hp).2
        simp [matchesAnyProfile, hdisabled] at hmatch
    · intro hflag
      cases hflag
  · rw [if_neg hstar, Fallible.bind_eq_ok_iff] at h
    rcases h with ⟨q, hq, h⟩
    have hmem := mem_of_findUsedProduct hq
    have hsingle (flag : Bool) (hflag : flag = true ↔ (data q).enabled = false)
        (hrelaxed : flag = true → r.productErrorMode = .relaxed) :
        RightBlock r data dep.parameters ⟨[(q, dep.parameters)], flag⟩ := by
      constructor
      · simp
      · simpa using hmem
      · simpa using hflag
      · exact hrelaxed
    split_ifs at h with henabled hrequired hstrict
    · cases h
      apply hsingle
      · simp [henabled]
      · simp
    · cases h
      exact ⟨by simp, by simp, by simp, by simp⟩
    · cases h
      apply hsingle
      · simpa using henabled
      · intro _
        cases hmode : r.productErrorMode with
        | strict => exact absurd hmode hstrict
        | relaxed => rfl

/-- A used product that does not exist, or not with the profile that is asked for. -/
def Missing (r : ProjectResolver) (dep : UsedProduct) : Prop :=
  dep.profile ≠ "*" ∧
    (r.productsByName.lookup dep.uniqueName = none ∨
      ∃ q, r.productsByName.lookup dep.uniqueName = some q ∧ dep.profile ≠ "" ∧
        (r.data q).profile ≠ dep.profile ∧
        ∀ p, p ∈ r.visitedProducts → matchesProfile r.data dep p = false)

theorem usedBlock_of_missing (h : r.Missing dep) :
    ∃ e, r.usedBlock r.data product dep = .error e := by
  rcases h with ⟨hstar, h⟩
  unfold usedBlock addUsedProduct
  cases hcheck : qbsCheck (dep.name ≠ "") "!dependency.name.isEmpty()" with
  | error e => exact ⟨e, rfl⟩
  | ok u =>
      have hfind : ∃ e, r.findUsedProduct r.data product dep = .error e := by
        unfold findUsedProduct
        rcases h with hnone | ⟨q, hq, hne, hprofile, hno⟩
        · rw [hnone]
          exact ⟨_, rfl⟩
        · have hnone : (r.visitedProducts).find? (matchesProfile r.data dep) = none := by
            rw [List.find?_eq_none]
            intro p hp
            simp [hno p hp]
          rw [hq]
          dsimp only
          rw [if_pos (by simp [hne, hprofile]), hnone]
          exact ⟨_, rfl⟩
      rcases hfind with ⟨e, he⟩
      refine ⟨e, ?_⟩
      simp only [bind, Except.bind, if_neg hstar, he]

theorem usedBlock_of_disabled {q : ProductAddr} (hstar : dep.profile ≠ "*")
    (hq : r.findUsedProduct r.data product dep = .ok q) (hdisabled : (r.data q).enabled = false)
    (hrequired : dep.isRequired = true) (hstrict : r.productErrorMode = .strict) :
    ∃ e, r.usedBlock r.data product dep = .error e := by
  unfold usedBlock addUsedProduct
  cases hcheck : qbsCheck (dep.name ≠ "") "!dependency.name.isEmpty()" with
  | error e => exact ⟨e, rfl⟩
  | ok u =>
      simp only [bind, Except.bind, if_neg hstar, hq, hdisabled, hrequired, hstrict]
      exact ⟨_, rfl⟩

end Used

/-! ## The dependencies of one product -/

theorem foldl_append (bs : List ProductDependencyInfos) (a : ProductDependencyInfos) :
    bs.foldl ProductDependencyInfos.append a =
      ⟨a.dependencies ++ bs.flatMap ProductDependencyInfos.dependencies,
        a.hasDisabledDependency || bs.any ProductDependencyInfos.hasDisabledDependency⟩ := by
  induction bs generalizing a with
  | nil => simp
  | cons b bs ih => simp [ih, ProductDependencyInfos.append, Bool.or_assoc]

/-- The dependencies of a product are found exactly if those for all its used products are. -/
theorem getProductDependencies_eq_ok_iff {infos : ProductDependencyInfos} :
    r.getProductDependencies data product = .ok infos ↔
      ∃ bs, List.Forall₂ (fun dep b => r.usedBlock data product dep = .ok b)
        (r.usedProducts product) bs ∧
        infos = ⟨bs.flatMap ProductDependencyInfos.dependencies,
          bs.any ProductDependencyInfos.hasDisabledDependency⟩ := by
  unfold getProductDependencies
  rw [show r.addUsedProduct data product = fun infos dep =>
      (r.usedBlock data product dep).map (ProductDependencyInfos.append infos) from
    funext fun infos => funext fun dep => addUsedProduct_eq infos]
  simp only [Fallible.foldlM_map_eq_ok_iff, foldl_append, List.nil_append, Bool.false_or]

/-- An error for one used product is one for the product. -/
theorem getProductDependencies_error {dep : UsedProduct} (hdep : dep ∈ r.usedProducts product)
    (h : ∃ e, r.usedBlock data product dep = .error e) :
    ∃ e, r.getProductDependencies data product = .error e := by
  rcases h with ⟨e, he⟩
  cases hget : r.getProductDependencies data product with
  | error e' => exact ⟨e', rfl⟩
  | ok infos =>
      rcases getProductDependencies_eq_ok_iff.mp hget with ⟨bs, hbs, -⟩
      rcases List.forall₂_iff_get.mp hbs with ⟨hlength, hblock⟩
      rcases List.mem_iff_get.mp hdep with ⟨i, hi⟩
      have hi' := hblock i i.2 (hlength ▸ i.2)
      rw [hi, he] at hi'
      cases hi'

/-- The dependencies of a product are resolved products. One of them is disabled exactly if this
is noted, which only happens if errors are tolerated. -/
structure RightInfos (r : ProjectResolver) (infos : ProductDependencyInfos) : Prop where
  mem : ∀ e, e ∈ infos.dependencies → e.1 ∈ r.allProducts
  disabled_iff : infos.hasDisabledDependency = true ↔
    ∃ e, e ∈ infos.dependencies ∧ (r.data e.1).enabled = false
  relaxed : infos.hasDisabledDependency = true → r.productErrorMode = .relaxed

theorem getProductDependencies_right {infos : ProductDependencyInfos}
    (h : r.getProductDependencies r.data product = .ok infos) : RightInfos r infos := by
  rcases getProductDependencies_eq_ok_iff.mp h with ⟨bs, hbs, rfl⟩
  have hright : ∀ b, b ∈ bs → ∃ parameters, RightBlock r r.data parameters b := by
    intro b hb
    rcases List.forall₂_iff_get.mp hbs with ⟨hlength, hblock⟩
    rcases List.mem_iff_get.mp hb with ⟨i, hi⟩
    have hi' := hblock i (by rw [hlength]; exact i.2) i.2
    rw [hi] at hi'
    exact ⟨_, usedBlock_right hi'⟩
  constructor
  · intro e he
    rcases List.mem_flatMap.mp he with ⟨b, hb, he⟩
    rcases hright b hb with ⟨_, hb⟩
    exact hb.mem e he
  · simp only [List.any_eq_true, List.mem_flatMap]
    constructor
    · intro hflag
      rcases hflag with ⟨b, hb, hflag⟩
      rcases hright b hb with ⟨_, hblock⟩
      rcases hblock.disabled_iff.mp hflag with ⟨e, he, hdisabled⟩
      exact ⟨e, ⟨b, hb, he⟩, hdisabled⟩
    · intro hdisabled
      rcases hdisabled with ⟨e, ⟨b, hb, he⟩, hdisabled⟩
      rcases hright b hb with ⟨_, hblock⟩
      exact ⟨b, hb, hblock.disabled_iff.mpr ⟨e, he, hdisabled⟩⟩
  · simp only [List.any_eq_true]
    intro hflag
    rcases hflag with ⟨b, hb, hflag⟩
    rcases hright b hb with ⟨_, hblock⟩
    exact hblock.relaxed hflag

theorem mem_addDependency {n : ProductNode} {dep : ProductAddr × VariantMap} :
    p ∈ (n.addDependency dep).dependencies ↔ p ∈ n.dependencies ∨ p = dep.1 := by
  unfold ProductNode.addDependency
  dsimp only
  split_ifs with h
  · constructor
    · exact Or.inl
    · intro hp
      rcases hp with hp | rfl
      · exact hp
      · exact h
  · rw [List.mem_append, List.mem_singleton]

theorem nodup_addDependency {n : ProductNode} (h : n.dependencies.Nodup)
    (dep : ProductAddr × VariantMap) : (n.addDependency dep).dependencies.Nodup := by
  unfold ProductNode.addDependency
  dsimp only
  split_ifs with hmem
  · exact h
  · rw [List.nodup_append]
    refine ⟨h, List.nodup_singleton _, ?_⟩
    intro a ha b hb hEq
    rw [List.mem_singleton] at hb
    rw [hEq, hb] at ha
    exact hmem ha

/-- What recording some dependencies makes of a product. -/
theorem foldl_addDependency (deps : List (ProductAddr × VariantMap)) (n : ProductNode) :
    (deps.foldl ProductNode.addDependency n).toProductData = n.toProductData ∧
      (∀ p, p ∈ (deps.foldl ProductNode.addDependency n).dependencies ↔
        p ∈ n.dependencies ∨ ∃ e, e ∈ deps ∧ p = e.1) ∧
      (n.dependencies.Nodup → (deps.foldl ProductNode.addDependency n).dependencies.Nodup) := by
  induction deps generalizing n with
  | nil => simp
  | cons dep deps ih =>
      rcases ih (n.addDependency dep) with ⟨hdata, hmem, hnodup⟩
      refine ⟨hdata, ?_, fun h => hnodup (nodup_addDependency h dep)⟩
      intro p
      rw [List.foldl_cons, hmem, mem_addDependency, List.exists_mem_cons_iff, or_assoc]

/-! ## The dependencies of all products -/

/-- What a product becomes when its dependencies are recorded, and whether one of them is
disabled. -/
def node (r : ProjectResolver) (p : ProductAddr) :
    Except ErrorInfo (ProductNode × Bool) :=
  if (r.data p).enabled then
    (r.getProductDependencies r.data p).map fun infos =>
      (infos.dependencies.foldl ProductNode.addDependency (r.created p),
        infos.hasDisabledDependency)
  else .ok (r.created p, false)

/-- The product keeps its data, and has each of its dependencies once. -/
structure RightNode (r : ProjectResolver) (p : ProductAddr) (n : ProductNode × Bool) : Prop where
  data : n.1.toProductData = r.data p
  mem : ∀ d, d ∈ n.1.dependencies → d ∈ r.allProducts
  nodup : n.1.dependencies.Nodup
  enabled : n.1.dependencies ≠ [] → (r.data p).enabled = true
  disabled_iff : n.2 = true ↔ ∃ d, d ∈ n.1.dependencies ∧ (r.data d).enabled = false
  relaxed : n.2 = true → r.productErrorMode = .relaxed

theorem node_right {n : ProductNode × Bool} (h : r.node p = .ok n) :
    RightNode r p n := by
  unfold node at h
  split_ifs at h with henabled
  · cases hget : r.getProductDependencies r.data p with
    | error e =>
        rw [hget] at h
        cases h
    | ok infos =>
        rw [hget] at h
        cases h
        have hinfos := getProductDependencies_right hget
        rcases foldl_addDependency infos.dependencies (r.created p) with ⟨hdata, hmem, hnodup⟩
        have hmem' : ∀ d, d ∈ (infos.dependencies.foldl ProductNode.addDependency
            (r.created p)).dependencies ↔ ∃ e, e ∈ infos.dependencies ∧ d = e.1 := by
          intro d
          rw [hmem]
          simp [created]
        constructor
        · exact hdata
        · intro d hd
          rcases (hmem' d).mp hd with ⟨e, he, rfl⟩
          exact hinfos.mem e he
        · exact hnodup List.nodup_nil
        · intro _
          exact henabled
        · rw [hinfos.disabled_iff]
          constructor
          · intro hdisabled
            rcases hdisabled with ⟨e, he, hdisabled⟩
            exact ⟨e.1, (hmem' e.1).mpr ⟨e, he, rfl⟩, hdisabled⟩
          · intro hdisabled
            rcases hdisabled with ⟨d, hd, hdisabled⟩
            rcases (hmem' d).mp hd with ⟨e, he, rfl⟩
            exact ⟨e, he, hdisabled⟩
        · exact hinfos.relaxed
  · cases h
    exact ⟨rfl, by simp [created], List.nodup_nil, by simp [created], by simp [created], by simp⟩

theorem recordDependencies_eq (hdata : ∀ q, (s.1 q).toProductData = r.data q)
    (hp : s.1 p = r.created p) :
    r.recordDependencies s p =
      (r.node p).map fun n => (Function.update s.1 p n.1, s.2 || n.2) := by
  have henabled : (s.1 p).enabled = (r.data p).enabled := congrArg ProductData.enabled (hdata p)
  unfold recordDependencies node
  rw [henabled, show (fun q => (s.1 q).toProductData) = r.data from funext hdata, hp]
  by_cases h : (r.data p).enabled = true
  · simp only [h, Bool.not_true, Bool.false_eq_true, if_false, if_true]
    cases r.getProductDependencies r.data p <;> rfl
  · have hupdate : Function.update s.1 p (r.created p) = s.1 := by
      rw [← hp, Function.update_eq_self]
    simp [h, Except.map, hupdate, pure, Except.pure]

/-- The dependencies of some products were recorded. -/
structure Recorded (r : ProjectResolver) (l : List ProductAddr)
    (s t : ResolvedProducts × Bool) : Prop where
  outside : ∀ p, p ∉ l → t.1 p = s.1 p
  inside : ∀ p, p ∈ l → ∃ flag, r.node p = .ok (t.1 p, flag)
  flag_iff : t.2 = true ↔ s.2 = true ∨ ∃ p n, p ∈ l ∧ r.node p = .ok (n, true)

/-- Recording the dependencies of some products fails exactly if it does for one of them. -/
inductive RecordOutcome (r : ProjectResolver) (l : List ProductAddr)
    (s : ResolvedProducts × Bool) : Except ErrorInfo (ResolvedProducts × Bool) → Prop where
  | recorded {t : ResolvedProducts × Bool} (h : Recorded r l s t) :
      RecordOutcome r l s (.ok t)
  | failed {p : ProductAddr} {e e' : ErrorInfo} (hp : p ∈ l) (he : r.node p = .error e) :
      RecordOutcome r l s (.error e')

/-- The dependencies of some products are still to be recorded. -/
structure Pending (r : ProjectResolver) (l : List ProductAddr) (s : ResolvedProducts × Bool) :
    Prop where
  nodup : l.Nodup
  data : ∀ p, (s.1 p).toProductData = r.data p
  created : ∀ p, p ∈ l → s.1 p = r.created p

theorem Pending.start (r : ProjectResolver) : Pending r r.allProducts (r.created, false) :=
  ⟨r.distinct, fun _ => rfl, fun _ _ => rfl⟩

theorem Pending.record (h : Pending r (p :: l) s) {n : ProductNode × Bool} (hn : r.node p = .ok n) :
    Pending r l (Function.update s.1 p n.1, s.2 || n.2) := by
  have hl := List.nodup_cons.mp h.nodup
  constructor
  · exact hl.2
  · intro q
    dsimp only
    by_cases hq : q = p
    · rw [hq, Function.update_self]
      exact (node_right hn).data
    · rw [Function.update_of_ne hq]
      exact h.data q
  · intro q hq
    dsimp only
    have hne : q ≠ p := fun hEq => hl.1 (hEq ▸ hq)
    rw [Function.update_of_ne hne]
    exact h.created q (List.mem_cons_of_mem p hq)

theorem foldlM_recordDependencies (hs : Pending r l s) :
    RecordOutcome r l s (l.foldlM (r.recordDependencies) s) := by
  induction l generalizing s with
  | nil => exact RecordOutcome.recorded ⟨fun _ _ => rfl, by simp, by simp⟩
  | cons p l ih =>
      have hl := List.nodup_cons.mp hs.nodup
      rw [List.foldlM_cons, recordDependencies_eq hs.data (hs.created p List.mem_cons_self)]
      cases hnode : r.node p with
      | error e => exact RecordOutcome.failed List.mem_cons_self hnode
      | ok n =>
          have hrest := ih (hs.record hnode)
          simp only [Except.map, bind, Except.bind]
          generalize l.foldlM (r.recordDependencies) (Function.update s.1 p n.1, s.2 || n.2) = o
            at hrest
          cases hrest with
          | failed hq he => exact RecordOutcome.failed (List.mem_cons_of_mem p hq) he
          | @recorded t h =>
              apply RecordOutcome.recorded
              constructor
              · intro q hq
                rw [List.mem_cons, not_or] at hq
                rw [h.outside q hq.2]
                exact Function.update_of_ne hq.1 _ _
              · intro q hq
                rcases List.mem_cons.mp hq with rfl | hq
                · refine ⟨n.2, ?_⟩
                  rw [h.outside q hl.1, hnode]
                  simp
                · exact h.inside q hq
              · rw [h.flag_iff, Bool.or_eq_true, or_assoc]
                refine or_congr_right ?_
                constructor
                · intro hflag
                  rcases hflag with hflag | ⟨q, m, hq, hm⟩
                  · exact ⟨p, n.1, List.mem_cons_self, by rw [hnode, ← hflag]⟩
                  · exact ⟨q, m, List.mem_cons_of_mem p hq, hm⟩
                · intro hflag
                  rcases hflag with ⟨q, m, hq, hm⟩
                  rcases List.mem_cons.mp hq with rfl | hq
                  · rw [hnode] at hm
                    cases hm
                    exact Or.inl rfl
                  · exact Or.inr ⟨q, m, hq, hm⟩

theorem recordAll_outcome (r : ProjectResolver) :
    RecordOutcome r r.allProducts (r.created, false) (r.recordAll) :=
  foldlM_recordDependencies (Pending.start r)

/-- The products with all their recorded dependencies. -/
structure RightProducts (r : ProjectResolver) (s : ResolvedProducts × Bool) : Prop where
  data : ∀ p, (s.1 p).toProductData = r.data p
  mem : ∀ p d, d ∈ (s.1 p).dependencies → d ∈ r.allProducts
  outside : ∀ p, p ∉ r.allProducts → (s.1 p).dependencies = []
  nodup : ∀ p, (s.1 p).dependencies.Nodup
  enabled : ∀ p, (s.1 p).dependencies ≠ [] → (r.data p).enabled = true
  disabled_iff : s.2 = true ↔ ∃ p d, d ∈ (s.1 p).dependencies ∧ (r.data d).enabled = false
  relaxed : s.2 = true → r.productErrorMode = .relaxed

theorem Recorded.right (h : Recorded r r.allProducts (r.created, false) s) : RightProducts r s := by
  have hcreated : ∀ p, p ∉ r.allProducts → s.1 p = r.created p := h.outside
  have hnode : ∀ p, p ∈ r.allProducts → ∃ flag, RightNode r p (s.1 p, flag) ∧
      r.node p = .ok (s.1 p, flag) := by
    intro p hp
    rcases h.inside p hp with ⟨flag, hflag⟩
    exact ⟨flag, node_right hflag, hflag⟩
  constructor
  · intro p
    by_cases hp : p ∈ r.allProducts
    · rcases hnode p hp with ⟨flag, hright, -⟩
      exact hright.data
    · rw [hcreated p hp]
      rfl
  · intro p d hd
    by_cases hp : p ∈ r.allProducts
    · rcases hnode p hp with ⟨flag, hright, -⟩
      exact hright.mem d hd
    · rw [hcreated p hp] at hd
      cases hd
  · intro p hp
    rw [hcreated p hp]
    rfl
  · intro p
    by_cases hp : p ∈ r.allProducts
    · rcases hnode p hp with ⟨flag, hright, -⟩
      exact hright.nodup
    · rw [hcreated p hp]
      exact List.nodup_nil
  · intro p hdeps
    by_cases hp : p ∈ r.allProducts
    · rcases hnode p hp with ⟨flag, hright, -⟩
      exact hright.enabled hdeps
    · rw [hcreated p hp] at hdeps
      exact absurd rfl hdeps
  · rw [h.flag_iff]
    constructor
    · intro hflag
      rcases hflag with hflag | ⟨p, n, hp, hn⟩
      · cases hflag
      · rcases hnode p hp with ⟨flag, hright, heq⟩
        rw [hn] at heq
        cases heq
        rcases hright.disabled_iff.mp rfl with ⟨d, hd, hdisabled⟩
        exact ⟨p, d, hd, hdisabled⟩
    · intro hdisabled
      rcases hdisabled with ⟨p, d, hd, hdisabled⟩
      by_cases hp : p ∈ r.allProducts
      · rcases hnode p hp with ⟨flag, hright, heq⟩
        have hflag : flag = true := hright.disabled_iff.mpr ⟨d, hd, hdisabled⟩
        exact Or.inr ⟨p, s.1 p, hp, hflag ▸ heq⟩
      · rw [hcreated p hp] at hd
        cases hd
  · intro hflag
    rcases h.flag_iff.mp hflag with hfalse | ⟨p, n, hp, hn⟩
    · cases hfalse
    · exact (node_right hn).relaxed rfl

/-! ## Cyclic dependencies -/

/-- A product depends on another one. -/
def DependsOn (s : ResolvedProducts) (p d : ProductAddr) : Prop :=
  d ∈ (s p).dependencies

/-- Some products depend on each other in a cycle. -/
def Cyclic (s : ResolvedProducts) : Prop :=
  ∃ p, Relation.TransGen (DependsOn s) p p

theorem checkForCycles_eq_ok_iff (h : RightProducts r s) :
    r.checkForCycles s.1 = .ok () ↔ ¬Cyclic s.1 := by
  have hnone : CycleCheck.firstCycle (next s.1) r.bound r.allProducts ∅ = none ↔
      ∀ p, p ∈ r.allProducts → ¬CycleSearch.LeadsToCycle (next s.1) p := by
    apply CycleCheck.firstCycle_eq_none_iff
    · intro p _ d hd
      exact h.mem p d hd
    · exact Nat.lt_succ_self _
    · exact fun p hp => hp
    · intro p hp
      exact absurd hp (SortedSet.not_mem_empty p)
  have hcyclic : (∀ p, p ∈ r.allProducts → ¬CycleSearch.LeadsToCycle (next s.1) p) ↔
      ¬Cyclic s.1 := by
    constructor
    · intro hleads hcycle
      rcases hcycle with ⟨p, hp⟩
      have hmem : p ∈ r.allProducts := by
        rcases Relation.TransGen.tail'_iff.mp hp with ⟨q, -, hq⟩
        exact h.mem q p hq
      exact hleads p hmem ⟨p, Relation.ReflTransGen.refl, hp⟩
    · intro hcycle p _ hleads
      rcases hleads with ⟨c, -, hc⟩
      exact hcycle ⟨c, hc⟩
  rw [← hcyclic, ← hnone]
  unfold checkForCycles
  cases CycleCheck.firstCycle (next s.1) r.bound r.allProducts ∅ <;> simp

/-! ## Disabled products -/

/-- The products with other flags for being enabled. -/
def withEnabled (s : ResolvedProducts) (f : ProductAddr → Bool) : ResolvedProducts :=
  fun p => { s p with enabled := f p }

/-- A disabled product can be reached from a product through dependencies. -/
def ReachesDisabled (s : ResolvedProducts) (p : ProductAddr) : Prop :=
  ∃ d, Relation.TransGen (DependsOn s) p d ∧ (s d).enabled = false

/-- Disabled by now are the products that were, and only such from which one of these can be
reached. -/
structure Marked (s : ResolvedProducts) (f : ProductAddr → Bool) : Prop where
  keep : ∀ p, (s p).enabled = false → f p = false
  only : ∀ p, f p = false → (s p).enabled = false ∨ ReachesDisabled s p

theorem disable_products {s : ResolvedProducts} (ht : t.products = withEnabled s f)
    (d p : ProductAddr) :
    (disable d t p).products = withEnabled s fun q => f q && q != p := by
  unfold disable
  have henabled : (t.products p).enabled = f p := by rw [ht]; rfl
  rw [henabled]
  split_ifs with hf
  · funext q
    dsimp only
    by_cases hq : q = p
    · rw [hq, Function.update_self, ht]
      simp [withEnabled]
    · rw [Function.update_of_ne hq, ht]
      simp [withEnabled, hq]
  · rw [ht]
    funext q
    unfold withEnabled
    by_cases hq : q = p
    · simp only [Bool.not_eq_true] at hf
      simp [hq, hf]
    · simp [hq]

theorem foldl_disable_products {s : ResolvedProducts} (d : ProductAddr) (l : List ProductAddr)
    (ht : t.products = withEnabled s f) :
    (l.foldl (disable d) t).products = withEnabled s fun q => f q && !l.contains q := by
  induction l generalizing t f with
  | nil => simpa using ht
  | cons p l ih =>
      rw [List.foldl_cons, ih (disable_products ht d p)]
      congr 1
      funext q
      simp only [List.contains_cons, Bool.not_or, Bool.and_assoc, bne]

theorem Marked.start (s : ResolvedProducts) : Marked s fun p => (s p).enabled :=
  ⟨fun _ h => h, fun _ h => Or.inl h⟩

/-- What is in front of a disabled product can be marked. -/
theorem Marked.disable {s : ResolvedProducts} (h : Marked s f) {d : ProductAddr} (hd : f d = false)
    (hl : ∀ p, p ∈ l → Relation.TransGen (DependsOn s) p d) :
    Marked s fun p => f p && !l.contains p := by
  constructor
  · intro p hp
    simp [h.keep p hp]
  · intro p hp
    simp only [Bool.and_eq_false_iff, Bool.not_eq_false', List.contains_iff_mem] at hp
    rcases hp with hp | hp
    · exact h.only p hp
    · rcases h.only d hd with hdisabled | ⟨d', hpath, hdisabled⟩
      · exact Or.inr ⟨d, hl p hp, hdisabled⟩
      · exact Or.inr ⟨d', (hl p hp).trans hpath, hdisabled⟩

/-- What disabling leads to after some entries of the table. -/
theorem foldl_disableDependingProducts {s : ResolvedProducts}
    {l : List (Sigma fun _ : ProductAddr => SortedSet ProductAddr)}
    (hl : ∀ e, e ∈ l → ∀ p, p ∈ e.2 → Relation.TransGen (DependsOn s) p e.1)
    (ht : t.products = withEnabled s f) (hf : Marked s f) :
    ∃ f', (l.foldl disableDependingProducts t).products = withEnabled s f' ∧ Marked s f' ∧
      (∀ p, f p = false → f' p = false) ∧
      ∀ e, e ∈ l → (s e.1).enabled = false → ∀ p, p ∈ e.2 → f' p = false := by
  induction l generalizing t f with
  | nil => exact ⟨f, ht, hf, fun _ h => h, by simp⟩
  | cons e l ih =>
      have hrest := fun e' he' => hl e' (List.mem_cons_of_mem e he')
      have henabled : (t.products e.1).enabled = f e.1 := by
        rw [ht]
        rfl
      rw [List.foldl_cons]
      unfold disableDependingProducts
      rw [henabled]
      split_ifs with he
      · rcases ih hrest ht hf with ⟨f', hproducts, hmarked, hmono, hdone⟩
        refine ⟨f', hproducts, hmarked, hmono, ?_⟩
        intro e' he' hdisabled p hp
        rcases List.mem_cons.mp he' with rfl | he'
        · rw [hf.keep _ hdisabled] at he
          cases he
        · exact hdone e' he' hdisabled p hp
      · have hfold := foldl_disable_products e.1 e.2.elems ht
        have hmark := hf.disable (by simpa using he) (hl e List.mem_cons_self)
        rcases ih hrest hfold hmark with ⟨f', hproducts, hmarked, hmono, hdone⟩
        refine ⟨f', hproducts, hmarked, fun p hp => hmono p (by simp [hp]), ?_⟩
        intro e' he' hdisabled p hp
        rcases List.mem_cons.mp he' with rfl | he'
        · exact hmono p (by simp [SortedSet.mem_def.mp hp])
        · exact hdone e' he' hdisabled p hp

theorem mem_value_reversed {l : List (Sigma fun _ : ProductAddr => SortedSet ProductAddr)}
    {d : ProductAddr} :
    p ∈ Closures.value (reversed l) d ↔ ∃ e, e ∈ l ∧ d ∈ e.2 ∧ p = e.1 := by
  have hinner : ∀ (q : ProductAddr) (deps : List ProductAddr) (m : Closures ProductAddr),
      p ∈ Closures.value (deps.foldl (fun m dep => Closures.add m dep q) m) d ↔
        p ∈ Closures.value m d ∨ d ∈ deps ∧ p = q := by
    intro q deps
    induction deps with
    | nil => simp
    | cons dep deps ih =>
        intro m
        rw [List.foldl_cons, ih, Closures.mem_value_add, List.mem_cons]
        tauto
  have houter : ∀ (l : List (Sigma fun _ : ProductAddr => SortedSet ProductAddr))
      (m : Closures ProductAddr),
      p ∈ Closures.value
          (l.foldl (fun m e => e.2.elems.foldl (fun m dep => Closures.add m dep e.1) m) m) d ↔
        p ∈ Closures.value m d ∨ ∃ e, e ∈ l ∧ d ∈ e.2 ∧ p = e.1 := by
    intro l
    induction l with
    | nil => simp
    | cons e l ih =>
        intro m
        rw [List.foldl_cons, ih, hinner, List.exists_mem_cons_iff, or_assoc]
        rfl
  have hempty : p ∉ Closures.value (∅ : Closures ProductAddr) d := by simp [Closures.value]
  unfold reversed
  rw [houter, or_iff_right hempty]

/-- Exactly the products that can reach a disabled one are disabled. -/
structure DisabledFrom (s : ResolvedProducts) (f : ProductAddr → Bool) : Prop where
  iff : ∀ p, f p = false ↔ (s p).enabled = false ∨ ReachesDisabled s p

theorem disableProducts_spec (hash : HashOrders) (h : RightProducts r s) (hacyclic : ¬Cyclic s.1) :
    ∃ f, (r.disableProducts hash s.1).products = withEnabled s.1 f ∧ DisabledFrom s.1 f := by
  have hclosures : Closures.Exact (next s.1) [] (r.allDependencies s.1) ∧
      ∀ p, p ∈ r.allProducts → ((r.allDependencies s.1).lookup p).isSome := by
    apply Closures.gatherAll_spec
    · intro p _ d hd
      exact h.mem p d hd
    · intro p hp
      exact hacyclic ⟨p, hp⟩
    · exact Nat.lt_succ_self _
    · exact fun p hp => hp
  let entries := hash.allDeps.visit (r.allDependencies s.1).entries
  have hentries : ∀ e, e ∈ entries ↔ (r.allDependencies s.1).lookup e.1 = some e.2 := by
    intro e
    rw [(hash.allDeps.perm _).mem_iff]
    exact AList.mem_lookup_iff.symm
  have hvalue : ∀ d p, p ∈ Closures.value (reversed entries) d ↔
      Relation.TransGen (DependsOn s.1) p d := by
    intro d p
    rw [mem_value_reversed]
    constructor
    · intro hex
      rcases hex with ⟨e, he, hd, rfl⟩
      have hlookup := (hentries e).mp he
      have heq : Closures.value (r.allDependencies s.1) e.1 = e.2 := by
        unfold Closures.value
        rw [hlookup]
        rfl
      exact (hclosures.1 e.1 (by rw [hlookup]; rfl) List.not_mem_nil d).mp (heq ▸ hd)
    · intro hpath
      have hp : p ∈ r.allProducts := by
        by_contra hp
        rcases Relation.TransGen.head'_iff.mp hpath with ⟨c, hc, -⟩
        have hc : c ∈ (s.1 p).dependencies := hc
        rw [h.outside p hp] at hc
        cases hc
      have hd := (hclosures.1 p (hclosures.2 p hp) List.not_mem_nil d).mpr hpath
      exact ⟨⟨p, _⟩, (hentries _).mpr (Closures.exists_lookup_of_mem_value hd), hd, rfl⟩
  let reversedEntries := hash.allDepsReversed.visit (reversed entries).entries
  have hreversed : ∀ e, e ∈ reversedEntries ↔ (reversed entries).lookup e.1 = some e.2 := by
    intro e
    rw [(hash.allDepsReversed.perm _).mem_iff]
    exact AList.mem_lookup_iff.symm
  have hbehind : ∀ e, e ∈ reversedEntries → ∀ p, p ∈ e.2 →
      Relation.TransGen (DependsOn s.1) p e.1 := by
    intro e he p hp
    rw [← hvalue]
    unfold Closures.value
    rw [(hreversed e).mp he]
    exact hp
  rcases foldl_disableDependingProducts (t := ⟨s.1, []⟩) hbehind rfl (Marked.start s.1) with
    ⟨f, hproducts, hmarked, -, hdone⟩
  refine ⟨f, hproducts, ⟨fun p => ⟨hmarked.only p, ?_⟩⟩⟩
  intro hp
  rcases hp with hp | ⟨d, hpath, hdisabled⟩
  · exact hmarked.keep p hp
  · have hmem := (hvalue d p).mpr hpath
    exact hdone ⟨d, _⟩ ((hreversed _).mpr (Closures.exists_lookup_of_mem_value hmem)) hdisabled p
      hmem

/-! ## The outcome for one order of the hash tables -/

/-- An enabled product requires a disabled one. -/
def RequiresDisabled (r : ProjectResolver) : Prop :=
  ∃ p dep q, p ∈ r.allProducts ∧ (r.data p).enabled = true ∧ dep ∈ r.usedProducts p ∧
    dep.profile ≠ "*" ∧ dep.isRequired = true ∧ r.findUsedProduct r.data p dep = .ok q ∧
    (r.data q).enabled = false

/-- What the resolved products are like. -/
structure Settled (r : ProjectResolver) (t : ResolvedProducts) : Prop where
  noDisabledDependency : ∀ p d, (t p).enabled = true → d ∈ (t p).dependencies →
    (t d).enabled = true
  disabled_iff : ∀ p, (r.data p).enabled = true →
    ((t p).enabled = false ↔
      ∃ d, Relation.TransGen (DependsOn t) p d ∧ (r.data d).enabled = false)
  staysDisabled : ∀ p, (r.data p).enabled = false → (t p).enabled = false
  nodup : ∀ p, (t p).dependencies.Nodup

/-- The outcome is an error where it has to be, and otherwise a settled project. -/
structure RightOutcome (hash : HashOrders) (r : ProjectResolver) : Prop where
  missing : (∃ p dep, p ∈ r.allProducts ∧ (r.data p).enabled = true ∧ dep ∈ r.usedProducts p ∧
    r.Missing dep) → ∃ e, r.resolveProductDependencies hash = .error e
  strict : r.productErrorMode = .strict → r.RequiresDisabled →
    ∃ e, r.resolveProductDependencies hash = .error e
  cyclic : ∀ s, r.recordAll = .ok s → Cyclic s.1 →
    ∃ e, r.resolveProductDependencies hash = .error e
  settled : ∀ t, r.resolveProductDependencies hash = .ok t → Settled r t.products

/-- The outcome after the dependencies were recorded. -/
inductive ResolveOutcome (r : ProjectResolver) :
    Except ErrorInfo ResolvedDependencies → Prop where
  | notRecorded {p : ProductAddr} {e e' : ErrorInfo} (hp : p ∈ r.allProducts)
      (he : r.node p = .error e) (hrecord : ∃ e, r.recordAll = .error e) :
      ResolveOutcome r (.error e')
  | cyclic {s : ResolvedProducts × Bool} {e : ErrorInfo} (hrecord : r.recordAll = .ok s)
      (h : Recorded r r.allProducts (r.created, false) s) (hcyclic : Cyclic s.1) :
      ResolveOutcome r (.error e)
  | resolved {s : ResolvedProducts × Bool} {t : ResolvedDependencies} {f : ProductAddr → Bool}
      (hrecord : r.recordAll = .ok s)
      (h : Recorded r r.allProducts (r.created, false) s) (hacyclic : ¬Cyclic s.1)
      (ht : t.products = withEnabled s.1 f) (hf : DisabledFrom s.1 f) :
      ResolveOutcome r (.ok t)

/-- Without a disabled dependency, no disabled product is reached. -/
theorem RightProducts.disabledFrom (h : RightProducts r s) (hflag : ¬s.2 = true) :
    DisabledFrom s.1 fun p => (s.1 p).enabled := by
  constructor
  intro p
  constructor
  · exact Or.inl
  · intro hp
    rcases hp with hp | ⟨d, hpath, hdisabled⟩
    · exact hp
    · rcases Relation.TransGen.tail'_iff.mp hpath with ⟨c, -, hc⟩
      have henabled : (r.data d).enabled = false := by
        rw [← h.data d]
        exact hdisabled
      exact absurd (h.disabled_iff.mpr ⟨c, d, hc, henabled⟩) hflag

theorem resolveProductDependencies_outcome (hash : HashOrders) (r : ProjectResolver) :
    ResolveOutcome r (r.resolveProductDependencies hash) := by
  have hrecord := recordAll_outcome r
  unfold resolveProductDependencies
  cases heq : r.recordAll with
  | error e =>
      rw [heq] at hrecord
      cases hrecord with
      | failed hp he => exact ResolveOutcome.notRecorded hp he ⟨e, heq⟩
  | ok s =>
      rw [heq] at hrecord
      cases hrecord with
      | recorded h =>
          have hcheck := checkForCycles_eq_ok_iff h.right
          simp only [bind, Except.bind]
          cases hcycles : r.checkForCycles s.1 with
          | error e =>
              apply ResolveOutcome.cyclic heq h
              by_contra hacyclic
              rw [hcheck.mpr hacyclic] at hcycles
              cases hcycles
          | ok u =>
              have hacyclic := hcheck.mp hcycles
              dsimp only
              split_ifs with hmode
              · rcases disableProducts_spec hash h.right hacyclic with ⟨f, ht, hf⟩
                exact ResolveOutcome.resolved heq h hacyclic ht hf
              · have hflag : ¬s.2 = true := by
                  intro hflag
                  simp [hflag, h.right.relaxed hflag] at hmode
                exact ResolveOutcome.resolved (t := ⟨s.1, []⟩) heq h hacyclic rfl
                  (h.right.disabledFrom hflag)

theorem dependsOn_withEnabled (s : ResolvedProducts) (f : ProductAddr → Bool) :
    DependsOn (withEnabled s f) = DependsOn s :=
  rfl

theorem settled_withEnabled (h : RightProducts r s) (hf : DisabledFrom s.1 f) :
    Settled r (withEnabled s.1 f) := by
  have henabled : ∀ p, (s.1 p).enabled = (r.data p).enabled :=
    fun p => congrArg ProductData.enabled (h.data p)
  constructor
  · intro p d hp hd
    have hp : f p = true := hp
    show f d = true
    by_contra hfalse
    have hpath : Relation.TransGen (DependsOn s.1) p d := Relation.TransGen.single hd
    have hreaches : ReachesDisabled s.1 p := by
      rcases (hf.iff d).mp (by simpa using hfalse) with hdisabled | ⟨d', hpath', hdisabled⟩
      · exact ⟨d, hpath, hdisabled⟩
      · exact ⟨d', hpath.trans hpath', hdisabled⟩
    rw [(hf.iff p).mpr (Or.inr hreaches)] at hp
    cases hp
  · intro p hp
    rw [dependsOn_withEnabled]
    show f p = false ↔ _
    rw [hf.iff, henabled, hp]
    simp only [ReachesDisabled, henabled, Bool.true_eq_false, false_or]
  · intro p hp
    exact (hf.iff p).mpr (Or.inl ((henabled p).trans hp))
  · exact h.nodup

theorem node_of_usedBlock {dep : UsedProduct} (hp : (r.data p).enabled = true)
    (hdep : dep ∈ r.usedProducts p) (h : ∃ e, r.usedBlock r.data p dep = .error e) :
    ∃ e, r.node p = .error e := by
  rcases getProductDependencies_error hdep h with ⟨e, he⟩
  refine ⟨e, ?_⟩
  unfold node
  rw [if_pos hp, he]
  rfl

/-- An error for one product is one for the project. -/
theorem resolve_of_node (hp : p ∈ r.allProducts) (h : ∃ e, r.node p = .error e) :
    ∃ e, r.resolveProductDependencies hash = .error e := by
  rcases h with ⟨e, he⟩
  have houtcome := resolveProductDependencies_outcome hash r
  generalize r.resolveProductDependencies hash = o at houtcome
  cases houtcome with
  | notRecorded => exact ⟨_, rfl⟩
  | cyclic => exact ⟨_, rfl⟩
  | resolved _ h =>
      rcases h.inside p hp with ⟨flag, hflag⟩
      rw [he] at hflag
      cases hflag

theorem resolveProductDependencies_rightOutcome (hash : HashOrders) (r : ProjectResolver) :
    RightOutcome hash r := by
  constructor
  · intro hmissing
    rcases hmissing with ⟨p, dep, hp, henabled, hdep, hmissing⟩
    exact resolve_of_node hp (node_of_usedBlock henabled hdep (usedBlock_of_missing hmissing))
  · intro hmode hrequires
    rcases hrequires with ⟨p, dep, q, hp, henabled, hdep, hstar, hrequired, hq, hdisabled⟩
    exact resolve_of_node hp (node_of_usedBlock henabled hdep
      (usedBlock_of_disabled hstar hq hdisabled hrequired hmode))
  · intro s hs hcyclic
    have houtcome := resolveProductDependencies_outcome hash r
    generalize r.resolveProductDependencies hash = o at houtcome
    cases houtcome with
    | notRecorded => exact ⟨_, rfl⟩
    | cyclic => exact ⟨_, rfl⟩
    | resolved hrecord _ hacyclic =>
        rw [hs] at hrecord
        cases hrecord
        exact absurd hcyclic hacyclic
  · intro t ht
    have houtcome := resolveProductDependencies_outcome hash r
    rw [ht] at houtcome
    cases houtcome with
    | resolved _ h _ ht hf =>
        rw [ht]
        exact settled_withEnabled h.right hf

/-- What is disabled does not depend on the order of the hash tables. -/
theorem disableProducts_eq (hash hash' : HashOrders) (h : RightProducts r s)
    (hacyclic : ¬Cyclic s.1) :
    (r.disableProducts hash s.1).products = (r.disableProducts hash' s.1).products := by
  rcases disableProducts_spec hash h hacyclic with ⟨f, ht, hf⟩
  rcases disableProducts_spec hash' h hacyclic with ⟨f', ht', hf'⟩
  have hflags : f = f' := by
    funext p
    rw [Bool.eq_iff_iff, ← not_iff_not, Bool.not_eq_true, Bool.not_eq_true, hf.iff, hf'.iff]
  rw [ht, ht', hflags]

/-- What holds of the outcome of resolving the dependencies, whatever the order of the hash tables
is, and that the outcome does not depend on this order. -/
theorem resolveProductDependencies_right (r : ProjectResolver) :
    (∀ hash, RightOutcome hash r) ∧ ∀ hash hash',
      (r.resolveProductDependencies hash).map ResolvedDependencies.products =
        (r.resolveProductDependencies hash').map ResolvedDependencies.products := by
  refine ⟨fun hash => resolveProductDependencies_rightOutcome hash r, fun hash hash' => ?_⟩
  have houtcome := recordAll_outcome r
  unfold resolveProductDependencies
  cases hall : r.recordAll with
  | error e => rfl
  | ok s =>
      rw [hall] at houtcome
      cases houtcome with
      | recorded h =>
          simp only [bind, Except.bind]
          cases hcycles : r.checkForCycles s.1 with
          | error e => rfl
          | ok u =>
              have hacyclic := (checkForCycles_eq_ok_iff h.right).mp hcycles
              dsimp only
              split_ifs
              · exact congrArg Except.ok (disableProducts_eq hash hash' h.right hacyclic)
              · rfl

end ProjectResolver

end Qbs
