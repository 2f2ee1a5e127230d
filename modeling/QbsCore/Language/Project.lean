import QbsCore.Language.Variant
import QbsCore.Library.SortedSet
import Mathlib.Data.String.Basic

/-!
# The resolved project

The part of a resolved project that does not change while it is built: its
products with their properties, dependencies, modules, exported modules and
rules.  Products are named by their unique name and rules by a number, so that
artifacts and transformers can refer to them.

Main results:

- Definition {lit}`ResolvedProduct.depNames`: the names that a script sees in the
  dependency list of a product.
- Theorem {lit}`Project.product?_uniqueName`: products are found under their own
  name.

Current gaps:

- Texts and locations that only occur in messages to the user are left out.
-/

namespace Qbs

/-- The unique name of a product. -/
abbrev ProductId := String

/-- The identity of a rule. -/
abbrev RuleId := Nat

/-- An absolute, cleaned file path. -/
abbrev FilePath := String

/-- A file tag. -/
abbrev FileTag := String

/-- A set of file tags. -/
abbrev FileTags := SortedSet FileTag

/-- A point in time, with 0 for an invalid one. -/
abbrev FileTime := Nat

/-! ## Properties read by scripts -/

/-- Where a property read by a script lives. -/
inductive PropertyKind where
  | propertyInModule
  | propertyInProduct
  | propertyInProject
  | propertyInParameters
  | propertyInArtifact
deriving DecidableEq

/-- A property that a script has read, with the value it got. -/
structure Property where
  productName : String
  moduleName : String
  propertyName : String
  value : Variant
  kind : PropertyKind
deriving DecidableEq

/-- The equality of properties compares neither value nor kind. -/
def Property.sameKey (p q : Property) : Bool :=
  p.productName == q.productName && p.moduleName == q.moduleName &&
    p.propertyName == q.propertyName

theorem Property.sameKey_iff {p q : Property} :
    p.sameKey q = true ↔ p.productName = q.productName ∧ p.moduleName = q.moduleName ∧
      p.propertyName = q.propertyName := by
  simp [sameKey, and_assoc]

theorem Property.sameKey_refl (p : Property) : p.sameKey p = true := by
  simp [sameKey]

theorem Property.sameKey_symm {p q : Property} (h : p.sameKey q = true) :
    q.sameKey p = true := by
  rw [sameKey_iff] at h ⊢
  exact ⟨h.1.symm, h.2.1.symm, h.2.2.symm⟩

/-- A set of properties, at most one for each key. -/
abbrev PropertySet := List Property

/-- An element whose key is there already is not inserted. -/
def PropertySet.insert (s : PropertySet) (p : Property) : PropertySet :=
  if s.any p.sameKey then s else s ++ [p]

namespace PropertySet

variable {s : PropertySet}

theorem mem_insert_cases {p q : Property} (h : q ∈ s.insert p) :
    q ∈ s ∨ q = p := by
  unfold insert at h
  split at h
  · exact Or.inl h
  · simpa using h

theorem subset_insert {p q : Property} (h : q ∈ s) : q ∈ s.insert p := by
  unfold insert
  split
  · exact h
  · exact List.mem_append_left _ h

theorem exists_sameKey_insert (s : PropertySet) (p : Property) :
    ∃ q, q ∈ s.insert p ∧ p.sameKey q = true := by
  unfold insert
  split <;> rename_i h
  · simpa using h
  · exact ⟨p, by simp, p.sameKey_refl⟩

/-- No two elements have the same key. -/
def UniqueKeys (s : PropertySet) : Prop :=
  ∀ p, p ∈ s → ∀ q, q ∈ s → p.sameKey q = true → p = q

theorem UniqueKeys.insert (h : UniqueKeys s) (p : Property) :
    UniqueKeys (s.insert p) := by
  unfold PropertySet.insert
  split <;> rename_i hp
  · exact h
  · have hnew : ∀ q, q ∈ s → p.sameKey q = false := by simpa using hp
    intro a ha b hb hab
    rcases List.mem_append.mp ha with ha | ha <;> rcases List.mem_append.mp hb with hb | hb
    · exact h a ha b hb hab
    · rw [List.mem_singleton.mp hb] at hab
      exact absurd (hnew a ha) (by simp [Property.sameKey_symm hab])
    · rw [List.mem_singleton.mp ha] at hab
      exact absurd (hnew b hb) (by simp [hab])
    · rw [List.mem_singleton.mp ha, List.mem_singleton.mp hb]

/-- What inserting a list of properties one after the other leads to. -/
theorem foldl_insert_spec {l : List Property} (hs : UniqueKeys s) :
    UniqueKeys (l.foldl insert s) ∧ (∀ p, p ∈ s → p ∈ l.foldl insert s) ∧
      (∀ p, p ∈ l.foldl insert s → p ∈ s ∨ p ∈ l) ∧
      ∀ p, p ∈ l → ∃ q, q ∈ l.foldl insert s ∧ p.sameKey q = true := by
  induction l generalizing s with
  | nil => exact ⟨hs, fun _ h => h, fun _ h => Or.inl h, by simp⟩
  | cons a l ih =>
      rcases ih (hs.insert a) with ⟨hunique, hsub, hmem, hkey⟩
      refine ⟨hunique, fun p hp => hsub p (subset_insert hp), ?_, ?_⟩
      · intro p hp
        rcases hmem p hp with hp | hp
        · rcases mem_insert_cases hp with hp | rfl
          · exact Or.inl hp
          · exact Or.inr (by simp)
        · exact Or.inr (List.mem_cons_of_mem a hp)
      · intro p hp
        rcases List.mem_cons.mp hp with rfl | hp
        · rcases exists_sameKey_insert s p with ⟨q, hq, hpq⟩
          exact ⟨q, hsub q hq, hpq⟩
        · exact hkey p hp

/-- The set of a list of properties has all of them exactly when those with the same key are
equal. -/
theorem mem_foldl_insert_iff (l : List Property) :
    (∀ p, p ∈ l.foldl insert [] ↔ p ∈ l) ↔
      ∀ p, p ∈ l → ∀ q, q ∈ l → p.sameKey q = true → p = q := by
  rcases foldl_insert_spec (l := l) (s := []) (by simp [UniqueKeys]) with
    ⟨hunique, -, hmem, hkey⟩
  constructor
  · intro h p hp q hq
    exact hunique p ((h p).mpr hp) q ((h q).mpr hq)
  · intro h p
    constructor
    · intro hp
      exact (hmem p hp).resolve_left (by simp)
    · intro hp
      rcases hkey p hp with ⟨q, hq, hpq⟩
      rwa [h p hp q ((hmem q hq).resolve_left (by simp)) hpq]

end PropertySet

/-! ## Exported modules -/

/-- A property declared in an Export item. -/
structure ExportedProperty where
  fullName : String
  type : Nat
  sourceCode : String
  isBuiltin : Bool
deriving DecidableEq

/-- An item inside an Export item. -/
inductive ExportedItem where
  | mk (name : String) (properties : List ExportedProperty) (children : List ExportedItem)

namespace ExportedItem

mutual

/-- Decide whether two items are equal. -/
def decEq : (a b : ExportedItem) → Decidable (a = b)
  | mk n ps cs, mk n' ps' cs' =>
      if h : n = n' ∧ ps = ps' then
        match decEqList cs cs' with
        | isTrue hc => isTrue (by rw [h.1, h.2, hc])
        | isFalse hc => isFalse (by simp [hc])
      else isFalse (by
        intro hEq
        cases hEq
        exact h ⟨rfl, rfl⟩)

/-- Decide whether two lists of items are equal. -/
def decEqList : (a b : List ExportedItem) → Decidable (a = b)
  | [], [] => isTrue rfl
  | [], _ :: _ | _ :: _, [] => isFalse (by simp)
  | a :: as, b :: bs =>
      match decEq a b, decEqList as bs with
      | isTrue h, isTrue hs => isTrue (by rw [h, hs])
      | isFalse h, _ => isFalse (by simp [h])
      | _, isFalse hs => isFalse (by simp [hs])

end

instance : DecidableEq ExportedItem := decEq

end ExportedItem

/-- What a product exports. The dependency parameters are listed by the name of the dependency, in
map order, and the module dependencies by the name of the module. -/
structure ExportedModule where
  propertyValues : VariantMap
  modulePropertyValues : VariantMap
  children : List ExportedItem
  productDependencies : List String
  moduleDependencies : List (String × VariantMap)
  properties : List ExportedProperty
  dependencyParameters : List (String × VariantMap)
  importStatements : List String
deriving DecidableEq, Inhabited

namespace ExportedModule

variable (sameVariant : Variant → Variant → Bool)

/-- Compare parameters of dependencies one by one. -/
def depMapsEqual : List (String × VariantMap) → List (String × VariantMap) → Bool
  | [], [] => true
  | (name, m) :: l, (name', m') :: l' =>
      name = name' && VariantMap.sameValues sameVariant m m' && depMapsEqual l l'
  | _, _ => false

/-- The comparison of two exported modules. It leaves out the module dependencies. -/
def isEqual (m₁ m₂ : ExportedModule) : Bool :=
  VariantMap.sameValues sameVariant m₁.propertyValues m₂.propertyValues
    && VariantMap.sameValues sameVariant m₁.modulePropertyValues m₂.modulePropertyValues
    && m₁.children = m₂.children
    && m₁.properties = m₂.properties
    && m₁.importStatements = m₂.importStatements
    && m₁.productDependencies = m₂.productDependencies
    && depMapsEqual sameVariant m₁.dependencyParameters m₂.dependencyParameters

end ExportedModule

/-! ## Rules -/

/-- An output declared in a static rule. -/
structure RuleArtifact where
  fileTags : FileTags
  alwaysUpdated : Bool
deriving DecidableEq, Inhabited

/-- A rule; a rule with an outputArtifacts script is dynamic. -/
structure Rule where
  outputFileTags : FileTags
  hasOutputArtifactsScript : Bool
  inputs : FileTags
  auxiliaryInputs : FileTags
  excludedInputs : FileTags
  inputsFromDependencies : FileTags
  explicitlyDependsOn : FileTags
  explicitlyDependsOnFromDependencies : FileTags
  multiplex : Bool
  requiresInputs : Bool
  artifacts : List RuleArtifact
  alwaysRun : Bool
deriving DecidableEq, Inhabited

namespace Rule

def isDynamic (r : Rule) : Bool :=
  r.hasOutputArtifactsScript

def declaresInputs (r : Rule) : Bool :=
  !r.inputs.isEmpty || !r.inputsFromDependencies.isEmpty

/-- The file tags of the declared outputs. -/
def staticOutputFileTags (r : Rule) : FileTags :=
  r.artifacts.foldl (fun tags a => tags.unite a.fileTags) ∅

end Rule

/-! ## Products -/

/-- Properties for the artifacts with certain file tags. -/
structure ArtifactProperties where
  fileTagsFilter : FileTags
  extraFileTags : FileTags
  propertyMap : VariantMap

/-- A module of a product. -/
structure ResolvedModule where
  name : String
  isProduct : Bool
deriving DecidableEq

/-- A product. The file taggers are given by the tags they assign to a file name. -/
structure ResolvedProduct where
  uniqueName : ProductId
  projectName : String
  projectProperties : VariantMap
  enabled : Bool
  fileTags : FileTags
  productProperties : VariantMap
  moduleProperties : VariantMap
  artifactProperties : List ArtifactProperties
  fileTagsForFileName : FilePath → FileTags
  dependencies : List ProductId
  dependencyParameters : List (String × VariantMap)
  moduleParameters : List (String × VariantMap)
  modules : List ResolvedModule
  exportedModule : ExportedModule
  buildEnvironment : String → String

/-- A product with a name and target tags only. -/
def ResolvedProduct.create (uniqueName : ProductId) (fileTags : FileTags) : ResolvedProduct where
  uniqueName := uniqueName
  projectName := ""
  projectProperties := []
  enabled := true
  fileTags := fileTags
  productProperties := []
  moduleProperties := []
  artifactProperties := []
  fileTagsForFileName _ := ∅
  dependencies := []
  dependencyParameters := []
  moduleParameters := []
  modules := []
  exportedModule := default
  buildEnvironment _ := ""

/-- The names in the dependency list of a product: its product dependencies and
the modules that are not products. -/
def ResolvedProduct.depNames (p : ResolvedProduct) : SortedSet String :=
  SortedSet.ofList (p.dependencies ++
    ((p.modules.filter fun m => !m.isProduct).map fun m => m.name))

/-- A project with all its products. No two products have the same unique name. -/
structure Project where
  name : String
  allProducts : List ResolvedProduct
  projectProperties : String → Option VariantMap
  rule : RuleId → Rule
  uniqueNames : allProducts.Pairwise fun p q => p.uniqueName ≠ q.uniqueName

namespace Project

/-- The product of a unique name. -/
def product? (project : Project) (name : ProductId) : Option ResolvedProduct :=
  project.allProducts.find? fun p => p.uniqueName = name

variable {project : Project} {p : ResolvedProduct}

/-- Products are found under their own name. -/
theorem product?_uniqueName {name : ProductId} (h : project.product? name = some p) :
    p.uniqueName = name := by
  simpa using List.find?_some h

/-- Every product is the one found under its name. -/
theorem product?_of_mem (h : p ∈ project.allProducts) : project.product? p.uniqueName = some p := by
  have hunique := project.uniqueNames
  unfold product?
  generalize project.allProducts = l at h hunique
  induction l with
  | nil => cases h
  | cons q l ih =>
      rcases List.pairwise_cons.mp hunique with ⟨hq, hl⟩
      rcases List.mem_cons.mp h with rfl | h
      · simp
      · rw [List.find?_cons_of_neg (by simpa using hq p h)]
        exact ih h hl

theorem mem_of_product? {name : ProductId} (h : project.product? name = some p) :
    p ∈ project.allProducts :=
  List.mem_of_find?_eq_some h

/-- The names in the dependency list of a product. -/
def depNames (project : Project) (name : ProductId) : SortedSet String :=
  match project.product? name with
  | some p => p.depNames
  | none => ∅

/-- What a product exports. -/
def exportedModule (project : Project) (name : ProductId) : ExportedModule :=
  match project.product? name with
  | some p => p.exportedModule
  | none => default

/-- The product dependencies of a product. -/
def dependencies (project : Project) (name : ProductId) : List ProductId :=
  match project.product? name with
  | some p => p.dependencies
  | none => []

end Project

/-- All tags that an artifact created by a rule may get. -/
def Rule.collectedOutputFileTags (r : Rule) (product : ResolvedProduct) : FileTags :=
  let result := if r.outputFileTags.isEmpty then r.staticOutputFileTags else r.outputFileTags
  product.artifactProperties.foldl
    (fun tags ap => if ap.fileTagsFilter.intersects tags then tags.unite ap.extraFileTags else tags)
    result

end Qbs
