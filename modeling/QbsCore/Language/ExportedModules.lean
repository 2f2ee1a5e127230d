import QbsCore.Language.Project
import QbsCore.Library.AddressOrder
import QbsCore.Library.AssocMap

/-!
# Comparison of exported modules

What a product exports is offered to scripts, and compared with what it exported when a script
last read it.  The parameters of the dependencies are kept in a map whose keys are addresses of
products; two such maps are compared in the order of their addresses.

Main results:

- Definition {lit}`Exports.ExportedModule.isEqual`: the comparison of two exported modules.
- Definition {lit}`Exports.ExportedModule.scriptValue`: what a script can read.
- Theorem {lit}`Exports.isEqual_right_iff`: when modules that are equal look the same to a script
  and the comparison does not depend on addresses.

Current gaps:

- The comparison of variant maps is given.
-/

namespace Qbs

namespace Exports

/-- A module that an exported module depends on. -/
structure ExportedModuleDependency where
  name : String
  moduleProperties : VariantMap
deriving DecidableEq

/-- The parameters for a dependency, with the name of the product depended on. -/
structure DependencyParameters where
  name : String
  parameters : VariantMap
deriving DecidableEq

/-- What a product exports. The keys of the dependency parameters are products, which have unique
names. -/
structure ExportedModule where
  propertyValues : VariantMap
  modulePropertyValues : VariantMap
  children : List ExportedItem
  productDependencies : List ProductId
  moduleDependencies : List ExportedModuleDependency
  properties : List ExportedProperty
  dependencyParameters : AssocMap ProductId DependencyParameters
  importStatements : List String

/-- An entry of the dependency parameters. -/
abbrev ParameterEntry :=
  Sigma fun _ : ProductId => DependencyParameters

namespace ExportedModule

/-! ## Comparison -/

/-- The entries of the dependency parameters in the order of the addresses of the products. -/
def parametersInOrder (addr : ProductId → Nat) (m : ExportedModule) : List ParameterEntry :=
  AddressOrder.inOrder Sigma.fst addr m.dependencyParameters.entries

section

variable (sameValues : VariantMap → VariantMap → Bool)

/-- Compare the entries of two maps one by one, as long as the first map has any. -/
def entriesEqual : List ParameterEntry → List ParameterEntry → Bool
  | e₁ :: l₁, e₂ :: l₂ =>
      if e₁.2.name ≠ e₂.2.name then false
      else if !sameValues e₁.2.parameters e₂.2.parameters then false
      else entriesEqual l₁ l₂
  | _, _ => true

def depMapsEqual (addr₁ addr₂ : ProductId → Nat) (m₁ m₂ : ExportedModule) : Bool :=
  if m₁.dependencyParameters.entries.length ≠ m₂.dependencyParameters.entries.length then false
  else entriesEqual sameValues (m₁.parametersInOrder addr₁) (m₂.parametersInOrder addr₂)

/-- The comparison of two exported modules whose products have some addresses. -/
def isEqual (addr₁ addr₂ : ProductId → Nat) (m₁ m₂ : ExportedModule) : Bool :=
  sameValues m₁.propertyValues m₂.propertyValues
    && sameValues m₁.modulePropertyValues m₂.modulePropertyValues
    && m₁.children = m₂.children
    && m₁.properties = m₂.properties
    && m₁.importStatements = m₂.importStatements
    && m₁.productDependencies.length = m₂.productDependencies.length
    && m₁.productDependencies = m₂.productDependencies
    && depMapsEqual sameValues addr₁ addr₂ m₁ m₂

end

/-! ## Scripts -/

/-- The modules with properties that a script sees in a map from modules to properties. -/
def moduleObjects (m : VariantMap) : List (String × VariantMap) :=
  m.filterMap fun e => if e.2.toMap.isEmpty then none else some (e.1, e.2.toMap)

/-- The parameters for a dependency, none if there is no entry. -/
def parametersOf (m : ExportedModule) (p : ProductId) : VariantMap :=
  ((m.dependencyParameters.lookup p).map DependencyParameters.parameters).getD []

end ExportedModule

/-- What a script can read of an exported module. -/
structure ExportsScriptValue where
  propertyValues : VariantMap
  properties : List ExportedProperty
  childItems : List ExportedItem
  imports : List String
  modules : List (String × VariantMap)
  productDependencies : List (ProductId × VariantMap)
  moduleDependencies : List (String × List (String × VariantMap))
deriving DecidableEq

namespace ExportedModule

def scriptValue (m : ExportedModule) : ExportsScriptValue where
  propertyValues := m.propertyValues
  properties := m.properties
  childItems := m.children
  imports := m.importStatements
  modules := moduleObjects m.modulePropertyValues
  productDependencies := m.productDependencies.map fun p => (p, m.parametersOf p)
  moduleDependencies :=
    m.moduleDependencies.map fun d => (d.name, moduleObjects d.moduleProperties)

end ExportedModule

variable {sameValues : VariantMap → VariantMap → Bool} {addr₁ addr₂ : ProductId → Nat}
  {m₁ m₂ : ExportedModule}

/-! ## What the comparison compares -/

/-- Two entries of the dependency parameters compare equal. -/
def SameEntry (sameValues : VariantMap → VariantMap → Bool) (e₁ e₂ : ParameterEntry) : Prop :=
  e₁.2.name = e₂.2.name ∧ sameValues e₁.2.parameters e₂.2.parameters = true

/-- The compared data apart from the dependency parameters compare equal. -/
structure ComparedDataAgree (sameValues : VariantMap → VariantMap → Bool)
    (m₁ m₂ : ExportedModule) : Prop where
  propertyValues : sameValues m₁.propertyValues m₂.propertyValues = true
  modulePropertyValues : sameValues m₁.modulePropertyValues m₂.modulePropertyValues = true
  children : m₁.children = m₂.children
  properties : m₁.properties = m₂.properties
  importStatements : m₁.importStatements = m₂.importStatements
  productDependencies : m₁.productDependencies = m₂.productDependencies

theorem entriesEqual_iff {l₁ l₂ : List ParameterEntry} (hlength : l₁.length = l₂.length) :
    ExportedModule.entriesEqual sameValues l₁ l₂ = true ↔
      List.Forall₂ (SameEntry sameValues) l₁ l₂ := by
  induction l₁ generalizing l₂ with
  | nil =>
      cases l₂ with
      | nil => exact iff_of_true rfl List.Forall₂.nil
      | cons e₂ l₂ => cases hlength
  | cons e₁ l₁ ih =>
      cases l₂ with
      | nil => cases hlength
      | cons e₂ l₂ =>
          have hrest := ih (Nat.succ.inj hlength)
          have hstep : ExportedModule.entriesEqual sameValues (e₁ :: l₁) (e₂ :: l₂) =
              if e₁.2.name ≠ e₂.2.name then false
              else if !sameValues e₁.2.parameters e₂.2.parameters then false
              else ExportedModule.entriesEqual sameValues l₁ l₂ := rfl
          rw [List.forall₂_cons, ← hrest, hstep]
          unfold SameEntry
          by_cases hname : e₁.2.name = e₂.2.name
          · cases hvalue : sameValues e₁.2.parameters e₂.2.parameters with
            | false => simp [hname]
            | true => simp [hname]
          · simp [hname]

theorem depMapsEqual_iff :
    ExportedModule.depMapsEqual sameValues addr₁ addr₂ m₁ m₂ = true ↔
      List.Forall₂ (SameEntry sameValues) (m₁.parametersInOrder addr₁)
        (m₂.parametersInOrder addr₂) := by
  have hlength₁ : (m₁.parametersInOrder addr₁).length = m₁.dependencyParameters.entries.length :=
    (AddressOrder.inOrder_perm _ _ _).length_eq
  have hlength₂ : (m₂.parametersInOrder addr₂).length = m₂.dependencyParameters.entries.length :=
    (AddressOrder.inOrder_perm _ _ _).length_eq
  unfold ExportedModule.depMapsEqual
  split_ifs with hlength
  · refine iff_of_false (by simp) fun h => hlength ?_
    rw [← hlength₁, ← hlength₂]
    exact h.length_eq
  · rw [not_not] at hlength
    exact entriesEqual_iff (by rw [hlength₁, hlength₂, hlength])

theorem isEqual_iff :
    m₁.isEqual sameValues addr₁ addr₂ m₂ = true ↔ ComparedDataAgree sameValues m₁ m₂ ∧
      List.Forall₂ (SameEntry sameValues) (m₁.parametersInOrder addr₁)
        (m₂.parametersInOrder addr₂) := by
  unfold ExportedModule.isEqual
  simp only [Bool.and_eq_true, decide_eq_true_eq, depMapsEqual_iff]
  constructor
  · rintro ⟨⟨⟨⟨⟨⟨⟨hvalues, hmodules⟩, hchildren⟩, hproperties⟩, himports⟩, -⟩, hdeps⟩, hparams⟩
    exact ⟨⟨hvalues, hmodules, hchildren, hproperties, himports, hdeps⟩, hparams⟩
  · rintro ⟨h, hparams⟩
    refine ⟨⟨⟨⟨⟨⟨⟨h.propertyValues, h.modulePropertyValues⟩, h.children⟩, h.properties⟩,
      h.importStatements⟩, ?_⟩, h.productDependencies⟩, hparams⟩
    rw [h.productDependencies]

/-! ## When the comparison is right -/

/-- The products of an exported module have different addresses. -/
def Addresses (m : ExportedModule) (addr : ProductId → Nat) : Prop :=
  AddressOrder.Distinct Sigma.fst addr m.dependencyParameters.entries

/-- Modules that are equal look the same to a script, and the comparison does not depend on the
addresses of products. -/
def Right (sameValues : VariantMap → VariantMap → Bool) (m₁ m₂ : ExportedModule) : Prop :=
  ∀ addr₁ addr₂, Addresses m₁ addr₁ → Addresses m₂ addr₂ →
    (m₁.isEqual sameValues addr₁ addr₂ m₂ = true → m₁.scriptValue = m₂.scriptValue) ∧
      ∀ addr₁' addr₂', Addresses m₁ addr₁' → Addresses m₂ addr₂' →
        m₁.isEqual sameValues addr₁' addr₂' m₂ = m₁.isEqual sameValues addr₁ addr₂ m₂

/-- The data that the comparison leaves out, takes for equal or compares in the order of addresses
agree. -/
structure OtherDataAgree (sameValues : VariantMap → VariantMap → Bool)
    (m₁ m₂ : ExportedModule) : Prop where
  propertyValues : m₁.propertyValues = m₂.propertyValues
  modules : ExportedModule.moduleObjects m₁.modulePropertyValues =
    ExportedModule.moduleObjects m₂.modulePropertyValues
  moduleDependencies : m₁.moduleDependencies.map (fun d => (d.name,
      ExportedModule.moduleObjects d.moduleProperties)) =
    m₂.moduleDependencies.map fun d => (d.name, ExportedModule.moduleObjects d.moduleProperties)
  parameters : ∀ p, p ∈ m₁.productDependencies → m₁.parametersOf p = m₂.parametersOf p
  entries : ∀ e₁, e₁ ∈ m₁.dependencyParameters.entries →
    ∀ e₂, e₂ ∈ m₂.dependencyParameters.entries → SameEntry sameValues e₁ e₂

/-- The dependency parameters can be matched one by one. -/
def ParametersMatch (sameValues : VariantMap → VariantMap → Bool) (m₁ m₂ : ExportedModule) :
    Prop :=
  AddressOrder.Matching (SameEntry sameValues) m₁.dependencyParameters.entries
    m₂.dependencyParameters.entries

theorem exists_addresses (m : ExportedModule) {order : List ParameterEntry}
    (horder : order.Perm m.dependencyParameters.entries) :
    ∃ addr, Addresses m addr ∧ m.parametersInOrder addr = order :=
  AddressOrder.exists_inOrder_eq m.dependencyParameters.nodupKeys horder

theorem parametersInOrder_perm (m : ExportedModule) (addr : ProductId → Nat) :
    (m.parametersInOrder addr).Perm m.dependencyParameters.entries :=
  AddressOrder.inOrder_perm _ _ _

/-- Modules whose comparison is right agree in the other data if they can be equal. -/
theorem otherDataAgree_of_right (h : Right sameValues m₁ m₂)
    (hdata : ComparedDataAgree sameValues m₁ m₂) (hmatch : ParametersMatch sameValues m₁ m₂) :
    OtherDataAgree sameValues m₁ m₂ := by
  rcases hmatch with ⟨order, horder, hmatch⟩
  rcases exists_addresses m₁ (List.Perm.refl _) with ⟨addr₁, haddr₁, horder₁⟩
  rcases exists_addresses m₂ horder with ⟨addr₂, haddr₂, horder₂⟩
  have hequal : m₁.isEqual sameValues addr₁ addr₂ m₂ = true := by
    rw [isEqual_iff, horder₁, horder₂]
    exact ⟨hdata, hmatch⟩
  have hvalue := (h addr₁ addr₂ haddr₁ haddr₂).1 hequal
  have hentries : ∀ e₁, e₁ ∈ m₁.dependencyParameters.entries →
      ∀ e₂, e₂ ∈ m₂.dependencyParameters.entries → SameEntry sameValues e₁ e₂ := by
    apply AddressOrder.all_of_forall₂
    intro p p' hp hp'
    rcases exists_addresses m₁ hp with ⟨addr₁', haddr₁', hp⟩
    rcases exists_addresses m₂ hp' with ⟨addr₂', haddr₂', hp'⟩
    have hequal' := (h addr₁ addr₂ haddr₁ haddr₂).2 addr₁' addr₂' haddr₁' haddr₂'
    rw [hequal, isEqual_iff, hp, hp'] at hequal'
    exact hequal'.2
  have hdeps : m₁.productDependencies.map (fun p => (p, m₁.parametersOf p)) =
      m₂.productDependencies.map fun p => (p, m₂.parametersOf p) :=
    congrArg ExportsScriptValue.productDependencies hvalue
  refine ⟨congrArg ExportsScriptValue.propertyValues hvalue,
    congrArg ExportsScriptValue.modules hvalue,
    congrArg ExportsScriptValue.moduleDependencies hvalue, fun p hp => ?_, hentries⟩
  rw [← hdata.productDependencies, List.map_inj_left] at hdeps
  exact congrArg Prod.snd (hdeps p hp)

/-- The comparison is right exactly if the other data agree wherever the modules can be equal. -/
theorem isEqual_right_iff (sameValues : VariantMap → VariantMap → Bool)
    (m₁ m₂ : ExportedModule) :
    Right sameValues m₁ m₂ ↔
      (ComparedDataAgree sameValues m₁ m₂ → ParametersMatch sameValues m₁ m₂ →
        OtherDataAgree sameValues m₁ m₂) := by
  refine ⟨otherDataAgree_of_right, fun h addr₁ addr₂ _ _ => ?_⟩
  have hother : ∀ addr₁ addr₂, m₁.isEqual sameValues addr₁ addr₂ m₂ = true →
      ComparedDataAgree sameValues m₁ m₂ ∧ OtherDataAgree sameValues m₁ m₂ ∧
        m₁.dependencyParameters.entries.length = m₂.dependencyParameters.entries.length := by
    intro addr₁ addr₂ hequal
    rcases isEqual_iff.mp hequal with ⟨hdata, hparams⟩
    have hmatch : ParametersMatch sameValues m₁ m₂ := AddressOrder.matching_of_perm
      (parametersInOrder_perm m₁ addr₁) (parametersInOrder_perm m₂ addr₂) hparams
    refine ⟨hdata, h hdata hmatch, ?_⟩
    rw [← (parametersInOrder_perm m₁ addr₁).length_eq,
      ← (parametersInOrder_perm m₂ addr₂).length_eq]
    exact hparams.length_eq
  have hagain : ∀ addr₁ addr₂ addr₁' addr₂', m₁.isEqual sameValues addr₁ addr₂ m₂ = true →
      m₁.isEqual sameValues addr₁' addr₂' m₂ = true := by
    intro addr₁ addr₂ addr₁' addr₂' hequal
    rcases hother addr₁ addr₂ hequal with ⟨hdata, hagree, hlength⟩
    rw [isEqual_iff]
    have hperm₁ := parametersInOrder_perm m₁ addr₁'
    have hperm₂ := parametersInOrder_perm m₂ addr₂'
    refine ⟨hdata, AddressOrder.forall₂_of_all ?_ fun e he e' he' => ?_⟩
    · rw [hperm₁.length_eq, hperm₂.length_eq, hlength]
    · exact hagree.entries e (hperm₁.mem_iff.mp he) e' (hperm₂.mem_iff.mp he')
  constructor
  · intro hequal
    rcases hother addr₁ addr₂ hequal with ⟨hdata, hagree, -⟩
    have hdeps : m₁.productDependencies.map (fun p => (p, m₁.parametersOf p)) =
        m₂.productDependencies.map fun p => (p, m₂.parametersOf p) := by
      rw [← hdata.productDependencies, List.map_inj_left]
      intro p hp
      rw [hagree.parameters p hp]
    unfold ExportedModule.scriptValue
    rw [hagree.propertyValues, hdata.properties, hdata.children, hdata.importStatements,
      hagree.modules, hdeps, hagree.moduleDependencies]
  · intro addr₁' addr₂' _ _
    rw [Bool.eq_iff_iff]
    exact ⟨hagain _ _ _ _, hagain _ _ _ _⟩

/-! ## The comparison of the tracker -/

/-- An exported module as the tracker sees it, for products with some addresses. -/
def ExportedModule.tracked (addr : ProductId → Nat) (m : ExportedModule) :
    Qbs.ExportedModule where
  propertyValues := m.propertyValues
  modulePropertyValues := m.modulePropertyValues
  children := m.children
  productDependencies := m.productDependencies
  moduleDependencies := m.moduleDependencies.map fun d => (d.name, d.moduleProperties)
  properties := m.properties
  dependencyParameters := (m.parametersInOrder addr).map fun e => (e.2.name, e.2.parameters)
  importStatements := m.importStatements

variable {sameVariant : Variant → Variant → Bool}

theorem depMapsEqual_map_iff {l₁ l₂ : List ParameterEntry} :
    Qbs.ExportedModule.depMapsEqual sameVariant (l₁.map fun e => (e.2.name, e.2.parameters))
        (l₂.map fun e => (e.2.name, e.2.parameters)) = true ↔
      List.Forall₂ (SameEntry (VariantMap.sameValues sameVariant)) l₁ l₂ := by
  induction l₁ generalizing l₂ with
  | nil =>
      cases l₂ with
      | nil => exact iff_of_true rfl List.Forall₂.nil
      | cons e₂ l₂ => exact iff_of_false Bool.false_ne_true fun h => nomatch h
  | cons e₁ l₁ ih =>
      cases l₂ with
      | nil => exact iff_of_false Bool.false_ne_true fun h => nomatch h
      | cons e₂ l₂ =>
          simp only [List.map_cons, Qbs.ExportedModule.depMapsEqual, Bool.and_eq_true,
            decide_eq_true_eq, ih, List.forall₂_cons, SameEntry]

/-- The comparison is the one of the tracker. -/
theorem isEqual_iff_tracked :
    m₁.isEqual (VariantMap.sameValues sameVariant) addr₁ addr₂ m₂ = true ↔
      (m₁.tracked addr₁).isEqual sameVariant (m₂.tracked addr₂) = true := by
  rw [isEqual_iff, ← depMapsEqual_map_iff]
  unfold ExportedModule.tracked Qbs.ExportedModule.isEqual
  simp only [Bool.and_eq_true, decide_eq_true_eq]
  constructor
  · rintro ⟨h, hparams⟩
    exact ⟨⟨⟨⟨⟨⟨h.propertyValues, h.modulePropertyValues⟩, h.children⟩, h.properties⟩,
      h.importStatements⟩, h.productDependencies⟩, hparams⟩
  · rintro ⟨⟨⟨⟨⟨⟨hvalues, hmodules⟩, hchildren⟩, hproperties⟩, himports⟩, hdeps⟩, hparams⟩
    exact ⟨⟨hvalues, hmodules, hchildren, hproperties, himports, hdeps⟩, hparams⟩

/-! ## A module dependency that is left out -/

/-- An exported module that depends on a module with one property. -/
def exportWithDependency (value : String) : ExportedModule where
  propertyValues := []
  modulePropertyValues := []
  children := []
  productDependencies := []
  moduleDependencies := [⟨"config", [("cpp", .map [("defines", .string value)])]⟩]
  properties := []
  dependencyParameters := ∅
  importStatements := []

/-- Two exported modules are equal although a script sees different properties of the module they
depend on. -/
theorem moduleDependency_left_out :
    ¬∀ m₁ m₂, Right (fun a b => decide (a = b)) m₁ m₂ := by
  intro h
  have hright := h (exportWithDependency "A") (exportWithDependency "B") (fun _ => 0) (fun _ => 0)
    List.nodup_nil List.nodup_nil
  have hnone (value : String) : (exportWithDependency value).parametersInOrder (fun _ => 0) = [] :=
    (parametersInOrder_perm (exportWithDependency value) fun _ => 0).eq_nil
  have hequal : (exportWithDependency "A").isEqual (fun a b => decide (a = b)) (fun _ => 0)
      (fun _ => 0) (exportWithDependency "B") = true := by
    rw [isEqual_iff, hnone, hnone]
    exact ⟨⟨rfl, rfl, rfl, rfl, rfl, rfl⟩, .nil⟩
  exact absurd (hright.1 hequal) (by decide)

end Exports

end Qbs
