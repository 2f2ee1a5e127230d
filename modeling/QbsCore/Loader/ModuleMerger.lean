import QbsCore.Loader.Depends

/-!
# Merging the modules of a product

A module is depended on by the product and by further modules, each with constraints of its
own.  The module that was found first takes over the constraints of all later dependents in
the order of the sorted modules, and at last those of the product.  Then its version is checked
against the range that came out.

Main results:

- Theorem {lit}`ModuleMerger.constraints_intersected_iff`: when constraints are intersected, and when
  their order does not matter.

Current gaps:

- The order of the modules is given, and the merging of property values is left out.
-/

namespace Qbs

namespace ModuleMerger

open ModuleLoader (Module InstanceRef nameString)

/-- An item that depends on modules. -/
inductive ModuleContainer where
  | product
  | moduleInstance (ref : InstanceRef)
deriving DecidableEq

/-- The modules of each item. -/
abbrev ContainerModules :=
  ModuleContainer → List Module

def findModule (modules : List Module) (name : QualifiedId) : Option Module :=
  modules.find? fun dep => dep.name = name

/-- The items whose constraints are merged: those of the later modules, and the product. -/
def dependents (later : List Module) : List ModuleContainer :=
  later.map (fun m => .moduleInstance m.item) ++ [.product]

/-- Update dependency constraints. -/
def updateConstraints (merged dep : Module) : Module :=
  { merged with
    required := if dep.required then true else merged.required
    fallbackEnabled := merged.fallbackEnabled && dep.fallbackEnabled
    versionRange := merged.versionRange.narrowDown dep.versionRange }

def mergeModule (modulesOf : ContainerModules) (merged : Module) (container : ModuleContainer) :
    Module :=
  match findModule (modulesOf container) merged.name with
  | none => merged
  | some dep => updateConstraints merged dep

/-- The module with the constraints of all dependents. -/
def mergedModule (modulesOf : ContainerModules) (m : Module) (later : List Module) : Module :=
  (dependents later).foldl (mergeModule modulesOf) m

/-- A sibling instance behaves like the merged module. -/
def updateSibling (merged dep : Module) : Module :=
  if dep.name = merged.name ∧ dep.item ≠ merged.item then
    { dep with
      item := merged.item
      required := merged.required
      versionRange := merged.versionRange
      fallbackEnabled := merged.fallbackEnabled }
  else dep

/-- Merge one module, and update its siblings in the items that depend on it. -/
def start (modulesOf : ContainerModules) (m : Module) (later : List Module) :
    Module × ContainerModules :=
  let merged := mergedModule modulesOf m later
  (merged, fun container =>
    if container ∈ dependents later ∧ (findModule (modulesOf container) m.name).isSome then
      (modulesOf container).map (updateSibling merged)
    else modulesOf container)

/-- Merge all modules in their order. -/
def merge : List Module → ContainerModules → List Module × ContainerModules
  | [], modulesOf => ([], modulesOf)
  | m :: later, modulesOf =>
      let started := start modulesOf m later
      let rest := merge later started.2
      (started.1 :: rest.1, rest.2)

/-- Check the version of a module against its range. -/
def checkVersion (name : QualifiedId) (moduleVersion : Version) (range : VersionRange) :
    Except ErrorInfo Unit :=
  if range.minimum.isValid || range.maximum.isValid then
    if range.maximum.isValid && !decide (range.minimum < range.maximum) then
      .error (.message s!"Impossible version constraint [{range.minimum.toString},{range.maximum.toString}) set for module '{nameString name}'")
    else if moduleVersion < range.minimum then
      .error (.message s!"Module '{nameString name}' has version {moduleVersion.toString}, but it needs to be at least {range.minimum.toString}.")
    else if range.maximum.isValid && !decide (moduleVersion < range.maximum) then
      .error (.message s!"Module '{nameString name}' has version {moduleVersion.toString}, but it needs to be lower than {range.maximum.toString}.")
    else .ok ()
  else .ok ()

/-! ## Merging the constraints -/

/-- The constraints on a module: its own, and those of the dependents. -/
def constraints (modulesOf : ContainerModules) (m : Module) (later : List Module) :
    List VersionRange :=
  m.versionRange :: (dependents later).filterMap fun container =>
    (findModule (modulesOf container) m.name).map Module.versionRange

variable {modulesOf : ContainerModules} {m : Module} {later : List Module}

@[simp]
theorem mergeModule_name (container : ModuleContainer) :
    (mergeModule modulesOf m container).name = m.name := by
  unfold mergeModule
  split
  · rfl
  · rfl

theorem mergeModule_versionRange (container : ModuleContainer) :
    (mergeModule modulesOf m container).versionRange =
      m.versionRange.narrowAll
        ((findModule (modulesOf container) m.name).map Module.versionRange).toList := by
  unfold mergeModule
  split <;> rename_i hfound
  · rw [hfound]
    rfl
  · rw [hfound]
    rfl

theorem foldl_mergeModule_versionRange (containers : List ModuleContainer) :
    (containers.foldl (mergeModule modulesOf) m).versionRange =
      m.versionRange.narrowAll (containers.filterMap fun container =>
        (findModule (modulesOf container) m.name).map Module.versionRange) := by
  induction containers generalizing m with
  | nil => rfl
  | cons container containers ih =>
      rw [List.foldl_cons, ih, mergeModule_name, mergeModule_versionRange, List.filterMap_cons]
      cases (findModule (modulesOf container) m.name).map Module.versionRange with
      | none => rfl
      | some range => rfl

/-- The range of a merged module is its own one, narrowed down by the constraints of the
dependents. -/
theorem mergedModule_versionRange :
    (mergedModule modulesOf m later).versionRange =
      m.versionRange.narrowAll (constraints modulesOf m later).tail :=
  foldl_mergeModule_versionRange _

theorem mergedModule_name : (mergedModule modulesOf m later).name = m.name := by
  unfold mergedModule
  induction dependents later generalizing m with
  | nil => rfl
  | cons container containers ih =>
      rw [List.foldl_cons, ih]
      exact mergeModule_name container

theorem updateSibling_name (merged dep : Module) : (updateSibling merged dep).name = dep.name := by
  unfold updateSibling
  split
  · rfl
  · rfl

/-- Siblings are found by the names that they had before. -/
theorem find?_map_updateSibling (merged : Module) (modules : List Module) (name : QualifiedId) :
    (modules.map (updateSibling merged)).find? (fun dep => dep.name = name) =
      (modules.find? fun dep => dep.name = name).map (updateSibling merged) := by
  rw [List.find?_map]
  have hcomp : ((fun dep : Module => decide (dep.name = name)) ∘ updateSibling merged) =
      fun dep => decide (dep.name = name) := by
    funext dep
    rw [Function.comp_apply, updateSibling_name]
  rw [hcomp]

/-- The other modules of an item that depends on the merged one stay as they are. -/
theorem findModule_start {name : QualifiedId} (hname : name ≠ m.name)
    (container : ModuleContainer) :
    findModule ((start modulesOf m later).2 container) name =
      findModule (modulesOf container) name := by
  have hother (dep : Module) (hdep : dep.name = name) :
      updateSibling (mergedModule modulesOf m later) dep = dep := by
    unfold updateSibling
    rw [mergedModule_name, hdep]
    exact if_neg fun h => hname h.1
  unfold start findModule
  dsimp only
  split
  · rw [find?_map_updateSibling]
    cases hfound : (modulesOf container).find? fun dep => decide (dep.name = name) with
    | none => rfl
    | some dep =>
        have hdep : dep.name = name := by simpa using List.find?_some hfound
        exact congrArg some (hother dep hdep)
  · rfl

/-! ## Intersection and order -/

/-- The merged range admits the versions that all constraints admit. -/
def Intersected (modulesOf : ContainerModules) (m : Module) (later : List Module) : Prop :=
  ∀ v, (mergedModule modulesOf m later).versionRange.contains v ↔
    ∀ range, range ∈ constraints modulesOf m later → range.contains v

/-- The merged range is the same wherever the same constraints are merged in another order. -/
def OrderIndependent (modulesOf : ContainerModules) (m : Module) (later : List Module) : Prop :=
  ∀ modulesOf' m' later',
    (constraints modulesOf m later).Perm (constraints modulesOf' m' later') →
      (mergedModule modulesOf m later).versionRange =
        (mergedModule modulesOf' m' later').versionRange

theorem intersected_iff :
    Intersected modulesOf m later ↔ m.versionRange.maximum.isValid = true ∨
      ∀ range, range ∈ constraints modulesOf m later → range.maximum.isValid = false := by
  unfold Intersected
  simp only [mergedModule_versionRange]
  have h := VersionRange.contains_narrowAll_iff m.versionRange (constraints modulesOf m later).tail
  unfold constraints at h ⊢
  simp only [List.tail_cons, List.forall_mem_cons] at h ⊢
  rw [h]
  constructor
  · rintro (hown | hothers)
    · exact Or.inl hown
    · by_cases hown : m.versionRange.maximum.isValid = true
      · exact Or.inl hown
      · exact Or.inr ⟨by simpa using hown, hothers⟩
  · exact Or.imp_right And.right

/-- Every list of constraints can be met. -/
theorem exists_constraints (range : VersionRange) (ranges : List VersionRange) :
    ∃ modulesOf m later, constraints modulesOf m later = range :: ranges := by
  let m (i : Nat) (r : VersionRange) : Module := ⟨["m"], ⟨i, []⟩, false, true, true, true, [], r⟩
  let modulesOf : ContainerModules := fun container =>
    match container with
    | .product => []
    | .moduleInstance ref => (ranges[ref.item]?).toList.map (m ref.item)
  refine ⟨modulesOf, m 0 range, (List.range ranges.length).map fun i => m i range, ?_⟩
  have hfound (i : Nat) :
      (findModule (modulesOf (.moduleInstance (m i range).item)) (m 0 range).name).map
        Module.versionRange = ranges[i]? := by
    show (findModule ((ranges[i]?).toList.map (m i)) ["m"]).map Module.versionRange = ranges[i]?
    cases ranges[i]? with
    | none => rfl
    | some r => rfl
  unfold constraints dependents
  rw [List.filterMap_append, List.map_map, List.filterMap_map]
  have hfun : ((fun container => (findModule (modulesOf container) (m 0 range).name).map
      Module.versionRange) ∘ (fun dep : Module => ModuleContainer.moduleInstance dep.item) ∘
        fun i => m i range) = fun i => ranges[i]? := funext hfound
  rw [hfun]
  have hmap : (List.range ranges.length).map (fun i => ranges[i]?) = ranges.map some := by
    apply List.ext_getElem?
    intro i
    by_cases hi : i < ranges.length
    · simp [hi]
    · simp [hi]
  have hrange : (List.range ranges.length).filterMap (fun i => ranges[i]?) = ranges := by
    calc (List.range ranges.length).filterMap (fun i => ranges[i]?)
        = ((List.range ranges.length).map fun i => ranges[i]?).filterMap id := by
          rw [List.filterMap_map]
          rfl
      _ = ranges := by
          rw [hmap, List.filterMap_map]
          exact List.filterMap_some
  rw [hrange]
  show range :: (ranges ++ []) = range :: ranges
  rw [List.append_nil]

theorem orderIndependent_iff :
    OrderIndependent modulesOf m later ↔
      (∀ range, range ∈ constraints modulesOf m later → range.maximum.isValid = true) ∨
        ∀ range, range ∈ constraints modulesOf m later → range.maximum.isValid = false := by
  constructor
  · intro h
    -- a range that comes first decides whether there is an upper bound
    have hfirst (a : VersionRange) (ha : a ∈ constraints modulesOf m later) :
        (mergedModule modulesOf m later).versionRange.maximum.isValid = a.maximum.isValid := by
      rcases exists_constraints a ((constraints modulesOf m later).erase a) with
        ⟨modulesOf', m', later', hconstraints⟩
      have hperm := List.perm_cons_erase ha
      have hown : m'.versionRange = a := (List.cons.inj hconstraints).1
      rw [h modulesOf' m' later' (hconstraints ▸ hperm), mergedModule_versionRange, hown]
      exact VersionRange.narrowAll_maximum_isValid _
    cases hvalid : (mergedModule modulesOf m later).versionRange.maximum.isValid with
    | true => exact Or.inl fun a ha => (hfirst a ha).symm.trans hvalid
    | false => exact Or.inr fun a ha => (hfirst a ha).symm.trans hvalid
  · intro h modulesOf' m' later' hperm
    have hsame : ∀ a, a ∈ constraints modulesOf m later → ∀ b,
        b ∈ constraints modulesOf m later → a.maximum.isValid = b.maximum.isValid := by
      intro a ha b hb
      rcases h with h | h
      · rw [h a ha, h b hb]
      · rw [h a ha, h b hb]
    rw [mergedModule_versionRange, mergedModule_versionRange]
    exact VersionRange.narrowAll_perm_of_same hperm hsame

/-- Narrowing down is intersection exactly if the range that is narrowed down has an upper bound, or
if the other one has none. So the range of a merged module is the intersection exactly if the
constraint that comes first has an upper bound or no constraint has one, and it does not depend on
the order of the constraints exactly if all of them or none have one. -/
theorem constraints_intersected_iff (r₁ r₂ : VersionRange) (modulesOf : ContainerModules)
    (m : Module) (later : List Module) :
    ((∀ v, (r₁.narrowDown r₂).contains v ↔ r₁.contains v ∧ r₂.contains v) ↔
      r₁.maximum.isValid = true ∨ r₂.maximum.isValid = false) ∧
    (Intersected modulesOf m later ↔ m.versionRange.maximum.isValid = true ∨
      ∀ range, range ∈ constraints modulesOf m later → range.maximum.isValid = false) ∧
    (OrderIndependent modulesOf m later ↔
      (∀ range, range ∈ constraints modulesOf m later → range.maximum.isValid = true) ∨
        ∀ range, range ∈ constraints modulesOf m later → range.maximum.isValid = false) := by
  constructor
  · have h := VersionRange.contains_narrowAll_iff r₁ [r₂]
    simpa [VersionRange.narrowAll] using h
  · exact ⟨intersected_iff, orderIndependent_iff⟩

/-- An upper bound gets lost if the range that is narrowed down has none. -/
theorem upperBound_lost :
    ¬∀ (r₁ r₂ : VersionRange) (v : Version),
      (r₁.narrowDown r₂).contains v ↔ r₁.contains v ∧ r₂.contains v := by
  intro h
  have hcontains := (h ⟨⟨1, 0, 0, 0⟩, Version.empty⟩ ⟨Version.empty, ⟨2, 0, 0, 0⟩⟩ ⟨3, 0, 0, 0⟩).mp
    (by unfold VersionRange.contains; decide)
  have hbelow := hcontains.2.2 (by decide)
  exact absurd hbelow (by decide)

end ModuleMerger

end Qbs
