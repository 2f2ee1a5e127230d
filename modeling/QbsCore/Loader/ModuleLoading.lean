import QbsCore.Loader.Depends

/-!
# What loading a module changes

Loading a module only changes the items at the paths of an item: the instance of the module
gets its prototype, unless it has one.  The modules that were loaded before and those of all
items stay as they are.

Main results:

- Theorem {lit}`ModuleLoader.loadModule_spec`: the outcomes of loading a module.
- Theorem {lit}`ModuleLoader.loadForItem_spec`: what is remembered of a module that was
  loaded.

Current gaps:

- None.
-/

namespace Qbs

namespace ModuleLoader

/-- The prototype of a module instance. -/
def InstanceItem.prototype : InstanceItem → Option ModulePrototype
  | .modulePrefix => none
  | .moduleInstance prototype => prototype

/-- The prototype of the module instance at a path of an item. -/
def Loader.prototype (s : Loader) (ref : InstanceRef) : Option ModulePrototype :=
  ((s.items ref.item).instances ref.path).bind InstanceItem.prototype

/-- Only the items at paths have changed. -/
structure LoadFrame (s s' : Loader) : Prop where
  modules : ∀ i, (s'.items i).modules = (s.items i).modules
  errors : s'.errors = s.errors
  usedProducts : s'.usedProducts = s.usedProducts
  loadedModules : s'.loadedModules = s.loadedModules
  dependsItems : s'.dependsItemPerLoadedModule = s.dependsItemPerLoadedModule
  productDependencies : s'.productDependencies = s.productDependencies

/-- No module instance has got a prototype. -/
structure NothingLoaded (s s' : Loader) : Prop extends LoadFrame s s' where
  prototype : ∀ ref, s'.prototype ref = s.prototype ref

variable {s s' s'' : Loader}

theorem LoadFrame.refl (s : Loader) : LoadFrame s s :=
  ⟨fun _ => rfl, rfl, rfl, rfl, rfl, rfl⟩

theorem LoadFrame.trans (h : LoadFrame s s') (h' : LoadFrame s' s'') : LoadFrame s s'' where
  modules i := (h'.modules i).trans (h.modules i)
  errors := h'.errors.trans h.errors
  usedProducts := h'.usedProducts.trans h.usedProducts
  loadedModules := h'.loadedModules.trans h.loadedModules
  dependsItems := h'.dependsItems.trans h.dependsItems
  productDependencies := h'.productDependencies.trans h.productDependencies

theorem NothingLoaded.refl (s : Loader) : NothingLoaded s s :=
  ⟨LoadFrame.refl s, fun _ => rfl⟩

theorem setInstances_frame (s : Loader) (item : ItemId)
    (instances : QualifiedId → Option InstanceItem) : LoadFrame s (s.setInstances item instances) := by
  refine ⟨fun i => ?_, rfl, rfl, rfl, rfl, rfl⟩
  by_cases hi : i = item
  · rw [hi]
    simp [Loader.setInstances]
  · simp [Loader.setInstances, hi]

theorem prototype_setInstances (s : Loader) (item : ItemId)
    (instances : QualifiedId → Option InstanceItem) (ref : InstanceRef) :
    (s.setInstances item instances).prototype ref =
      if ref.item = item then (instances ref.path).bind InstanceItem.prototype
      else s.prototype ref := by
  unfold Loader.prototype Loader.setInstances
  by_cases hi : ref.item = item
  · simp [hi]
  · simp [hi]

/-! ## Items at paths -/

theorem provide_prototype (instances : QualifiedId → Option InstanceItem) (path : QualifiedId)
    {new : InstanceItem} (hnew : new.prototype = none) (other : QualifiedId) :
    (provide instances path new other).bind InstanceItem.prototype =
      (instances other).bind InstanceItem.prototype := by
  unfold provide
  split_ifs with hsome
  · rfl
  · by_cases hother : other = path
    · have hnone : instances path = none := by simpa using hsome
      rw [hother, Function.update_self, hnone]
      exact hnew
    · rw [Function.update_of_ne hother]

theorem provideInstances_prototype (moduleName : QualifiedId) (segments : List String)
    (path : QualifiedId) (instances : QualifiedId → Option InstanceItem) (other : QualifiedId) :
    ((provideInstances moduleName path segments instances).2 other).bind InstanceItem.prototype =
      (instances other).bind InstanceItem.prototype := by
  induction segments generalizing path instances with
  | nil => rfl
  | cons segment segments ih =>
      cases segments with
      | nil => exact provide_prototype instances (path ++ [segment]) rfl other
      | cons next segments =>
          have hbegins : InstanceItem.modulePrefix.prototype = none := rfl
          have hprovide := provide_prototype instances (path ++ [segment]) hbegins other
          unfold provideInstances
          dsimp only
          split
          · exact hprovide
          · exact (ih (path ++ [segment]) _).trans hprovide

theorem provideInstances_nothingLoaded (s : Loader) (ref : InstanceRef) :
    NothingLoaded s
      (s.setInstances ref.item (provideInstances ref.path [] ref.path
        (s.items ref.item).instances).2) := by
  refine ⟨setInstances_frame s _ _, fun other => ?_⟩
  rw [prototype_setInstances]
  split_ifs with hitem
  · rw [provideInstances_prototype]
    unfold Loader.prototype
    rw [hitem]
  · rfl

/-- The item at a path is provided. -/
theorem moduleInstanceItem_spec (ref : InstanceRef) (s : Loader) :
    StateOp.Triple (fun t => t = s) (moduleInstanceItem ref)
      (fun found t => NothingLoaded s t ∧
        found.bind InstanceItem.prototype = s.prototype ref)
      (fun _ t => NothingLoaded s t) := by
  unfold moduleInstanceItem
  refine StateOp.Triple.bind (Q := fun _ t => t = s) ?_ fun _ => ?_
  · rintro t rfl
    rw [StateOp.outcome_query]
    cases qbsCheck (!ref.path.isEmpty) "!moduleName.empty()" with
    | error e => exact NothingLoaded.refl t
    | ok u => rfl
  refine StateOp.Triple.bind (Q := fun _ t => NothingLoaded s t) ?_ fun _ => ?_
  · rintro t rfl
    rw [StateOp.outcome_transform]
    dsimp only
    have h := provideInstances_nothingLoaded t ref
    cases (provideInstances ref.path [] ref.path (t.items ref.item).instances).1 with
    | error e => exact h
    | ok u => exact h
  · intro t ht
    exact ⟨ht, ht.prototype ref⟩

/-! ## Loading -/

variable {ctx : DependsContext}

/-- The outcomes of loading a module: the instance was handled already, the module is not found, or
its instance gets a prototype. -/
inductive Loads (ctx : DependsContext) (ref : InstanceRef) (moduleName : QualifiedId)
    (multiplexId : String) (fallback isRequired isProduct : Bool) (s : Loader) :
    LoadResult → Loader → Prop
  | handled {t : Loader} {prototype : ModulePrototype} (hhandled : s.prototype ref = some prototype)
      (hframe : NothingLoaded s t) :
      Loads ctx ref moduleName multiplexId fallback isRequired isProduct s
        ⟨some ref, isProduct, []⟩ t
  | notFound {t : Loader} (hhandled : s.prototype ref = none)
      (hfound : modulePrototype ctx moduleName multiplexId fallback isRequired = .ok none)
      (hframe : NothingLoaded s t) :
      Loads ctx ref moduleName multiplexId fallback isRequired isProduct s
        ⟨none, !(ctx.productModules moduleName).isEmpty, []⟩ t
  | loaded {t : Loader} {prototype : ModulePrototype} (hhandled : s.prototype ref = none)
      (hfound : modulePrototype ctx moduleName multiplexId fallback isRequired =
        .ok (some prototype))
      (hframe : LoadFrame s t)
      (hprototype : ∀ other, t.prototype other =
        if other = ref then some prototype else s.prototype other) :
      Loads ctx ref moduleName multiplexId fallback isRequired isProduct s
        ⟨some ref, !(ctx.productModules moduleName).isEmpty, prototype.defaultParameters⟩ t

theorem instantiateModule_spec (ref : InstanceRef) (moduleName : QualifiedId)
    (prototype : ModulePrototype) (s : Loader) :
    StateOp.Triple (fun t => NothingLoaded s t) (instantiateModule ctx ref moduleName prototype)
      (fun _ t => LoadFrame s t ∧ ∀ other, t.prototype other =
        if other = ref then some prototype else s.prototype other)
      (fun _ t => LoadFrame s t) := by
  unfold instantiateModule
  refine StateOp.Triple.bind (Q := fun _ t => LoadFrame s t ∧ ∀ other, t.prototype other =
    if other = ref then some prototype else s.prototype other) ?_ fun _ => ?_
  · intro t ht
    refine ⟨ht.toLoadFrame.trans (setInstances_frame t _ _), fun other => ?_⟩
    rw [prototype_setInstances]
    by_cases hother : other = ref
    · simp [hother, InstanceItem.prototype]
    · rw [if_neg hother, ← ht.prototype other]
      split_ifs with hitem
      · have hpath : other.path ≠ ref.path := by
          intro hpath
          apply hother
          rcases other with ⟨i, p⟩
          rcases ref with ⟨j, q⟩
          simp_all
        rw [Function.update_of_ne hpath]
        unfold Loader.prototype
        rw [hitem]
      · rfl
  · exact (StateOp.Triple.query _).weaken (fun _ h => h) (fun _ _ h => h.1) fun _ _ h => h.1.1

theorem loadModule_spec (item : ItemId) (moduleId : String) (moduleName : QualifiedId)
    (multiplexId : String) (fallback isRequired isProduct : Bool) (s : Loader) :
    StateOp.Triple (fun t => t = s)
      (loadModule ctx item moduleId moduleName multiplexId fallback isRequired isProduct)
      (Loads ctx (instanceRef item moduleId moduleName) moduleName multiplexId fallback isRequired
        isProduct s)
      (fun _ t => LoadFrame s t) := by
  unfold loadModule
  dsimp only
  split
  · rintro t rfl
    exact LoadFrame.refl t
  refine StateOp.Triple.bind ((moduleInstanceItem_spec _ s).weaken (fun _ h => h) (fun _ _ h => h)
    fun _ _ h => h.toLoadFrame) fun found => ?_
  split
  · rename_i prototype
    rintro t ⟨hframe, hproto⟩
    exact Loads.handled hproto.symm hframe
  · refine StateOp.Triple.bind (Q := fun prototype t => (NothingLoaded s t ∧
      s.prototype (instanceRef item moduleId moduleName) = none) ∧
      modulePrototype ctx moduleName multiplexId fallback isRequired = .ok prototype) ?_
      fun prototype => ?_
    · intro t ht
      rw [StateOp.outcome_query]
      cases hfound : modulePrototype ctx moduleName multiplexId fallback isRequired with
      | error e => exact ht.1.toLoadFrame
      | ok prototype => exact ⟨⟨ht.1, ht.2.symm⟩, rfl⟩
    · cases prototype with
      | none =>
          rintro t ⟨⟨hframe, hnone⟩, hfound⟩
          exact Loads.notFound hnone hfound hframe
      | some prototype =>
          dsimp only
          by_cases hcase : s.prototype (instanceRef item moduleId moduleName) = none ∧
              modulePrototype ctx moduleName multiplexId fallback isRequired = .ok (some prototype)
          · refine StateOp.Triple.bind ((instantiateModule_spec _ moduleName prototype s).weaken
              (fun _ h => h.1.1) (fun _ _ h => h) fun _ _ h => h) fun _ => ?_
            rintro t ⟨hframe, hproto⟩
            exact Loads.loaded hcase.1 hcase.2 hframe hproto
          · intro t ht
            exact absurd ⟨ht.1.2, ht.2⟩ hcase
  · refine StateOp.Triple.bind (Q := fun _ t => LoadFrame s t) ?_ fun modules => ?_
    · exact fun t ht => ht.1.toLoadFrame
    · split
      · exact fun t ht => ht
      · exact fun t ht => ht

/-- Loading a module leaves everything but the items at paths. -/
theorem Loads.frame {ref : InstanceRef} {moduleName : QualifiedId} {multiplexId : String}
    {fallback isRequired isProduct : Bool} {result : LoadResult}
    (h : Loads ctx ref moduleName multiplexId fallback isRequired isProduct s result s') :
    LoadFrame s s' := by
  cases h with
  | handled _ hframe => exact hframe.toLoadFrame
  | notFound _ _ hframe => exact hframe.toLoadFrame
  | loaded _ _ hframe _ => exact hframe

/-- What is remembered of a module that was loaded for a Depends item. -/
theorem loadForItem_spec (ctx : DependsContext) (d : DependsItem) (moduleName : QualifiedId) (isProduct : Bool)
    (s : Loader) :
    StateOp.Triple (fun t => t = s) (loadForItem ctx d moduleName isProduct)
      (fun _ t => ∃ result u, Loads ctx (instanceRef d.parent d.id moduleName) moduleName
        (d.multiplexIds.headD "") (d.fallback ctx) (d.isRequired ctx) isProduct s result u ∧
        result.item = some (instanceRef d.parent d.id moduleName) ∧
          t = addResult ctx d moduleName (instanceRef d.parent d.id moduleName) result u)
      (fun _ t => LoadFrame s t) := by
  unfold loadForItem
  refine StateOp.Triple.bind (loadModule_spec _ _ _ _ _ _ _ s) fun result => ?_
  cases hitem : result.item with
  | none => exact fun t ht => ht.frame
  | some ref =>
      dsimp only
      split
      · exact fun t ht => ht.frame
      · intro t ht
        have href : ref = instanceRef d.parent d.id moduleName := by
          cases ht with
          | handled _ _ => exact (Option.some.inj hitem).symm
          | notFound _ _ _ => cases hitem
          | loaded _ _ _ _ => exact (Option.some.inj hitem).symm
        rw [href] at hitem ⊢
        exact ⟨result, t, ht, hitem, rfl⟩

end ModuleLoader

end Qbs
