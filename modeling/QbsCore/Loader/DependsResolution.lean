import QbsCore.Loader.DependsMerging

/-!
# One module for each name

When the Depends items of an item have been resolved, there is one new module for each name
that they ask for, and it says what all of them ask for.  The code achieves this unless a
name or an instance is taken already, or the first item that asks for a module says less
than a later one: a later item does not look the module up again, cannot bring an upper
version bound where there was none, and adds no dependency on a product.

Main results:

- Theorem {lit}`ModuleLoader.resolveDependencies_merges`: the condition under which the
  modules of the Depends items are merged.
- Theorem {lit}`ModuleLoader.not_merges_sampleLoader`: an upper version bound is lost.

Current gaps:

- None.
-/

namespace Qbs

namespace ModuleLoader

/-! ## Adding modules -/

section Adding

variable {modules modules' : List Module} {m : Module} {s t u : Loader} {item : ItemId}

theorem addModule_perm (h : addModule m modules = .ok modules') : modules'.Perm (m :: modules) := by
  have hsplit : ∀ p : Module → Bool,
      (modules.takeWhile p ++ m :: modules.dropWhile p).Perm (m :: modules) := by
    intro p
    refine List.perm_middle.trans ?_
    rw [List.takeWhile_append_dropWhile]
  unfold addModule at h
  dsimp only at h
  split at h
  · rw [← Except.ok.inj h]
    exact hsplit _
  · split_ifs at h
    rw [← Except.ok.inj h]
    exact hsplit _

/-- A module with a new name and a new instance can be added. -/
theorem exists_addModule (hname : m.name ∉ modules.map Module.name)
    (hitem : m.item ∉ modules.map Module.item) : ∃ modules', addModule m modules = .ok modules' := by
  unfold addModule
  dsimp only
  split
  · exact ⟨_, rfl⟩
  · rename_i it hit
    have hmem : it ∈ modules :=
      (List.dropWhile_suffix _).subset (List.mem_of_mem_head? hit)
    have hne : m.name ≠ it.name ∧ m.item ≠ it.item :=
      ⟨fun h => hname (h ▸ List.mem_map_of_mem hmem), fun h => hitem (h ▸ List.mem_map_of_mem hmem)⟩
    exact ⟨_, if_pos (by simpa using hne)⟩

/-- Some modules have been added to an item. -/
structure Added (item : ItemId) (news : List Module) (s t : Loader) : Prop where
  modules : (t.items item).modules.Perm ((s.items item).modules ++ news)
  prototype : ∀ ref, t.prototype ref = s.prototype ref
  errors : t.errors = s.errors
  usedProducts : t.usedProducts = s.usedProducts

theorem Added.nil : Added item [] s s :=
  ⟨by rw [List.append_nil], fun _ => rfl, rfl, rfl⟩

theorem Added.trans {news : List Module} (h : Added item [m] s t) (h' : Added item news t u) :
    Added item (m :: news) s u where
  modules := by
    refine h'.modules.trans ((h.modules.append_right news).trans ?_)
    rw [List.append_assoc]
    rfl
  prototype ref := (h'.prototype ref).trans (h.prototype ref)
  errors := h'.errors.trans h.errors
  usedProducts := h'.usedProducts.trans h.usedProducts

theorem addModuleTo_spec (item : ItemId) (m : Module) (s : Loader) :
    StateOp.Triple (fun t => t = s) (addModuleTo item m)
      (fun _ t => Added item [m] s t ∧ t.productDependencies = s.productDependencies)
      (fun _ _ => True) := by
  rintro t rfl
  unfold addModuleTo
  rw [StateOp.outcome_transform]
  cases hadd : addModule m (t.items item).modules with
  | error e => trivial
  | ok modules =>
      refine ⟨⟨?_, fun ref => ?_, rfl, rfl⟩, rfl⟩
      · dsimp only
        rw [Function.update_self]
        exact (addModule_perm hadd).trans (List.perm_append_singleton m _).symm
      · unfold Loader.prototype
        dsimp only
        by_cases href : ref.item = item
        · rw [href, Function.update_self]
        · rw [Function.update_of_ne href]

theorem exists_addModuleTo (hname : m.name ∉ (s.items item).modules.map Module.name)
    (hitem : m.item ∉ (s.items item).modules.map Module.item) :
    ∃ t, (addModuleTo item m).outcome s = (.ok (), t) := by
  rcases exists_addModule hname hitem with ⟨modules', hadd⟩
  unfold addModuleTo
  rw [StateOp.outcome_transform, hadd]
  exact ⟨_, rfl⟩

/-- A dependency on a product with a profile and a multiplex configuration. -/
def HasDependency (deps : List UsedProduct) (name : QualifiedId) (profile multiplexId : String) :
    Prop :=
  ∃ dep, dep ∈ deps ∧ dep.name = name ∧ dep.profile = profile ∧
    dep.multiplexConfigurationId = multiplexId

theorem hasDependency_append {deps deps' : List UsedProduct} {name : QualifiedId}
    {profile multiplexId : String} :
    HasDependency (deps ++ deps') name profile multiplexId ↔
      HasDependency deps name profile multiplexId ∨
        HasDependency deps' name profile multiplexId := by
  unfold HasDependency
  simp only [List.mem_append, or_and_right, exists_or]

/-- A module that was loaded is added, and the parameters of the dependencies on it are set. -/
theorem addLoadedModule_spec (item : ItemId) (e : Module × DependsItem) (s : Loader) :
    StateOp.Triple (fun t => t = s) (addLoadedModule item e)
      (fun _ t => Added item [withParameters e] s t ∧ ∀ name profile multiplexId,
        HasDependency t.productDependencies name profile multiplexId ↔
          HasDependency s.productDependencies name profile multiplexId)
      (fun _ _ => True) := by
  unfold addLoadedModule
  refine (addModuleTo_spec item (withParameters e) s).bind fun _ => ?_
  rintro t ⟨hadded, hdeps⟩
  refine ⟨⟨hadded.modules, hadded.prototype, hadded.errors, hadded.usedProducts⟩,
    fun name profile multiplexId => ?_⟩
  rw [← hdeps]
  unfold HasDependency
  constructor
  · rintro ⟨dep, hdep, rfl, rfl, rfl⟩
    rcases List.mem_map.mp hdep with ⟨dep', hdep', rfl⟩
    refine ⟨dep', hdep', ?_⟩
    split_ifs <;> exact ⟨rfl, rfl, rfl⟩
  · rintro ⟨dep, hdep, rfl, rfl, rfl⟩
    refine ⟨_, List.mem_map_of_mem hdep, ?_⟩
    split_ifs <;> exact ⟨rfl, rfl, rfl⟩

theorem addLoadedModules_spec (item : ItemId) (modules : List (Module × DependsItem)) (s : Loader) :
    StateOp.Triple (fun t => t = s) (addLoadedModules item modules)
      (fun _ t => Added item (modules.map withParameters) s t ∧ ∀ name profile multiplexId,
        HasDependency t.productDependencies name profile multiplexId ↔
          HasDependency s.productDependencies name profile multiplexId)
      (fun _ _ => True) := by
  induction modules generalizing s with
  | nil =>
      rintro t rfl
      exact ⟨Added.nil, fun _ _ _ => Iff.rfl⟩
  | cons e modules ih =>
      unfold addLoadedModules
      refine (addLoadedModule_spec item e s).bind fun _ => ?_
      rintro t ⟨hadded, hdeps⟩
      have hrest := ih t t rfl
      rcases hout : (addLoadedModules item modules).outcome t with ⟨error | _, u⟩
      · trivial
      · rw [hout] at hrest
        exact ⟨hadded.trans hrest.1, fun name profile multiplexId =>
          (hrest.2 name profile multiplexId).trans (hdeps name profile multiplexId)⟩

theorem exists_addLoadedModule {e : Module × DependsItem}
    (hname : e.1.name ∉ (s.items item).modules.map Module.name)
    (hitem : e.1.item ∉ (s.items item).modules.map Module.item) :
    ∃ t, (addLoadedModule item e).outcome s = (.ok (), t) := by
  rcases exists_addModuleTo (m := withParameters e) hname hitem with ⟨t, ht⟩
  unfold addLoadedModule
  dsimp only
  rw [StateOp.outcome_bind, ht]
  exact ⟨_, rfl⟩

/-- Modules whose names and instances are new and differ can be added. -/
theorem exists_addLoadedModules (modules : List (Module × DependsItem))
    (hnames : (modules.map fun e => e.1.name).Nodup) (hitems : (modules.map fun e => e.1.item).Nodup)
    (hnew : ∀ e, e ∈ modules → e.1.name ∉ (s.items item).modules.map Module.name ∧
      e.1.item ∉ (s.items item).modules.map Module.item) :
    ∃ t, (addLoadedModules item modules).outcome s = (.ok (), t) := by
  induction modules generalizing s with
  | nil => exact ⟨s, rfl⟩
  | cons e modules ih =>
      rw [List.map_cons, List.nodup_cons] at hnames hitems
      have hfirst := hnew e List.mem_cons_self
      rcases exists_addLoadedModule hfirst.1 hfirst.2 with ⟨u, hout⟩
      have hadd := addLoadedModule_spec item e s s rfl
      rw [hout] at hadd
      have hmodules := hadd.1.modules
      have hrest : ∀ e', e' ∈ modules → e'.1.name ∉ (u.items item).modules.map Module.name ∧
          e'.1.item ∉ (u.items item).modules.map Module.item := by
        intro e' he'
        have he := hnew e' (List.mem_cons_of_mem _ he')
        have hname : e'.1.name ≠ e.1.name := fun h =>
          hnames.1 (h ▸ List.mem_map_of_mem (f := fun e => e.1.name) he')
        have hitem : e'.1.item ≠ e.1.item := fun h =>
          hitems.1 (h ▸ List.mem_map_of_mem (f := fun e => e.1.item) he')
        rw [(hmodules.map Module.name).mem_iff, (hmodules.map Module.item).mem_iff,
          List.map_append, List.map_append, List.mem_append, List.mem_append]
        exact ⟨fun h => h.elim he.1 fun h => hname (List.mem_singleton.mp h),
          fun h => h.elim he.2 fun h => hitem (List.mem_singleton.mp h)⟩
      rcases ih hnames.2 hitems.2 hrest with ⟨v, hv⟩
      refine ⟨v, ?_⟩
      unfold addLoadedModules
      rw [StateOp.outcome_bind, hout]
      exact hv

end Adding

/-! ## The base module -/

variable (ctx : DependsContext)

/-- The base module that is added to an item. -/
def baseModules (item : ItemId) : List Module :=
  if ctx.loadsBaseModule then [baseModule (instanceRef item "" ["qbs"])] else []

/-- The modules of an item before those of its Depends items are added. -/
def presentModules (item : ItemId) (s : Loader) : List Module :=
  (s.items item).modules ++ baseModules ctx item

/-- The base module was added. -/
structure BaseAdded (item : ItemId) (s t : Loader) : Prop where
  modules : (t.items item).modules.Perm (presentModules ctx item s)
  prototype : ∀ ref, ref ∉ (baseModules ctx item).map Module.item →
    t.prototype ref = s.prototype ref
  errors : t.errors = s.errors
  usedProducts : t.usedProducts = s.usedProducts

section Base

variable {ctx} {item : ItemId} {s : Loader}

theorem loadBaseModule_spec (ctx : DependsContext) (item : ItemId) (s : Loader) :
    StateOp.Triple (fun t => t = s) (loadBaseModule ctx item)
      (fun m t => m = baseModule (instanceRef item "" ["qbs"]) ∧ LoadFrame s t ∧
        ∀ ref, ref ≠ instanceRef item "" ["qbs"] → t.prototype ref = s.prototype ref)
      (fun _ _ => True) := by
  unfold loadBaseModule
  refine StateOp.Triple.bind (Q := fun result t => (∀ ref, result.item = some ref →
    ref = instanceRef item "" ["qbs"]) ∧ LoadFrame s t ∧
      ∀ ref, ref ≠ instanceRef item "" ["qbs"] → t.prototype ref = s.prototype ref) ?_
    fun result => ?_
  · refine (loadModule_spec item "" ["qbs"] "" false true false s).weaken (fun _ h => h) ?_
      fun _ _ _ => trivial
    intro result t h
    cases h with
    | handled _ hframe =>
        exact ⟨fun _ h => (Option.some.inj h).symm, hframe.toLoadFrame,
          fun ref _ => hframe.prototype ref⟩
    | notFound _ _ hframe =>
        exact ⟨fun _ h => (nomatch h), hframe.toLoadFrame, fun ref _ => hframe.prototype ref⟩
    | loaded _ _ hframe hprototype =>
        exact ⟨fun _ h => (Option.some.inj h).symm, hframe,
          fun ref href => (hprototype ref).trans (if_neg href)⟩
  refine StateOp.Triple.bind ((StateOp.Triple.query _).weaken (fun _ h => h) (fun _ _ h => h.1)
    fun _ _ _ => trivial) fun _ => ?_
  cases hitem : result.item with
  | none => exact fun _ _ => trivial
  | some ref =>
      rintro t ⟨href, hframe, hprototype⟩
      exact ⟨by rw [href ref rfl], hframe, hprototype⟩

theorem addBaseModule_spec (ctx : DependsContext) (item : ItemId) (s : Loader) :
    StateOp.Triple (fun t => t = s) (addBaseModule ctx item) (fun _ => BaseAdded ctx item s)
      (fun _ _ => True) := by
  unfold addBaseModule
  by_cases hloads : ctx.loadsBaseModule = true
  · rw [if_pos hloads]
    refine (loadBaseModule_spec ctx item s).bind fun m => ?_
    rintro t ⟨rfl, hframe, hprototype⟩
    have hadd := addModuleTo_spec item (baseModule (instanceRef item "" ["qbs"])) t t rfl
    rcases hout : (addModuleTo item (baseModule (instanceRef item "" ["qbs"]))).outcome t
      with ⟨e | _, u⟩
    · trivial
    · rw [hout] at hadd
      rcases hadd with ⟨hadded, _⟩
      refine ⟨?_, fun ref href => ?_, hadded.errors.trans hframe.errors,
        hadded.usedProducts.trans hframe.usedProducts⟩
      · unfold presentModules baseModules
        rw [if_pos hloads, ← hframe.modules item]
        exact hadded.modules
      · rw [hadded.prototype]
        apply hprototype
        rintro rfl
        apply href
        unfold baseModules
        rw [if_pos hloads]
        exact List.mem_cons_self
  · rw [if_neg hloads]
    rintro t rfl
    refine ⟨?_, fun _ _ => rfl, rfl, rfl⟩
    unfold presentModules baseModules
    rw [if_neg hloads, List.append_nil]

end Base

/-! ## The condition -/

/-- The instance is that of a module that is there. -/
def ModulePrototype.isPresent : ModulePrototype → Bool
  | .nonPresent => false
  | _ => true

/-- The condition under which the modules of Depends items are merged: their names and instances are
new, and the first item that asks for a module says as much as the later ones. -/
structure MergeCondition (item : ItemId) (dependsItems : List DependsItem) (s : Loader) : Prop where
  newNames : ∀ r, r ∈ requests ctx dependsItems → r.name ∉ (presentModules ctx item s).map Module.name
  newInstances : ∀ f, IsFirst (requests ctx dependsItems) f →
    f.ref ∉ (presentModules ctx item s).map Module.item ∧ s.prototype f.ref = none
  instances_ne : ∀ f f', IsFirst (requests ctx dependsItems) f →
    IsFirst (requests ctx dependsItems) f' → f.name ≠ f'.name → f.ref ≠ f'.ref
  required : ∀ f, IsFirst (requests ctx dependsItems) f → f.item.isRequired ctx = true ∨
    (∀ r, r ∈ requests ctx dependsItems → r.name = f.name → r.item.isRequired ctx = false) ∨
      f.lookup ctx ≠ .ok (some .nonPresent)
  versionRange : ∀ f, IsFirst (requests ctx dependsItems) f →
    f.item.versionBelow.isValid = true ∨ ∀ r, r ∈ requests ctx dependsItems → r.name = f.name →
      r.item.versionBelow.isValid = false
  products : ∀ f, IsFirst (requests ctx dependsItems) f → ctx.productModules f.name ≠ [] →
    ∀ r, r ∈ requests ctx dependsItems → r.name = f.name → ∀ profile, profile ∈ r.item.profileNames →
      ∀ multiplexId, multiplexId ∈ r.item.multiplexIds →
        profile ∈ f.item.profileNames ∧ multiplexId ∈ f.item.multiplexIds ∨
          HasDependency s.usedProducts r.name profile multiplexId

/-- All requests for different modules are for different instances, and the item has neither them nor
the base module. -/
structure InstancesApart (item : ItemId) (dependsItems : List DependsItem) (s : Loader) : Prop where
  base : ctx.loadsBaseModule = true → ["qbs"] ∉ (s.items item).modules.map Module.name ∧
    instanceRef item "" ["qbs"] ∉ (s.items item).modules.map Module.item
  new : ∀ r, r ∈ requests ctx dependsItems → r.ref ∉ (presentModules ctx item s).map Module.item
  ref_ne : ∀ r r', r ∈ requests ctx dependsItems → r' ∈ requests ctx dependsItems →
    r.name ≠ r'.name → r.ref ≠ r'.ref

/-- What the Depends items ask for is what the new modules of an item say. -/
structure Merged (item : ItemId) (dependsItems : List DependsItem) (s t : Loader)
    (news : List Module) : Prop where
  modules : (t.items item).modules.Perm (presentModules ctx item s ++ news)
  names_nodup : (news.map Module.name).Nodup
  names_new : ∀ m, m ∈ news → m.name ∉ (presentModules ctx item s).map Module.name
  items_nodup : (news.map Module.item).Nodup
  items_new : ∀ m, m ∈ news → m.item ∉ (presentModules ctx item s).map Module.item
  names : ∀ name, name ∈ news.map Module.name ↔
    ∃ r, r ∈ requests ctx dependsItems ∧ r.name = name
  required : ∀ m, m ∈ news → (m.required = true ↔
    ∃ r, r ∈ requests ctx dependsItems ∧ r.name = m.name ∧ r.item.isRequired ctx = true)
  present : ∀ m, m ∈ news → m.required = true →
    ∃ p, t.prototype m.item = some p ∧ p.isPresent = true
  versionRange : ∀ m, m ∈ news → ∀ v, m.versionRange.contains v ↔
    ∀ r, r ∈ requests ctx dependsItems → r.name = m.name → r.item.versionRange.contains v
  products : ∀ r, r ∈ requests ctx dependsItems → ctx.productModules r.name ≠ [] →
    ∀ profile, profile ∈ r.item.profileNames → ∀ multiplexId, multiplexId ∈ r.item.multiplexIds →
      HasDependency t.usedProducts r.name profile multiplexId

/-- No Depends item leads to an error. -/
def ResolvesCleanly (item : ItemId) (dependsItems : List DependsItem) (s : Loader) : Prop :=
  ∃ s₁ modules t, (addBaseModule ctx item).outcome s = (.ok (), s₁) ∧
    (loadModules ctx dependsItems).outcome s₁ = (.ok modules, t) ∧ t.errors = s.errors

/-- Whether no Depends item leads to an error. -/
def resolvesCleanly (item : ItemId) (dependsItems : List DependsItem) (s : Loader) : Bool :=
  match (addBaseModule ctx item).outcome s with
  | (.ok _, s₁) =>
      match (loadModules ctx dependsItems).outcome s₁ with
      | (.ok _, t) => t.errors = s.errors
      | (.error _, _) => false
  | (.error _, _) => false

theorem resolvesCleanly_iff {ctx : DependsContext} {item : ItemId} {dependsItems : List DependsItem}
    {s : Loader} :
    resolvesCleanly ctx item dependsItems s = true ↔ ResolvesCleanly ctx item dependsItems s := by
  unfold resolvesCleanly ResolvesCleanly
  rcases hbase : (addBaseModule ctx item).outcome s with ⟨e | u, s₁⟩
  · simp
  · rcases hload : (loadModules ctx dependsItems).outcome s₁ with ⟨e | modules, t⟩
    · simp [hload]
    · simp [hload]

instance (item : ItemId) (dependsItems : List DependsItem) (s : Loader) :
    Decidable (ResolvesCleanly ctx item dependsItems s) :=
  decidable_of_iff _ resolvesCleanly_iff

/-- The modules are added without an inconsistency, and unless an error was reported they are what
the Depends items ask for. -/
structure Merges (item : ItemId) (dependsItems : List DependsItem) (s : Loader) : Prop where
  base : ctx.loadsBaseModule = true → ∀ m t, (loadBaseModule ctx item).outcome s = (.ok m, t) →
    ∃ u, (addModuleTo item m).outcome t = (.ok (), u)
  modules : ∀ s₁ modules t, (addBaseModule ctx item).outcome s = (.ok (), s₁) →
    (loadModules ctx dependsItems).outcome s₁ = (.ok modules, t) →
      ∃ u, (addLoadedModules item modules).outcome t = (.ok (), u)
  merged : ResolvesCleanly ctx item dependsItems s → ∀ u,
    (resolveDependencies ctx item dependsItems).outcome s = (.ok (), u) →
      ∃ news, Merged ctx item dependsItems s u news

/-- Only for a module that is not required is it enough not to be there. -/
theorem isRequired_eq_false_of_lookup {ctx : DependsContext} {r : Request}
    (h : r.lookup ctx = .ok (some .nonPresent)) : r.item.isRequired ctx = false := by
  unfold Request.lookup modulePrototype at h
  split at h
  · cases h
  · by_cases hempty : (ctx.productModules r.name).isEmpty = true
    · rw [if_pos hempty] at h
      unfold searchAndLoadModuleFile at h
      split at h
      · cases h
      · cases h
      · by_cases hrequired : (!r.item.isRequired ctx) = true
        · simpa using hrequired
        · rw [if_neg hrequired] at h
          split_ifs at h
          cases h
    · rw [if_neg hempty] at h
      cases h

/-! ## The runs -/

section Runs

variable {ctx} {item : ItemId} {dependsItems : List DependsItem} {s s₁ t u : Loader}
  {modules : List (Module × DependsItem)} {news news' : List Module}

theorem MergedFrom.withParameters {rs : List Request}
    (h : MergedFrom ctx rs (modules.map Prod.fst)) :
    MergedFrom ctx rs (modules.map ModuleLoader.withParameters) := by
  have hnames : (modules.map ModuleLoader.withParameters).map Module.name =
      (modules.map Prod.fst).map Module.name := by
    rw [List.map_map, List.map_map]
    rfl
  refine ⟨hnames ▸ h.nodup, fun r hr => hnames ▸ h.names r hr, fun m hm => ?_⟩
  rcases List.mem_map.mp hm with ⟨e, he, rfl⟩
  rcases h.merged e.1 (List.mem_map_of_mem he) with ⟨f, rest, hf⟩
  exact ⟨f, rest, hf.requests, hf.item, hf.required, hf.versionRange⟩

/-- The three parts of resolving the dependencies. -/
structure Run (ctx : DependsContext) (item : ItemId) (dependsItems : List DependsItem)
    (s s₁ t : Loader) (modules : List (Module × DependsItem)) : Prop where
  base : (addBaseModule ctx item).outcome s = (.ok (), s₁)
  loaded : (loadModules ctx dependsItems).outcome s₁ = (.ok modules, t)

namespace Run

theorem baseAdded (h : Run ctx item dependsItems s s₁ t modules) : BaseAdded ctx item s s₁ := by
  have hbase := addBaseModule_spec ctx item s s rfl
  rw [h.base] at hbase
  exact hbase

theorem loadedFor (h : Run ctx item dependsItems s s₁ t modules) :
    modules.map Prod.fst = t.loadedModules ∧
      LoadedFor ctx (requests ctx dependsItems) (requests ctx dependsItems) s₁.reset t := by
  have hload := loadModules_spec ctx dependsItems s₁ s₁ rfl
  rw [h.loaded] at hload
  exact hload

theorem modules_perm (h : Run ctx item dependsItems s s₁ t modules) :
    (t.items item).modules.Perm (presentModules ctx item s) := by
  rw [h.loadedFor.2.modules item]
  exact h.baseAdded.modules

/-- Resolving the dependencies returns if the modules are added without an error. -/
theorem outcome (h : Run ctx item dependsItems s s₁ t modules)
    (hadd : (addLoadedModules item modules).outcome t = (.ok (), u)) :
    (resolveDependencies ctx item dependsItems).outcome s =
      (.ok (), { u with usedProducts := u.usedProducts ++ u.productDependencies }) := by
  unfold resolveDependencies
  rw [StateOp.outcome_bind, h.base]
  dsimp only
  rw [StateOp.outcome_bind, h.loaded]
  dsimp only
  rw [StateOp.outcome_bind, hadd]
  rfl

/-- The modules can be added if their names and instances are new and the instances differ. -/
theorem exists_add (h : Run ctx item dependsItems s s₁ t modules)
    (hnames : ∀ r, r ∈ requests ctx dependsItems →
      r.name ∉ (presentModules ctx item s).map Module.name)
    (hitems : ∀ m, m ∈ t.loadedModules → m.item ∉ (presentModules ctx item s).map Module.item)
    (hne : ∀ m m', m ∈ t.loadedModules → m' ∈ t.loadedModules → m.name ≠ m'.name →
      m.item ≠ m'.item) :
    ∃ u, (addLoadedModules item modules).outcome t = (.ok (), u) := by
  rcases h.loadedFor with ⟨hmodules, hloaded⟩
  have hnodup : (modules.map fun e => e.1.name).Nodup := by
    have hnodup := hloaded.nodup
    rw [← hmodules, List.map_map] at hnodup
    exact hnodup
  have hmem : ∀ e, e ∈ modules → e.1 ∈ t.loadedModules := fun e he =>
    hmodules ▸ List.mem_map_of_mem he
  apply exists_addLoadedModules
  · exact hnodup
  · refine List.pairwise_map.mpr ((List.pairwise_map.mp hnodup).imp_of_mem ?_)
    exact fun he he' hname => hne _ _ (hmem _ he) (hmem _ he') hname
  · intro e he
    rcases hloaded.requested e.1 (hmem e he) with ⟨r, hr, hname, _⟩
    rw [(h.modules_perm.map Module.name).mem_iff, (h.modules_perm.map Module.item).mem_iff]
    exact ⟨hname ▸ hnames r hr, hitems e.1 (hmem e he)⟩

/-- The instances are as new after the base module was added as before. -/
theorem freshInstances (h : Run ctx item dependsItems s s₁ t modules)
    (hnew : ∀ f, IsFirst (requests ctx dependsItems) f →
      f.ref ∉ (presentModules ctx item s).map Module.item ∧ s.prototype f.ref = none)
    (hne : ∀ f f', IsFirst (requests ctx dependsItems) f →
      IsFirst (requests ctx dependsItems) f' → f.name ≠ f'.name → f.ref ≠ f'.ref) :
    FreshInstances (requests ctx dependsItems) s₁.reset := by
  refine ⟨fun f hf => ?_, hne⟩
  rcases hnew f hf with ⟨href, hnone⟩
  have hbase : f.ref ∉ (baseModules ctx item).map Module.item := by
    intro hmem
    apply href
    unfold presentModules
    rw [List.map_append]
    exact List.mem_append_right _ hmem
  exact (h.baseAdded.prototype f.ref hbase).trans hnone

/-- Without errors the modules are merged from the requests. -/
theorem mergedFrom (h : Run ctx item dependsItems s s₁ t modules) (hclean : t.errors = s.errors) :
    MergedFrom ctx (requests ctx dependsItems) t.loadedModules ∧
      (FreshInstances (requests ctx dependsItems) s₁.reset →
        Found ctx (requests ctx dependsItems) s₁.reset t) :=
  h.loadedFor.2.clean (hclean.trans h.baseAdded.errors.symm)

/-- The dependencies on products after all modules were added. -/
theorem hasDependency (h : Run ctx item dependsItems s s₁ t modules)
    (hfound : Found ctx (requests ctx dependsItems) s₁.reset t)
    (hadd : (addLoadedModules item modules).outcome t = (.ok (), u)) {name : QualifiedId}
    {profile multiplexId : String} :
    HasDependency (u.usedProducts ++ u.productDependencies) name profile multiplexId ↔
      HasDependency s.usedProducts name profile multiplexId ∨
        ∃ f, IsFirst (requests ctx dependsItems) f ∧ ctx.productModules f.name ≠ [] ∧
          f.name = name ∧ profile ∈ f.item.profileNames ∧ multiplexId ∈ f.item.multiplexIds := by
  have hadded := addLoadedModules_spec item modules t t rfl
  rw [hadd] at hadded
  have hused : u.usedProducts = s.usedProducts := by
    rw [hadded.1.usedProducts, h.loadedFor.2.usedProducts]
    exact h.baseAdded.usedProducts
  rw [hasDependency_append, hused, hadded.2]
  refine or_congr_right ?_
  unfold HasDependency
  simp only [hfound.products, productEntries, List.mem_flatMap, List.mem_map]
  constructor
  · rintro ⟨_, ⟨f, hf, hproduct, profile, hprofile, multiplexId, hid, rfl⟩, rfl, rfl, rfl⟩
    exact ⟨f, hf, hproduct, rfl, hprofile, hid⟩
  · rintro ⟨f, hf, hproduct, rfl, hprofile, hid⟩
    exact ⟨_, ⟨f, hf, hproduct, profile, hprofile, multiplexId, hid, rfl⟩, rfl, rfl, rfl⟩

theorem exists_add_of_condition (h : Run ctx item dependsItems s s₁ t modules)
    (hcond : MergeCondition ctx item dependsItems s) (hclean : t.errors = s.errors) :
    ∃ u, (addLoadedModules item modules).outcome t = (.ok (), u) := by
  rcases h.mergedFrom hclean with ⟨hloaded, _⟩
  apply h.exists_add hcond.newNames
  · intro m hm
    rcases hloaded.exists_isFirst hm with ⟨f, hf, _, hitem⟩
    rw [hitem]
    exact (hcond.newInstances f hf).1
  · intro m m' hm hm' hne
    rcases hloaded.exists_isFirst hm with ⟨f, hf, hname, hitem⟩
    rcases hloaded.exists_isFirst hm' with ⟨f', hf', hname', hitem'⟩
    rw [hitem, hitem']
    exact hcond.instances_ne f f' hf hf' (by rw [hname, hname']; exact hne)

/-- Under the condition, what the Depends items ask for is what the new modules say. -/
theorem merged (h : Run ctx item dependsItems s s₁ t modules) (hclean : t.errors = s.errors)
    (hcond : MergeCondition ctx item dependsItems s)
    (hadd : (addLoadedModules item modules).outcome t = (.ok (), u)) :
    Merged ctx item dependsItems s
      { u with usedProducts := u.usedProducts ++ u.productDependencies }
      (modules.map withParameters) := by
  have hadded := addLoadedModules_spec item modules t t rfl
  rw [hadd] at hadded
  rcases h.mergedFrom hclean with ⟨hloaded, hfound⟩
  have hfresh := h.freshInstances hcond.newInstances hcond.instances_ne
  rw [← h.loadedFor.1] at hloaded
  have hmerged := hloaded.withParameters
  constructor
  · exact hadded.1.modules.trans (h.modules_perm.append_right _)
  · exact hmerged.nodup
  · intro m hm
    rcases hmerged.exists_isFirst hm with ⟨f, hf, hname, _⟩
    rw [← hname]
    exact hcond.newNames f hf.mem
  · refine List.pairwise_map.mpr ((List.pairwise_map.mp hmerged.nodup).imp_of_mem ?_)
    intro m m' hm hm' hne
    rcases hmerged.exists_isFirst hm with ⟨f, hf, hname, hitem⟩
    rcases hmerged.exists_isFirst hm' with ⟨f', hf', hname', hitem'⟩
    rw [hitem, hitem']
    exact hcond.instances_ne f f' hf hf' (by rw [hname, hname']; exact hne)
  · intro m hm
    rcases hmerged.exists_isFirst hm with ⟨f, hf, _, hitem⟩
    rw [hitem]
    exact (hcond.newInstances f hf).1
  · exact fun name => hmerged.mem_names_iff
  · exact fun m hm => hmerged.required_iff hm
  · intro m hm hrequired
    rcases hmerged.exists_isFirst hm with ⟨f, hf, hname, hitem⟩
    rcases (hfound hfresh).prototype f hf with ⟨p, hlookup, hprototype⟩
    refine ⟨p, ?_, ?_⟩
    · rw [hitem, ← hprototype]
      exact hadded.1.prototype f.ref
    · rcases (hmerged.required_iff hm).mp hrequired with ⟨r, hr, hrname, hrequired⟩
      cases p with
      | exportItem info => rfl
      | moduleFile => rfl
      | nonPresent =>
          have hnone := isRequired_eq_false_of_lookup hlookup
          rcases hcond.required f hf with hfirst | hall | hne
          · rw [hfirst] at hnone
            cases hnone
          · rw [hall r hr (hrname.trans hname.symm)] at hrequired
            cases hrequired
          · exact absurd hlookup hne
  · intro m hm
    rcases hmerged.exists_isFirst hm with ⟨f, hf, hname, _⟩
    exact (hmerged.versionRange_iff hm hf hname).mpr (hcond.versionRange f hf)
  · intro r hr hproduct profile hprofile multiplexId hid
    refine (h.hasDependency (hfound hfresh) hadd).mpr ?_
    rcases exists_isFirst hr with ⟨f, hf, hname⟩
    rcases hcond.products f hf (hname ▸ hproduct) r hr hname.symm profile hprofile multiplexId hid
      with hcombination | hbefore
    · exact Or.inr ⟨f, hf, hname ▸ hproduct, hname, hcombination⟩
    · exact Or.inl hbefore

/-- If what the Depends items ask for is what the new modules say, the condition holds. -/
theorem mergeCondition (h : Run ctx item dependsItems s s₁ t modules)
    (hclean : t.errors = s.errors)
    (hhandled : ∀ f, IsFirst (requests ctx dependsItems) f → s.prototype f.ref ≠ none →
      f.ref ∈ (s.items item).modules.map Module.item)
    (hadd : (addLoadedModules item modules).outcome t = (.ok (), u))
    (hmerged : Merged ctx item dependsItems s
      { u with usedProducts := u.usedProducts ++ u.productDependencies } news) :
    MergeCondition ctx item dependsItems s := by
  have hadded := addLoadedModules_spec item modules t t rfl
  rw [hadd] at hadded
  rcases h.mergedFrom hclean with ⟨hloaded, hfound⟩
  rw [← h.loadedFor.1] at hloaded
  have hmodules := hloaded.withParameters
  have hperm : (modules.map withParameters).Perm news :=
    (List.perm_append_left_iff _).mp
      (((h.modules_perm.append_right _).symm.trans hadded.1.modules.symm).trans hmerged.modules)
  have hmem : ∀ m, m ∈ modules.map withParameters → m ∈ news := fun m hm => hperm.subset hm
  have hnewInstances : ∀ f, IsFirst (requests ctx dependsItems) f →
      f.ref ∉ (presentModules ctx item s).map Module.item ∧ s.prototype f.ref = none := by
    intro f hf
    rcases hmodules.exists_module hf with ⟨m, hm, _, hitem⟩
    have hnew : f.ref ∉ (presentModules ctx item s).map Module.item :=
      hitem ▸ hmerged.items_new m (hmem m hm)
    refine ⟨hnew, ?_⟩
    by_contra hsome
    apply hnew
    unfold presentModules
    rw [List.map_append]
    exact List.mem_append_left _ (hhandled f hf hsome)
  have hne : ∀ f f', IsFirst (requests ctx dependsItems) f →
      IsFirst (requests ctx dependsItems) f' → f.name ≠ f'.name → f.ref ≠ f'.ref := by
    intro f f' hf hf' hname heq
    rcases hmodules.exists_module hf with ⟨m, hm, hmname, hitem⟩
    rcases hmodules.exists_module hf' with ⟨m', hm', hmname', hitem'⟩
    have hsame : m = m' := List.inj_on_of_nodup_map hmerged.items_nodup (hmem m hm) (hmem m' hm')
      (by rw [hitem, hitem', heq])
    exact hname (by rw [← hmname, ← hmname', hsame])
  have hfound := hfound (h.freshInstances hnewInstances hne)
  constructor
  · intro r hr
    have hname := (hmerged.names r.name).mpr ⟨r, hr, rfl⟩
    rcases List.mem_map.mp hname with ⟨m, hm, hm'⟩
    rw [← hm']
    exact hmerged.names_new m hm
  · exact hnewInstances
  · exact hne
  · intro f hf
    by_cases hlookup : f.lookup ctx = .ok (some .nonPresent)
    · refine Or.inr (Or.inl fun r hr hname => ?_)
      by_contra hrequired
      rcases hmodules.exists_module hf with ⟨m, hm, hmname, hitem⟩
      have hm' : m.required = true := (hmerged.required m (hmem m hm)).mpr
        ⟨r, hr, hname.trans hmname.symm, Bool.eq_true_of_not_eq_false hrequired⟩
      rcases hmerged.present m (hmem m hm) hm' with ⟨p, hp, hpresent⟩
      rcases hfound.prototype f hf with ⟨p', hlookup', hprototype⟩
      have hp' : some p = some p' := by
        rw [← hp, ← hprototype, hitem]
        exact hadded.1.prototype f.ref
      rw [hlookup, ← hp'] at hlookup'
      cases hlookup'
      cases hpresent
    · exact Or.inr (Or.inr hlookup)
  · intro f hf
    rcases hmodules.exists_module hf with ⟨m, hm, hname, _⟩
    exact (hmodules.versionRange_iff hm hf hname.symm).mp (hmerged.versionRange m (hmem m hm))
  · intro f hf hproduct r hr hname profile hprofile multiplexId hid
    have hdep := hmerged.products r hr (hname ▸ hproduct) profile hprofile multiplexId hid
    rcases (h.hasDependency hfound hadd).mp hdep with hbefore | ⟨f', hf', _, hname', hcombination⟩
    · exact Or.inr hbefore
    · rw [hf.unique hf' (hname.symm.trans hname'.symm)]
      exact Or.inl hcombination

end Run

theorem Merges.mergeCondition (h : Merges ctx item dependsItems s)
    (hclean : ResolvesCleanly ctx item dependsItems s)
    (hhandled : ∀ f, IsFirst (requests ctx dependsItems) f → s.prototype f.ref ≠ none →
      f.ref ∈ (s.items item).modules.map Module.item) :
    MergeCondition ctx item dependsItems s := by
  have hclean' := hclean
  rcases hclean' with ⟨s₁, modules, t, hbase, hload, herrors⟩
  have hrun : Run ctx item dependsItems s s₁ t modules := ⟨hbase, hload⟩
  rcases h.modules s₁ modules t hbase hload with ⟨u, hadd⟩
  rcases h.merged hclean _ (hrun.outcome hadd) with ⟨news, hnews⟩
  exact hrun.mergeCondition herrors hhandled hadd hnews

end Runs

/-! ## A sample -/

def sampleContext : DependsContext where
  pass := .first
  hasProductContext := true
  productName := "app"
  multiplexIdToString := id
  fallbackProviderEnabled := false
  productModules _ := []
  moduleFiles _ _ := .candidate
  instantiation _ _ := .ok ()
  requiredChain := []
  dependsChain := []

def sampleLoader : Loader where
  items _ := ⟨[], fun _ => none⟩
  errors := []
  secondPassQueued := false
  usedProducts := []
  loadedModules := []
  dependsItemPerLoadedModule := []
  productDependencies := []

/-- An item that asks for a module below a version. -/
def sampleDependsItem (versionBelow : Version) : DependsItem where
  parent := 0
  condition := true
  id := ""
  name := ["cpp"]
  submodules := none
  enableFallback := true
  productTypesIsSet := false
  required := true
  versionAtLeast := Version.empty
  versionBelow := versionBelow
  multiplexConfigurationIds := []
  profiles := none
  parameters := []

theorem sampleRequests_spec (versionBelow versionBelow' : Version) (r : Request)
    (hr : r ∈ requests sampleContext
      [sampleDependsItem versionBelow, sampleDependsItem versionBelow']) :
    r = ⟨sampleDependsItem versionBelow, ["cpp"]⟩ ∨
      r = ⟨sampleDependsItem versionBelow', ["cpp"]⟩ := by
  have hsplit : requests sampleContext
      [sampleDependsItem versionBelow, sampleDependsItem versionBelow'] =
        [⟨sampleDependsItem versionBelow, ["cpp"]⟩, ⟨sampleDependsItem versionBelow', ["cpp"]⟩] := rfl
  rw [hsplit] at hr
  simpa using hr

/-! ## When the modules are merged -/

/-- The modules of Depends items are merged if their names and instances are new and the first item
that asks for a module says as much as the later ones; unless an error is reported, only then. -/
theorem resolveDependencies_merges (item : ItemId) (dependsItems : List DependsItem) (s : Loader) :
    (MergeCondition ctx item dependsItems s → InstancesApart ctx item dependsItems s →
      Merges ctx item dependsItems s) ∧
    (ResolvesCleanly ctx item dependsItems s →
      (∀ f, IsFirst (requests ctx dependsItems) f → s.prototype f.ref ≠ none →
        f.ref ∈ (s.items item).modules.map Module.item) →
      (Merges ctx item dependsItems s ↔ MergeCondition ctx item dependsItems s)) := by
  have hmerged : MergeCondition ctx item dependsItems s → ResolvesCleanly ctx item dependsItems s →
      ∀ u, (resolveDependencies ctx item dependsItems).outcome s = (.ok (), u) →
        ∃ news, Merged ctx item dependsItems s u news := by
    rintro hcond ⟨s₁, modules, t, hbase, hload, hclean⟩ u hu
    have hrun : Run ctx item dependsItems s s₁ t modules := ⟨hbase, hload⟩
    rcases hrun.exists_add_of_condition hcond hclean with ⟨v, hadd⟩
    rw [hrun.outcome hadd] at hu
    cases hu
    exact ⟨_, hrun.merged hclean hcond hadd⟩
  constructor
  · intro hcond hapart
    refine ⟨fun hloads m t hbase => ?_, fun s₁ modules t hbase hload => ?_, hmerged hcond⟩
    · have hspec := loadBaseModule_spec ctx item s s rfl
      rw [hbase] at hspec
      rcases hspec with ⟨rfl, hframe, _⟩
      apply exists_addModuleTo
      · rw [hframe.modules]
        exact (hapart.base hloads).1
      · rw [hframe.modules]
        exact (hapart.base hloads).2
    · have hrun : Run ctx item dependsItems s s₁ t modules := ⟨hbase, hload⟩
      have hrequested := hrun.loadedFor.2.requested
      apply hrun.exists_add hcond.newNames
      · intro m hm
        rcases hrequested m hm with ⟨r, hr, _, hitem⟩
        rw [← hitem]
        exact hapart.new r hr
      · intro m m' hm hm' hne
        rcases hrequested m hm with ⟨r, hr, hname, hitem⟩
        rcases hrequested m' hm' with ⟨r', hr', hname', hitem'⟩
        rw [← hitem, ← hitem']
        exact hapart.ref_ne r r' hr hr' (by rw [hname, hname']; exact hne)
  · intro hclean hhandled
    constructor
    · exact fun hmerges => hmerges.mergeCondition hclean hhandled
    · intro hcond
      have hclean' := hclean
      rcases hclean' with ⟨s₁, modules, t, hbase, hload, herrors⟩
      have hrun : Run ctx item dependsItems s s₁ t modules := ⟨hbase, hload⟩
      refine ⟨fun hloads m t' hbase' => ?_, fun s₁' modules' t' hbase' hload' => ?_, hmerged hcond⟩
      · unfold addBaseModule at hbase
        rw [if_pos hloads, StateOp.outcome_bind, hbase'] at hbase
        exact ⟨s₁, hbase⟩
      · rw [hbase] at hbase'
        cases hbase'
        rw [hload] at hload'
        cases hload'
        exact hrun.exists_add_of_condition hcond herrors

theorem resolveDependencies_merges_sampleLoader :
    ResolvesCleanly sampleContext 0
        [sampleDependsItem ⟨2, 0, 0, 0⟩, sampleDependsItem ⟨3, 0, 0, 0⟩] sampleLoader ∧
      Merges sampleContext 0
        [sampleDependsItem ⟨2, 0, 0, 0⟩, sampleDependsItem ⟨3, 0, 0, 0⟩] sampleLoader := by
  have hsample := sampleRequests_spec ⟨2, 0, 0, 0⟩ ⟨3, 0, 0, 0⟩
  have hname : ∀ r, r ∈ requests sampleContext
      [sampleDependsItem ⟨2, 0, 0, 0⟩, sampleDependsItem ⟨3, 0, 0, 0⟩] → r.name = ["cpp"] := by
    intro r hr
    rcases hsample r hr with rfl | rfl <;> rfl
  have href : ∀ r, r ∈ requests sampleContext
      [sampleDependsItem ⟨2, 0, 0, 0⟩, sampleDependsItem ⟨3, 0, 0, 0⟩] → r.ref = ⟨0, ["cpp"]⟩ := by
    intro r hr
    rcases hsample r hr with rfl | rfl <;> rfl
  have hnewRef : (⟨0, ["cpp"]⟩ : InstanceRef) ∉
      (presentModules sampleContext 0 sampleLoader).map Module.item := by decide +kernel
  refine ⟨by decide +kernel, (resolveDependencies_merges _ _ _ _).1 ?_ ?_⟩
  · constructor
    · intro r hr
      rw [hname r hr]
      decide +kernel
    · intro f hf
      rw [href f hf.mem]
      exact ⟨hnewRef, rfl⟩
    · intro f f' hf hf' hne
      exact absurd ((hname f hf.mem).trans (hname f' hf'.mem).symm) hne
    · intro f hf
      rcases hsample f hf.mem with rfl | rfl <;> exact Or.inl rfl
    · intro f hf
      rcases hsample f hf.mem with rfl | rfl <;> exact Or.inl rfl
    · exact fun f _ hproduct => absurd rfl hproduct
  · constructor
    · exact fun _ => ⟨List.not_mem_nil, List.not_mem_nil⟩
    · intro r hr
      rw [href r hr]
      exact hnewRef
    · intro r r' hr hr' hne
      exact absurd ((hname r hr).trans (hname r' hr').symm) hne

/-- An upper version bound is lost if the first item has none. -/
theorem not_merges_sampleLoader :
    ¬Merges sampleContext 0
      [sampleDependsItem Version.empty, sampleDependsItem ⟨2, 0, 0, 0⟩] sampleLoader := by
  intro h
  have hcond := h.mergeCondition (by decide +kernel) fun f _ hsome => absurd rfl hsome
  have hfirst : IsFirst (requests sampleContext
      [sampleDependsItem Version.empty, sampleDependsItem ⟨2, 0, 0, 0⟩])
      ⟨sampleDependsItem Version.empty, ["cpp"]⟩ := ⟨_, rfl⟩
  rcases hcond.versionRange _ hfirst with hvalid | hnone
  · cases hvalid
  · have hsecond := hnone ⟨sampleDependsItem ⟨2, 0, 0, 0⟩, ["cpp"]⟩
      (List.mem_cons_of_mem _ List.mem_cons_self) rfl
    cases hsecond

end ModuleLoader

end Qbs
