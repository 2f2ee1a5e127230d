import QbsCore.Loader.ModuleLoading

/-!
# Merging Depends items

The Depends items of an item are a list of requests for modules.  The first request for a
module loads it, and each later one is merged into it.

Main results:

- Theorem {lit}`ModuleLoader.loadModules_spec`: what the modules have to do with the
  requests, whatever errors are reported.
- Theorem {lit}`ModuleLoader.LoadedFor.clean`: without errors there is one module for each
  name, and it is required if some request is, with the ranges of all of them narrowed down.

Current gaps:

- None.
-/

namespace Qbs

namespace ModuleLoader

/-! ## Requests -/

/-- A module that a Depends item names. -/
structure Request where
  item : DependsItem
  name : QualifiedId

namespace Request

variable (r : Request)

/-- The instance of the module if this request loads it. -/
def ref : InstanceRef :=
  instanceRef r.item.parent r.item.id r.name

/-- The prototype that is found if this request loads the module. -/
def lookup (ctx : DependsContext) : Except ErrorInfo (Option ModulePrototype) :=
  modulePrototype ctx r.name (r.item.multiplexIds.headD "") (r.item.fallback ctx)
    (r.item.isRequired ctx)

end Request

variable (ctx : DependsContext)

/-- The modules that a Depends item asks for in a pass. -/
def DependsItem.requestedNames (d : DependsItem) : List QualifiedId :=
  if !d.condition || d.submodules = some [] then []
  else if d.submodules = none && d.name = ["qbs"] then []
  else if ctx.pass = .first && d.productTypesIsSet then []
  else d.moduleNames

/-- The requests of a Depends item. -/
def DependsItem.requests (d : DependsItem) : List Request :=
  (d.requestedNames ctx).map (Request.mk d)

/-- The requests of all Depends items. -/
def requests (dependsItems : List DependsItem) : List Request :=
  dependsItems.flatMap (DependsItem.requests ctx)

/-- The requests for a module. -/
def requestsFor (rs : List Request) (name : QualifiedId) : List Request :=
  rs.filter fun r => r.name = name

/-- The request that comes first for its module. -/
def IsFirst (rs : List Request) (f : Request) : Prop :=
  ∃ rest, requestsFor rs f.name = f :: rest

section Requests

variable {rs more : List Request} {r f : Request} {name : QualifiedId}

theorem requestsFor_append :
    requestsFor (rs ++ more) name = requestsFor rs name ++ requestsFor more name :=
  List.filter_append ..

theorem requestsFor_append_of_ne (hname : name ≠ r.name) :
    requestsFor (rs ++ [r]) name = requestsFor rs name := by
  rw [requestsFor_append]
  simp [requestsFor, Ne.symm hname]

theorem requestsFor_append_self :
    requestsFor (rs ++ [r]) r.name = requestsFor rs r.name ++ [r] := by
  rw [requestsFor_append]
  simp [requestsFor]

theorem mem_requestsFor : r ∈ requestsFor rs name ↔ r ∈ rs ∧ r.name = name := by
  simp [requestsFor]

theorem name_of_requestsFor {rest : List Request} (h : requestsFor rs name = f :: rest) :
    f.name = name :=
  (mem_requestsFor.mp (h ▸ List.mem_cons_self)).2

theorem isFirst_of_requestsFor {rest : List Request} (h : requestsFor rs name = f :: rest) :
    IsFirst rs f :=
  ⟨rest, by rw [name_of_requestsFor h]; exact h⟩

theorem IsFirst.append (h : IsFirst rs f) : IsFirst (rs ++ more) f := by
  rcases h with ⟨rest, h⟩
  exact ⟨rest ++ requestsFor more f.name, by rw [requestsFor_append, h]; rfl⟩

theorem IsFirst.mem (h : IsFirst rs f) : f ∈ rs := by
  rcases h with ⟨rest, h⟩
  exact (mem_requestsFor.mp (h ▸ List.mem_cons_self)).1

theorem IsFirst.unique {f' : Request} (h : IsFirst rs f) (h' : IsFirst rs f')
    (hname : f.name = f'.name) : f = f' := by
  rcases h with ⟨rest, h⟩
  rcases h' with ⟨rest', h'⟩
  rw [hname, h'] at h
  exact (List.cons.inj h).1.symm

/-- The first request for a module comes first for any more requests too. -/
theorem isFirst_append_of_forall_ne (h : ∀ r', r' ∈ rs → r'.name ≠ r.name) :
    IsFirst (rs ++ [r]) r := by
  have hnone : requestsFor rs r.name = [] :=
    List.filter_eq_nil_iff.mpr fun r' hr' => by simpa using h r' hr'
  exact ⟨[], by rw [requestsFor_append_self, hnone]; rfl⟩

theorem exists_isFirst (h : r ∈ rs) : ∃ f, IsFirst rs f ∧ f.name = r.name := by
  have hmem : r ∈ requestsFor rs r.name := mem_requestsFor.mpr ⟨h, rfl⟩
  cases hrs : requestsFor rs r.name with
  | nil => rw [hrs] at hmem; cases hmem
  | cons f rest => exact ⟨f, isFirst_of_requestsFor hrs, name_of_requestsFor hrs⟩

end Requests

/-! ## Merged modules -/

/-- A module is merged from the requests for it. -/
structure MergeOf (rs : List Request) (m : Module) (f : Request) (rest : List Request) : Prop where
  requests : requestsFor rs m.name = f :: rest
  item : m.item = f.ref
  required : m.required = (f :: rest).any fun r => r.item.isRequired ctx
  versionRange : m.versionRange =
    f.item.versionRange.narrowAll (rest.map fun r => r.item.versionRange)

/-- There is one module for each name, and it is merged from the requests for it. -/
structure MergedFrom (rs : List Request) (modules : List Module) : Prop where
  nodup : (modules.map Module.name).Nodup
  names : ∀ r, r ∈ rs → r.name ∈ modules.map Module.name
  merged : ∀ m, m ∈ modules → ∃ f rest, MergeOf ctx rs m f rest

section Merged

variable {ctx} {rs : List Request} {r f : Request} {rest : List Request} {m : Module}
  {modules modules' : List Module} {name : QualifiedId}

theorem updateFirst_eq_none {g : Module → Module} :
    updateFirst name g modules = none ↔ name ∉ modules.map Module.name := by
  induction modules with
  | nil => simp [updateFirst]
  | cons m modules ih =>
      unfold updateFirst
      split_ifs with hm
      · simp [hm]
      · rw [Option.map_eq_none_iff, ih, List.map_cons, List.mem_cons, not_or]
        exact ⟨fun h => ⟨Ne.symm hm, h⟩, fun h => h.2⟩

theorem updateFirst_eq_some {g : Module → Module} (h : updateFirst name g modules = some modules') :
    ∃ before m after, modules = before ++ m :: after ∧ m.name = name ∧
      modules' = before ++ g m :: after := by
  induction modules generalizing modules' with
  | nil => cases h
  | cons m modules ih =>
      unfold updateFirst at h
      split_ifs at h with hm
      · exact ⟨[], m, modules, rfl, hm, (Option.some.inj h).symm⟩
      · rcases Option.map_eq_some_iff.mp h with ⟨rest, hrest, rfl⟩
        rcases ih hrest with ⟨before, m', after, rfl, hname, rfl⟩
        exact ⟨m :: before, m', after, rfl, hname, rfl⟩

theorem MergeOf.append_of_ne (h : MergeOf ctx rs m f rest) (hname : m.name ≠ r.name) :
    MergeOf ctx (rs ++ [r]) m f rest where
  requests := (requestsFor_append_of_ne hname).trans h.requests
  item := h.item
  required := h.required
  versionRange := h.versionRange

theorem MergeOf.mergeDuplicate (h : MergeOf ctx rs m f rest) (hname : m.name = r.name) :
    MergeOf ctx (rs ++ [r]) (mergeDuplicate ctx r.item m) f (rest ++ [r]) where
  requests := by
    show requestsFor (rs ++ [r]) m.name = _
    rw [hname, requestsFor_append_self, ← hname, h.requests]
    rfl
  item := h.item
  required := by
    show (m.required || r.item.isRequired ctx) = _
    rw [h.required, ← List.cons_append, List.any_append]
    simp
  versionRange := by
    show m.versionRange.narrowDown r.item.versionRange = _
    rw [h.versionRange, List.map_append, VersionRange.narrowAll, VersionRange.narrowAll,
      List.foldl_append]
    rfl

/-- A further request for a module that was loaded before. -/
theorem MergedFrom.duplicate (h : MergedFrom ctx rs modules)
    (hupdate : updateFirst r.name (ModuleLoader.mergeDuplicate ctx r.item) modules =
      some modules') : MergedFrom ctx (rs ++ [r]) modules' := by
  rcases updateFirst_eq_some hupdate with ⟨before, m, after, rfl, hname, rfl⟩
  have hnames : (before ++ ModuleLoader.mergeDuplicate ctx r.item m :: after).map Module.name =
      (before ++ m :: after).map Module.name := by
    simp [ModuleLoader.mergeDuplicate]
  refine ⟨by rw [hnames]; exact h.nodup, fun r' hr' => ?_, fun m' hm' => ?_⟩
  · rw [hnames]
    rcases List.mem_append.mp hr' with hr' | hr'
    · exact h.names r' hr'
    · rw [List.mem_singleton.mp hr', ← hname]
      exact List.mem_map_of_mem (List.mem_append_right _ List.mem_cons_self)
  · have hnodup := h.nodup
    rw [List.map_append, List.map_cons, List.nodup_middle, List.nodup_cons] at hnodup
    have hother : m' ∈ before ++ after → ∃ f rest, MergeOf ctx (rs ++ [r]) m' f rest := by
      intro hmem
      have hne : m'.name ≠ r.name := by
        intro heq
        apply hnodup.1
        rw [hname, ← heq, ← List.map_append]
        exact List.mem_map_of_mem hmem
      rcases h.merged m' (by simp only [List.mem_append, List.mem_cons] at hmem ⊢; tauto)
        with ⟨f, rest, hm⟩
      exact ⟨f, rest, hm.append_of_ne hne⟩
    simp only [List.mem_append, List.mem_cons] at hm'
    rcases hm' with hm' | rfl | hm'
    · exact hother (List.mem_append_left _ hm')
    · rcases h.merged m (List.mem_append_right _ List.mem_cons_self) with ⟨f, rest, hm⟩
      exact ⟨f, rest ++ [r], hm.mergeDuplicate hname⟩
    · exact hother (List.mem_append_right _ hm')

/-- The first request for a module. -/
theorem MergedFrom.load (h : MergedFrom ctx rs modules) (hnew : r.name ∉ modules.map Module.name)
    (result : LoadResult) :
    MergedFrom ctx (rs ++ [r]) (modules ++ [newModule ctx r.item r.name r.ref result]) := by
  refine ⟨?_, fun r' hr' => ?_, fun m' hm' => ?_⟩
  · rw [List.map_append, List.nodup_append]
    refine ⟨h.nodup, List.nodup_singleton _, fun a ha b hb => ?_⟩
    intro heq
    rw [heq, List.mem_singleton.mp hb] at ha
    exact hnew ha
  · rw [List.map_append]
    rcases List.mem_append.mp hr' with hr' | hr'
    · exact List.mem_append_left _ (h.names r' hr')
    · rw [List.mem_singleton.mp hr']
      exact List.mem_append_right _ List.mem_cons_self
  · rcases List.mem_append.mp hm' with hm' | hm'
    · have hne : m'.name ≠ r.name := fun heq => hnew (heq ▸ List.mem_map_of_mem hm')
      rcases h.merged m' hm' with ⟨f, rest, hm⟩
      exact ⟨f, rest, hm.append_of_ne hne⟩
    · rw [List.mem_singleton.mp hm']
      have hnone : requestsFor rs r.name = [] :=
        List.filter_eq_nil_iff.mpr fun r' hr' => by
          intro heq
          exact hnew (of_decide_eq_true heq ▸ h.names r' hr')
      refine ⟨r, [], ?_, rfl, by simp [newModule], rfl⟩
      show requestsFor (rs ++ [r]) r.name = [r]
      rw [requestsFor_append_self, hnone]
      rfl

theorem MergedFrom.mem_names_iff (h : MergedFrom ctx rs modules) :
    name ∈ modules.map Module.name ↔ ∃ r, r ∈ rs ∧ r.name = name := by
  constructor
  · intro hname
    rcases List.mem_map.mp hname with ⟨m, hm, rfl⟩
    rcases h.merged m hm with ⟨f, rest, hf⟩
    exact ⟨f, (isFirst_of_requestsFor hf.requests).mem, name_of_requestsFor hf.requests⟩
  · rintro ⟨r, hr, rfl⟩
    exact h.names r hr

theorem MergedFrom.exists_isFirst (h : MergedFrom ctx rs modules) (hm : m ∈ modules) :
    ∃ f, IsFirst rs f ∧ f.name = m.name ∧ m.item = f.ref := by
  rcases h.merged m hm with ⟨f, rest, hf⟩
  exact ⟨f, isFirst_of_requestsFor hf.requests, name_of_requestsFor hf.requests, hf.item⟩

/-- The first request for a module has brought it. -/
theorem MergedFrom.exists_module (h : MergedFrom ctx rs modules) (hf : IsFirst rs f) :
    ∃ m, m ∈ modules ∧ m.name = f.name ∧ m.item = f.ref := by
  rcases List.mem_map.mp (h.names f hf.mem) with ⟨m, hm, hname⟩
  rcases h.exists_isFirst hm with ⟨f', hf', hname', hitem⟩
  rw [← hf.unique hf' (hname.symm.trans hname'.symm)] at hitem
  exact ⟨m, hm, hname, hitem⟩

theorem MergedFrom.required_iff (h : MergedFrom ctx rs modules) (hm : m ∈ modules) :
    m.required = true ↔ ∃ r, r ∈ rs ∧ r.name = m.name ∧ r.item.isRequired ctx = true := by
  rcases h.merged m hm with ⟨f, rest, hf⟩
  rw [hf.required, ← hf.requests, List.any_eq_true]
  simp only [mem_requestsFor, and_assoc]

/-- The range of a module is the intersection of all the ranges asked for exactly if the first request
brings an upper bound, or if none of them does. -/
theorem MergedFrom.versionRange_iff (h : MergedFrom ctx rs modules) (hm : m ∈ modules)
    (hf : IsFirst rs f) (hname : f.name = m.name) :
    (∀ v, m.versionRange.contains v ↔
      ∀ r, r ∈ rs → r.name = m.name → r.item.versionRange.contains v) ↔
        f.item.versionBelow.isValid = true ∨
          ∀ r, r ∈ rs → r.name = f.name → r.item.versionBelow.isValid = false := by
  rcases h.merged m hm with ⟨f', rest, hf'⟩
  have heq : f = f' := hf.unique (isFirst_of_requestsFor hf'.requests)
    (hname.trans (name_of_requestsFor hf'.requests).symm)
  rw [← heq] at hf'
  have hmem : ∀ r, (r ∈ rs ∧ r.name = m.name) ↔ r = f ∨ r ∈ rest := by
    intro r
    rw [← mem_requestsFor, hf'.requests, List.mem_cons]
  have hall : ∀ v, (∀ r, r ∈ rs → r.name = m.name → r.item.versionRange.contains v) ↔
      f.item.versionRange.contains v ∧
        ∀ o, o ∈ rest.map (fun r => r.item.versionRange) → o.contains v := by
    intro v
    rw [List.forall_mem_map]
    constructor
    · intro hr
      exact ⟨hr f hf.mem hname, fun r hrest =>
        hr r ((hmem r).mpr (Or.inr hrest)).1 ((hmem r).mpr (Or.inr hrest)).2⟩
    · rintro ⟨hfirst, hrest⟩ r hr hrname
      rcases (hmem r).mp ⟨hr, hrname⟩ with rfl | hr'
      · exact hfirst
      · exact hrest r hr'
  have hrange := VersionRange.contains_narrowAll_iff f.item.versionRange
    (rest.map fun r => r.item.versionRange)
  rw [List.forall_mem_map] at hrange
  simp only [hall, hf'.versionRange, hrange]
  refine or_congr_right' fun hvalid => ?_
  constructor
  · intro hrest r hr hrname
    rcases (hmem r).mp ⟨hr, hrname.trans hname⟩ with rfl | hr'
    · exact Bool.eq_false_of_not_eq_true hvalid
    · exact hrest r hr'
  · intro hr r hrest
    have hr' := (hmem r).mpr (Or.inr hrest)
    exact hr r hr'.1 (hr'.2.trans hname.symm)

end Merged

/-! ## The state between two requests -/

/-- The first requests for modules load them, and no instance was handled before. -/
structure FreshInstances (all : List Request) (s : Loader) : Prop where
  prototype : ∀ f, IsFirst all f → s.prototype f.ref = none
  ref_ne : ∀ f f', IsFirst all f → IsFirst all f' → f.name ≠ f'.name → f.ref ≠ f'.ref

/-- The first requests for modules have found them. -/
structure Found (rs : List Request) (s₀ s : Loader) : Prop where
  prototype : ∀ f, IsFirst rs f →
    ∃ p, f.lookup ctx = .ok (some p) ∧ s.prototype f.ref = some p
  others : ∀ ref, (∀ f, IsFirst rs f → f.ref ≠ ref) → s.prototype ref = s₀.prototype ref
  products : ∀ dep, dep ∈ s.productDependencies ↔
    ∃ f, IsFirst rs f ∧ ctx.productModules f.name ≠ [] ∧ dep ∈ productEntries ctx f.item f.name

/-- The modules that were loaded belong to requests, and those of all items are left alone. -/
structure Bounded (all : List Request) (s₀ s : Loader) : Prop where
  modules : ∀ i, (s.items i).modules = (s₀.items i).modules
  usedProducts : s.usedProducts = s₀.usedProducts
  errors : ∃ extra, s.errors = s₀.errors ++ extra
  nodup : (s.loadedModules.map Module.name).Nodup
  requested : ∀ m, m ∈ s.loadedModules → ∃ r, r ∈ all ∧ r.name = m.name ∧ r.ref = m.item

/-- What holds after some requests: if no error was reported, their modules are loaded. -/
structure LoadedFor (all rs : List Request) (s₀ s : Loader) : Prop extends
    Bounded all s₀ s where
  clean : s.errors = s₀.errors →
    MergedFrom ctx rs s.loadedModules ∧ (FreshInstances all s₀ → Found ctx rs s₀ s)

section Steps

variable {ctx} {all rs : List Request} {r f : Request} {s₀ s t : Loader}

theorem isFirst_append_iff_of_mem (h : ∃ r', r' ∈ rs ∧ r'.name = r.name) :
    IsFirst (rs ++ [r]) f ↔ IsFirst rs f := by
  refine ⟨fun hf => ?_, IsFirst.append⟩
  rcases hf with ⟨rest, hf⟩
  by_cases hname : f.name = r.name
  · rcases h with ⟨r', hr', hr⟩
    rcases exists_isFirst hr' with ⟨f', ⟨rest', hf'⟩, hname'⟩
    have heq : requestsFor rs f.name = f' :: rest' := by rw [hname, ← hr, ← hname', hf']
    rw [requestsFor_append, heq, List.cons_append] at hf
    rw [← (List.cons.inj hf).1]
    exact ⟨rest', hf'⟩
  · rw [requestsFor_append_of_ne hname] at hf
    exact ⟨rest, hf⟩

theorem isFirst_append_iff_of_ne (h : ∀ r', r' ∈ rs → r'.name ≠ r.name) :
    IsFirst (rs ++ [r]) f ↔ IsFirst rs f ∨ f = r := by
  constructor
  · rintro ⟨rest, hf⟩
    by_cases hname : f.name = r.name
    · have hnone : requestsFor rs r.name = [] :=
        List.filter_eq_nil_iff.mpr fun r' hr' => by simpa using h r' hr'
      rw [hname, requestsFor_append_self, hnone, List.nil_append] at hf
      exact Or.inr (List.cons.inj hf).1.symm
    · rw [requestsFor_append_of_ne hname] at hf
      exact Or.inl ⟨rest, hf⟩
  · rintro (hf | rfl)
    · exact hf.append
    · exact isFirst_append_of_forall_ne h

/-- A further request for a module that was found changes no instance. -/
theorem Found.duplicate (h : Found ctx rs s₀ s) (hmem : ∃ r', r' ∈ rs ∧ r'.name = r.name)
    (hitems : t.items = s.items) (hdeps : t.productDependencies = s.productDependencies) :
    Found ctx (rs ++ [r]) s₀ t := by
  have hproto : ∀ ref, t.prototype ref = s.prototype ref := by
    intro ref
    unfold Loader.prototype
    rw [hitems]
  constructor
  · intro f hf
    rw [hproto]
    exact h.prototype f ((isFirst_append_iff_of_mem hmem).mp hf)
  · intro ref href
    rw [hproto]
    exact h.others ref fun f hf => href f hf.append
  · intro dep
    rw [hdeps, h.products]
    simp only [isFirst_append_iff_of_mem hmem]

/-- The first request for a module finds it, since its instance is a new one. -/
theorem Found.load (h : Found ctx rs s₀ s) (hfresh : FreshInstances all s₀)
    (hall : ∃ more, rs ++ r :: more = all) (hnew : ∀ r', r' ∈ rs → r'.name ≠ r.name)
    {isProduct : Bool} {result : LoadResult}
    (hloads : Loads ctx r.ref r.name (r.item.multiplexIds.headD "") (r.item.fallback ctx)
      (r.item.isRequired ctx) isProduct s result t) (hitem : result.item = some r.ref) :
    Found ctx (rs ++ [r]) s₀ (addResult ctx r.item r.name r.ref result t) := by
  have hfirst : ∀ f, IsFirst (rs ++ [r]) f → IsFirst all f := by
    rcases hall with ⟨more, rfl⟩
    intro f hf
    have happend : rs ++ r :: more = rs ++ [r] ++ more := by simp
    rw [happend]
    exact hf.append
  have hr : IsFirst (rs ++ [r]) r := isFirst_append_of_forall_ne hnew
  have href : ∀ f, IsFirst rs f → f.ref ≠ r.ref := fun f hf =>
    hfresh.ref_ne f r (hfirst f hf.append) (hfirst r hr) (hnew f hf.mem)
  have hnone : s.prototype r.ref = none := by
    rw [h.others r.ref href]
    exact hfresh.prototype r (hfirst r hr)
  cases hloads with
  | handled hhandled _ => rw [hnone] at hhandled; cases hhandled
  | notFound _ _ _ => cases hitem
  | @loaded t p _ hfound hframe hprototype =>
      constructor
      · intro f hf
        show ∃ p', f.lookup ctx = .ok (some p') ∧ t.prototype f.ref = some p'
        rw [hprototype]
        rcases (isFirst_append_iff_of_ne hnew).mp hf with hf | rfl
        · rw [if_neg (href f hf)]
          exact h.prototype f hf
        · exact ⟨p, hfound, if_pos rfl⟩
      · intro ref hother
        show t.prototype ref = s₀.prototype ref
        rw [hprototype, if_neg (Ne.symm (hother r hr))]
        exact h.others ref fun f hf => hother f hf.append
      · intro dep
        have hsame : dep ∈ t.productDependencies ↔ dep ∈ s.productDependencies := by
          rw [hframe.productDependencies]
        have hadd : dep ∈ (addResult ctx r.item r.name r.ref
            ⟨some r.ref, !(ctx.productModules r.name).isEmpty, p.defaultParameters⟩
              t).productDependencies ↔ dep ∈ t.productDependencies ∨
                ctx.productModules r.name ≠ [] ∧ dep ∈ productEntries ctx r.item r.name := by
          unfold addResult
          dsimp only
          by_cases hempty : ctx.productModules r.name = []
          · simp [hempty]
          · simp [hempty]
        rw [hadd, hsame, h.products]
        constructor
        · rintro (⟨f, hf, hdep⟩ | hdep)
          · exact ⟨f, hf.append, hdep⟩
          · exact ⟨r, hr, hdep⟩
        · rintro ⟨f, hf, hdep⟩
          rcases (isFirst_append_iff_of_ne hnew).mp hf with hf | rfl
          · exact Or.inl ⟨f, hf, hdep⟩
          · exact Or.inr hdep

theorem Bounded.frame (h : Bounded all s₀ s) (hframe : LoadFrame s t) : Bounded all s₀ t where
  modules i := (hframe.modules i).trans (h.modules i)
  usedProducts := hframe.usedProducts.trans h.usedProducts
  errors := by rw [hframe.errors]; exact h.errors
  nodup := by rw [hframe.loadedModules]; exact h.nodup
  requested := by rw [hframe.loadedModules]; exact h.requested

theorem Bounded.congr (h : Bounded all s₀ s) (hitems : t.items = s.items)
    (herrors : t.errors = s.errors) (hused : t.usedProducts = s.usedProducts)
    (hloaded : t.loadedModules = s.loadedModules) : Bounded all s₀ t where
  modules := by rw [hitems]; exact h.modules
  usedProducts := hused.trans h.usedProducts
  errors := by rw [herrors]; exact h.errors
  nodup := by rw [hloaded]; exact h.nodup
  requested := by rw [hloaded]; exact h.requested

theorem LoadedFor.congr (h : LoadedFor ctx all rs s₀ s) (hitems : t.items = s.items)
    (herrors : t.errors = s.errors) (hused : t.usedProducts = s.usedProducts)
    (hloaded : t.loadedModules = s.loadedModules)
    (hdeps : t.productDependencies = s.productDependencies) : LoadedFor ctx all rs s₀ t := by
  refine ⟨h.toBounded.congr hitems herrors hused hloaded, fun hsame => ?_⟩
  rcases h.clean (herrors ▸ hsame) with ⟨hmerged, hfound⟩
  refine ⟨hloaded ▸ hmerged, fun hfresh => ?_⟩
  have hproto : ∀ ref, t.prototype ref = s.prototype ref := by
    intro ref
    unfold Loader.prototype
    rw [hitems]
  exact ⟨by simpa only [hproto] using (hfound hfresh).prototype,
    by simpa only [hproto] using (hfound hfresh).others,
    by rw [hdeps]; exact (hfound hfresh).products⟩

theorem LoadedFor.duplicate (h : LoadedFor ctx all rs s₀ s) {modules : List Module}
    (hupdate : updateFirst r.name (mergeDuplicate ctx r.item) s.loadedModules = some modules) :
    LoadedFor ctx all (rs ++ [r]) s₀ { s with loadedModules := modules } := by
  rcases updateFirst_eq_some hupdate with ⟨before, m, after, hsplit, hname, hmodules⟩
  refine ⟨⟨h.modules, h.usedProducts, h.errors, ?_, fun m' hm' => ?_⟩, fun herrors => ?_⟩
  · have hnodup := h.nodup
    rw [hsplit] at hnodup
    show (modules.map Module.name).Nodup
    rw [hmodules]
    simpa [mergeDuplicate] using hnodup
  · have hm : ∀ m'', m'' ∈ before ++ m :: after →
        ∃ r, r ∈ all ∧ r.name = m''.name ∧ r.ref = m''.item := hsplit ▸ h.requested
    have hm'' : m' ∈ before ++ mergeDuplicate ctx r.item m :: after := hmodules ▸ hm'
    rcases List.mem_append.mp hm'' with hm'' | hm''
    · exact hm m' (List.mem_append_left _ hm'')
    · rcases List.mem_cons.mp hm'' with rfl | hm''
      · exact hm m (List.mem_append_right _ List.mem_cons_self)
      · exact hm m' (List.mem_append_right _ (List.mem_cons_of_mem _ hm''))
  · rcases h.clean herrors with ⟨hmerged, hfound⟩
    refine ⟨hmerged.duplicate hupdate, fun hfresh => ?_⟩
    have hmem : ∃ r', r' ∈ rs ∧ r'.name = r.name := by
      have hm : m ∈ s.loadedModules := by
        rw [hsplit]
        exact List.mem_append_right _ List.mem_cons_self
      rcases hmerged.merged m hm with ⟨f, rest, hf⟩
      exact ⟨f, (isFirst_of_requestsFor hf.requests).mem,
        (name_of_requestsFor hf.requests).trans hname⟩
    exact (hfound hfresh).duplicate hmem rfl rfl

theorem LoadedFor.load (h : LoadedFor ctx all rs s₀ s) (hall : ∃ more, rs ++ r :: more = all)
    (hnew : r.name ∉ s.loadedModules.map Module.name) {isProduct : Bool} {result : LoadResult}
    (hloads : Loads ctx r.ref r.name (r.item.multiplexIds.headD "") (r.item.fallback ctx)
      (r.item.isRequired ctx) isProduct s result t) (hitem : result.item = some r.ref) :
    LoadedFor ctx all (rs ++ [r]) s₀ (addResult ctx r.item r.name r.ref result t) := by
  have hframe := hloads.frame
  have ht := h.toBounded.frame hframe
  have hmodules : (addResult ctx r.item r.name r.ref result t).loadedModules =
      s.loadedModules ++ [newModule ctx r.item r.name r.ref result] := by
    rw [← hframe.loadedModules]
    rfl
  refine ⟨⟨ht.modules, ht.usedProducts, ht.errors, ?_, fun m hm => ?_⟩, fun herrors => ?_⟩
  · rw [hmodules, List.map_append, List.nodup_append]
    refine ⟨h.nodup, List.nodup_singleton _, fun a ha b hb heq => ?_⟩
    rw [heq, List.mem_singleton.mp hb] at ha
    exact hnew ha
  · rw [hmodules] at hm
    rcases List.mem_append.mp hm with hm | hm
    · exact h.requested m hm
    · rw [List.mem_singleton.mp hm]
      rcases hall with ⟨more, rfl⟩
      exact ⟨r, List.mem_append_right _ List.mem_cons_self, rfl, rfl⟩
  · have herrors' : s.errors = s₀.errors := by
      rw [← hframe.errors]
      exact herrors
    rcases h.clean herrors' with ⟨hmerged, hfound⟩
    refine ⟨by rw [hmodules]; exact hmerged.load hnew result, fun hfresh => ?_⟩
    have hne : ∀ r', r' ∈ rs → r'.name ≠ r.name := fun r' hr' heq =>
      hnew (heq ▸ hmerged.names r' hr')
    exact (hfound hfresh).load hfresh hall hne hloads hitem

/-- When an error is reported, nothing more is said about the modules. -/
theorem Bounded.report (h : Bounded all s₀ s) (e : ErrorInfo) :
    LoadedFor ctx all rs s₀ { s with errors := s.errors ++ [e] } := by
  rcases h.errors with ⟨extra, hextra⟩
  have herrors : s.errors ++ [e] = s₀.errors ++ (extra ++ [e]) := by
    rw [hextra, List.append_assoc]
  refine ⟨⟨h.modules, h.usedProducts, ⟨extra ++ [e], herrors⟩, h.nodup, h.requested⟩,
    fun hsame => ?_⟩
  have hnil : extra ++ [e] = [] := List.append_right_eq_self.mp (herrors.symm.trans hsame)
  simp at hnil

end Steps

/-! ## All Depends items -/

section Runs

variable {ctx} {all : List Request} {s₀ : Loader}

theorem resolveModules_spec (d : DependsItem) (names : List QualifiedId) (rs : List Request)
    (isProduct : Bool) (hall : ∃ more, rs ++ names.map (Request.mk d) ++ more = all) :
    StateOp.Triple (LoadedFor ctx all rs s₀) (resolveModules ctx d isProduct names)
      (fun _ => LoadedFor ctx all (rs ++ names.map (Request.mk d)) s₀)
      (fun _ => Bounded all s₀) := by
  induction names generalizing rs isProduct with
  | nil =>
      rw [List.map_nil, List.append_nil]
      exact fun s hs => hs
  | cons name names ih =>
      have happend : rs ++ (name :: names).map (Request.mk d) =
          rs ++ [⟨d, name⟩] ++ names.map (Request.mk d) := by simp
      rw [happend] at hall ⊢
      have hrest := fun isProduct => ih (rs ++ [⟨d, name⟩]) isProduct hall
      have hfirst : ∃ more, rs ++ ⟨d, name⟩ :: more = all := by
        rcases hall with ⟨more, hmore⟩
        exact ⟨names.map (Request.mk d) ++ more, by rw [← hmore]; simp⟩
      unfold resolveModules
      refine StateOp.Triple.bind (StateOp.Triple.query _ |>.weaken (fun _ h => h)
        (fun _ _ h => h) fun _ _ h => h.1.toBounded) fun merged => ?_
      cases merged with
      | some modules =>
          refine StateOp.Triple.bind (Q := fun _ => LoadedFor ctx all (rs ++ [⟨d, name⟩]) s₀) ?_
            fun _ => hrest isProduct
          intro s hs
          exact hs.1.duplicate (Except.ok.inj hs.2)
      | none =>
          refine StateOp.Triple.bind (Q := fun _ => LoadedFor ctx all (rs ++ [⟨d, name⟩]) s₀) ?_
            fun isProduct => hrest isProduct
          intro s hs
          have hnew := updateFirst_eq_none.mp (Except.ok.inj hs.2)
          have hload := loadForItem_spec ctx d name isProduct s s rfl
          rcases hout : (loadForItem ctx d name isProduct).outcome s with ⟨e | b, t⟩
          · rw [hout] at hload
            exact hs.1.toBounded.frame hload
          · rw [hout] at hload
            rcases hload with ⟨result, u, hloads, hitem, rfl⟩
            exact hs.1.load hfirst hnew hloads hitem

theorem resolveDependsItem_spec (d : DependsItem) (rs : List Request)
    (hall : ∃ more, rs ++ d.requests ctx ++ more = all) :
    StateOp.Triple (LoadedFor ctx all rs s₀) (resolveDependsItem ctx d)
      (fun _ => LoadedFor ctx all (rs ++ d.requests ctx) s₀) (fun _ => Bounded all s₀) := by
  unfold DependsItem.requests DependsItem.requestedNames at hall ⊢
  unfold resolveDependsItem
  dsimp only
  have hnil : rs ++ List.map (Request.mk d) [] = rs := by simp
  have hfail : ∀ (e : ErrorInfo) (next : Unit → LoaderOp Unit) rs',
      StateOp.Triple (LoadedFor ctx all rs s₀) (StateOp.fail e >>= next)
        (fun _ => LoadedFor ctx all rs' s₀) (fun _ => Bounded all s₀) := by
    intro e next rs' s hs
    exact hs.toBounded
  split_ifs at hall ⊢
  · rw [hnil]
    exact fun s hs => hs
  · exact hfail _ _ _
  · exact hfail _ _ _
  · exact hfail _ _ _
  · rw [hnil]
    exact fun s hs => hs
  · rw [hnil]
    exact fun s hs => hs.congr rfl rfl rfl rfl rfl
  · exact resolveModules_spec d _ rs false hall

/-- An error of a Depends item is reported, and the others go on. -/
theorem handleDependsItem_spec (d : DependsItem) (rs : List Request)
    (hall : ∃ more, rs ++ d.requests ctx ++ more = all) :
    StateOp.Triple (LoadedFor ctx all rs s₀) (handleDependsItem ctx d)
      (fun _ => LoadedFor ctx all (rs ++ d.requests ctx) s₀) (fun _ _ => True) := by
  unfold handleDependsItem
  refine StateOp.Triple.bind (Q := fun _ => LoadedFor ctx all (rs ++ d.requests ctx) s₀) ?_
    fun _ s hs => hs.congr rfl rfl rfl rfl rfl
  refine StateOp.Triple.attempt (resolveDependsItem_spec d rs hall) fun e => ?_
  split_ifs
  · exact fun s hs => hs.report e
  · exact fun s _ => trivial

theorem handleDependsItems_spec (dependsItems : List DependsItem) (rs : List Request)
    (hall : ∃ more, rs ++ requests ctx dependsItems ++ more = all) :
    StateOp.Triple (LoadedFor ctx all rs s₀) (handleDependsItems ctx dependsItems)
      (fun _ => LoadedFor ctx all (rs ++ requests ctx dependsItems) s₀) (fun _ _ => True) := by
  induction dependsItems generalizing rs with
  | nil =>
      unfold requests
      rw [List.flatMap_nil, List.append_nil]
      exact fun s hs => hs
  | cons d items ih =>
      unfold requests at hall ⊢
      rw [List.flatMap_cons, ← List.append_assoc] at hall ⊢
      have hfirst : ∃ more, rs ++ d.requests ctx ++ more = all := by
        rcases hall with ⟨more, hmore⟩
        exact ⟨requests ctx items ++ more, by rw [← hmore]; simp [requests]⟩
      unfold handleDependsItems
      exact (handleDependsItem_spec d rs hfirst).bind fun _ => ih (rs ++ d.requests ctx) hall

/-- The state in which the loading of modules starts. -/
def Loader.reset (s : Loader) : Loader :=
  { s with loadedModules := [], dependsItemPerLoadedModule := [], productDependencies := [] }

theorem loadedFor_nil (s : Loader) : LoadedFor ctx all [] s.reset s.reset := by
  refine ⟨⟨fun _ => rfl, rfl, ⟨[], (List.append_nil _).symm⟩, List.nodup_nil, ?_⟩, fun _ => ⟨?_, ?_⟩⟩
  · intro m hm
    cases hm
  · exact ⟨List.nodup_nil, fun r hr => (List.not_mem_nil hr).elim,
      fun m hm => (List.not_mem_nil hm).elim⟩
  · intro _
    have hnone : ∀ f, ¬IsFirst [] f := fun f hf => by cases hf.mem
    refine ⟨fun f hf => absurd hf (hnone f), fun _ _ => rfl, fun dep => ?_⟩
    constructor
    · intro hdep
      cases hdep
    · rintro ⟨f, hf, _⟩
      exact absurd hf (hnone f)

/-- What the modules that were loaded have to do with the requests. -/
theorem loadModules_spec (ctx : DependsContext) (dependsItems : List DependsItem) (s : Loader) :
    StateOp.Triple (fun t => t = s) (loadModules ctx dependsItems)
      (fun modules t => modules.map Prod.fst = t.loadedModules ∧
        LoadedFor ctx (requests ctx dependsItems) (requests ctx dependsItems) s.reset t)
      (fun _ _ => True) := by
  unfold loadModules
  refine StateOp.Triple.bind (Q := fun _ t => LoadedFor ctx (requests ctx dependsItems) []
    s.reset t) ?_ fun _ => ?_
  · rintro t rfl
    exact loadedFor_nil t
  refine (handleDependsItems_spec dependsItems [] ⟨[], by simp⟩).bind fun _ => ?_
  intro t ht
  rw [StateOp.outcome_query]
  split_ifs with hlength
  · refine ⟨?_, ht⟩
    rw [List.map_fst_zip]
    exact hlength.le
  · trivial

end Runs

end ModuleLoader

end Qbs
