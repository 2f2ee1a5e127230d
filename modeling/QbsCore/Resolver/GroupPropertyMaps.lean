import QbsCore.Library.TransitionSystem
import QbsCore.Resolver.PropertyDependencies

/-!
# The property maps of groups

The map of a group is the same as if all properties were evaluated from scratch, as long as the
recorded dependencies lead to all properties that have other values in the group.

Main results:

- Theorem {lit}`ModuleProperties.fill_contents`: evaluating the properties that are not in a map.
- Theorem {lit}`ModuleProperties.refill_contents`: evaluating some properties again.
- Theorem {lit}`ModuleProperties.groupMap_iff_fromScratch`: the maps of the groups of a product.

Current gaps:

- None.
-/

namespace Qbs

namespace ModuleProperties

/-! ## Evaluating with given values -/

/-- Evaluate the properties that are not in a map yet. -/
def fill (value : QualifiedId → Option Result) :
    List QualifiedId → PropertyMap → Option (Except ErrorInfo PropertyMap)
  | [], result => some (.ok result)
  | name :: rest, result =>
      if (result.lookup name).isSome then fill value rest result
      else
        (value name).bind fun r =>
          match r with
          | .error e => some (.error e)
          | .ok v => fill value rest (AList.insert name v result)

/-- Evaluate the properties of some modules that are not in a map yet. -/
def fillModules (value : QualifiedId → Option Result) (names : QualifiedId → List QualifiedId) :
    List QualifiedId → PropertyMap → Option (Except ErrorInfo PropertyMap)
  | [], result => some (.ok result)
  | module :: rest, result =>
      (fill value (names module) result).bind fun r =>
        match r with
        | .error e => some (.error e)
        | .ok result => fillModules value names rest result

/-- Evaluate some properties again. -/
def refill (value : QualifiedId → Option Result) (names : QualifiedId → List QualifiedId)
    (propsToEval : List QualifiedId) :
    List QualifiedId → PropertyMap → Option (Except ErrorInfo PropertyMap)
  | [], result => some (.ok result)
  | module :: rest, result =>
      let propsForModule := propsToEval.filter fun name => moduleName name = module
      if propsForModule.isEmpty then refill value names propsToEval rest result
      else
        (fill value (names module)
          (propsForModule.foldl (fun m name => AList.erase name m) result)).bind fun r =>
            match r with
            | .error e => some (.error e)
            | .ok result => refill value names propsToEval rest result

section Computes

variable {product : ProductItem} (path : Path)

theorem evaluateProperties_computes (names : List QualifiedId) (result : PropertyMap) :
    Fuel.Computes (Sound product) (fun n => evaluateProperties product n path names result)
      (fill (valueOf product path) names result) := by
  induction names generalizing result with
  | nil => exact Fuel.Computes.pure _
  | cons name rest ih =>
      simp only [evaluateProperties, fill]
      split
      · exact ih result
      · apply (property_computes path name).bind
        intro r
        cases r with
        | error e => exact Fuel.Computes.pure _
        | ok v => exact ih _

theorem evaluateModules_computes (modules : List QualifiedId) (result : PropertyMap) :
    Fuel.Computes (Sound product) (fun n => evaluateModules product n path modules result)
      (fillModules (valueOf product path) (propertiesOf product path) modules result) := by
  induction modules generalizing result with
  | nil => exact Fuel.Computes.pure _
  | cons module rest ih =>
      simp only [evaluateModules, fillModules]
      apply (evaluateProperties_computes path _ result).bind
      intro r
      cases r with
      | error e => exact Fuel.Computes.pure _
      | ok m => exact ih m

theorem replaceValues_computes (propsToEval modules : List QualifiedId) (result : PropertyMap) :
    Fuel.Computes (Sound product) (fun n => replaceValues product n path propsToEval modules result)
      (refill (valueOf product path) (propertiesOf product path) propsToEval modules result) := by
  induction modules generalizing result with
  | nil => exact Fuel.Computes.pure _
  | cons module rest ih =>
      simp only [replaceValues, refill]
      split
      · exact ih result
      · apply (evaluateProperties_computes path _ _).bind
        intro r
        cases r with
        | error e => exact Fuel.Computes.pure _
        | ok m => exact ih m

end Computes

/-! ## What the maps contain -/

/-- The contents of a map, or the error that there is instead of a map. -/
def contents (r : Except ErrorInfo PropertyMap) :
    Except ErrorInfo (QualifiedId → Option Variant) :=
  r.map fun m name => m.lookup name

/-- The value of a property if there is no error. -/
def okValue (o : Option Result) : Option Variant :=
  match o with
  | some (.ok v) => some v
  | _ => none

/-- Whether the properties have values; otherwise the first error. -/
def outcome (value : QualifiedId → Option Result) :
    List QualifiedId → Option (Except ErrorInfo Unit)
  | [] => some (.ok ())
  | name :: rest =>
      (value name).bind fun r =>
        match r with
        | .error e => some (.error e)
        | .ok _ => outcome value rest

variable {value : QualifiedId → Option Result} {names : List QualifiedId}

/-- Properties that have values do not matter for the outcome. -/
theorem outcome_append_of_ok {rest : List QualifiedId}
    (h : ∀ name, name ∈ names → ∃ v, value name = some (.ok v)) :
    outcome value (names ++ rest) = outcome value rest := by
  induction names with
  | nil => rfl
  | cons name names ih =>
      rcases h name (by simp) with ⟨v, hv⟩
      simp only [List.cons_append, outcome, hv, Option.bind_some]
      exact ih fun name hname => h name (List.mem_cons_of_mem _ hname)

theorem outcome_append (names rest : List QualifiedId) :
    outcome value (names ++ rest) =
      (outcome value names).bind fun r =>
        match r with
        | .error e => some (.error e)
        | .ok _ => outcome value rest := by
  induction names with
  | nil => rfl
  | cons name names ih =>
      simp only [List.cons_append, outcome]
      cases value name with
      | none => rfl
      | some r =>
          cases r with
          | error e => rfl
          | ok v => exact ih

theorem outcome_eq_ok_iff :
    outcome value names = some (.ok ()) ↔
      ∀ name, name ∈ names → ∃ v, value name = some (.ok v) := by
  induction names with
  | nil => simp [outcome]
  | cons name names ih =>
      simp only [outcome, List.forall_mem_cons, ← ih]
      cases value name with
      | none => simp
      | some r =>
          cases r with
          | error e => simp
          | ok v => simp

/-- Evaluating the properties that are not in a map yet gives the values of all of them, if the
values in the map are right. -/
theorem fill_contents {m : PropertyMap}
    (hm : ∀ name, name ∈ names → ∀ v, m.lookup name = some v → value name = some (.ok v)) :
    (fill value names m).map contents =
      (outcome value names).map fun r => r.map fun _ name =>
        if name ∈ names then okValue (value name) else m.lookup name := by
  induction names generalizing m with
  | nil => simp [fill, outcome, contents, Except.map]
  | cons name rest ih =>
      have hrest : ∀ name', name' ∈ rest → ∀ v, m.lookup name' = some v →
          value name' = some (.ok v) :=
        fun name' h => hm name' (List.mem_cons_of_mem name h)
      simp only [fill, outcome]
      cases hlookup : m.lookup name with
      | some v =>
          have hv := hm name (by simp) v hlookup
          simp only [Option.isSome_some, if_true, hv, Option.bind_some]
          rw [ih hrest]
          congr 1
          funext r
          congr 1
          funext _ name'
          by_cases hEq : name' = name
          · subst hEq
            by_cases hin : name' ∈ rest
            · simp [hin]
            · simp [hin, hlookup, hv, okValue]
          · simp [hEq]
      | none =>
          simp only [Option.isSome_none, Bool.false_eq_true, if_false]
          cases hv : value name with
          | none => rfl
          | some r =>
              cases r with
              | error e => rfl
              | ok v =>
                  simp only [Option.bind_some]
                  rw [ih]
                  · congr 1
                    funext r
                    congr 1
                    funext _ name'
                    by_cases hEq : name' = name
                    · subst hEq
                      simp [hv, okValue]
                    · simp [hEq, AList.lookup_insert_ne hEq]
                  · intro name' hin v' hlookup'
                    by_cases hEq : name' = name
                    · subst hEq
                      rw [AList.lookup_insert, Option.some.injEq] at hlookup'
                      rw [hv, hlookup']
                    · rw [AList.lookup_insert_ne hEq] at hlookup'
                      exact hrest name' hin v' hlookup'

/-- The value of a property outside of a list is not changed when the list is evaluated. -/
theorem fill_append (names rest : List QualifiedId) (m : PropertyMap) :
    fill value (names ++ rest) m =
      (fill value names m).bind fun r =>
        match r with
        | .error e => some (.error e)
        | .ok m => fill value rest m := by
  induction names generalizing m with
  | nil => rfl
  | cons name names ih =>
      simp only [List.cons_append, fill]
      split
      · exact ih m
      · cases value name with
        | none => rfl
        | some r =>
            cases r with
            | error e => rfl
            | ok v => exact ih _

theorem fillModules_eq_fill (names : QualifiedId → List QualifiedId) (modules : List QualifiedId)
    (m : PropertyMap) : fillModules value names modules m = fill value (modules.flatMap names) m := by
  induction modules generalizing m with
  | nil => rfl
  | cons module rest ih =>
      simp only [fillModules, List.flatMap_cons, fill_append, ih]

/-- An evaluation that has failed or has left a map, by the contents of the map. -/
theorem map_contents_cases {o : Option (Except ErrorInfo PropertyMap)}
    {p : Option (Except ErrorInfo Unit)} {c : QualifiedId → Option Variant}
    (h : o.map contents = p.map fun r => r.map fun _ => c) :
    o = none ∧ p = none ∨ (∃ e, o = some (.error e) ∧ p = some (.error e)) ∨
      ∃ m, o = some (.ok m) ∧ p = some (.ok ()) ∧ ∀ name, m.lookup name = c name := by
  cases o with
  | none =>
      cases p with
      | none => exact Or.inl ⟨rfl, rfl⟩
      | some r => simp at h
  | some r =>
      cases p with
      | none => simp at h
      | some r' =>
          simp only [Option.map_some, Option.some.injEq, contents] at h
          rcases r with e | m <;> rcases r' with e' | u
          · simp only [Except.map, Except.error.injEq] at h
            exact Or.inr (Or.inl ⟨e, rfl, by rw [h]⟩)
          · simp [Except.map] at h
          · simp [Except.map] at h
          · simp only [Except.map, Except.ok.injEq] at h
            exact Or.inr (Or.inr ⟨m, rfl, rfl, fun name => congrFun h name⟩)

/-- Evaluating some properties again gives the values of all of them, if the map has the values of
the other properties and no others. -/
theorem refill_contents {names : QualifiedId → List QualifiedId}
    (hmodule : ∀ module name, name ∈ names module → moduleName name = module)
    {propsToEval allModules modules : List QualifiedId} (hsub : ∀ module, module ∈ modules →
      module ∈ allModules) {m : PropertyMap}
    (hreuse : ∀ module, module ∈ modules → ∀ name, name ∈ names module → name ∉ propsToEval →
      ∃ v, m.lookup name = some v ∧ value name = some (.ok v))
    (hdom : ∀ name v, m.lookup name = some v → name ∈ allModules.flatMap names) :
    (refill value names propsToEval modules m).map contents =
      (outcome value (modules.flatMap names)).map fun r => r.map fun _ name =>
        if name ∈ modules.flatMap names then okValue (value name) else m.lookup name := by
  induction modules generalizing m with
  | nil => simp [refill, outcome, contents, Except.map]
  | cons module rest ih =>
      have hsubRest : ∀ module, module ∈ rest → module ∈ allModules :=
        fun module' h => hsub module' (List.mem_cons_of_mem module h)
      have hreuseRest := fun module' (h : module' ∈ rest) =>
        hreuse module' (List.mem_cons_of_mem module h)
      simp only [refill, List.flatMap_cons]
      split <;> rename_i hempty
      · have hnone : ∀ name, name ∈ names module → name ∉ propsToEval := by
          intro name hname hin
          have hmem : name ∈ propsToEval.filter fun name => moduleName name = module :=
            List.mem_filter.mpr ⟨hin, by simpa using hmodule module name hname⟩
          rw [List.isEmpty_iff.mp hempty] at hmem
          exact List.not_mem_nil hmem
        have hok : ∀ name, name ∈ names module → ∃ v, m.lookup name = some v ∧
            value name = some (.ok v) :=
          fun name hname => hreuse module (by simp) name hname (hnone name hname)
        rw [outcome_append_of_ok fun name hname => (hok name hname).imp fun _ h => h.2,
          ih hsubRest hreuseRest hdom]
        congr 1
        funext r
        congr 1
        funext _ name
        by_cases hin : name ∈ names module
        · rcases hok name hin with ⟨v, hlookup, hv⟩
          by_cases hrest : name ∈ rest.flatMap names
          · simp [hin, hrest]
          · simp [hin, hrest, hlookup, hv, okValue]
        · simp [hin]
      · have hreusable : ∀ name, AList.lookup name
            ((propsToEval.filter fun name => moduleName name = module).foldl
              (fun m name => AList.erase name m) m) =
            if name ∈ propsToEval ∧ moduleName name = module then none else m.lookup name := by
          intro name
          rw [AssocMap.lookup_foldl_erase]
          simp only [List.mem_filter, decide_eq_true_eq]
        generalize (propsToEval.filter fun name => moduleName name = module).foldl
          (fun m name => AList.erase name m) m = reusable at hreusable ⊢
        have hcorrect : ∀ name, name ∈ names module → ∀ v, reusable.lookup name = some v →
            value name = some (.ok v) := by
          intro name hname v hv
          rw [hreusable] at hv
          split at hv <;> rename_i hin
          · cases hv
          · have hnot : name ∉ propsToEval := fun h => hin ⟨h, hmodule module name hname⟩
            rcases hreuse module (by simp) name hname hnot with ⟨v', hlookup, hv'⟩
            rw [hlookup] at hv
            rwa [← Option.some.inj hv]
        rw [outcome_append]
        rcases map_contents_cases (fill_contents hcorrect) with
          ⟨hfill, hout⟩ | ⟨e, hfill, hout⟩ | ⟨m', hfill, hout, hlookup⟩
        · rw [hfill, hout]
          rfl
        · rw [hfill, hout]
          rfl
        · rw [hfill, hout]
          simp only [Option.bind_some]
          -- The erased values are in the list again or have not been in the map.
          have hother : ∀ name, name ∉ names module → m'.lookup name = m.lookup name := by
            intro name hname
            rw [hlookup, if_neg hname, hreusable]
            split <;> rename_i hin
            · cases hm : m.lookup name with
              | none => rfl
              | some v =>
                  rcases List.mem_flatMap.mp (hdom name v hm) with ⟨module', -, hmem⟩
                  rw [← hin.2, hmodule module' name hmem] at hname
                  exact absurd hmem hname
            · rfl
          rw [ih hsubRest]
          · congr 1
            funext r
            congr 1
            funext _ name
            by_cases hrest : name ∈ rest.flatMap names
            · simp [hrest]
            · by_cases hin : name ∈ names module
              · simp [hrest, hin, hlookup]
              · simp [hrest, hin, hother name hin]
          · intro module' hmodule' name hname hnot
            rcases hreuseRest module' hmodule' name hname hnot with ⟨v, hm, hv⟩
            refine ⟨v, ?_, hv⟩
            by_cases hin : name ∈ names module
            · rw [hlookup, if_pos hin, hv]
              rfl
            · rw [hother name hin, hm]
          · intro name v hv
            by_cases hin : name ∈ names module
            · exact List.mem_flatMap.mpr ⟨module, hsub module (by simp), hin⟩
            · rw [hother name hin] at hv
              exact hdom name v hv

/-! ## The names in an instance -/

section Names

variable (product : ProductItem)

/-- The nearest item that has a property map of its own. -/
def owner : Path → Path
  | [] => []
  | i :: path => if (product.assigned (i :: path)).isEmpty then owner path else i :: path

/-- The module properties that are evaluated for an instance. -/
def allNames (path : Path) : List QualifiedId :=
  product.modules.flatMap (propertiesOf product path)

variable {product}

theorem mem_propertiesOf {path : Path} {module name : QualifiedId} :
    name ∈ propertiesOf product path module ↔
      name ∈ product.names path ∧ moduleName name = module := by
  simp [propertiesOf]

theorem mem_allNames {path : Path} {name : QualifiedId} :
    name ∈ allNames product path ↔
      name ∈ product.names path ∧ moduleName name ∈ product.modules := by
  simp only [allNames, List.mem_flatMap, mem_propertiesOf]
  constructor
  · rintro ⟨module, hmodule, hname, rfl⟩
    exact ⟨hname, hmodule⟩
  · rintro ⟨hname, hmodule⟩
    exact ⟨_, hmodule, hname, rfl⟩

/-- A group that sets nothing has the names and values of the enclosing item. -/
theorem owner_inherits (path : Path) :
    product.names (owner product path) = product.names path ∧
      ∀ name, product.value (owner product path) name = product.value path name := by
  induction path with
  | nil => simp [owner]
  | cons i path ih =>
      simp only [owner]
      split <;> rename_i hempty
      · rw [List.isEmpty_iff] at hempty
        simp only [ProductItem.names, ProductItem.value, hempty, List.map_nil, List.nil_append,
          List.lookup_nil]
        exact ih
      · simp

theorem owner_of_assigned {path : Path} (h : product.assigned path ≠ []) :
    owner product path = path := by
  cases path with
  | nil => rfl
  | cons i path => simp [owner, h]

end Names

/-! ## The condition -/

section Condition

variable (product : ProductItem)

/-- The recorded dependencies lead to every property that may have another value in a group than
in the enclosing item. -/
structure Covered (s : EvaluatorState) (path : Path) : Prop where
  property : ∀ name read, Reads product (owner product path.tail) name (.property read) →
    read ∈ propsToEval product path s → name ∈ propsToEval product path s
  outer : ∀ name, Reads product (owner product path.tail) name .outer →
    name ∈ propsToEval product path s
  item : ∀ name item, Reads product (owner product path.tail) name (.item item) →
    product.itemProperty path item ≠ product.itemProperty (owner product path.tail) item →
    name ∈ propsToEval product path s

/-- What has to hold before a step: the dependencies are covered when a group is resolved that
sets module properties, and there is no map for the same filter yet. -/
def Tracked (s : ResolverState) : Step → Prop
  | .resolveGroup path =>
      product.assigned path ≠ [] →
        Covered product s.evaluator path ∧
          (product.fileTagsFilter path = [] ∨
            s.artifactProperties.lookup (product.fileTagsFilter path) = none)
  | _ => True

/-- What the resolver computes for a group from the map of the enclosing item. -/
def GroupMap (s : ResolverState) (path : Path) (values : PropertyMap)
    (c : Except ErrorInfo (QualifiedId → Option Variant)) : Prop :=
  ∃ n r t, resolveAdditionalModuleProperties product n path values s.evaluator = some (r, t) ∧
    (r.map fun m name => m.bind fun m => m.lookup name) = c

/-- What evaluating all module properties of a group from scratch gives. -/
def FromScratch (path : Path) (c : Except ErrorInfo (QualifiedId → Option Variant)) : Prop :=
  ∃ n r t, withCaching true (evaluateModuleValues product n path) .initial = some (r, t) ∧
    contents r = c

/-- The maps of the groups that set module properties are those that evaluating from scratch
gives. -/
def MapsFromScratch (s : ResolverState) : Prop :=
  (∀ path m, product.assigned path ≠ [] → s.properties.lookup path = some m →
    FromScratch product path (.ok fun name => m.lookup name)) ∧
  ∀ filter m, s.artifactProperties.lookup filter = some m →
    ∃ path, product.fileTagsFilter path = filter ∧
      FromScratch product (owner product path) (.ok fun name => m.lookup name)

end Condition

/-! ## One group -/

section Group

variable {product : ProductItem} {path : Path} {s : EvaluatorState}
  {c : Except ErrorInfo (QualifiedId → Option Variant)}

theorem sound_setValueCacheEnabled {enabled : Bool} (hs : Sound product s) :
    Sound product (setValueCacheEnabled enabled s) :=
  hs

theorem withCaching_computes {α : Type} {f : Nat → EvalM α} {o : Option α}
    (h : Fuel.Computes (Sound product) f o) (enabled : Bool) :
    Fuel.Computes (Sound product) (fun n => withCaching enabled (f n)) o := by
  constructor
  · intro n
    apply yields_updateThen fun s hs => sound_setValueCacheEnabled hs
    exact yields_thenUpdate (fun _ s _ hs => sound_setValueCacheEnabled hs) (h.yields n)
  · intro a ha
    rcases h.reaches a ha with ⟨n, hn⟩
    refine ⟨n, fun m hm => ?_⟩
    apply reaches_updateThen fun s hs => sound_setValueCacheEnabled hs
    exact reaches_thenUpdate (h.yields m) (hn m hm)

theorem evaluateModuleValues_computes (path : Path) :
    Fuel.Computes (Sound product) (fun n => withCaching true (evaluateModuleValues product n path))
      (fill (valueOf product path) (allNames product path) ∅) := by
  rw [allNames, ← fillModules_eq_fill]
  exact withCaching_computes (evaluateModules_computes path product.modules ∅) true

/-- From scratch all properties of an instance get their values. -/
theorem fromScratch_iff :
    FromScratch product path c ↔
      ((outcome (valueOf product path) (allNames product path)).map fun r => r.map fun _ name =>
        if name ∈ allNames product path then okValue (valueOf product path name) else none) =
          some c := by
  have hempty : ∀ name, name ∈ allNames product path → ∀ v,
      (∅ : PropertyMap).lookup name = some v → valueOf product path name = some (.ok v) := by
    simp
  have hfill := fill_contents hempty
  simp only [AList.lookup_empty] at hfill
  rw [← hfill, Option.map_eq_some_iff]
  have hcomputes : Fuel.Computes (Sound product) _ _ := evaluateModuleValues_computes path
  constructor
  · rintro ⟨n, r, t, hrun, hc⟩
    exact ⟨r, (hcomputes.result_iff sound_initial).mp ⟨n, t, hrun⟩, hc⟩
  · rintro ⟨r, hr, hc⟩
    rcases (hcomputes.result_iff sound_initial).mpr hr with ⟨n, t, hrun⟩
    exact ⟨n, r, t, hrun, hc⟩

/-- A map from scratch has the values of all properties. -/
theorem fromScratch_ok_iff {c : QualifiedId → Option Variant} :
    FromScratch product path (.ok c) ↔
      outcome (valueOf product path) (allNames product path) = some (.ok ()) ∧
        ∀ name, c name =
          if name ∈ allNames product path then okValue (valueOf product path name) else none := by
  rw [fromScratch_iff]
  cases outcome (valueOf product path) (allNames product path) with
  | none => simp
  | some r =>
      cases r with
      | error e => simp [Except.map]
      | ok u =>
          simp only [Option.map_some, Except.map, Option.some.injEq, Except.ok.injEq, true_and]
          rw [eq_comm, funext_iff]

/-- What the resolver computes for a group that sets module properties. -/
theorem resolveAdditional_eq (hset : product.assigned path ≠ []) (n : Nat) (values : PropertyMap) :
    resolveAdditionalModuleProperties product n path values s =
      (withCaching true (replaceValues product n path (propsToEval product path s)
        product.modules values) s).map fun x => (x.1.map some, x.2) := by
  simp only [resolveAdditionalModuleProperties, List.isEmpty_iff, if_neg hset]
  rw [Option.map_eq_bind]
  rfl

theorem resolveAdditional_computes (s : EvaluatorState) (path : Path) (values : PropertyMap) :
    Fuel.Computes (Sound product)
      (fun n => withCaching true
        (replaceValues product n path (propsToEval product path s) product.modules values))
      (refill (valueOf product path) (propertiesOf product path) (propsToEval product path s)
        product.modules values) :=
  withCaching_computes (replaceValues_computes path _ product.modules values) true

theorem groupMap_iff {s : ResolverState} (hs : Sound product s.evaluator)
    (hset : product.assigned path ≠ []) {values : PropertyMap} :
    GroupMap product s path values c ↔
      (refill (valueOf product path) (propertiesOf product path)
        (propsToEval product path s.evaluator) product.modules values).map contents = some c := by
  have hcomputes : Fuel.Computes (Sound product) _ _ :=
    resolveAdditional_computes s.evaluator path values
  have hcontents : ∀ r : Except ErrorInfo PropertyMap,
      ((r.map some).map fun m name => m.bind fun m => m.lookup name) = contents r := by
    intro r
    cases r with
    | error e => rfl
    | ok m => rfl
  rw [Option.map_eq_some_iff]
  constructor
  · rintro ⟨n, r, t, hrun, hc⟩
    rw [resolveAdditional_eq hset, Option.map_eq_some_iff] at hrun
    rcases hrun with ⟨⟨r', t'⟩, hrun, hpair⟩
    cases hpair
    exact ⟨r', (hcomputes.result_iff hs).mp ⟨n, _, hrun⟩, by rw [← hcontents, hc]⟩
  · rintro ⟨r, hr, hc⟩
    rcases (hcomputes.result_iff hs).mpr hr with ⟨n, t, hrun⟩
    refine ⟨n, r.map some, t, ?_, by rw [hcontents, hc]⟩
    rw [resolveAdditional_eq hset, hrun]
    rfl

variable {name : QualifiedId}

/-- What the group sets is evaluated again. -/
theorem assigned_subset_propsToEval (h : name ∈ (product.assigned path).map Prod.fst) :
    name ∈ propsToEval product path s :=
  mem_propertiesToEvaluate_iff.mpr ⟨name, h, Relation.ReflTransGen.refl⟩

/-- The properties that are not evaluated again are those of the enclosing item. -/
theorem names_of_not_mem (h : name ∉ propsToEval product path s) :
    (name ∈ product.names path → name ∈ product.names (owner product path.tail)) ∧
      product.value (owner product path.tail) name = product.value path name := by
  have hnot : name ∉ (product.assigned path).map Prod.fst :=
    fun hin => h (assigned_subset_propsToEval hin)
  rw [(owner_inherits path.tail).1, (owner_inherits path.tail).2]
  cases path with
  | nil => exact ⟨fun hin => hin, rfl⟩
  | cons i outer =>
      constructor
      · intro hin
        rcases List.mem_append.mp hin with hin | hin
        · exact absurd hin hnot
        · exact hin
      · have hlookup : (product.assigned (i :: outer)).lookup name = none := by
          rw [List.lookup_eq_none_iff]
          intro e he
          have hne : name ≠ e.1 := fun hEq => hnot (hEq ▸ List.mem_map_of_mem he)
          simpa using hne
        simp only [ProductItem.value, hlookup, List.tail_cons]

/-- The properties that are not evaluated again have the same values as in the enclosing item. -/
theorem valueOf_of_not_mem (hcovered : Covered product s path)
    (h : name ∉ propsToEval product path s) :
    valueOf product (owner product path.tail) name = valueOf product path name := by
  have hvalue : ∀ name, name ∉ propsToEval product path s →
      product.value (owner product path.tail) name = product.value path name :=
    fun name hname => (names_of_not_mem hname).2
  apply valueOf_eq_of_reads hvalue _ _ _ h
  · exact fun name hname read hread hin => hname (hcovered.property name read hread hin)
  · exact fun name hname hread => hname (hcovered.outer name hread)
  · intro name hname item hread
    by_contra hne
    exact hname (hcovered.item name item hread fun hEq => hne hEq.symm)

/-- A group whose dependencies are covered gets the map that evaluating from scratch gives. -/
theorem groupMap_iff_of_covered {s : ResolverState} (hs : Sound product s.evaluator)
    (hset : product.assigned path ≠ []) (hcovered : Covered product s.evaluator path)
    {values : PropertyMap}
    (hvalues : FromScratch product (owner product path.tail) (.ok fun name => values.lookup name)) :
    GroupMap product s path values c ↔ FromScratch product path c := by
  rcases fromScratch_ok_iff.mp hvalues with ⟨hout, hlookup⟩
  rw [outcome_eq_ok_iff] at hout
  have hsub : ∀ name, name ∈ allNames product (owner product path.tail) →
      name ∈ allNames product path := by
    intro name hname
    rw [mem_allNames, (owner_inherits path.tail).1] at hname
    rw [mem_allNames]
    refine ⟨?_, hname.2⟩
    cases path with
    | nil => exact hname.1
    | cons i outer => exact List.mem_append_right _ hname.1
  have hdom : ∀ name v, values.lookup name = some v →
      name ∈ product.modules.flatMap (propertiesOf product path) := by
    intro name v hv
    rw [hlookup] at hv
    split at hv <;> rename_i hin
    · exact hsub name hin
    · cases hv
  rw [groupMap_iff hs hset, fromScratch_iff, allNames,
    refill_contents (fun module name h => (mem_propertiesOf.mp h).2) (fun module h => h) _ hdom]
  · have hcongr : ∀ name, (if name ∈ product.modules.flatMap (propertiesOf product path) then
        okValue (valueOf product path name) else values.lookup name) =
          if name ∈ product.modules.flatMap (propertiesOf product path) then
            okValue (valueOf product path name) else none := by
      intro name
      split <;> rename_i hin
      · rfl
      · cases hv : values.lookup name with
        | none => rfl
        | some v => exact absurd (hdom name v hv) hin
    simp only [hcongr]
  · intro module hmodule name hname hnot
    rcases mem_propertiesOf.mp hname with ⟨hnames, rfl⟩
    have hin : name ∈ allNames product (owner product path.tail) :=
      mem_allNames.mpr ⟨(names_of_not_mem hnot).1 hnames, hmodule⟩
    rcases hout name hin with ⟨v, hv⟩
    refine ⟨v, ?_, ?_⟩
    · rw [hlookup, if_pos hin, hv]
      rfl
    · rw [← valueOf_of_not_mem hcovered hnot, hv]

end Group

/-! ## All groups of a product -/

section Run

variable (product : ProductItem)

/-- All maps that have been computed are those from scratch. -/
structure Consistent (s : ResolverState) : Prop where
  sound : Sound product s.evaluator
  properties : ∀ path m, s.properties.lookup path = some m →
    FromScratch product (owner product path) (.ok fun name => m.lookup name)
  artifactProperties : ∀ filter m, s.artifactProperties.lookup filter = some m →
    ∃ path, product.fileTagsFilter path = filter ∧
      FromScratch product (owner product path) (.ok fun name => m.lookup name)

variable {product}

theorem consistent_initial : Consistent product .initial := by
  refine ⟨sound_initial, ?_, ?_⟩
  · intro path m h
    simp [ResolverState.initial] at h
  · intro filter m h
    simp [ResolverState.initial] at h

variable {path : Path} {s : ResolverState}

theorem Consistent.setEvaluator (h : Consistent product s) {t : EvaluatorState}
    (ht : Sound product t) : Consistent product { s with evaluator := t } :=
  ⟨ht, h.properties, h.artifactProperties⟩

theorem Consistent.insert (h : Consistent product s) {m : PropertyMap}
    (hm : FromScratch product (owner product path) (.ok fun name => m.lookup name)) :
    Consistent product { s with properties := AList.insert path m s.properties } := by
  refine ⟨h.sound, ?_, h.artifactProperties⟩
  intro path' m' hlookup
  by_cases hEq : path' = path
  · subst hEq
    rw [AList.lookup_insert, Option.some.injEq] at hlookup
    rwa [← hlookup]
  · rw [AList.lookup_insert_ne hEq] at hlookup
    exact h.properties path' m' hlookup

/-- The map of a group may be stored if it is that of the group or of one with the same filter. -/
theorem Consistent.setGroupPropertyMap {s : ResolverState} (h : Consistent product s)
    {path path' : Path} {m : PropertyMap} (hpath : path' = path ∨
      product.fileTagsFilter path ≠ [] ∧
        product.fileTagsFilter path' = product.fileTagsFilter path)
    (hm : FromScratch product (owner product path') (.ok fun name => m.lookup name)) :
    Consistent product (setGroupPropertyMap product path m s) := by
  unfold ModuleProperties.setGroupPropertyMap
  split <;> rename_i hempty
  · rw [List.isEmpty_iff] at hempty
    rcases hpath with rfl | ⟨hne, -⟩
    · exact h.insert hm
    · exact absurd hempty hne
  · refine ⟨h.sound, h.properties, ?_⟩
    intro filter m' hlookup
    by_cases hEq : filter = product.fileTagsFilter path
    · subst hEq
      rw [AList.lookup_insert, Option.some.injEq] at hlookup
      rw [← hlookup]
      rcases hpath with rfl | ⟨-, hfilter⟩
      · exact ⟨path', rfl, hm⟩
      · exact ⟨path', hfilter, hm⟩
    · rw [AList.lookup_insert_ne hEq] at hlookup
      exact h.artifactProperties filter m' hlookup

variable {values : PropertyMap}

/-- The values that a group starts from are those of the enclosing item, or of a group with the
same filter. -/
theorem Consistent.values_cases (h : Consistent product s)
    (hvalues : currentValues product s path = some values) :
    FromScratch product (owner product path.tail) (.ok fun name => values.lookup name) ∨
      product.fileTagsFilter path ≠ [] ∧
        s.artifactProperties.lookup (product.fileTagsFilter path) = some values := by
  unfold ModuleProperties.currentValues at hvalues
  split at hvalues <;> rename_i hempty
  · exact Or.inl (h.properties _ _ hvalues)
  · split at hvalues <;> rename_i hlookup
    · rw [List.isEmpty_iff] at hempty
      exact Or.inr ⟨hempty, by rw [hlookup, hvalues]⟩
    · exact Or.inl (h.properties _ _ hvalues)

/-- In a group that sets nothing all values are those of the enclosing item. -/
theorem owner_of_nil (h : product.assigned path = []) :
    owner product path = owner product path.tail := by
  cases path with
  | nil => rfl
  | cons i outer => simp [owner, h]

/-- The condition before a group gives the map of the enclosing item and covered dependencies. -/
theorem Consistent.of_tracked (h : Consistent product s) (hset : product.assigned path ≠ [])
    (htracked : Tracked product s (.resolveGroup path))
    (hvalues : currentValues product s path = some values) :
    Covered product s.evaluator path ∧
      FromScratch product (owner product path.tail) (.ok fun name => values.lookup name) := by
  rcases htracked hset with ⟨hcovered, hfilter⟩
  refine ⟨hcovered, ?_⟩
  rcases h.values_cases hvalues with hscratch | ⟨hne, hlookup⟩
  · exact hscratch
  · rcases hfilter with hempty | hnone
    · exact absurd hempty hne
    · rw [hlookup] at hnone
      cases hnone

theorem consistent_resolveGroup (h : Consistent product s)
    (htracked : Tracked product s (.resolveGroup path))
    (hvalues : currentValues product s path = some values) {n : Nat}
    {r : Except ErrorInfo (Option PropertyMap)} {t : EvaluatorState}
    (hrun : resolveAdditionalModuleProperties product n path values s.evaluator = some (r, t)) :
    Consistent product (finishGroup product path values s (r, t)) := by
  by_cases hset : product.assigned path = []
  · have hpure : resolveAdditionalModuleProperties product n path values s.evaluator =
        some (.ok none, s.evaluator) := by
      simp only [resolveAdditionalModuleProperties, List.isEmpty_iff, if_pos hset]
      rfl
    rw [hpure] at hrun
    cases hrun
    rcases h.values_cases hvalues with hscratch | ⟨hne, hlookup⟩
    · rw [← owner_of_nil hset] at hscratch
      exact h.setGroupPropertyMap (Or.inl rfl) hscratch
    · rcases h.artifactProperties _ _ hlookup with ⟨path', hfilter, hscratch⟩
      exact h.setGroupPropertyMap (Or.inr ⟨hne, hfilter⟩) hscratch
  · rcases h.of_tracked hset htracked hvalues with ⟨hcovered, hscratch⟩
    have hmap := (groupMap_iff_of_covered h.sound hset hcovered hscratch).mp ⟨n, r, t, hrun, rfl⟩
    rw [resolveAdditional_eq hset, Option.map_eq_some_iff] at hrun
    rcases hrun with ⟨⟨r', t'⟩, hrun', hpair⟩
    cases hpair
    have ht := ((resolveAdditional_computes s.evaluator path values).yields n _ _ _ h.sound hrun').1
    cases r' with
    | error e => exact h.setEvaluator ht
    | ok m =>
        rw [← owner_of_assigned hset] at hmap
        exact (h.setEvaluator ht).setGroupPropertyMap (Or.inl rfl) hmap

/-- Every step that meets the condition keeps all maps right. -/
theorem consistent_perform {s' : ResolverState} {l : Step} (h : Consistent product s)
    (htracked : Tracked product s l) (hstep : Performs product s l s') : Consistent product s' := by
  rcases hstep with ⟨n, hstep⟩
  cases l with
  | evaluate caching path name =>
      simp only [perform, Option.map_eq_some_iff] at hstep
      rcases hstep with ⟨⟨r, t⟩, hrun, rfl⟩
      have hcomputes : Fuel.Computes (Sound product) _ _ :=
        withCaching_computes (property_computes path name) caching
      exact h.setEvaluator (hcomputes.yields n _ _ _ h.sound hrun).1
  | clearPropertyDependencies =>
      simp only [perform, Option.some.injEq] at hstep
      subst hstep
      exact h.setEvaluator h.sound
  | createProductConfig =>
      simp only [perform, Option.map_eq_some_iff] at hstep
      rcases hstep with ⟨⟨r, t⟩, hrun, rfl⟩
      have hcomputes : Fuel.Computes (Sound product) _ _ := evaluateModuleValues_computes []
      have ht := (hcomputes.yields n _ _ _ h.sound hrun).1
      cases r with
      | error e => exact h.setEvaluator ht
      | ok m =>
          -- The result does not depend on what was in the cache.
          have hresult := (hcomputes.result_iff h.sound).mp ⟨n, t, hrun⟩
          rcases (hcomputes.result_iff sound_initial).mpr hresult with ⟨n', t', hrun'⟩
          exact (h.setEvaluator ht).insert ⟨n', _, t', hrun', rfl⟩
  | resolveGroup path =>
      simp only [perform, Option.bind_eq_some_iff, Option.map_eq_some_iff] at hstep
      rcases hstep with ⟨values, hvalues, ⟨r, t⟩, hrun, rfl⟩
      exact consistent_resolveGroup h htracked hvalues hrun

/-- What every step that meets the condition keeps holds at the end of a run of such steps. -/
theorem consistent_run {trace : List (ResolverState × Step)}
    (hrun : TransitionSystem.Run (Performs product) .initial trace s)
    (hok : ∀ e, e ∈ trace → Tracked product e.1 e.2) : Consistent product s :=
  hrun.invariant (Tracked product) (fun _ _ _ h htracked hstep =>
    consistent_perform h htracked hstep) consistent_initial hok

/-- In a run in which the recorded dependencies cover what changes in each group, every group that
sets module properties gets the map that evaluating all of them from scratch gives. -/
theorem groupMap_iff_fromScratch {s : ResolverState} {trace : List (ResolverState × Step)}
    (hrun : TransitionSystem.Run (Performs product) .initial trace s)
    (hok : ∀ e, e ∈ trace → Tracked product e.1 e.2) :
    MapsFromScratch product s ∧
      ∀ path values, product.assigned path ≠ [] → currentValues product s path = some values →
        Tracked product s (.resolveGroup path) →
        ∀ c, GroupMap product s path values c ↔ FromScratch product path c := by
  have h := consistent_run hrun hok
  refine ⟨⟨?_, h.artifactProperties⟩, ?_⟩
  · intro path m hset hlookup
    have hscratch := h.properties path m hlookup
    rwa [owner_of_assigned hset] at hscratch
  · intro path values hset hvalues htracked c
    rcases h.of_tracked hset htracked hvalues with ⟨hcovered, hscratch⟩
    exact groupMap_iff_of_covered h.sound hset hcovered hscratch

end Run

/-! ## A read that is not recorded -/

namespace Sample

/-- A module with two properties, of which the second has the value of the first, and a group
that sets the first. -/
def product (x : PropertyValue) : ProductItem where
  modules := [["m"]]
  moduleProperties := [(["m", "x"], x), (["m", "y"], .source (.read ["m", "x"] .done))]
  properties := []
  groups := [.mk [(["m", "x"], .done (.ok (.bool true)))] [] [] []]

/-- The state after the map of the product has been computed. -/
def configured (x : PropertyValue) : ResolverState :=
  (perform (product x) 3 .createProductConfig .initial).getD .initial

theorem configured_run {x : PropertyValue}
    (h : perform (product x) 3 .createProductConfig .initial = some (configured x)) :
    TransitionSystem.Run (Performs (product x)) .initial [(.initial, .createProductConfig)]
      (configured x) :=
  TransitionSystem.Run.nil.snoc ⟨3, h⟩

/-- The values that the group starts from. -/
def values (x : PropertyValue) : PropertyMap :=
  ((configured x).properties.lookup []).getD ∅

end Sample

theorem fromScratch_unique {product : ProductItem} {path : Path}
    {c c' : Except ErrorInfo (QualifiedId → Option Variant)} (h : FromScratch product path c)
    (h' : FromScratch product path c') : c = c' := by
  rw [fromScratch_iff] at h h'
  exact Option.some.inj (h.symm.trans h')

/-- If the first property comes from a profile, then reading it is not recorded, and the second
property keeps the value that it has in the product. -/
theorem variant_read_not_recorded :
    ∃ (product : ProductItem) (trace : List (ResolverState × Step)) (s : ResolverState)
      (path : Path) (values : PropertyMap) (c : Except ErrorInfo (QualifiedId → Option Variant)),
      TransitionSystem.Run (Performs product) .initial trace s ∧ product.assigned path ≠ [] ∧
        currentValues product s path = some values ∧ GroupMap product s path values c ∧
        ¬FromScratch product path c := by
  refine ⟨Sample.product (.variant (.bool false)), _, Sample.configured (.variant (.bool false)), [0],
    Sample.values (.variant (.bool false)), _, Sample.configured_run rfl, by decide, rfl,
    ⟨3, _, _, rfl, rfl⟩, ?_⟩
  intro h
  have h' : FromScratch (Sample.product (.variant (.bool false))) [0] _ := ⟨3, _, _, rfl, rfl⟩
  have hEq := fromScratch_unique h h'
  have hcontents := congrArg (fun c => c.toOption.bind fun m => m ["m", "y"]) hEq
  have hvalue : some (Variant.bool false) = some (Variant.bool true) := hcontents
  cases hvalue

namespace Sample

/-- The first property has source code. -/
def source : PropertyValue :=
  .source (.done (.ok (.bool false)))

theorem source_run : TransitionSystem.Run (Performs (product source)) .initial
    [(.initial, .createProductConfig)] (configured source) :=
  configured_run rfl

/-- The group evaluates both properties again. -/
theorem source_tracked : Tracked (product source) (configured source) (.resolveGroup [0]) := by
  have hall : ∀ name a, Reads (product source) [] name a →
      name ∈ propsToEval (product source) [0] (configured source).evaluator := by
    rintro name a ⟨n, s, hvalue, -⟩
    have hprops : propsToEval (product source) [0] (configured source).evaluator =
        [["m", "y"], ["m", "x"]] := rfl
    rw [hprops]
    by_contra hnot
    simp only [List.mem_cons, List.not_mem_nil, or_false, not_or] at hnot
    have hnone : (product source).value [] name = none := by
      simp [ProductItem.value, product, List.lookup_cons, beq_eq_false_iff_ne.mpr hnot.1,
        beq_eq_false_iff_ne.mpr hnot.2]
    rw [hnone] at hvalue
    cases hvalue
  intro _
  refine ⟨⟨?_, ?_, ?_⟩, Or.inl rfl⟩
  · exact fun name read hread _ => hall name _ hread
  · exact fun name hread => hall name _ hread
  · exact fun name item hread _ => hall name _ hread

end Sample

/-- If the first property has source code, then the group gets the right map. -/
theorem groupMap_fromScratch_source :
    ∃ m : QualifiedId → Option Variant, m ["m", "y"] = some (.bool true) ∧
      GroupMap (Sample.product Sample.source) (Sample.configured Sample.source) [0]
        (Sample.values Sample.source) (.ok m) ∧
      FromScratch (Sample.product Sample.source) [0] (.ok m) := by
  have hmap : GroupMap (Sample.product Sample.source) (Sample.configured Sample.source) [0]
      (Sample.values Sample.source) (.ok _) := ⟨3, _, _, rfl, rfl⟩
  have hrun := groupMap_iff_fromScratch Sample.source_run (by simp [Tracked])
  exact ⟨_, rfl, hmap, (hrun.2 [0] _ (by decide) rfl Sample.source_tracked _).mp hmap⟩

end ModuleProperties

end Qbs
