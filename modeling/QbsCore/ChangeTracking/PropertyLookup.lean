import QbsCore.ChangeTracking.Tracker
import QbsCore.Language.ProjectTree
import Mathlib.Data.List.TakeWhile

/-!
# Looking up what a script has read

A property that a script has read is recorded with names: that of a project, or the
unique name of a product and the name of one of its dependencies.  After the project was
resolved again, the change tracking looks for the maps that the names stand for now, in
tables that need not know all products, and under names that need not be unique.

Main results:

- Theorem {lit}`PropertyTracking.propertyMapByKind_eq`: which map is looked at.
- Theorem {lit}`PropertyTracking.lookedAt_right_iff`: when it is the map that was read,
  and that a change of the value is then reported exactly if there is one.
- Theorem {lit}`sampleTracking_wrong`: an unchanged value that is reported, and a changed
  one that is not.

Current gaps:

- Properties of artifacts are not looked up in this way.
- The module of a dependency parameter is given by its name; nothing is said about
  parameters outside of modules.
-/

namespace Qbs

/-- A product with what scripts can read of it. Parameters are only stored where there are any;
those for dependencies are in the order of a hash table. -/
structure TrackedProduct extends ProductKey where
  productProperties : VariantMap
  moduleProperties : VariantMap
  dependencyParameters : AssocMap ProductKey VariantMap
  moduleParameters : AssocMap String VariantMap
  exportedParameters : AssocMap ProductKey VariantMap
  nonempty : ∀ key v, dependencyParameters.lookup key = some v → v ≠ []

/-- The resolved project, the product of the script with its project, and the products that are
built. -/
structure PropertyTracking where
  root : ProjectTree TrackedProduct
  siblingNamesDiffer : root.SiblingNamesDiffer
  projectsDistinct : (root.projects.map ProjectNode.addr).Nodup
  productsDistinct : (root.allProducts.map fun e => e.2.uniqueName).Nodup
  project : ProjectNode
  product : TrackedProduct
  product_mem : (project, product) ∈ root.allProducts
  productsToBuild : List TrackedProduct
  toBuild_mem : ∀ p, p ∈ productsToBuild → ∃ n, (n, p) ∈ root.allProducts

/-- The parameters of the first dependency with a name. -/
def getParameterValue {κ : Type} (name : κ → String) (parameters : AssocMap κ VariantMap)
    (depName : String) : VariantMap :=
  ((parameters.entries.find? fun e => name e.1 = depName).map Sigma.snd).getD []

namespace PropertyTracking

variable (t : PropertyTracking)

/-! ## The lookup -/

/-- The products that are built, by their unique names. -/
def productsByName : AssocMap ProductId TrackedProduct :=
  t.productsToBuild.foldl (fun m p => AssocMap.insertNew m p.uniqueName p) ∅

/-- The projects by their names; of projects with one name, the first one counts. -/
def projectsByName : AssocMap String ProjectNode :=
  t.root.projects.foldl (fun m n => AssocMap.insertNew m n.name n) ∅

/-- The product with a name, without looking at the last product. -/
def findProduct (name : ProductId) : Option TrackedProduct :=
  if name = t.product.uniqueName then some t.product else t.productsByName.lookup name

/-- The product with a name; the one that was found last comes first. -/
def getProduct (lastProduct : Option TrackedProduct) (name : ProductId) :
    Option TrackedProduct × Option TrackedProduct :=
  if lastProduct.any fun p => name = p.uniqueName then (lastProduct, lastProduct)
  else
    match t.findProduct name with
    | some p => (some p, some p)
    | none => (none, lastProduct)

/-- The map in which a property is looked up, and the product that was found last. -/
def propertyMapByKind (lastProduct : Option TrackedProduct) (property : Property) :
    VariantMap × Option TrackedProduct :=
  match property.kind with
  | .propertyInModule =>
      let (p, last) := t.getProduct lastProduct property.productName
      ((p.map TrackedProduct.moduleProperties).getD [], last)
  | .propertyInProduct =>
      let (p, last) := t.getProduct lastProduct property.productName
      ((p.map TrackedProduct.productProperties).getD [], last)
  | .propertyInProject =>
      if property.productName = t.project.name then (t.project.projectProperties, lastProduct)
      else
        (((t.projectsByName.lookup property.productName).map
          ProjectNode.projectProperties).getD [], lastProduct)
  | .propertyInParameters =>
      match t.getProduct lastProduct property.productName with
      | (none, last) => ([], last)
      | (some p, last) =>
          let v := getParameterValue ProductKey.name p.dependencyParameters property.dependencyName
          (if v.isEmpty then getParameterValue id p.moduleParameters property.dependencyName else v,
            last)
  -- A check rules this out.
  | .propertyInArtifact => ([], lastProduct)

/-- Whether one of some properties has changed, by a certain comparison of values. -/
def anyPropertyChanged (sameVariant : Variant → Variant → Bool) :
    List Property → Option TrackedProduct → Bool
  | [], _ => false
  | property :: properties, lastProduct =>
      let (newProperties, last) := t.propertyMapByKind lastProduct property
      if TrackingContext.checkForPropertyChange sameVariant property newProperties then true
      else anyPropertyChanged sameVariant properties last

/-! ## Maps and the objects they belong to -/

/-- A map that properties are read from. -/
inductive MapRef where
  | project (p : ProjectAddr)
  | product (p : ProductId)
  | modules (p : ProductId)
  | dependencyParameters (p : ProductId) (dep : ProductKey)
  | moduleParameters (p : ProductId) (dep : String)
  | exportedParameters (p : ProductId) (dep : ProductKey)
deriving DecidableEq

/-- The product with a name in the whole project. -/
def current (name : ProductId) : Option TrackedProduct :=
  (t.root.allProducts.find? fun e => e.2.uniqueName = name).map Prod.snd

/-- The contents of a map. -/
def mapAt : MapRef → VariantMap
  | .project p =>
      ((t.root.projects.find? fun n => n.addr = p).map ProjectNode.projectProperties).getD []
  | .product p => ((t.current p).map TrackedProduct.productProperties).getD []
  | .modules p => ((t.current p).map TrackedProduct.moduleProperties).getD []
  | .dependencyParameters p dep =>
      ((t.current p).bind fun q => q.dependencyParameters.lookup dep).getD []
  | .moduleParameters p dep =>
      ((t.current p).bind fun q => q.moduleParameters.lookup dep).getD []
  | .exportedParameters p dep =>
      ((t.current p).bind fun q => q.exportedParameters.lookup dep).getD []

/-- The parameters that are looked at for a name: those for the first dependency with the name, or
else those for the module. -/
def parametersAt (p : TrackedProduct) (depName : String) : Option MapRef :=
  match p.dependencyParameters.entries.find? fun e => e.1.name = depName with
  | some e => some (.dependencyParameters p.uniqueName e.1)
  | none =>
      (p.moduleParameters.entries.find? fun e => e.1 = depName).map
        fun e => .moduleParameters p.uniqueName e.1

/-- The map that is looked at for a property, if there is one. -/
def lookedAt (property : Property) : Option MapRef :=
  match property.kind with
  | .propertyInModule => (t.findProduct property.productName).map fun p => .modules p.uniqueName
  | .propertyInProduct => (t.findProduct property.productName).map fun p => .product p.uniqueName
  | .propertyInProject =>
      if property.productName = t.project.name then some (.project t.project.addr)
      else (t.projectsByName.lookup property.productName).map fun n => .project n.addr
  | .propertyInParameters =>
      (t.findProduct property.productName).bind fun p => parametersAt p property.dependencyName
  | .propertyInArtifact => none

/-- The contents of a map, if there is one. -/
def contents (m : Option MapRef) : VariantMap :=
  (m.map t.mapAt).getD []

/-! ## The objects of reads -/

/-- The map of an object now, if the object still exists and has one. -/
def target : ReadObject → Option MapRef
  | .project => some (.project t.project.addr)
  | .product name => (t.current name).map fun _ => .product name
  | .module name _ => (t.current name).map fun _ => .modules name
  | .dependencyParameters name dep _ =>
      (t.current name).bind fun p => (p.dependencyParameters.lookup dep).map fun _ =>
        .dependencyParameters name dep
  | .moduleParameters name dep _ =>
      (t.current name).bind fun p => (p.moduleParameters.lookup dep).map fun _ =>
        .moduleParameters name dep
  | .exportedParameters name dep _ =>
      (t.current name).bind fun p => (p.exportedParameters.lookup dep).map fun _ =>
        .exportedParameters name dep

/-- The value that a script would now get for a property of an object. -/
def valueNow (propertyName : String) (o : ReadObject) : Variant :=
  let properties := t.contents (t.target o)
  match o with
  | .project | .product _ => properties.value propertyName
  | .module _ moduleName => properties.moduleProperty moduleName propertyName
  | .dependencyParameters _ _ moduleName | .moduleParameters _ _ moduleName
  | .exportedParameters _ _ moduleName =>
      (properties.descend (moduleName.splitOn ".")).value propertyName

variable {t}

/-! ## Products and projects by name -/

/-- A product that the change tracking can find: that of the script, or one that is built. -/
def Visible (t : PropertyTracking) (name : ProductId) : Prop :=
  name = t.product.uniqueName ∨ ∃ p, p ∈ t.productsToBuild ∧ p.uniqueName = name

variable {name : ProductId} {p : TrackedProduct}

theorem current_of_mem {n : ProjectNode} (h : (n, p) ∈ t.root.allProducts) :
    t.current p.uniqueName = some p := by
  unfold current
  cases hfind : t.root.allProducts.find? fun e => e.2.uniqueName = p.uniqueName with
  | none =>
      have hno := List.find?_eq_none.mp hfind (n, p) h
      simp at hno
  | some e =>
      have hname : e.2.uniqueName = p.uniqueName := by simpa using List.find?_some hfind
      have heq : e = (n, p) := List.inj_on_of_nodup_map t.productsDistinct
        (List.mem_of_find?_eq_some hfind) h hname
      rw [heq]
      rfl

theorem current_uniqueName (h : t.current name = some p) :
    p.uniqueName = name := by
  rcases Option.map_eq_some_iff.mp h with ⟨e, he, rfl⟩
  simpa using List.find?_some he

theorem lookup_productsByName (name : ProductId) :
    t.productsByName.lookup name = t.productsToBuild.find? fun p => p.uniqueName = name := by
  have h := AssocMap.lookup_foldl_insertNew_key (fun p : TrackedProduct => p.uniqueName) id
    t.productsToBuild ∅ name
  unfold productsByName
  simpa using h

/-- The visible products are found. -/
theorem findProduct_eq_some_iff :
    t.findProduct name = some p ↔ t.Visible name ∧ t.current name = some p := by
  have hproduct := current_of_mem t.product_mem
  unfold findProduct Visible
  split_ifs with hname
  · rw [hname, hproduct]
    simp
  · rw [lookup_productsByName]
    constructor
    · intro h
      have hmem := List.mem_of_find?_eq_some h
      have hunique : p.uniqueName = name := by simpa using List.find?_some h
      rcases t.toBuild_mem p hmem with ⟨n, hn⟩
      exact ⟨Or.inr ⟨p, hmem, hunique⟩, hunique ▸ current_of_mem hn⟩
    · intro h
      rcases h with ⟨hvisible, hcurrent⟩
      rcases hvisible.resolve_left hname with ⟨q, hq, hunique⟩
      cases hfind : t.productsToBuild.find? fun p => p.uniqueName = name with
      | none =>
          have hno := List.find?_eq_none.mp hfind q hq
          simp [hunique] at hno
      | some q' =>
          have hmem' := List.mem_of_find?_eq_some hfind
          have hunique' : q'.uniqueName = name := by simpa using List.find?_some hfind
          rcases t.toBuild_mem q' hmem' with ⟨n, hn⟩
          have hcurrent' := current_of_mem hn
          rw [hunique', hcurrent] at hcurrent'
          exact hcurrent'.symm

/-- The product that was found last is found again under its name. -/
def LastRight (t : PropertyTracking) (lastProduct : Option TrackedProduct) : Prop :=
  ∀ p, lastProduct = some p → t.findProduct p.uniqueName = some p

theorem lastRight_none : t.LastRight none := by
  intro p hp
  cases hp

variable {lastProduct : Option TrackedProduct}

theorem getProduct_spec (h : t.LastRight lastProduct) (name : ProductId) :
    (t.getProduct lastProduct name).1 = t.findProduct name ∧
      t.LastRight (t.getProduct lastProduct name).2 := by
  unfold getProduct
  split_ifs with hlast
  · cases lastProduct with
    | none => cases hlast
    | some p =>
        have hname : name = p.uniqueName := by simpa using hlast
        rw [hname]
        exact ⟨(h p rfl).symm, h⟩
  · cases hfind : t.findProduct name with
    | none => exact ⟨rfl, h⟩
    | some p =>
        refine ⟨rfl, ?_⟩
        intro q hq
        cases hq
        rw [current_uniqueName (findProduct_eq_some_iff.mp hfind).2]
        exact hfind

theorem lookup_projectsByName (name : String) :
    t.projectsByName.lookup name = t.root.projects.find? fun n => n.name = name := by
  have h := AssocMap.lookup_foldl_insertNew_key (fun n : ProjectNode => n.name) id
    t.root.projects ∅ name
  unfold projectsByName
  simpa using h

theorem mapAt_project {n : ProjectNode} (h : n ∈ t.root.projects) :
    t.mapAt (.project n.addr) = n.projectProperties := by
  unfold mapAt
  dsimp only
  cases hfind : t.root.projects.find? fun m => m.addr = n.addr with
  | none =>
      have hno := List.find?_eq_none.mp hfind n h
      simp at hno
  | some m =>
      have haddr : m.addr = n.addr := by simpa using List.find?_some hfind
      have heq : m = n := List.inj_on_of_nodup_map t.projectsDistinct
        (List.mem_of_find?_eq_some hfind) h haddr
      rw [heq]
      rfl

/-! ## The map that is looked at -/

theorem current_of_findProduct (h : t.findProduct name = some p) :
    t.current p.uniqueName = some p := by
  have hcurrent := (findProduct_eq_some_iff.mp h).2
  rw [current_uniqueName hcurrent]
  exact hcurrent

/-- The parameters that are found in a product. -/
theorem parameters_eq (hp : t.current p.uniqueName = some p) (depName : String) :
    (let v := getParameterValue ProductKey.name p.dependencyParameters depName
      if v.isEmpty then getParameterValue id p.moduleParameters depName else v) =
      t.contents (parametersAt p depName) := by
  unfold getParameterValue contents parametersAt
  cases hfind : p.dependencyParameters.entries.find? fun e => e.1.name = depName with
  | some e =>
      have hlookup : p.dependencyParameters.lookup e.1 = some e.2 :=
        AList.mem_lookup_iff.mpr (List.mem_of_find?_eq_some hfind)
      have hne : e.2.isEmpty = false := by simpa using p.nonempty e.1 e.2 hlookup
      simp [mapAt, hp, hlookup, hne]
  | none =>
      cases hmodule : p.moduleParameters.entries.find? fun e => e.1 = depName with
      | none =>
          simp [hmodule]
      | some e =>
          have hlookup : p.moduleParameters.lookup e.1 = some e.2 :=
            AList.mem_lookup_iff.mpr (List.mem_of_find?_eq_some hmodule)
          simp [mapAt, hp, hlookup, hmodule]

/-- The change tracking looks at one map or at none. -/
theorem propertyMapByKind_eq (h : t.LastRight lastProduct) (property : Property) :
    (t.propertyMapByKind lastProduct property).1 = t.contents (t.lookedAt property) ∧
      t.LastRight (t.propertyMapByKind lastProduct property).2 := by
  have hget := getProduct_spec h property.productName
  unfold propertyMapByKind lookedAt
  cases property.kind with
  | propertyInModule =>
      refine ⟨?_, hget.2⟩
      dsimp only
      rw [hget.1]
      cases hfind : t.findProduct property.productName with
      | none => rfl
      | some p => simp [contents, mapAt, current_of_findProduct hfind]
  | propertyInProduct =>
      refine ⟨?_, hget.2⟩
      dsimp only
      rw [hget.1]
      cases hfind : t.findProduct property.productName with
      | none => rfl
      | some p => simp [contents, mapAt, current_of_findProduct hfind]
  | propertyInProject =>
      dsimp only
      split_ifs with hname
      · refine ⟨?_, h⟩
        exact (mapAt_project (ProjectTree.mem_projects_of_mem_allProducts t.product_mem)).symm
      · refine ⟨?_, h⟩
        dsimp only
        rw [lookup_projectsByName]
        cases hfind : t.root.projects.find? fun n => n.name = property.productName with
        | none => rfl
        | some n => exact (mapAt_project (List.mem_of_find?_eq_some hfind)).symm
  | propertyInParameters =>
      dsimp only
      rw [← hget.1]
      generalize hresult : t.getProduct lastProduct property.productName = result at hget
      rcases result with ⟨found, last⟩
      cases found with
      | none => exact ⟨rfl, hget.2⟩
      | some p => exact ⟨parameters_eq (current_of_findProduct hget.1.symm) _, hget.2⟩
  | propertyInArtifact => exact ⟨rfl, h⟩

/-- Some property is reported exactly if it is for the map that is looked at. -/
theorem anyPropertyChanged_iff (sameVariant : Variant → Variant → Bool)
    (properties : List Property) :
    t.anyPropertyChanged sameVariant properties none = true ↔ ∃ property, property ∈ properties ∧
      TrackingContext.checkForPropertyChange sameVariant property
        (t.contents (t.lookedAt property)) = true := by
  have hrun : ∀ lastProduct, t.LastRight lastProduct →
      (t.anyPropertyChanged sameVariant properties lastProduct = true ↔
        ∃ property, property ∈ properties ∧
          TrackingContext.checkForPropertyChange sameVariant property
            (t.contents (t.lookedAt property)) = true) := by
    induction properties with
    | nil =>
        intro lastProduct _
        simp [anyPropertyChanged]
    | cons property properties ih =>
        intro lastProduct hlast
        have hmap := propertyMapByKind_eq hlast property
        unfold anyPropertyChanged
        dsimp only
        rw [hmap.1, List.exists_mem_cons_iff, ← ih _ hmap.2]
        split_ifs with hchanged
        · simp [hchanged]
        · simp [hchanged]
  exact hrun none lastRight_none

/-! ## The right map -/

/-- The part of a name before the first colon. -/
def shortName (name : String) : String :=
  String.ofList (name.toList.takeWhile fun ch => ch ≠ ':')

/-- A product has no parameters for a dependency or a module with a name. -/
structure NoneNamed (p : TrackedProduct) (name : String) : Prop where
  dependencies : ∀ key, (p.dependencyParameters.lookup key).isSome → key.name ≠ name
  modules : p.moduleParameters.lookup name = none

/-- The names under which an object was recorded identify its map: the script's project has kept
its name; a product that still exists is found; and of the parameters that are stored under the
short name of a dependency, the right ones come first. For an Export item no parameters are
found. -/
def Identified (t : PropertyTracking) (projectName : String) : ReadObject → Prop
  | .project => projectName = t.project.name
  | .product name | .module name _ => t.current name = none ∨ t.Visible name
  | .dependencyParameters name dep _ => ∀ p, t.current name = some p →
      if (p.dependencyParameters.lookup dep).isSome then
        t.Visible name ∧ (p.dependencyParameters.entries.find? fun e =>
          e.1.name = shortName dep.name).map Sigma.fst = some dep
      else t.Visible name → NoneNamed p (shortName dep.name)
  | .moduleParameters name dep _ => ∀ p, t.current name = some p →
      if (p.moduleParameters.lookup dep).isSome then
        t.Visible name ∧ shortName dep = dep ∧
          ∀ key, (p.dependencyParameters.lookup key).isSome → key.name ≠ dep
      else t.Visible name → NoneNamed p (shortName dep)
  | .exportedParameters name dep _ => ∀ p, t.current name = some p →
      p.exportedParameters.lookup dep = none ∧
        (t.Visible name → NoneNamed p (shortName dep.name))

variable {name projectName : String}

theorem find?_dependencyParameters_eq_none_iff :
    (p.dependencyParameters.entries.find? fun e => e.1.name = name) = none ↔
      ∀ key, (p.dependencyParameters.lookup key).isSome → key.name ≠ name := by
  rw [List.find?_eq_none]
  simp only [decide_eq_true_eq]
  constructor
  · intro h key hkey
    rcases Option.isSome_iff_exists.mp hkey with ⟨v, hv⟩
    exact h ⟨key, v⟩ (AList.mem_lookup_iff.mp hv)
  · intro h e he
    exact h e.1 (by rw [AList.mem_lookup_iff.mpr he]; rfl)

theorem find?_moduleParameters (p : TrackedProduct) (name : String) :
    (p.moduleParameters.entries.find? fun e => e.1 = name).map Sigma.fst =
      (p.moduleParameters.lookup name).map fun _ => name := by
  cases hfind : p.moduleParameters.entries.find? fun e => e.1 = name with
  | some e =>
      have hname : e.1 = name := by simpa using List.find?_some hfind
      have hlookup : p.moduleParameters.lookup e.1 = some e.2 :=
        AList.mem_lookup_iff.mpr (List.mem_of_find?_eq_some hfind)
      rw [← hname, hlookup]
      rfl
  | none =>
      cases hlookup : p.moduleParameters.lookup name with
      | none => rfl
      | some v =>
          have hno := List.find?_eq_none.mp hfind ⟨name, v⟩ (AList.mem_lookup_iff.mp hlookup)
          simp at hno

theorem parametersAt_eq_none_iff :
    parametersAt p name = none ↔ NoneNamed p name := by
  have hmodules := find?_moduleParameters p name
  unfold parametersAt
  cases hfind : p.dependencyParameters.entries.find? fun e => e.1.name = name with
  | some e =>
      apply iff_of_false (by simp)
      intro h
      rw [find?_dependencyParameters_eq_none_iff.mpr h.dependencies] at hfind
      cases hfind
  | none =>
      rw [Option.map_eq_none_iff, ← Option.map_eq_none_iff (f := Sigma.fst), hmodules,
        Option.map_eq_none_iff]
      exact ⟨fun h => ⟨find?_dependencyParameters_eq_none_iff.mp hfind, h⟩, fun h => h.modules⟩

theorem parametersAt_eq_dependencyParameters_iff {dep : ProductKey} :
    parametersAt p name = some (.dependencyParameters p.uniqueName dep) ↔
      (p.dependencyParameters.entries.find? fun e => e.1.name = name).map Sigma.fst =
        some dep := by
  unfold parametersAt
  cases p.dependencyParameters.entries.find? fun e => e.1.name = name with
  | some e => simp
  | none =>
      apply iff_of_false
      · intro h
        rcases Option.map_eq_some_iff.mp h with ⟨e, -, he⟩
        cases he
      · simp

theorem parametersAt_eq_moduleParameters_iff {dep : String} :
    parametersAt p name = some (.moduleParameters p.uniqueName dep) ↔
      (∀ key, (p.dependencyParameters.lookup key).isSome → key.name ≠ name) ∧ name = dep ∧
        (p.moduleParameters.lookup dep).isSome := by
  have hmodules := find?_moduleParameters p name
  rw [← find?_dependencyParameters_eq_none_iff]
  unfold parametersAt
  cases hfind : p.dependencyParameters.entries.find? fun e => e.1.name = name with
  | some e => simp
  | none =>
      have hmap : ((p.moduleParameters.entries.find? fun e => e.1 = name).map fun e =>
          MapRef.moduleParameters p.uniqueName e.1) =
            ((p.moduleParameters.entries.find? fun e => e.1 = name).map Sigma.fst).map
              (MapRef.moduleParameters p.uniqueName) := by
        rw [Option.map_map]
        rfl
      dsimp only
      rw [hmap, hmodules]
      cases hlookup : p.moduleParameters.lookup name with
      | none =>
          apply iff_of_false (by simp)
          rintro ⟨-, rfl, hsome⟩
          rw [hlookup] at hsome
          cases hsome
      | some v =>
          simp only [Option.map_some, Option.some.injEq, MapRef.moduleParameters.injEq, true_and]
          constructor
          · intro hname
            rw [← hname, hlookup]
            exact ⟨rfl, rfl⟩
          · exact fun h => h.1

theorem parametersAt_ne_exportedParameters {q : ProductId} {dep : ProductKey} :
    parametersAt p name ≠ some (.exportedParameters q dep) := by
  unfold parametersAt
  cases p.dependencyParameters.entries.find? fun e => e.1.name = name with
  | some e => simp
  | none => simp

theorem dependencyName_colon (name moduleName propertyName : String) (value : Variant)
    (product : ProductId) :
    Property.dependencyName
      ⟨product, name ++ ":" ++ moduleName, propertyName, value, .propertyInParameters⟩ =
        shortName name := by
  unfold Property.dependencyName shortName
  simp only [String.toList_append, List.append_assoc]
  congr 1
  rw [List.takeWhile_append]
  split_ifs with hall
  · rw [(List.takeWhile_prefix _).eq_of_length hall]
    exact List.append_nil _
  · rfl

theorem parameterModule_colon (hname : shortName name = name) (moduleName propertyName : String)
    (value : Variant) (product : ProductId) :
    Property.parameterModule
      ⟨product, name ++ ":" ++ moduleName, propertyName, value, .propertyInParameters⟩ =
        moduleName.splitOn "." := by
  have htake : name.toList.takeWhile (fun ch => ch ≠ ':') = name.toList := by
    have h := congrArg String.toList hname
    unfold shortName at h
    rwa [String.toList_ofList] at h
  have hdrop : (name ++ ":" ++ moduleName).toList.dropWhile (fun ch => ch ≠ ':') =
      ':' :: moduleName.toList := by
    rw [String.toList_append, String.toList_append, List.append_assoc,
      List.dropWhile_append_of_pos (List.takeWhile_eq_self_iff.mp htake)]
    rfl
  unfold Property.parameterModule
  simp only [hdrop, List.isEmpty_cons, Bool.false_eq_true, if_false, List.drop_succ_cons,
    List.drop_zero, String.ofList_toList]

theorem findProduct_of_visible (h : t.Visible name) :
    t.findProduct name = t.current name := by
  cases hcurrent : t.current name with
  | some p => exact findProduct_eq_some_iff.mpr ⟨h, hcurrent⟩
  | none =>
      cases hfind : t.findProduct name with
      | none => rfl
      | some p =>
          rw [(findProduct_eq_some_iff.mp hfind).2] at hcurrent
          cases hcurrent

theorem findProduct_of_not_visible (h : ¬t.Visible name) :
    t.findProduct name = none := by
  cases hfind : t.findProduct name with
  | none => rfl
  | some p => exact absurd (findProduct_eq_some_iff.mp hfind).1 h

/-- A product is found exactly if it is visible or does not exist. -/
theorem lookedAt_product_iff (ref : ProductId → MapRef) :
    ((t.findProduct name).map fun p => ref p.uniqueName) = ((t.current name).map fun _ => ref name) ↔
      t.current name = none ∨ t.Visible name := by
  by_cases hvisible : t.Visible name
  · rw [findProduct_of_visible hvisible]
    apply iff_of_true
    · cases hcurrent : t.current name with
      | none => rfl
      | some p => simp [current_uniqueName hcurrent]
    · exact Or.inr hvisible
  · rw [findProduct_of_not_visible hvisible, or_iff_left hvisible, Option.map_none, eq_comm,
      Option.map_eq_none_iff]

/-- The right parameters are looked at exactly if they are found in a visible product, and the
other products have none. -/
theorem lookedAt_parameters_iff {depName : String} {expected : TrackedProduct → Option MapRef} :
    ((t.findProduct name).bind fun p => parametersAt p depName) = (t.current name).bind expected ↔
      ∀ p, t.current name = some p →
        (t.Visible name → parametersAt p depName = expected p) ∧
          (¬t.Visible name → expected p = none) := by
  by_cases hvisible : t.Visible name
  · rw [findProduct_of_visible hvisible]
    cases t.current name with
    | none => simp
    | some p => simp [hvisible]
  · rw [findProduct_of_not_visible hvisible]
    cases t.current name with
    | none => simp
    | some p => simp [hvisible, eq_comm]

/-- The map that is looked at for a property is the one it was read from exactly if the names that
were recorded identify it. -/
theorem lookedAt_eq_target_iff (projectName propertyName : String) (value : Variant)
    (o : ReadObject) :
    t.lookedAt (o.recorded projectName propertyName value) = t.target o ↔
      t.Identified projectName o := by
  cases o with
  | project =>
      show (if projectName = t.project.name then _ else _) = _ ↔ projectName = t.project.name
      split_ifs with hname
      · exact iff_of_true rfl hname
      · apply iff_of_false _ hname
        intro h
        rw [lookup_projectsByName] at h
        rcases Option.map_eq_some_iff.mp h with ⟨n, hfind, haddr⟩
        have hn : n.name = projectName := by
          have hdecide := List.find?_some hfind
          exact of_decide_eq_true hdecide
        have heq : n = t.project := List.inj_on_of_nodup_map t.projectsDistinct
          (List.mem_of_find?_eq_some hfind)
          (ProjectTree.mem_projects_of_mem_allProducts t.product_mem) (MapRef.project.inj haddr)
        exact hname (hn ▸ heq ▸ rfl)
  | product name => exact lookedAt_product_iff MapRef.product
  | module name moduleName => exact lookedAt_product_iff MapRef.modules
  | dependencyParameters name dep moduleName =>
      have hname := dependencyName_colon dep.name moduleName propertyName value name
      unfold lookedAt ReadObject.recorded target Identified
      dsimp only
      rw [hname, lookedAt_parameters_iff]
      apply forall_congr'
      intro p
      apply forall_congr'
      intro hp
      rw [← current_uniqueName hp, ← parametersAt_eq_none_iff,
        ← parametersAt_eq_dependencyParameters_iff]
      cases p.dependencyParameters.lookup dep with
      | none => simp
      | some v =>
          by_cases hvisible : t.Visible p.uniqueName <;> simp [hvisible]
  | moduleParameters name dep moduleName =>
      have hname := dependencyName_colon dep moduleName propertyName value name
      unfold lookedAt ReadObject.recorded target Identified
      dsimp only
      rw [hname, lookedAt_parameters_iff]
      apply forall_congr'
      intro p
      apply forall_congr'
      intro hp
      rw [← current_uniqueName hp, ← parametersAt_eq_none_iff]
      cases hlookup : p.moduleParameters.lookup dep with
      | none => simp
      | some v =>
          by_cases hvisible : t.Visible p.uniqueName
          · simp only [hvisible, Option.map_some, parametersAt_eq_moduleParameters_iff, hlookup,
              Option.isSome_some, forall_const, not_true_eq_false, false_implies, and_true,
              if_true, true_and]
            constructor
            · intro h
              exact ⟨h.2, h.2 ▸ h.1⟩
            · intro h
              exact ⟨h.1.symm ▸ h.2, h.1⟩
          · simp [hvisible]
  | exportedParameters name dep moduleName =>
      have hname := dependencyName_colon dep.name moduleName propertyName value name
      unfold lookedAt ReadObject.recorded target Identified
      dsimp only
      rw [hname, lookedAt_parameters_iff]
      apply forall_congr'
      intro p
      apply forall_congr'
      intro hp
      rw [← parametersAt_eq_none_iff]
      cases p.exportedParameters.lookup dep with
      | none => simp
      | some v =>
          by_cases hvisible : t.Visible name
          · simp [hvisible, parametersAt_ne_exportedParameters]
          · simp [hvisible]

/-! ## What is reported -/

theorem value_descend_nil (path : List String) (name : String) :
    (VariantMap.descend [] path).value name = .invalid := by
  have hdescend : VariantMap.descend [] path = [] := by
    induction path with
    | nil => rfl
    | cons part path ih => exact ih
  rw [hdescend]
  rfl

/-- A dependency whose parameters are looked at for a recorded name has that name. -/
theorem shortName_of_target {projectName : String} {o : ReadObject} {depName : String}
    (hdep : (∃ name dep moduleName, o = .dependencyParameters name dep moduleName ∧
        depName = dep.name) ∨ (∃ name moduleName, o = .moduleParameters name depName moduleName) ∨
        ∃ name dep moduleName, o = .exportedParameters name dep moduleName ∧ depName = dep.name)
    (h : t.Identified projectName o) : t.target o = none ∨ shortName depName = depName := by
  rcases hdep with ⟨name, dep, moduleName, rfl, rfl⟩ | ⟨name, moduleName, rfl⟩ |
    ⟨name, dep, moduleName, rfl, rfl⟩
  · unfold target
    cases hcurrent : t.current name with
    | none => exact Or.inl (by simp [hcurrent])
    | some p =>
        have hp := h p hcurrent
        cases hlookup : p.dependencyParameters.lookup dep with
        | none => exact Or.inl (by simp [hcurrent, hlookup])
        | some v =>
            rw [hlookup] at hp
            rcases Option.map_eq_some_iff.mp hp.2 with ⟨e, hfind, rfl⟩
            have hshort : e.1.name = shortName e.1.name := by simpa using List.find?_some hfind
            exact Or.inr hshort.symm
  · unfold target
    cases hcurrent : t.current name with
    | none => exact Or.inl (by simp [hcurrent])
    | some p =>
        have hp := h p hcurrent
        cases hlookup : p.moduleParameters.lookup depName with
        | none => exact Or.inl (by simp [hcurrent, hlookup])
        | some v =>
            rw [hlookup] at hp
            exact Or.inr hp.2.1
  · unfold target
    cases hcurrent : t.current name with
    | none => exact Or.inl (by simp [hcurrent])
    | some p => exact Or.inl (by simp [hcurrent, (h p hcurrent).1])

/-- If the map is the right one, so is the value that a recorded one is compared with. -/
theorem valueIn_recorded {o : ReadObject} (h : t.Identified projectName o) (propertyName : String)
    (value : Variant) :
    (o.recorded projectName propertyName value).valueIn (t.contents (t.target o)) =
      t.valueNow propertyName o := by
  have hparameters : ∀ name depName moduleName,
      o.recorded projectName propertyName value =
        ⟨name, depName ++ ":" ++ moduleName, propertyName, value, .propertyInParameters⟩ →
      (t.target o = none ∨ shortName depName = depName) →
      (o.recorded projectName propertyName value).valueIn (t.contents (t.target o)) =
        ((t.contents (t.target o)).descend (moduleName.splitOn ".")).value propertyName := by
    intro name depName moduleName hrecorded htarget
    rw [hrecorded]
    unfold Property.valueIn
    dsimp only
    rcases htarget with hnone | hshort
    · rw [hnone]
      unfold contents
      rw [Option.map_none, Option.getD_none, value_descend_nil, value_descend_nil]
    · rw [parameterModule_colon hshort]
  cases o with
  | project => rfl
  | product name => rfl
  | module name moduleName => rfl
  | dependencyParameters name dep moduleName =>
      exact hparameters name dep.name moduleName rfl
        (shortName_of_target (Or.inl ⟨name, dep, moduleName, rfl, rfl⟩) h)
  | moduleParameters name dep moduleName =>
      exact hparameters name dep moduleName rfl
        (shortName_of_target (Or.inr (Or.inl ⟨name, moduleName, rfl⟩)) h)
  | exportedParameters name dep moduleName =>
      exact hparameters name dep.name moduleName rfl
        (shortName_of_target (Or.inr (Or.inr ⟨name, dep, moduleName, rfl, rfl⟩)) h)

/-- A property that a script has read of an object, with its value. -/
structure ReadProperty where
  object : ReadObject
  propertyName : String
  value : Variant

/-- The record of a property that was read. -/
def ReadProperty.recorded (projectName : String) (read : ReadProperty) : Property :=
  read.object.recorded projectName read.propertyName read.value

/-- A comparison of values tells the value that was read from the present one exactly if they are
different. -/
def ToldApart (t : PropertyTracking) (sameVariant : Variant → Variant → Bool)
    (read : ReadProperty) : Prop :=
  sameVariant read.value (t.valueNow read.propertyName read.object) = true ↔
    read.value = t.valueNow read.propertyName read.object

/-- For the right map, a change is reported if the values compare different. -/
theorem checkForPropertyChange_iff {read : ReadProperty} (sameVariant : Variant → Variant → Bool)
    (h : t.Identified projectName read.object) :
    TrackingContext.checkForPropertyChange sameVariant (read.recorded projectName)
        (t.contents (t.lookedAt (read.recorded projectName))) = true ↔
      ¬sameVariant read.value (t.valueNow read.propertyName read.object) = true := by
  have hrecorded : (read.recorded projectName).value = read.value := by
    unfold ReadProperty.recorded
    cases read.object <;> rfl
  have hmap : t.lookedAt (read.recorded projectName) = t.target read.object :=
    (lookedAt_eq_target_iff projectName read.propertyName read.value read.object).mpr h
  have hvalue : (read.recorded projectName).valueIn (t.contents (t.target read.object)) =
      t.valueNow read.propertyName read.object := valueIn_recorded h read.propertyName read.value
  unfold TrackingContext.checkForPropertyChange
  rw [hmap, hvalue, hrecorded, Bool.not_eq_true', Bool.not_eq_true]

/-- The change tracking looks at the map that a property was read from exactly if the recorded
names identify it. A property is then reported exactly if it has changed, if and only if the
comparison of values tells the two values apart when they are different; and some property of those
that were read is reported exactly if one of them has changed. -/
theorem lookedAt_right_iff (t : PropertyTracking) (sameVariant : Variant → Variant → Bool)
    (projectName : String) :
    (∀ read : ReadProperty, t.lookedAt (read.recorded projectName) = t.target read.object ↔
        t.Identified projectName read.object) ∧
      (∀ read : ReadProperty, t.Identified projectName read.object →
        ((t.anyPropertyChanged sameVariant [read.recorded projectName] none = true ↔
          read.value ≠ t.valueNow read.propertyName read.object) ↔
            t.ToldApart sameVariant read)) ∧
      ∀ reads : List ReadProperty,
        (∀ read, read ∈ reads → t.Identified projectName read.object ∧
          t.ToldApart sameVariant read) →
          ((∀ read, read ∈ reads → ∀ lastProduct, t.LastRight lastProduct →
              (t.propertyMapByKind lastProduct (read.recorded projectName)).1 =
                t.contents (t.target read.object)) ∧
            (t.anyPropertyChanged sameVariant (reads.map (ReadProperty.recorded projectName))
                none = true ↔
              ∃ read, read ∈ reads ∧ read.value ≠ t.valueNow read.propertyName read.object)) := by
  have hiff : ∀ read : ReadProperty, t.lookedAt (read.recorded projectName) =
      t.target read.object ↔ t.Identified projectName read.object :=
    fun read => lookedAt_eq_target_iff projectName read.propertyName read.value read.object
  refine ⟨hiff, ?_, ?_⟩
  · intro read hread
    rw [anyPropertyChanged_iff]
    simp only [List.mem_singleton, exists_eq_left, checkForPropertyChange_iff sameVariant hread]
    exact not_iff_not
  · intro reads hreads
    constructor
    · intro read hread lastProduct hlast
      rw [(propertyMapByKind_eq hlast _).1, (hiff read).mpr (hreads read hread).1]
    · have hcheck : ∀ read, read ∈ reads →
          (TrackingContext.checkForPropertyChange sameVariant (read.recorded projectName)
            (t.contents (t.lookedAt (read.recorded projectName))) = true ↔
              read.value ≠ t.valueNow read.propertyName read.object) := by
        intro read hread
        rw [checkForPropertyChange_iff sameVariant (hreads read hread).1]
        exact not_congr (hreads read hread).2
      rw [anyPropertyChanged_iff]
      constructor
      · intro h
        rcases h with ⟨property, hproperty, hchanged⟩
        rcases List.mem_map.mp hproperty with ⟨read, hread, rfl⟩
        exact ⟨read, hread, (hcheck read hread).mp hchanged⟩
      · intro h
        rcases h with ⟨read, hread, hchanged⟩
        exact ⟨_, List.mem_map_of_mem hread, (hcheck read hread).mpr hchanged⟩

end PropertyTracking

/-- A product whose Export item passes parameters to a dependency. -/
def sampleTracked : TrackedProduct where
  name := "app"
  multiplexConfigurationId := ""
  productProperties := [("type", .string "application")]
  moduleProperties := []
  dependencyParameters := ∅
  moduleParameters := ∅
  exportedParameters :=
    (∅ : AssocMap ProductKey VariantMap).insert ⟨"lib", ""⟩
      [("cpp", .map [("link", .int 1)])]
  nonempty := by
    intro key v h
    cases h

/-- A project that has got another name, since a new sibling has its old one. -/
def sampleTracking : PropertyTracking where
  root := .mk ⟨0, "root", []⟩ []
    [.mk ⟨1, "tests", [("level", .int 1)]⟩ [] [],
      .mk ⟨2, "tests_", [("level", .int 2)]⟩ [sampleTracked] []]
  siblingNamesDiffer := by
    simp [ProjectTree.SiblingNamesDiffer, ProjectTree.SiblingNamesDifferAmong, ProjectTree.node]
  projectsDistinct := by decide
  productsDistinct := by decide
  project := ⟨2, "tests_", [("level", .int 2)]⟩
  product := sampleTracked
  product_mem := List.mem_singleton.mpr rfl
  productsToBuild := [sampleTracked]
  toBuild_mem := by
    intro p hp
    rw [List.mem_singleton.mp hp]
    exact ⟨_, List.mem_singleton.mpr rfl⟩

theorem lookedAt_right_sampleTracking :
    sampleTracking.anyPropertyChanged (fun v w => v = w)
      [PropertyTracking.ReadProperty.recorded "tests"
        ⟨.product "app", "type", .string "library"⟩] none = true := by
  have hreads := (PropertyTracking.lookedAt_right_iff sampleTracking (fun v w => v = w) "tests").2.2
    [⟨.product "app", "type", .string "library"⟩]
  have hidentified : sampleTracking.Identified "tests" (.product "app") := Or.inr (Or.inl rfl)
  apply (hreads _).2.mpr
  · exact ⟨_, List.mem_singleton.mpr rfl, by decide +kernel⟩
  · intro read hread
    rw [List.mem_singleton.mp hread]
    exact ⟨hidentified, decide_eq_true_iff⟩

theorem splitOn_cpp : "cpp".splitOn "." = ["cpp"] := by
  unfold String.splitOn
  rw [if_neg (by decide)]
  -- None of the three characters is a dot.
  unfold String.splitOnAux
  rw [if_neg (by decide +kernel), if_neg (by decide +kernel)]
  unfold String.splitOnAux
  rw [if_neg (by decide +kernel), if_neg (by decide +kernel)]
  unfold String.splitOnAux
  rw [if_neg (by decide +kernel), if_neg (by decide +kernel)]
  unfold String.splitOnAux
  rw [if_pos (by decide +kernel)]
  decide +kernel

/-- The level of the script's project was 1 and is 2 now, but that of the project which has its
old name is compared; and what the Export item passes to its dependency is never found, so it is
reported although it has not changed. -/
theorem sampleTracking_wrong :
    sampleTracking.valueNow "level" .project = .int 2 ∧
      sampleTracking.anyPropertyChanged (fun v w => v = w)
        [PropertyTracking.ReadProperty.recorded "tests" ⟨.project, "level", .int 1⟩] none = false ∧
      sampleTracking.valueNow "link" (.exportedParameters "app" ⟨"lib", ""⟩ "cpp") = .int 1 ∧
      sampleTracking.anyPropertyChanged (fun v w => v = w)
        [PropertyTracking.ReadProperty.recorded "tests_"
        ⟨.exportedParameters "app" ⟨"lib", ""⟩ "cpp", "link", .int 1⟩] none = true := by
  have hlink : sampleTracking.valueNow "link" (.exportedParameters "app" ⟨"lib", ""⟩ "cpp") =
      .int 1 := by
    have hcontents : sampleTracking.contents
        (sampleTracking.target (.exportedParameters "app" ⟨"lib", ""⟩ "cpp")) =
          [("cpp", .map [("link", .int 1)])] := by
      decide +kernel
    unfold PropertyTracking.valueNow
    dsimp only
    rw [hcontents, splitOn_cpp]
    decide
  have hreported : sampleTracking.anyPropertyChanged (fun v w => v = w)
        [PropertyTracking.ReadProperty.recorded
      "tests_" ⟨.exportedParameters "app" ⟨"lib", ""⟩ "cpp", "link", .int 1⟩] none = true := by
    apply (PropertyTracking.anyPropertyChanged_iff _ _).mpr
    refine ⟨_, List.mem_singleton.mpr rfl, ?_⟩
    have hcontents : sampleTracking.contents (sampleTracking.lookedAt
        (PropertyTracking.ReadProperty.recorded "tests_"
          ⟨.exportedParameters "app" ⟨"lib", ""⟩ "cpp", "link", .int 1⟩)) = [] := by
      decide +kernel
    rw [hcontents]
    show (!decide (Variant.int 1 = (VariantMap.descend [] _).value "link")) = true
    rw [PropertyTracking.value_descend_nil]
    decide
  have hlevel : sampleTracking.valueNow "level" .project = .int 2 := by
    decide +kernel
  have hmissed : sampleTracking.anyPropertyChanged (fun v w => v = w)
      [PropertyTracking.ReadProperty.recorded "tests" ⟨.project, "level", .int 1⟩] none =
        false := by
    decide +kernel
  exact ⟨hlevel, hmissed, hlink, hreported⟩

end Qbs
