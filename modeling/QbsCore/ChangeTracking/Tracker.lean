import QbsCore.ChangeTracking.Observation

/-!
# Tracking changes of what a script has read

Whether the prepare script or the commands of a transformer have to run again is
decided by comparing the records of their last run with the current project, build
graph and files.

Main results:

- Definitions {lit}`TrackingContext.prepareScriptNeedsRerun` and
  {lit}`TrackingContext.commandsNeedRerun`.
- Theorem {lit}`TrackingContext.scriptNeedsRerun_iff`: a script is reported exactly
  when one of its recorded reads is.

Current gaps:

- A change of the environment is only noticed where a command names the variable.
-/

namespace Qbs

/-- The state that records are compared with, the products that are built, and how values are
compared: some values of different types count as equal. -/
structure TrackingContext where
  project : Project
  graph : BuildGraph
  product : ResolvedProduct
  productsToBuild : List ProductId
  lastModified : FilePath → Option FileTime
  sameVariant : Variant → Variant → Bool
  product_mem : product ∈ project.allProducts

/-- The part of the module name of a parameter before the colon. -/
def Property.dependencyName (p : Property) : String :=
  String.ofList (p.moduleName.toList.takeWhile fun ch => ch ≠ ':')

/-- The parts of the module name of a parameter after the colon. -/
def Property.parameterModule (p : Property) : List String :=
  let rest := p.moduleName.toList.dropWhile fun ch => ch ≠ ':'
  (if rest.isEmpty then p.moduleName else String.ofList (rest.drop 1)).splitOn "."

/-- The value of a property in the map that was chosen by its kind. -/
def Property.valueIn (p : Property) (newProperties : VariantMap) : Variant :=
  match p.kind with
  | .propertyInProduct | .propertyInProject => newProperties.value p.propertyName
  | .propertyInModule => newProperties.moduleProperty p.moduleName p.propertyName
  | .propertyInParameters => (newProperties.descend p.parameterModule).value p.propertyName
  -- A check rules this out: the property of an artifact is not looked up in a map.
  | .propertyInArtifact => .invalid

/-! ## Requested dependencies and artifacts -/

/-- Whether the dependency lists that were read are as they were. A list is only compared when
its product still exists. -/
def RequestedDependencies.isUpToDate (r : RequestedDependencies) (project : Project) : Bool :=
  project.allProducts.all fun p =>
    match r.lookup p.uniqueName with
    | some names => p.depNames = names
    | none => true

/-- Whether the artifacts of one product are as they were read. -/
def RequestedArtifactsPerProduct.isUpToDate (ra : RequestedArtifactsPerProduct) (g : BuildGraph)
    (product : ProductId) : Bool :=
  (g.productData product).isSome &&
    ((ra.requestedTags.entries.all fun e => g.filePathsForTag product e.1 = e.2) &&
      (!ra.artifactsEnumerated || g.artifactTags product = ra.allTags))

/-- Whether the artifacts of all products are as they were read. -/
def RequestedArtifacts.isUpToDate (r : RequestedArtifacts) (project : Project) (g : BuildGraph) :
    Bool :=
  r.entries.all fun e => (project.product? e.1).isSome && e.2.isUpToDate g e.1

namespace TrackingContext

variable (c : TrackingContext)

/-! ## Lookup -/

/-- A product that can be found: the own one, or one that is built. -/
def Visible (name : ProductId) : Prop :=
  name = c.product.uniqueName ∨ name ∈ c.productsToBuild

/-- The product of a name among those that are built; the own product comes first. -/
def getProduct (name : ProductId) : Option ResolvedProduct :=
  if name = c.product.uniqueName then some c.product
  else if name ∈ c.productsToBuild then c.project.product? name
  else none

theorem getProduct_of_visible {name : ProductId} (h : c.Visible name) :
    c.getProduct name = c.project.product? name := by
  unfold getProduct
  split_ifs with hname hbuilt
  · rw [hname, Project.product?_of_mem c.product_mem]
  · rfl
  · exact absurd h (not_or.mpr ⟨hname, hbuilt⟩)

theorem getProduct_of_not_visible {name : ProductId} (h : ¬c.Visible name) :
    c.getProduct name = none := by
  unfold getProduct
  rw [if_neg fun hname => h (Or.inl hname), if_neg fun hbuilt => h (Or.inr hbuilt)]

/-- The artifact of a product with a path. -/
def getArtifact (filePath : FilePath) (productName : ProductId) : Option NodeId :=
  match c.getProduct productName with
  | some p => c.graph.lookupArtifact p.uniqueName filePath
  | none => none

/-- The parameters for a dependency in one of the parameter maps of a product. -/
def getParameterValue (parameters : List (String × VariantMap)) (depName : String) : VariantMap :=
  (parameters.lookup depName).getD []

/-- The map in which a property that was not read from an artifact is looked up. -/
def propertyMapByKind (p : Property) : VariantMap :=
  match p.kind with
  | .propertyInModule => ((c.getProduct p.productName).map fun q => q.moduleProperties).getD []
  | .propertyInProduct => ((c.getProduct p.productName).map fun q => q.productProperties).getD []
  | .propertyInProject =>
      if p.productName = c.product.projectName then c.product.projectProperties
      else (c.project.projectProperties p.productName).getD []
  | .propertyInParameters =>
      match c.getProduct p.productName with
      | none => []
      | some q =>
          let v := getParameterValue q.dependencyParameters p.dependencyName
          if v.isEmpty then getParameterValue q.moduleParameters p.dependencyName else v
  | .propertyInArtifact => []

/-! ## Checks -/

/-- Whether a property has another value than the recorded one. -/
def checkForPropertyChange (sameVariant : Variant → Variant → Bool) (restoredProperty : Property)
    (newProperties : VariantMap) : Bool :=
  !sameVariant restoredProperty.value (restoredProperty.valueIn newProperties)

/-- Whether an imported file is gone or newer than the script run. -/
def importFileChanged (referenceTime : FileTime) (importedFile : FilePath) : Bool :=
  match c.lastModified importedFile with
  | none => true
  | some t => referenceTime < t

/-- Whether a property of an artifact has another value than the recorded one. -/
def artifactPropertyChanged (filePath : FilePath) (p : Property) : Bool :=
  match c.getArtifact filePath p.productName with
  | none => true
  | some a =>
      match p.kind with
      | .propertyInArtifact => (c.graph.artifact a).fileTags.elems ≠ p.value.toStringList
      | _ => checkForPropertyChange c.sameVariant p (c.graph.artifact a).properties

/-- Whether what a product exports compares equal to what was read. -/
def isExportedModuleUpToDate (productName : ProductId) (m : ExportedModule) : Bool :=
  match c.getProduct productName with
  | none => false
  | some p => p.exportedModule.isEqual c.sameVariant m

/-- Whether some read of a script has to be reported, by the records of the script. -/
def scriptNeedsRerun (r : ScriptRecords) : Bool :=
  (r.propertiesRequested.any fun p =>
      checkForPropertyChange c.sameVariant p (c.propertyMapByKind p)) ||
    r.importedFilesUsed.any (c.importFileChanged r.lastExecutionTime) ||
    (r.propertiesRequestedFromArtifact.entries.any fun e =>
      e.2.any (c.artifactPropertyChanged e.1)) ||
    !r.depsRequested.isUpToDate c.project ||
    !r.artifactsMapRequested.isUpToDate c.project c.graph ||
    !r.exportedModulesAccessed.entries.all fun e => c.isExportedModuleUpToDate e.1 e.2

/-- Whether an environment variable that a command depends on has changed. -/
def commandEnvironmentChanged (cmd : Command) : Bool :=
  cmd.isProcessCommand && cmd.relevantEnvVars.any fun var =>
    cmd.relevantEnvValue var ≠ c.product.buildEnvironment var

/-- Whether the prepare script of a transformer has to run again; asking takes the request to
check back. -/
def prepareScriptNeedsRerun (t : Transformer) : Bool × Transformer :=
  if t.prepareScriptNeedsChangeTracking then
    (c.scriptNeedsRerun t.inPrepareScript, { t with prepareScriptNeedsChangeTracking := false })
  else (false, t)

/-- Whether the commands of a transformer have to run again; asking takes the request to check
back. -/
def commandsNeedRerun (t : Transformer) : Bool × Transformer :=
  if t.commandsNeedChangeTracking then
    (c.scriptNeedsRerun t.inCommands || t.commands.any c.commandEnvironmentChanged,
      { t with commandsNeedChangeTracking := false })
  else (false, t)

/-! ## Reports -/

/-- Whether a read by a script that ran at a time is reported. -/
def Reported (time : FileTime) : Read → Prop
  | .property p => checkForPropertyChange c.sameVariant p (c.propertyMapByKind p) = true
  | .artifactProperty filePath p => c.artifactPropertyChanged filePath p = true
  | .importedFile filePath => c.importFileChanged time filePath = true
  | .dependencies product names => ∃ p, c.project.product? product = some p ∧ p.depNames ≠ names
  | .artifactsMap product =>
      c.project.product? product = none ∨ c.graph.productData product = none
  | .artifactTags product tags => c.graph.artifactTags product ≠ tags
  | .artifactsForTag product tag filePaths => c.graph.filePathsForTag product tag ≠ filePaths
  | .exportedModule product m => c.isExportedModuleUpToDate product m = false

theorem depsRequested_isUpToDate_iff {r : RequestedDependencies} {project : Project} :
    r.isUpToDate project = true ↔ ∀ product names, r.lookup product = some names →
      ∀ p, project.product? product = some p → p.depNames = names := by
  unfold RequestedDependencies.isUpToDate
  rw [List.all_eq_true]
  constructor
  · intro h product names hnames p hp
    have hEq := h p (Project.mem_of_product? hp)
    rw [Project.product?_uniqueName hp, hnames] at hEq
    simpa using hEq
  · intro h p hp
    cases hnames : r.lookup p.uniqueName with
    | none => rfl
    | some names => simpa using h p.uniqueName names hnames p (Project.product?_of_mem hp)

theorem perProduct_isUpToDate_iff {ra : RequestedArtifactsPerProduct} {g : BuildGraph}
    {product : ProductId} :
    ra.isUpToDate g product = true ↔ g.productData product ≠ none ∧
      (∀ tag filePaths, ra.requestedTags.lookup tag = some filePaths →
        g.filePathsForTag product tag = filePaths) ∧
      (ra.artifactsEnumerated = true → g.artifactTags product = ra.allTags) := by
  unfold RequestedArtifactsPerProduct.isUpToDate
  rw [← AssocMap.forall_entries_iff]
  simp only [Bool.and_eq_true, List.all_eq_true, decide_eq_true_eq, Bool.or_eq_true,
    Bool.not_eq_true', Option.isSome_iff_ne_none]
  cases ra.artifactsEnumerated <;> simp

theorem artifactsMapRequested_isUpToDate_iff {r : RequestedArtifacts} {project : Project}
    {g : BuildGraph} :
    r.isUpToDate project g = true ↔ ∀ product ra, r.lookup product = some ra →
      project.product? product ≠ none ∧ ra.isUpToDate g product = true := by
  unfold RequestedArtifacts.isUpToDate
  rw [List.all_eq_true, ← AssocMap.forall_entries_iff]
  simp only [Bool.and_eq_true, Option.isSome_iff_ne_none]

/-- The requested artifacts are out of date exactly when one of their reads is reported. -/
theorem artifactsMapRequested_reported_iff (r : ScriptRecords) :
    r.artifactsMapRequested.isUpToDate c.project c.graph = false ↔
      (∃ p, r.Recorded (.artifactsMap p) ∧ c.Reported r.lastExecutionTime (.artifactsMap p)) ∨
      (∃ p tags, r.Recorded (.artifactTags p tags) ∧
        c.Reported r.lastExecutionTime (.artifactTags p tags)) ∨
      ∃ p tag filePaths, r.Recorded (.artifactsForTag p tag filePaths) ∧
        c.Reported r.lastExecutionTime (.artifactsForTag p tag filePaths) := by
  rw [← Bool.not_eq_true, artifactsMapRequested_isUpToDate_iff]
  simp only [perProduct_isUpToDate_iff, ScriptRecords.Recorded, Reported]
  constructor
  · intro h
    push Not at h
    rcases h with ⟨p, ra, hra, h⟩
    by_cases hproduct : c.project.product? p = none
    · exact Or.inl ⟨p, ⟨ra, hra⟩, Or.inl hproduct⟩
    by_cases hdata : c.graph.productData p = none
    · exact Or.inl ⟨p, ⟨ra, hra⟩, Or.inr hdata⟩
    refine Or.inr ?_
    by_cases htags : ra.artifactsEnumerated = true → c.graph.artifactTags p = ra.allTags
    · refine Or.inr ?_
      by_contra hno
      push Not at hno
      have hcontra := h hproduct hdata fun tag filePaths hlookup =>
        hno p tag filePaths ⟨ra, hra, hlookup⟩
      exact hcontra.2 (htags hcontra.1)
    · push Not at htags
      exact Or.inl ⟨p, ra.allTags, ⟨ra, hra, htags.1, rfl⟩, htags.2⟩
  · rintro h hup
    rcases h with ⟨p, ⟨ra, hra⟩, h⟩ | ⟨p, tags, ⟨ra, hra, henum, rfl⟩, h⟩ |
      ⟨p, tag, filePaths, ⟨ra, hra, hlookup⟩, h⟩
    · rcases hup p ra hra with ⟨hproduct, hdata, -, -⟩
      exact h.elim hproduct hdata
    · exact h ((hup p ra hra).2.2.2 henum)
    · exact h ((hup p ra hra).2.2.1 tag filePaths hlookup)

/-- The script is reported exactly when one recorded read is. -/
theorem scriptNeedsRerun_iff (r : ScriptRecords) :
    c.scriptNeedsRerun r = true ↔ ∃ a, r.Recorded a ∧ c.Reported r.lastExecutionTime a := by
  have hdeps : r.depsRequested.isUpToDate c.project = false ↔ ∃ p names,
      r.Recorded (.dependencies p names) ∧ c.Reported r.lastExecutionTime (.dependencies p names) := by
    rw [← Bool.not_eq_true, depsRequested_isUpToDate_iff]
    simp [ScriptRecords.Recorded, Reported]
  have hexports : r.exportedModulesAccessed.entries.all
      (fun e => c.isExportedModuleUpToDate e.1 e.2) = false ↔ ∃ p m,
      r.Recorded (.exportedModule p m) ∧ c.Reported r.lastExecutionTime (.exportedModule p m) := by
    rw [← Bool.not_eq_true, List.all_eq_true,
      AssocMap.forall_entries_iff (P := fun p m => c.isExportedModuleUpToDate p m = true)]
    simp [ScriptRecords.Recorded, Reported]
  have hartifacts : r.propertiesRequestedFromArtifact.entries.any
      (fun e => e.2.any (c.artifactPropertyChanged e.1)) = true ↔ ∃ f p,
      r.Recorded (.artifactProperty f p) ∧
        c.Reported r.lastExecutionTime (.artifactProperty f p) := by
    rw [List.any_eq_true,
      AssocMap.exists_entry_iff (P := fun f s => List.any s (c.artifactPropertyChanged f) = true)]
    simp only [List.any_eq_true, ScriptRecords.Recorded, Reported]
    constructor
    · rintro ⟨f, s, hs, p, hp, hchanged⟩
      exact ⟨f, p, ⟨s, hs, hp⟩, hchanged⟩
    · rintro ⟨f, p, ⟨s, hs, hp⟩, hchanged⟩
      exact ⟨f, s, hs, p, hp, hchanged⟩
  unfold scriptNeedsRerun
  simp only [Bool.or_eq_true, Bool.not_eq_true', hdeps, hexports, hartifacts,
    c.artifactsMapRequested_reported_iff, List.any_eq_true, or_assoc]
  constructor
  · rintro (⟨p, h⟩ | ⟨f, h⟩ | ⟨f, p, h⟩ | ⟨p, names, h⟩ | ⟨p, h⟩ | ⟨p, tags, h⟩ |
      ⟨p, tag, fs, h⟩ | ⟨p, m, h⟩)
    · exact ⟨.property p, h⟩
    · exact ⟨.importedFile f, h⟩
    all_goals exact ⟨_, h⟩
  · rintro ⟨a, h⟩
    cases a with
    | property p => exact Or.inl ⟨p, h⟩
    | importedFile f => exact Or.inr (Or.inl ⟨f, h⟩)
    | artifactProperty f p => exact Or.inr (Or.inr (Or.inl ⟨f, p, h⟩))
    | dependencies p names => exact Or.inr (Or.inr (Or.inr (Or.inl ⟨p, names, h⟩)))
    | artifactsMap p => exact Or.inr (Or.inr (Or.inr (Or.inr (Or.inl ⟨p, h⟩))))
    | artifactTags p tags => exact Or.inr (Or.inr (Or.inr (Or.inr (Or.inr (Or.inl ⟨p, tags, h⟩)))))
    | artifactsForTag p tag fs =>
        exact Or.inr (Or.inr (Or.inr (Or.inr (Or.inr (Or.inr (Or.inl ⟨p, tag, fs, h⟩))))))
    | exportedModule p m =>
        exact Or.inr (Or.inr (Or.inr (Or.inr (Or.inr (Or.inr (Or.inr ⟨p, m, h⟩))))))

end TrackingContext

end Qbs
