import QbsCore.ChangeTracking.Observation

/-!
# Runs of prepare scripts

A rule application creates a new transformer, takes over the change tracking data
of the previous one and then runs its scripts.  The notes of the engine replace the
records of the prepare script, except that exported modules are inserted into the
records taken over.

Main results:

- Definitions {lit}`Transformer.rescueChangeTrackingData` and
  {lit}`Transformer.createCommands`.
- Theorem {lit}`ScriptRun.recordsExact_iff`: when the records of a run are exactly
  what the run has read.

Current gaps:

- The script itself is given by the accesses that it makes and by its result.
-/

namespace Qbs

/-! ## Commands of a transformer -/

/-- One run of the scripts of a rule application, from the moment the engine was cleared. A property
is recorded under the names that its object and the script's project have in this run. -/
structure ScriptRun where
  project : Project
  product : ResolvedProduct
  filePathsPerImport : ImportId → List FilePath
  accesses : List (BuildGraph × Access)
  currentTime : FileTime
  result : Except ErrorInfo (List Command)
  recorded : ∀ g object p, (g, .property object p) ∈ accesses →
    p = object.recorded product.projectName p.propertyName p.value

/-- Take over the change tracking data of an earlier transformer. -/
def Transformer.rescueChangeTrackingData (t other : Transformer) : Transformer :=
  { t with
    inPrepareScript := other.inPrepareScript
    inCommands := other.inCommands
    prepareScriptNeedsChangeTracking := other.prepareScriptNeedsChangeTracking
    commandsNeedChangeTracking := other.commandsNeedChangeTracking
    markedForRerun := other.markedForRerun }

/-- A process command takes along the values of the variables it names. -/
def Command.addRelevantEnvValues (c : Command) (product : ResolvedProduct) : Command :=
  if c.isProcessCommand then
    { c with
      relevantEnvValues := c.relevantEnvVars.map fun var => (var, product.buildEnvironment var) }
  else c

/-- The records of a run that started from the records given. Exported modules that have an
entry already keep it. -/
def ScriptRecords.afterRun (r : ScriptRecords) (run : ScriptRun) (e : ScriptEngine) :
    ScriptRecords where
  propertiesRequested := e.propertiesRequestedInScript
  propertiesRequestedFromArtifact := e.propertiesRequestedFromArtifact
  importedFilesUsed := e.importedFilesUsedInScript run.filePathsPerImport
  depsRequested := e.requestedDependencies run.project
  artifactsMapRequested := e.requestedArtifacts
  exportedModulesAccessed := e.requestedExports.elems.foldl
    (fun m p => AssocMap.insertNew m p (run.project.exportedModule p)) r.exportedModulesAccessed
  lastExecutionTime := run.currentTime

/-- Record what the scripts have read and set up the commands, unless the script failed. -/
def Transformer.createCommands (t : Transformer) (run : ScriptRun) (e : ScriptEngine) :
    Transformer × Except ErrorInfo Unit :=
  let t := { t with inPrepareScript := t.inPrepareScript.afterRun run e }
  match run.result with
  | .error err => (t, .error err)
  | .ok commands =>
      ({ t with commands := commands.map fun c => c.addRelevantEnvValues run.product }, .ok ())

namespace ScriptRun

variable (run : ScriptRun)

/-! ## What a run has read -/

/-- The reads of a run. -/
def reads : List Read :=
  run.accesses.flatMap (Access.reads run.project run.filePathsPerImport)

/-- The file tags of a product as the access to its artifacts map that counts found them. -/
def registeredTags (product : ProductId) : SortedSet FileTag :=
  run.accesses.foldl (Access.registerTags product) ∅

theorem property_mem_reads {p : Property} :
    .property p ∈ run.reads ↔ p ∈ run.accesses.filterMap Access.property? := by
  simp only [reads, List.mem_flatMap, List.mem_filterMap]
  refine exists_congr fun a => and_congr_right fun _ => ?_
  rcases a with ⟨g, a⟩
  cases a <;> simp [Access.reads, Access.property?, eq_comm]

/-- A property is among the reads if one of its object was read. -/
theorem property_mem_accesses {p : Property} :
    .property p ∈ run.reads ↔ ∃ g object, (g, .property object p) ∈ run.accesses := by
  rw [property_mem_reads, List.mem_filterMap]
  constructor
  · rintro ⟨⟨g, a⟩, ha, hp⟩
    cases a <;> cases hp
    exact ⟨g, _, ha⟩
  · rintro ⟨g, object, hp⟩
    exact ⟨_, hp, rfl⟩

theorem artifactProperty_mem_reads {filePath : FilePath} {p : Property} :
    .artifactProperty filePath p ∈ run.reads ↔
      p ∈ run.accesses.filterMap (Access.artifactProperty? filePath) := by
  simp only [reads, List.mem_flatMap, List.mem_filterMap]
  refine exists_congr fun a => and_congr_right fun _ => ?_
  rcases a with ⟨g, a⟩
  cases a <;> simp [Access.reads, Access.artifactProperty?, eq_comm]

theorem importedFile_mem_reads {filePath : FilePath} :
    .importedFile filePath ∈ run.reads ↔
      ∃ i, (∃ g, (g, .importedFiles i) ∈ run.accesses) ∧ filePath ∈ run.filePathsPerImport i := by
  simp only [reads, List.mem_flatMap]
  constructor
  · rintro ⟨⟨g, a⟩, ha, hread⟩
    cases a <;> simp [Access.reads] at hread
    exact ⟨_, ⟨g, ha⟩, hread⟩
  · rintro ⟨i, ⟨g, hg⟩, hf⟩
    exact ⟨_, hg, by simpa [Access.reads] using hf⟩

variable {product : ProductId}

theorem dependencies_mem_reads {names : SortedSet String} :
    .dependencies product names ∈ run.reads ↔
      (∃ g, (g, .dependencies product) ∈ run.accesses) ∧ names = run.project.depNames product := by
  simp only [reads, List.mem_flatMap]
  constructor
  · rintro ⟨⟨g, a⟩, ha, hread⟩
    cases a <;> simp [Access.reads] at hread
    rcases hread with ⟨rfl, rfl⟩
    exact ⟨⟨g, ha⟩, rfl⟩
  · rintro ⟨⟨g, hg⟩, rfl⟩
    exact ⟨_, hg, by simp [Access.reads]⟩

theorem exportedModule_mem_reads {m : ExportedModule} :
    .exportedModule product m ∈ run.reads ↔
      (∃ g, (g, .exports product) ∈ run.accesses) ∧ m = run.project.exportedModule product := by
  simp only [reads, List.mem_flatMap]
  constructor
  · rintro ⟨⟨g, a⟩, ha, hread⟩
    cases a <;> simp [Access.reads] at hread
    rcases hread with ⟨rfl, rfl⟩
    exact ⟨⟨g, ha⟩, rfl⟩
  · rintro ⟨⟨g, hg⟩, rfl⟩
    exact ⟨_, hg, by simp [Access.reads]⟩

theorem artifactsMap_mem_reads :
    .artifactsMap product ∈ run.reads ↔
      ∃ a, a ∈ run.accesses ∧ Access.concernsArtifactsOf product a := by
  simp only [reads, List.mem_flatMap]
  refine exists_congr fun a => and_congr_right fun _ => ?_
  rcases a with ⟨g, a⟩
  cases a <;> simp [Access.reads, Access.concernsArtifactsOf, eq_comm]

theorem artifactTags_mem_reads {tags : SortedSet FileTag} :
    .artifactTags product tags ∈ run.reads ↔
      ∃ g, (g, .artifactsEnumerated product) ∈ run.accesses ∧ tags = g.visibleTags product := by
  simp only [reads, List.mem_flatMap]
  constructor
  · rintro ⟨⟨g, a⟩, ha, hread⟩
    cases a <;> simp [Access.reads] at hread
    rcases hread with ⟨rfl, rfl⟩
    exact ⟨g, ha, rfl⟩
  · rintro ⟨g, hg, rfl⟩
    exact ⟨_, hg, by simp [Access.reads]⟩

theorem artifactsForTag_mem_reads {tag : FileTag} {filePaths : SortedSet FilePath} :
    .artifactsForTag product tag filePaths ∈ run.reads ↔
      (∃ g, (g, .artifactsForTag product tag) ∈ run.accesses ∧
        filePaths = g.visibleFilePathsForTag product tag) ∨
      (∃ g, (g, .nonExistingTag product tag) ∈ run.accesses) ∧ filePaths = ∅ := by
  simp only [reads, List.mem_flatMap]
  constructor
  · rintro ⟨⟨g, a⟩, ha, hread⟩
    cases a <;> simp [Access.reads] at hread
    · rcases hread with ⟨rfl, rfl, rfl⟩
      exact Or.inl ⟨g, ha, rfl⟩
    · rcases hread with ⟨rfl, rfl, rfl⟩
      exact Or.inr ⟨⟨g, ha⟩, rfl⟩
  · rintro (⟨g, hg, rfl⟩ | ⟨⟨g, hg⟩, rfl⟩)
    · exact ⟨_, hg, by simp [Access.reads]⟩
    · exact ⟨_, hg, by simp [Access.reads]⟩

/-! ## When the records are exact -/

/-- The condition under which the records of a run that started from the records given are
exactly what the run has read. -/
structure ReadsAgree (rescued : ScriptRecords) : Prop where
  properties : ∀ p q, .property p ∈ run.reads → .property q ∈ run.reads →
    p.sameKey q = true → p = q
  artifactProperties : ∀ filePath p q, .artifactProperty filePath p ∈ run.reads →
    .artifactProperty filePath q ∈ run.reads → p.sameKey q = true → p = q
  tags : ∀ product tags, .artifactTags product tags ∈ run.reads →
    tags = run.registeredTags product
  filePaths : ∀ product tag filePaths, .artifactsForTag product tag filePaths ∈ run.reads →
    ∀ g, (g, .artifactsForTag product tag) ∈ run.accesses →
      ∀ f, f ∈ g.filePathsForTag product tag → f ∈ filePaths
  exports : ∀ product m, rescued.exportedModulesAccessed.lookup product = some m →
    .exportedModule product m ∈ run.reads

/-- The records say exactly what a run has read. -/
def RecordsExact (r : ScriptRecords) : Prop :=
  ∀ a, r.Recorded a ↔ a ∈ run.reads

section

variable {run} {rescued : ScriptRecords} {e : ScriptEngine}

theorem recorded_property_iff (h : Notes .cleared run.accesses e) :
    (∀ p, (rescued.afterRun run e).Recorded (.property p) ↔ .property p ∈ run.reads) ↔
      ∀ p q, .property p ∈ run.reads → .property q ∈ run.reads → p.sameKey q = true → p = q := by
  simp only [ScriptRecords.Recorded, ScriptRecords.afterRun, h.properties, property_mem_reads]
  rw [ScriptEngine.cleared, PropertySet.mem_foldl_insert_iff]
  exact ⟨fun h p q hp hq => h p hp q hq, fun h p hp q hq => h p q hp hq⟩

theorem recorded_artifactProperty_iff (h : Notes .cleared run.accesses e) :
    (∀ f p, (rescued.afterRun run e).Recorded (.artifactProperty f p) ↔
        .artifactProperty f p ∈ run.reads) ↔
      ∀ f p q, .artifactProperty f p ∈ run.reads → .artifactProperty f q ∈ run.reads →
        p.sameKey q = true → p = q := by
  refine forall_congr' fun f => ?_
  have hmem : ∀ p, (rescued.afterRun run e).Recorded (.artifactProperty f p) ↔
      p ∈ (run.accesses.filterMap (Access.artifactProperty? f)).foldl PropertySet.insert [] := by
    intro p
    have hf := h.artifactProperties f
    rw [show (AList.lookup f ScriptEngine.cleared.propertiesRequestedFromArtifact).getD [] = []
      from rfl] at hf
    rw [← hf]
    simp only [ScriptRecords.Recorded, ScriptRecords.afterRun]
    cases e.propertiesRequestedFromArtifact.lookup f <;> simp
  simp only [hmem, artifactProperty_mem_reads]
  rw [PropertySet.mem_foldl_insert_iff]
  exact ⟨fun h p q hp hq => h p hp q hq, fun h p hp q hq => h p q hp hq⟩

theorem recorded_importedFile_iff (h : Notes .cleared run.accesses e) (f : FilePath) :
    (rescued.afterRun run e).Recorded (.importedFile f) ↔ .importedFile f ∈ run.reads := by
  rw [importedFile_mem_reads]
  simp only [ScriptRecords.Recorded, ScriptRecords.afterRun, ScriptEngine.mem_importedFilesUsed,
    h.imports]
  simp [ScriptEngine.cleared]

theorem recorded_dependencies_iff (h : Notes .cleared run.accesses e) (product : ProductId)
    (names : SortedSet String) :
    (rescued.afterRun run e).Recorded (.dependencies product names) ↔
      .dependencies product names ∈ run.reads := by
  have hmem : product ∈ e.productsWithRequestedDependencies.elems ↔
      ∃ g, (g, .dependencies product) ∈ run.accesses :=
    (h.dependencies product).trans (or_iff_right (SortedSet.not_mem_empty product))
  rw [dependencies_mem_reads, ← hmem]
  simp only [ScriptRecords.Recorded, ScriptRecords.afterRun, ScriptEngine.requestedDependencies,
    AssocMap.lookup_foldl_insert]
  split <;> rename_i hp
  · simp [hp, eq_comm]
  · simp [hp]

theorem recorded_artifactsMap_iff (h : Notes .cleared run.accesses e) (product : ProductId) :
    (rescued.afterRun run e).Recorded (.artifactsMap product) ↔
      .artifactsMap product ∈ run.reads := by
  rw [artifactsMap_mem_reads]
  simp only [ScriptRecords.Recorded, ScriptRecords.afterRun, h.artifacts.artifactsMap]
  simp [ScriptEngine.cleared]

theorem recorded_artifactTags_iff (h : Notes .cleared run.accesses e) :
    (∀ product tags, (rescued.afterRun run e).Recorded (.artifactTags product tags) ↔
        .artifactTags product tags ∈ run.reads) ↔
      ∀ product tags, .artifactTags product tags ∈ run.reads →
        tags = run.registeredTags product := by
  refine forall_congr' fun product => ?_
  have hmem : ∀ tags, (rescued.afterRun run e).Recorded (.artifactTags product tags) ↔
      (∃ g, (g, .artifactsEnumerated product) ∈ run.accesses) ∧
        run.registeredTags product = tags := by
    intro tags
    have henum := h.artifacts.enumerated product
    have htags := h.artifacts.allTags product
    rw [RequestedArtifacts.perProduct] at henum htags
    rw [show run.registeredTags product = _ from htags.symm]
    rw [or_iff_right (by simp [ScriptEngine.cleared, RequestedArtifacts.perProduct, default])]
      at henum
    rw [← henum]
    simp only [ScriptRecords.Recorded, ScriptRecords.afterRun]
    cases e.requestedArtifacts.lookup product <;> simp [default]
  simp only [hmem, artifactTags_mem_reads]
  constructor
  · rintro hexact tags ⟨g, hg, rfl⟩
    exact ((hexact _).mpr ⟨g, hg, rfl⟩).2.symm
  · intro hagree tags
    constructor
    · rintro ⟨⟨g, hg⟩, rfl⟩
      exact ⟨g, hg, (hagree _ ⟨g, hg, rfl⟩).symm⟩
    · rintro ⟨g, hg, rfl⟩
      exact ⟨⟨g, hg⟩, (hagree _ ⟨g, hg, rfl⟩).symm⟩

theorem recorded_artifactsForTag_iff (h : Notes .cleared run.accesses e) :
    (∀ product tag filePaths,
        (rescued.afterRun run e).Recorded (.artifactsForTag product tag filePaths) ↔
          .artifactsForTag product tag filePaths ∈ run.reads) ↔
      ∀ product tag filePaths, .artifactsForTag product tag filePaths ∈ run.reads →
        ∀ g, (g, .artifactsForTag product tag) ∈ run.accesses →
          ∀ f, f ∈ g.filePathsForTag product tag → f ∈ filePaths := by
  refine forall_congr' fun product => forall_congr' fun tag => ?_
  have hpaths : ∀ f, f ∈ e.requestedArtifacts.requestedFilePaths product tag ↔
      ∃ g, (g, .artifactsForTag product tag) ∈ run.accesses ∧ f ∈ g.filePathsForTag product tag :=
    fun f => (h.artifacts.filePaths product tag f).trans
      (or_iff_right (SortedSet.not_mem_empty f))
  have hmem : ∀ filePaths,
      (rescued.afterRun run e).Recorded (.artifactsForTag product tag filePaths) ↔
        (∃ fs, .artifactsForTag product tag fs ∈ run.reads) ∧
          e.requestedArtifacts.requestedFilePaths product tag = filePaths := by
    intro filePaths
    have htag := h.artifacts.tags product tag
    rw [or_iff_right (by simp [ScriptEngine.cleared, RequestedArtifacts.perProduct, default])]
      at htag
    have hread : (∃ fs, .artifactsForTag product tag fs ∈ run.reads) ↔
        ∃ a, a ∈ run.accesses ∧ Access.asksForTag product tag a := by
      simp only [artifactsForTag_mem_reads]
      constructor
      · rintro ⟨fs, ⟨g, hg, -⟩ | ⟨⟨g, hg⟩, -⟩⟩
        · exact ⟨_, hg, rfl, rfl⟩
        · exact ⟨_, hg, rfl, rfl⟩
      · rintro ⟨⟨g, a⟩, ha, hasks⟩
        cases a <;> simp only [Access.asksForTag] at hasks
        · rcases hasks with ⟨rfl, rfl⟩
          exact ⟨_, Or.inl ⟨g, ha, rfl⟩⟩
        · rcases hasks with ⟨rfl, rfl⟩
          exact ⟨∅, Or.inr ⟨⟨g, ha⟩, rfl⟩⟩
    rw [hread, ← htag]
    simp only [ScriptRecords.Recorded, ScriptRecords.afterRun,
      RequestedArtifacts.requestedFilePaths, RequestedArtifacts.perProduct]
    cases e.requestedArtifacts.lookup product with
    | none => simp [default]
    | some ra =>
        simp only [Option.some.injEq, exists_eq_left', Option.getD_some]
        cases ra.requestedTags.lookup tag <;> simp
  simp only [hmem]
  constructor
  · intro hexact filePaths hread g hg f hf
    rw [← ((hexact filePaths).mpr hread).2]
    exact (hpaths f).mpr ⟨g, hg, hf⟩
  · intro hagree filePaths
    have hEq : ∀ fs, .artifactsForTag product tag fs ∈ run.reads →
        e.requestedArtifacts.requestedFilePaths product tag = fs := by
      intro fs hread
      ext f
      rw [hpaths]
      constructor
      · rintro ⟨g, hg, hf⟩
        exact hagree fs hread g hg f hf
      · intro hf
        rcases run.artifactsForTag_mem_reads.mp hread with ⟨g, hg, rfl⟩ | ⟨-, rfl⟩
        · exact ⟨g, hg, BuildGraph.visible_subset hf⟩
        · exact absurd hf (SortedSet.not_mem_empty f)
    constructor
    · rintro ⟨⟨fs, hread⟩, rfl⟩
      rwa [hEq fs hread]
    · intro hread
      exact ⟨⟨filePaths, hread⟩, hEq filePaths hread⟩

theorem recorded_exportedModule_iff (h : Notes .cleared run.accesses e) :
    (∀ product m, (rescued.afterRun run e).Recorded (.exportedModule product m) ↔
        .exportedModule product m ∈ run.reads) ↔
      ∀ product m, rescued.exportedModulesAccessed.lookup product = some m →
        .exportedModule product m ∈ run.reads := by
  refine forall_congr' fun product => ?_
  have hmem : product ∈ e.requestedExports.elems ↔ ∃ g, (g, .exports product) ∈ run.accesses :=
    (h.exports product).trans (or_iff_right (SortedSet.not_mem_empty product))
  simp only [ScriptRecords.Recorded, ScriptRecords.afterRun, AssocMap.lookup_foldl_insertNew,
    exportedModule_mem_reads, ← hmem]
  by_cases hread : product ∈ e.requestedExports.elems
  · simp only [hread, if_true, true_and]
    cases rescued.exportedModulesAccessed.lookup product with
    | none => simp [eq_comm]
    | some m =>
        simp only [Option.getD_some, Option.some.injEq, forall_eq']
        constructor
        · intro hexact
          exact (hexact m).mp rfl
        · rintro rfl m
          exact eq_comm
  · simp [hread]

/-- The records are exactly what the run has read exactly when the reads agree. -/
theorem recordsExact_iff (h : Notes .cleared run.accesses e) :
    run.RecordsExact (rescued.afterRun run e) ↔ run.ReadsAgree rescued := by
  constructor
  · intro hexact
    exact ⟨(recorded_property_iff h).mp fun p => hexact _,
      (recorded_artifactProperty_iff h).mp fun f p => hexact _,
      (recorded_artifactTags_iff h).mp fun p tags => hexact _,
      (recorded_artifactsForTag_iff h).mp fun p tag fs => hexact _,
      (recorded_exportedModule_iff h).mp fun p m => hexact _⟩
  · intro hagree a
    cases a with
    | property p => exact (recorded_property_iff h).mpr hagree.properties p
    | artifactProperty f p =>
        exact (recorded_artifactProperty_iff h).mpr hagree.artifactProperties f p
    | importedFile f => exact recorded_importedFile_iff h f
    | dependencies p names => exact recorded_dependencies_iff h p names
    | artifactsMap p => exact recorded_artifactsMap_iff h p
    | artifactTags p tags => exact (recorded_artifactTags_iff h).mpr hagree.tags p tags
    | artifactsForTag p tag fs =>
        exact (recorded_artifactsForTag_iff h).mpr hagree.filePaths p tag fs
    | exportedModule p m => exact (recorded_exportedModule_iff h).mpr hagree.exports p m

end

end ScriptRun

end Qbs
