import QbsCore.BuildGraph.ProjectBuildData
import QbsCore.Language.ProjectTree

/-!
# Observing a script

While a script runs, the script engine notes which properties, imported files,
dependency lists, artifact sets and exported modules the script accesses.  The
notes of one run become the records of the transformer.

Main results:

- Definition {lit}`ScriptEngine.observe`: what the engine notes of one access.
- Definition {lit}`Access.reads`: what the script reads by one access.
- Definition {lit}`ScriptRecords.Recorded`: the reads that a set of records stands
  for.

Current gaps:

- The artifacts map that a module offers to scripts is not recorded by the engine
  and is no access here.
-/

namespace Qbs

/-! ## Artifacts in scripts -/

namespace BuildGraph

/-- The file tags for which a product has artifacts. -/
def artifactTags (g : BuildGraph) (product : ProductId) : SortedSet FileTag :=
  match g.productData product with
  | some d => SortedSet.ofList d.artifactsByFileTag.keys
  | none => ∅

/-- The paths of the artifacts of a product with a file tag. -/
def filePathsForTag (g : BuildGraph) (product : ProductId) (tag : FileTag) : SortedSet FilePath :=
  SortedSet.ofList
    ((g.lookupArtifactsByFileTag product tag).elems.map fun a => (g.artifact a).filePath)

/-- The paths of the artifacts with a file tag that the artifacts map of a product offers to
scripts; it leaves out the targets of modules. -/
def visibleFilePathsForTag (g : BuildGraph) (product : ProductId) (tag : FileTag) :
    SortedSet FilePath :=
  SortedSet.ofList (((g.lookupArtifactsByFileTag product tag).elems.filter fun a =>
    !(g.artifact a).isTargetOfModule).map fun a => (g.artifact a).filePath)

/-- The file tags that the artifacts map of a product offers to scripts. -/
def visibleTags (g : BuildGraph) (product : ProductId) : SortedSet FileTag :=
  (g.artifactTags product).filter fun tag =>
    (g.lookupArtifactsByFileTag product tag).elems.any fun a => !(g.artifact a).isTargetOfModule

theorem visible_subset {g : BuildGraph} {product : ProductId} {tag : FileTag} {f : FilePath}
    (h : f ∈ g.visibleFilePathsForTag product tag) : f ∈ g.filePathsForTag product tag := by
  simp only [visibleFilePathsForTag, filePathsForTag, SortedSet.mem_ofList, List.mem_map,
    List.mem_filter] at h ⊢
  rcases h with ⟨a, ⟨ha, -⟩, hf⟩
  exact ⟨a, ha, hf⟩

end BuildGraph

/-! ## Requested artifacts -/

namespace RequestedArtifacts

/-- Register the file tags of a product, unless that was done and no update is forced. -/
def setAllArtifactTags (r : RequestedArtifacts) (g : BuildGraph) (product : ProductId)
    (forceUpdate : Bool) : RequestedArtifacts :=
  AssocMap.modify r product default fun ra =>
    if !ra.allTags.isEmpty && !forceUpdate then ra
    else { ra with allTags := g.artifactTags product }

/-- Register the artifacts of a product with a file tag. -/
def setArtifactsForTag (r : RequestedArtifacts) (g : BuildGraph) (product : ProductId)
    (tag : FileTag) : RequestedArtifacts :=
  AssocMap.modify r product default fun ra =>
    { ra with
      requestedTags := AssocMap.modify ra.requestedTags tag ∅ fun filePaths =>
        filePaths.unite (g.filePathsForTag product tag) }

/-- What was registered for a product, nothing for a product that was not asked. -/
def perProduct (r : RequestedArtifacts) (product : ProductId) : RequestedArtifactsPerProduct :=
  (r.lookup product).getD default

/-- The paths registered for a file tag of a product. -/
def requestedFilePaths (r : RequestedArtifacts) (product : ProductId) (tag : FileTag) :
    SortedSet FilePath :=
  ((r.perProduct product).requestedTags.lookup tag).getD ∅

/-- Register that a product was asked for a file tag that it does not have. -/
def setNonExistingTagRequested (r : RequestedArtifacts) (product : ProductId) (tag : FileTag) :
    Except ErrorInfo RequestedArtifacts := do
  qbsCheck (r.requestedFilePaths product tag).isEmpty "filePaths.empty()"
  return AssocMap.modify r product default fun ra =>
    { ra with requestedTags := AssocMap.modify ra.requestedTags tag ∅ id }

/-- Register that the file tags of a product were enumerated. -/
def setArtifactsEnumerated (r : RequestedArtifacts) (product : ProductId) : RequestedArtifacts :=
  AssocMap.modify r product default fun ra => { ra with artifactsEnumerated := true }

@[simp]
theorem perProduct_modify (r : RequestedArtifacts) (product q : ProductId)
    (f : RequestedArtifactsPerProduct → RequestedArtifactsPerProduct) :
    perProduct (AssocMap.modify r product default f) q =
      if q = product then f (r.perProduct product) else r.perProduct q := by
  unfold perProduct
  rw [AssocMap.lookup_modify]
  split <;> simp

end RequestedArtifacts

/-! ## Objects with properties -/

/-- An object whose properties a script reads: the project of the script's product, a product, a
module of a product, or the parameters for a dependency of a product or of its Export item. -/
inductive ReadObject where
  | project
  | product (name : ProductId)
  | module (product : ProductId) (moduleName : String)
  | dependencyParameters (product : ProductId) (dep : ProductKey) (moduleName : String)
  | moduleParameters (product : ProductId) (dep moduleName : String)
  | exportedParameters (product : ProductId) (dep : ProductKey) (moduleName : String)
deriving DecidableEq

/-- The record of a property of an object that was read when the script's project had a certain
name. -/
def ReadObject.recorded (projectName propertyName : String) (value : Variant) :
    ReadObject → Property
  | project => ⟨projectName, "", propertyName, value, .propertyInProject⟩
  | product name => ⟨name, "", propertyName, value, .propertyInProduct⟩
  | module name moduleName => ⟨name, moduleName, propertyName, value, .propertyInModule⟩
  | dependencyParameters name dep moduleName | exportedParameters name dep moduleName =>
      ⟨name, dep.name ++ ":" ++ moduleName, propertyName, value, .propertyInParameters⟩
  | moduleParameters name dep moduleName =>
      ⟨name, dep ++ ":" ++ moduleName, propertyName, value, .propertyInParameters⟩

/-! ## The script engine -/

/-- An import statement of a script. -/
abbrev ImportId := Nat

/-- The notes of the engine on the script that runs. -/
structure ScriptEngine where
  propertiesRequestedInScript : PropertySet
  propertiesRequestedFromArtifact : AssocMap FilePath PropertySet
  importsRequestedInScript : List ImportId
  productsWithRequestedDependencies : SortedSet ProductId
  requestedArtifacts : RequestedArtifacts
  requestedExports : SortedSet ProductId

/-- One access of a script to something that the engine observes. -/
inductive Access where
  | property (object : ReadObject) (p : Property)
  | artifactProperty (filePath : FilePath) (p : Property)
  | importedFiles (usedImport : ImportId)
  | dependencies (product : ProductId)
  | artifactsMap (product : ProductId) (forceUpdate : Bool)
  | artifactsForTag (product : ProductId) (tag : FileTag)
  | nonExistingTag (product : ProductId) (tag : FileTag)
  | artifactsEnumerated (product : ProductId)
  | exports (product : ProductId)

namespace ScriptEngine

/-- The engine after {lit}`clearRequestedProperties`. -/
def cleared : ScriptEngine :=
  ⟨[], ∅, [], ∅, ∅, ∅⟩

/-- Note one access, made while the build graph is as given. -/
def observe (e : ScriptEngine) : BuildGraph × Access → Except ErrorInfo ScriptEngine
  | (_, .property _ p) =>
      return { e with
        propertiesRequestedInScript := PropertySet.insert e.propertiesRequestedInScript p }
  | (_, .artifactProperty filePath p) =>
      return { e with
        propertiesRequestedFromArtifact :=
          AssocMap.modify e.propertiesRequestedFromArtifact filePath []
            fun s => PropertySet.insert s p }
  | (_, .importedFiles usedImport) =>
      return { e with
        importsRequestedInScript :=
          if usedImport ∈ e.importsRequestedInScript then e.importsRequestedInScript
          else e.importsRequestedInScript ++ [usedImport] }
  | (_, .dependencies product) =>
      return { e with
        productsWithRequestedDependencies := insert product e.productsWithRequestedDependencies }
  | (g, .artifactsMap product forceUpdate) =>
      return { e with
        requestedArtifacts := e.requestedArtifacts.setAllArtifactTags g product forceUpdate }
  | (g, .artifactsForTag product tag) =>
      return { e with
        requestedArtifacts := e.requestedArtifacts.setArtifactsForTag g product tag }
  | (_, .nonExistingTag product tag) => do
      let requestedArtifacts ← e.requestedArtifacts.setNonExistingTagRequested product tag
      return { e with requestedArtifacts := requestedArtifacts }
  | (_, .artifactsEnumerated product) =>
      return { e with requestedArtifacts := e.requestedArtifacts.setArtifactsEnumerated product }
  | (_, .exports product) =>
      return { e with requestedExports := insert product e.requestedExports }

/-- The files of the imports used, each once. -/
def importedFilesUsedInScript (e : ScriptEngine) (filePathsPerImport : ImportId → List FilePath) :
    List FilePath :=
  (e.importsRequestedInScript.flatMap filePathsPerImport).foldl
    (fun files fp => if fp ∈ files then files else files ++ [fp]) []

theorem mem_foldl_new {f : FilePath} {l files : List FilePath} :
    f ∈ l.foldl (fun files fp => if fp ∈ files then files else files ++ [fp]) files ↔
      f ∈ files ∨ f ∈ l := by
  induction l generalizing files with
  | nil => simp
  | cons a l ih =>
      rw [List.foldl_cons, ih]
      split <;> rename_i ha
      · constructor
        · rintro (h | h)
          · exact Or.inl h
          · exact Or.inr (List.mem_cons_of_mem a h)
        · rintro (h | h)
          · exact Or.inl h
          · rcases List.mem_cons.mp h with rfl | h
            · exact Or.inl ha
            · exact Or.inr h
      · simp [or_assoc]

theorem mem_importedFilesUsed {e : ScriptEngine} {filePathsPerImport : ImportId → List FilePath}
    {f : FilePath} :
    f ∈ e.importedFilesUsedInScript filePathsPerImport ↔
      ∃ i, i ∈ e.importsRequestedInScript ∧ f ∈ filePathsPerImport i := by
  simp [importedFilesUsedInScript, mem_foldl_new]

/-- The requested dependency lists, as they are in the project. -/
def requestedDependencies (e : ScriptEngine) (project : Project) : RequestedDependencies :=
  e.productsWithRequestedDependencies.elems.foldl
    (fun deps product => deps.insert product (project.depNames product)) ∅

end ScriptEngine

/-! ## The notes of a sequence of accesses -/

/-- The property in an access to one. -/
def Access.property? : BuildGraph × Access → Option Property
  | (_, .property _ p) => some p
  | _ => none

/-- The property in an access to one of an artifact with a path. -/
def Access.artifactProperty? (filePath : FilePath) : BuildGraph × Access → Option Property
  | (_, .artifactProperty f p) => if f = filePath then some p else none
  | _ => none

/-- Whether an access concerns the artifacts map of a product. -/
def Access.concernsArtifactsOf (product : ProductId) : BuildGraph × Access → Prop
  | (_, .artifactsMap p _) | (_, .artifactsForTag p _) | (_, .nonExistingTag p _)
  | (_, .artifactsEnumerated p) => p = product
  | _ => False

/-- Whether an access asks a product for a file tag. -/
def Access.asksForTag (product : ProductId) (tag : FileTag) : BuildGraph × Access → Prop
  | (_, .artifactsForTag p t) | (_, .nonExistingTag p t) => p = product ∧ t = tag
  | _ => False

/-- The file tags of a product as the access to its artifacts map that counts found them: the
first one, and each later one that forces an update. -/
def Access.registerTags (product : ProductId) (tags : SortedSet FileTag) :
    BuildGraph × Access → SortedSet FileTag
  | (g, .artifactsMap p forceUpdate) =>
      if p = product ∧ (tags.isEmpty = true ∨ forceUpdate = true) then g.artifactTags product
      else tags
  | _ => tags

/-- What a sequence of accesses adds to the requested artifacts. -/
structure ArtifactNotes (r : RequestedArtifacts) (l : List (BuildGraph × Access))
    (r' : RequestedArtifacts) : Prop where
  artifactsMap : ∀ p, (∃ ra, r'.lookup p = some ra) ↔
    (∃ ra, r.lookup p = some ra) ∨ ∃ a, a ∈ l ∧ Access.concernsArtifactsOf p a
  enumerated : ∀ p, (r'.perProduct p).artifactsEnumerated = true ↔
    (r.perProduct p).artifactsEnumerated = true ∨ ∃ g, (g, .artifactsEnumerated p) ∈ l
  tags : ∀ p tag, (∃ filePaths, (r'.perProduct p).requestedTags.lookup tag = some filePaths) ↔
    (∃ filePaths, (r.perProduct p).requestedTags.lookup tag = some filePaths) ∨
      ∃ a, a ∈ l ∧ Access.asksForTag p tag a
  filePaths : ∀ p tag f, f ∈ r'.requestedFilePaths p tag ↔ f ∈ r.requestedFilePaths p tag ∨
    ∃ g, (g, .artifactsForTag p tag) ∈ l ∧ f ∈ g.filePathsForTag p tag
  allTags : ∀ p, (r'.perProduct p).allTags =
    l.foldl (Access.registerTags p) (r.perProduct p).allTags

/-- What a sequence of accesses adds to the notes of the engine. -/
structure Notes (e : ScriptEngine) (l : List (BuildGraph × Access)) (e' : ScriptEngine) :
    Prop where
  properties : e'.propertiesRequestedInScript =
    (l.filterMap Access.property?).foldl PropertySet.insert e.propertiesRequestedInScript
  artifactProperties : ∀ filePath,
    (e'.propertiesRequestedFromArtifact.lookup filePath).getD [] =
      (l.filterMap (Access.artifactProperty? filePath)).foldl PropertySet.insert
        ((e.propertiesRequestedFromArtifact.lookup filePath).getD [])
  imports : ∀ i, i ∈ e'.importsRequestedInScript ↔
    i ∈ e.importsRequestedInScript ∨ ∃ g, (g, .importedFiles i) ∈ l
  dependencies : ∀ p, p ∈ e'.productsWithRequestedDependencies ↔
    p ∈ e.productsWithRequestedDependencies ∨ ∃ g, (g, .dependencies p) ∈ l
  exports : ∀ p, p ∈ e'.requestedExports ↔
    p ∈ e.requestedExports ∨ ∃ g, (g, .exports p) ∈ l
  artifacts : ArtifactNotes e.requestedArtifacts l e'.requestedArtifacts

namespace ArtifactNotes

theorem refl (r : RequestedArtifacts) : ArtifactNotes r [] r := by
  constructor <;> simp

theorem trans {r r' r'' : RequestedArtifacts} {l l' : List (BuildGraph × Access)}
    (h : ArtifactNotes r l r') (h' : ArtifactNotes r' l' r'') :
    ArtifactNotes r (l ++ l') r'' where
  artifactsMap p := by
    simp only [h'.artifactsMap, h.artifactsMap, List.mem_append, or_assoc, exists_or, or_and_right]
  enumerated p := by
    simp only [h'.enumerated, h.enumerated, List.mem_append, or_assoc, exists_or]
  tags p tag := by
    simp only [h'.tags, h.tags, List.mem_append, or_assoc, exists_or, or_and_right]
  filePaths p tag f := by
    simp only [h'.filePaths, h.filePaths, List.mem_append, or_assoc, exists_or, or_and_right]
  allTags p := by
    rw [h'.allTags, h.allTags, List.foldl_append]

/-- An access that concerns no artifacts map adds nothing. -/
theorem of_unconcerned {a : BuildGraph × Access} (r : RequestedArtifacts)
    (ha : ∀ p, ¬Access.concernsArtifactsOf p a) : ArtifactNotes r [a] r := by
  rcases a with ⟨g, a⟩
  cases a <;>
    first
    | exact absurd rfl (ha _)
    | constructor <;> simp [Access.concernsArtifactsOf, Access.asksForTag, Access.registerTags]

end ArtifactNotes

namespace RequestedArtifacts

variable (r : RequestedArtifacts) (g : BuildGraph) (product : ProductId)

theorem exists_lookup_modify (p : ProductId)
    (f : RequestedArtifactsPerProduct → RequestedArtifactsPerProduct) :
    (∃ ra, (AssocMap.modify r product default f).lookup p = some ra) ↔
      (∃ ra, r.lookup p = some ra) ∨ product = p := by
  rw [AssocMap.lookup_modify]
  split <;> rename_i h
  · simp [h]
  · simp [Ne.symm h]

theorem notes_setAllArtifactTags (forceUpdate : Bool) :
    ArtifactNotes r [(g, .artifactsMap product forceUpdate)]
      (r.setAllArtifactTags g product forceUpdate) where
  artifactsMap p := by
    simp [setAllArtifactTags, exists_lookup_modify, Access.concernsArtifactsOf]
  enumerated p := by
    simp only [setAllArtifactTags, perProduct_modify]
    split_ifs <;> simp_all
  tags p tag := by
    simp only [setAllArtifactTags, perProduct_modify]
    split_ifs <;> simp_all [Access.asksForTag]
  filePaths p tag f := by
    simp only [requestedFilePaths, setAllArtifactTags, perProduct_modify]
    split_ifs <;> simp_all
  allTags p := by
    simp only [setAllArtifactTags, perProduct_modify, List.foldl_cons, List.foldl_nil,
      Access.registerTags]
    by_cases hp : p = product
    · subst hp
      cases forceUpdate <;> cases (r.perProduct p).allTags.isEmpty <;> simp
    · simp [hp, Ne.symm hp]

theorem notes_setArtifactsForTag (tag : FileTag) :
    ArtifactNotes r [(g, .artifactsForTag product tag)] (r.setArtifactsForTag g product tag) where
  artifactsMap p := by
    simp [setArtifactsForTag, exists_lookup_modify, Access.concernsArtifactsOf]
  enumerated p := by
    simp only [setArtifactsForTag, perProduct_modify]
    split_ifs <;> simp_all
  tags p t := by
    simp only [setArtifactsForTag, perProduct_modify]
    split_ifs <;> rename_i hp
    · subst hp
      rw [AssocMap.lookup_modify]
      split_ifs <;> simp_all [Access.asksForTag, eq_comm]
    · simp [Access.asksForTag, Ne.symm hp]
  filePaths p t f := by
    simp only [requestedFilePaths, setArtifactsForTag, perProduct_modify]
    split_ifs <;> rename_i hp
    · subst hp
      rw [AssocMap.lookup_modify]
      by_cases ht : t = tag
      · subst ht
        simp
      · simp [ht]
    · simp [hp]
  allTags p := by
    simp only [setArtifactsForTag, perProduct_modify]
    split_ifs <;> simp_all [Access.registerTags]

theorem notes_setNonExistingTagRequested {r' : RequestedArtifacts} {tag : FileTag}
    (h : r.setNonExistingTagRequested product tag = .ok r') :
    ArtifactNotes r [(g, .nonExistingTag product tag)] r' := by
  unfold setNonExistingTagRequested at h
  rcases Fallible.bind_eq_ok_iff.mp h with ⟨-, -, h⟩
  rw [← Fallible.pure_eq_ok_iff.mp h]
  clear h
  constructor
  case artifactsMap =>
    intro p
    simp [exists_lookup_modify, Access.concernsArtifactsOf]
  case enumerated =>
    intro p
    simp only [perProduct_modify]
    split_ifs <;> simp_all
  case tags =>
    intro p t
    simp only [perProduct_modify]
    split_ifs <;> rename_i hp
    · subst hp
      rw [AssocMap.lookup_modify]
      split_ifs <;> simp_all [Access.asksForTag, eq_comm]
    · simp [Access.asksForTag, Ne.symm hp]
  case filePaths =>
    intro p t f
    simp only [requestedFilePaths, perProduct_modify]
    split_ifs <;> rename_i hp
    · subst hp
      rw [AssocMap.lookup_modify]
      by_cases ht : t = tag
      · subst ht
        simp
      · simp [ht]
    · simp
  case allTags =>
    intro p
    simp only [perProduct_modify]
    split_ifs <;> simp_all [Access.registerTags]

theorem notes_setArtifactsEnumerated :
    ArtifactNotes r [(g, .artifactsEnumerated product)] (r.setArtifactsEnumerated product) where
  artifactsMap p := by
    simp [setArtifactsEnumerated, exists_lookup_modify, Access.concernsArtifactsOf]
  enumerated p := by
    simp only [setArtifactsEnumerated, perProduct_modify]
    split_ifs <;> simp_all
  tags p tag := by
    simp only [setArtifactsEnumerated, perProduct_modify]
    split_ifs <;> simp_all [Access.asksForTag]
  filePaths p tag f := by
    simp only [requestedFilePaths, setArtifactsEnumerated, perProduct_modify]
    split_ifs <;> simp_all
  allTags p := by
    simp only [setArtifactsEnumerated, perProduct_modify]
    split_ifs <;> simp_all [Access.registerTags]

end RequestedArtifacts

namespace Notes

theorem refl (e : ScriptEngine) : Notes e [] e where
  properties := rfl
  artifactProperties _ := rfl
  imports := by simp
  dependencies := by simp
  exports := by simp
  artifacts := ArtifactNotes.refl _

theorem trans {e e' e'' : ScriptEngine} {l l' : List (BuildGraph × Access)}
    (h : Notes e l e') (h' : Notes e' l' e'') : Notes e (l ++ l') e'' where
  properties := by
    rw [h'.properties, h.properties, List.filterMap_append, List.foldl_append]
  artifactProperties filePath := by
    rw [h'.artifactProperties, h.artifactProperties, List.filterMap_append, List.foldl_append]
  imports i := by
    simp only [h'.imports, h.imports, List.mem_append, or_assoc, exists_or]
  dependencies p := by
    simp only [h'.dependencies, h.dependencies, List.mem_append, or_assoc, exists_or]
  exports p := by
    simp only [h'.exports, h.exports, List.mem_append, or_assoc, exists_or]
  artifacts := h.artifacts.trans h'.artifacts

/-- An access to an artifacts map only adds to the requested artifacts. -/
theorem of_artifacts {e : ScriptEngine} {a : BuildGraph × Access} {r : RequestedArtifacts}
    {product : ProductId} (ha : Access.concernsArtifactsOf product a)
    (hr : ArtifactNotes e.requestedArtifacts [a] r) :
    Notes e [a] { e with requestedArtifacts := r } := by
  rcases a with ⟨g, a⟩
  cases a <;>
    first
    | exact absurd ha id
    | refine ⟨?_, ?_, ?_, ?_, ?_, hr⟩ <;>
        simp [List.filterMap_cons, Access.property?, Access.artifactProperty?]

end Notes

namespace ScriptEngine

/-- What one access adds to the notes. -/
theorem notes_observe {e e' : ScriptEngine} {a : BuildGraph × Access}
    (h : e.observe a = .ok e') : Notes e [a] e' := by
  rcases a with ⟨g, a⟩
  cases a with
  | property p =>
      cases h
      refine ⟨?_, ?_, ?_, ?_, ?_, ArtifactNotes.of_unconcerned _ fun _ => id⟩ <;>
        simp [List.filterMap_cons, Access.property?, Access.artifactProperty?]
  | artifactProperty filePath p =>
      cases h
      refine ⟨?_, ?_, ?_, ?_, ?_, ArtifactNotes.of_unconcerned _ fun _ => id⟩
      case refine_2 =>
        intro f
        rw [AssocMap.lookup_modify]
        by_cases hf : f = filePath
        · subst hf
          simp [Access.artifactProperty?]
        · simp [Access.artifactProperty?, hf, Ne.symm hf]
      all_goals simp [List.filterMap_cons, Access.property?]
  | importedFiles i =>
      cases h
      refine ⟨?_, ?_, ?_, ?_, ?_, ArtifactNotes.of_unconcerned _ fun _ => id⟩
      case refine_3 =>
        intro j
        simp only [List.mem_singleton, Prod.mk.injEq, Access.importedFiles.injEq]
        split_ifs <;> simp_all
      all_goals simp [List.filterMap_cons, Access.property?, Access.artifactProperty?]
  | dependencies p =>
      cases h
      refine ⟨?_, ?_, ?_, ?_, ?_, ArtifactNotes.of_unconcerned _ fun _ => id⟩ <;>
        simp [List.filterMap_cons, Access.property?, Access.artifactProperty?, or_comm]
  | exports p =>
      cases h
      refine ⟨?_, ?_, ?_, ?_, ?_, ArtifactNotes.of_unconcerned _ fun _ => id⟩ <;>
        simp [List.filterMap_cons, Access.property?, Access.artifactProperty?, or_comm]
  | artifactsMap p forceUpdate =>
      cases h
      exact Notes.of_artifacts (show Access.concernsArtifactsOf p _ from rfl)
        (RequestedArtifacts.notes_setAllArtifactTags _ g p forceUpdate)
  | artifactsForTag p tag =>
      cases h
      exact Notes.of_artifacts (show Access.concernsArtifactsOf p _ from rfl)
        (RequestedArtifacts.notes_setArtifactsForTag _ g p tag)
  | nonExistingTag p tag =>
      rcases Fallible.bind_eq_ok_iff.mp h with ⟨r, hr, h⟩
      cases h
      exact Notes.of_artifacts (show Access.concernsArtifactsOf p _ from rfl)
        (RequestedArtifacts.notes_setNonExistingTagRequested _ g p hr)
  | artifactsEnumerated p =>
      cases h
      exact Notes.of_artifacts (show Access.concernsArtifactsOf p _ from rfl)
        (RequestedArtifacts.notes_setArtifactsEnumerated _ g p)

/-- What a sequence of accesses adds to the notes. -/
theorem notes_foldlM_observe {e e' : ScriptEngine} {l : List (BuildGraph × Access)}
    (h : l.foldlM observe e = .ok e') : Notes e l e' := by
  induction l generalizing e with
  | nil =>
      cases h
      exact Notes.refl _
  | cons a l ih =>
      simp only [List.foldlM_cons, Fallible.bind_eq_ok_iff] at h
      rcases h with ⟨e₁, h₁, h⟩
      exact (notes_observe h₁).trans (ih h)

end ScriptEngine

/-! ## Reads -/

/-- One thing that a script has read, with the value it got. -/
inductive Read where
  | property (p : Property)
  | artifactProperty (filePath : FilePath) (p : Property)
  | importedFile (filePath : FilePath)
  | dependencies (product : ProductId) (names : SortedSet String)
  | artifactsMap (product : ProductId)
  | artifactTags (product : ProductId) (tags : SortedSet FileTag)
  | artifactsForTag (product : ProductId) (tag : FileTag) (filePaths : SortedSet FilePath)
  | exportedModule (product : ProductId) (m : ExportedModule)

/-- The reads of one access. An access to the artifacts of a product is also a read of its
artifacts map, which has a value as long as the product is built at all. -/
def Access.reads (project : Project) (filePathsPerImport : ImportId → List FilePath) :
    BuildGraph × Access → List Read
  | (_, .property _ p) => [.property p]
  | (_, .artifactProperty filePath p) => [.artifactProperty filePath p]
  | (_, .importedFiles usedImport) => (filePathsPerImport usedImport).map .importedFile
  | (_, .dependencies product) => [.dependencies product (project.depNames product)]
  | (_, .artifactsMap product _) => [.artifactsMap product]
  | (g, .artifactsForTag product tag) =>
      [.artifactsMap product,
        .artifactsForTag product tag (g.visibleFilePathsForTag product tag)]
  | (_, .nonExistingTag product tag) => [.artifactsMap product, .artifactsForTag product tag ∅]
  | (g, .artifactsEnumerated product) =>
      [.artifactsMap product, .artifactTags product (g.visibleTags product)]
  | (_, .exports product) => [.exportedModule product (project.exportedModule product)]

/-- The reads that a set of records stands for. -/
def ScriptRecords.Recorded (r : ScriptRecords) : Read → Prop
  | .property p => p ∈ r.propertiesRequested
  | .artifactProperty filePath p =>
      ∃ s, r.propertiesRequestedFromArtifact.lookup filePath = some s ∧ p ∈ s
  | .importedFile filePath => filePath ∈ r.importedFilesUsed
  | .dependencies product names => r.depsRequested.lookup product = some names
  | .artifactsMap product => ∃ ra, r.artifactsMapRequested.lookup product = some ra
  | .artifactTags product tags =>
      ∃ ra, r.artifactsMapRequested.lookup product = some ra ∧
        ra.artifactsEnumerated = true ∧ ra.allTags = tags
  | .artifactsForTag product tag filePaths =>
      ∃ ra, r.artifactsMapRequested.lookup product = some ra ∧
        ra.requestedTags.lookup tag = some filePaths
  | .exportedModule product m => r.exportedModulesAccessed.lookup product = some m

end Qbs
