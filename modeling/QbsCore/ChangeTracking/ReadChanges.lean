import QbsCore.ChangeTracking.PropertyLookup
import QbsCore.ChangeTracking.ScriptRun

/-!
# What has changed since a run

After a run of a script, the project and the files change.  A value that the run has read
of some object has changed if the same object has another one now, whatever the change
tracking looks at.

Main results:

- Theorem {lit}`TrackedState.propertyMapByKind_eq`: the change tracking looks up properties
  in the tree of projects.
- Theorem {lit}`TrackedState.needsRerun_iff`: for reads that it can compare, the change
  tracking reports a script exactly if something has changed.

Current gaps:

- None.
-/

namespace Qbs

/-! ## A context within the tree of projects -/

/-- A product as the change tracking sees it, among the products of the tree. -/
structure ShowsProduct (q : ResolvedProduct) (p : TrackedProduct) : Prop where
  productProperties : q.productProperties = p.productProperties
  moduleProperties : q.moduleProperties = p.moduleProperties
  dependencyParameters :
    q.dependencyParameters = p.dependencyParameters.entries.map fun e => (e.1.name, e.2)
  moduleParameters : q.moduleParameters = p.moduleParameters.entries.map fun e => (e.1, e.2)

/-- What the change tracking compares with, and the tree of projects that it sees by names. -/
structure TrackedState extends TrackingContext where
  tracking : PropertyTracking
  projectName : product.projectName = tracking.project.name
  ownProperties : product.projectProperties = tracking.project.projectProperties
  projects : ∀ name, project.projectProperties name =
    (tracking.projectsByName.lookup name).map ProjectNode.projectProperties
  products : ∀ name,
    Option.Rel ShowsProduct (toTrackingContext.getProduct name) (tracking.findProduct name)

namespace TrackedState

variable (c : TrackedState)

theorem getParameterValue_map {κ : Type} (name : κ → String) (parameters : AssocMap κ VariantMap)
    (depName : String) :
    TrackingContext.getParameterValue (parameters.entries.map fun e => (name e.1, e.2)) depName =
      getParameterValue name parameters depName := by
  unfold TrackingContext.getParameterValue getParameterValue
  congr 1
  induction parameters.entries with
  | nil => rfl
  | cons e l ih =>
      rw [List.map_cons, List.lookup_cons, List.find?_cons]
      by_cases he : name e.1 = depName
      · simp [he]
      · rw [ih]
        have hne : (depName == name e.1) = false := by simpa using Ne.symm he
        simp [he, hne]

/-- The change tracking looks up properties in the tree of projects. -/
theorem propertyMapByKind_eq (p : Property) :
    c.propertyMapByKind p = (c.tracking.propertyMapByKind none p).1 := by
  have hget : ∀ name, (c.tracking.getProduct none name).1 = c.tracking.findProduct name :=
    fun name => (PropertyTracking.getProduct_spec PropertyTracking.lastRight_none name).1
  have hproduct := c.products p.productName
  unfold TrackingContext.propertyMapByKind PropertyTracking.propertyMapByKind
  cases p.kind with
  | propertyInModule =>
      dsimp only
      rw [hget]
      generalize c.getProduct p.productName = q at hproduct
      generalize c.tracking.findProduct p.productName = q' at hproduct
      cases hproduct with
      | none => rfl
      | some h => exact h.moduleProperties
  | propertyInProduct =>
      dsimp only
      rw [hget]
      generalize c.getProduct p.productName = q at hproduct
      generalize c.tracking.findProduct p.productName = q' at hproduct
      cases hproduct with
      | none => rfl
      | some h => exact h.productProperties
  | propertyInProject =>
      dsimp only
      rw [c.projectName]
      split_ifs
      · exact c.ownProperties
      · rw [c.projects]
  | propertyInParameters =>
      dsimp only
      rw [← hget] at hproduct
      generalize c.getProduct p.productName = q at hproduct
      generalize c.tracking.getProduct none p.productName = found at hproduct
      rcases found with ⟨found, last⟩
      dsimp only at hproduct
      cases hproduct with
      | none => rfl
      | @some q q' h =>
          have hmodules := getParameterValue_map id q'.moduleParameters p.dependencyName
          simp only [id_eq] at hmodules
          dsimp only
          rw [h.dependencyParameters, h.moduleParameters, getParameterValue_map ProductKey.name,
            hmodules]
  | propertyInArtifact => rfl

/-! ## Changes -/

/-- The artifact of a product with a path, if there still is one. -/
def artifactNow (filePath : FilePath) (productName : ProductId) : Option NodeId :=
  (c.project.product? productName).bind fun p => c.graph.lookupArtifact p.uniqueName filePath

/-- Whether a property that was read of an object has another value now. -/
def PropertyChanged (object : ReadObject) (p : Property) : Prop :=
  p.value ≠ c.tracking.valueNow p.propertyName object

/-- Whether another read by a script that ran at a time would now give another value. What is gone
has no value any more. -/
def ReadChanged (time : FileTime) : Read → Prop
  | .property _ => False
  | .artifactProperty filePath p =>
      ∀ a, c.artifactNow filePath p.productName = some a →
        if p.kind = .propertyInArtifact
        then (c.graph.artifact a).fileTags.elems ≠ p.value.toStringList
        else p.value ≠ p.valueIn (c.graph.artifact a).properties
  | .importedFile filePath => ∀ t, c.lastModified filePath = some t → time < t
  | .dependencies product names =>
      ∀ p, c.project.product? product = some p → p.depNames ≠ names
  | .artifactsMap product =>
      c.project.product? product = none ∨ c.graph.productData product = none
  | .artifactTags product tags => c.graph.visibleTags product ≠ tags
  | .artifactsForTag product tag filePaths =>
      c.graph.visibleFilePathsForTag product tag ≠ filePaths
  | .exportedModule product m =>
      ∀ p, c.project.product? product = some p → p.exportedModule ≠ m

/-- Whether something that a run has read has changed. -/
def Changed (run : ScriptRun) : Prop :=
  (∃ g object p, (g, .property object p) ∈ run.accesses ∧ c.PropertyChanged object p) ∨
    ∃ a, a ∈ run.reads ∧ c.ReadChanged run.currentTime a

/-- A product that is found if it exists. -/
def FoundIfExists (product : ProductId) : Prop :=
  c.Visible product ∨ c.project.product? product = none

/-- Where the change tracking can compare a property with its present value: the recorded names
identify the object, and the comparison tells different values apart. -/
def PropertyComparable (run : ScriptRun) (object : ReadObject) (p : Property) : Prop :=
  c.tracking.Identified run.product.projectName object ∧
    c.tracking.ToldApart c.sameVariant ⟨object, p.propertyName, p.value⟩

/-- Where the change tracking can compare another read with what it would be now: a product of which
an artifact or the exports were read is found if it exists, and the comparison tells different
values apart; a product whose dependency list was read exists; and no artifact of a requested tag
is hidden from the script. -/
def ReadComparable : Read → Prop
  | .artifactProperty filePath p =>
      c.FoundIfExists p.productName ∧ (p.kind ≠ .propertyInArtifact →
        ∀ a, c.artifactNow filePath p.productName = some a →
          (c.sameVariant p.value (p.valueIn (c.graph.artifact a).properties) = true ↔
            p.value = p.valueIn (c.graph.artifact a).properties))
  | .dependencies product _ => ∃ p, c.project.product? product = some p
  | .artifactTags product _ => c.graph.visibleTags product = c.graph.artifactTags product
  | .artifactsForTag product tag _ =>
      c.graph.visibleFilePathsForTag product tag = c.graph.filePathsForTag product tag
  | .exportedModule product m =>
      c.FoundIfExists product ∧ ∀ p, c.project.product? product = some p →
        (p.exportedModule.isEqual c.sameVariant m = true ↔ p.exportedModule = m)
  | _ => True

/-- Where the change tracking can compare all that a run has read. -/
structure Comparable (run : ScriptRun) : Prop where
  properties : ∀ g object p, (g, .property object p) ∈ run.accesses →
    c.PropertyComparable run object p
  reads : ∀ a, a ∈ run.reads → c.ReadComparable a

/-! ## Reports -/

variable {c}

/-- A product that is found if it exists is the one with its name. -/
theorem getProduct_of_foundIfExists {product : ProductId} (h : c.FoundIfExists product) :
    c.getProduct product = c.project.product? product := by
  rcases h with hvisible | hgone
  · exact c.getProduct_of_visible hvisible
  · by_cases hvisible : c.Visible product
    · exact c.getProduct_of_visible hvisible
    · rw [c.getProduct_of_not_visible hvisible, hgone]

theorem getArtifact_of_foundIfExists {filePath : FilePath} {product : ProductId}
    (h : c.FoundIfExists product) :
    c.getArtifact filePath product = c.artifactNow filePath product := by
  unfold TrackingContext.getArtifact artifactNow
  rw [getProduct_of_foundIfExists h]
  cases c.project.product? product <;> rfl

/-- A property that can be compared is reported exactly if it has changed. -/
theorem reported_property_iff {run : ScriptRun} {g : BuildGraph} {object : ReadObject}
    {p : Property} (hp : (g, .property object p) ∈ run.accesses)
    (h : c.PropertyComparable run object p) :
    c.Reported run.currentTime (.property p) ↔ c.PropertyChanged object p := by
  have hrecorded : p = PropertyTracking.ReadProperty.recorded run.product.projectName
      ⟨object, p.propertyName, p.value⟩ := run.recorded g object p hp
  have hmap : c.propertyMapByKind p = c.tracking.contents (c.tracking.lookedAt p) := by
    rw [propertyMapByKind_eq, (PropertyTracking.propertyMapByKind_eq PropertyTracking.lastRight_none p).1]
  let read : PropertyTracking.ReadProperty := ⟨object, p.propertyName, p.value⟩
  have hidentified : c.tracking.Identified run.product.projectName read.object := h.1
  have hcheck := PropertyTracking.checkForPropertyChange_iff c.sameVariant hidentified
  rw [← hrecorded] at hcheck
  unfold TrackingContext.Reported PropertyChanged
  dsimp only
  rw [hmap, hcheck]
  exact not_congr h.2

/-- Another read that can be compared is reported exactly if it has changed. -/
theorem reported_iff_changed {time : FileTime} {r : Read} (hr : ∀ p, r ≠ .property p)
    (h : c.ReadComparable r) : c.Reported time r ↔ c.ReadChanged time r := by
  cases r with
  | property p => exact absurd rfl (hr p)
  | artifactProperty filePath p =>
      have hartifact : c.getArtifact filePath p.productName =
          c.artifactNow filePath p.productName :=
        getArtifact_of_foundIfExists h.1
      have hsame := h.2
      simp only [TrackingContext.Reported, ReadChanged, TrackingContext.artifactPropertyChanged,
        TrackingContext.checkForPropertyChange, hartifact]
      cases hnow : c.artifactNow filePath p.productName with
      | none => simp
      | some a =>
          cases hkind : p.kind with
          | propertyInArtifact => simp
          | _ => simpa using not_congr (hsame (by simp [hkind]) a hnow)
  | importedFile filePath =>
      simp only [TrackingContext.Reported, ReadChanged, TrackingContext.importFileChanged]
      cases c.lastModified filePath <;> simp
  | dependencies product names =>
      rcases h with ⟨p, hp⟩
      simp [TrackingContext.Reported, ReadChanged, hp]
  | artifactsMap product => rfl
  | artifactTags product tags =>
      simp only [TrackingContext.Reported, ReadChanged]
      rw [show c.graph.visibleTags product = _ from h]
  | artifactsForTag product tag filePaths =>
      simp only [TrackingContext.Reported, ReadChanged]
      rw [show c.graph.visibleFilePathsForTag product tag = _ from h]
  | exportedModule product m =>
      have hequal := h.2
      simp only [TrackingContext.Reported, ReadChanged, TrackingContext.isExportedModuleUpToDate,
        getProduct_of_foundIfExists h.1]
      cases hnow : c.project.product? product with
      | none => simp
      | some p => simpa using not_congr (hequal p hnow)

/-- If the records are exactly what a run has read and all of it can be compared, the script is
reported exactly if something has changed. -/
theorem needsRerun_iff {run : ScriptRun} {r : ScriptRecords} (hexact : run.RecordsExact r)
    (htime : r.lastExecutionTime = run.currentTime) (h : c.Comparable run) :
    c.scriptNeedsRerun r = true ↔ c.Changed run := by
  rw [c.scriptNeedsRerun_iff, htime]
  constructor
  · rintro ⟨a, ha, hreported⟩
    rw [hexact] at ha
    by_cases hproperty : ∃ p, a = .property p
    · rcases hproperty with ⟨p, rfl⟩
      rcases run.property_mem_accesses.mp ha with ⟨g, object, hp⟩
      have hcomparable := h.properties g object p hp
      exact Or.inl ⟨g, object, p, hp, (reported_property_iff hp hcomparable).mp hreported⟩
    · have hother : ∀ p, a ≠ .property p := fun p hp => hproperty ⟨p, hp⟩
      exact Or.inr ⟨a, ha, (reported_iff_changed hother (h.reads a ha)).mp hreported⟩
  · rintro (⟨g, object, p, hp, hchanged⟩ | ⟨a, ha, hchanged⟩)
    · refine ⟨.property p, (hexact _).mpr (run.property_mem_accesses.mpr ⟨g, object, hp⟩), ?_⟩
      exact (reported_property_iff hp (h.properties g object p hp)).mpr hchanged
    · have hother : ∀ p, a ≠ .property p := by
        rintro p rfl
        exact hchanged
      exact ⟨a, (hexact a).mpr ha, (reported_iff_changed hother (h.reads a ha)).mpr hchanged⟩

end TrackedState

end Qbs
