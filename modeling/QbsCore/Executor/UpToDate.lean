import QbsCore.ChangeTracking.Tracker

/-!
# Deciding whether a transformer has to run

An output is up to date when it has a timestamp and neither its children nor its
file dependencies are newer.  From that, the marks of the transformer and the records
of its commands the executor decides whether the commands have to run.

Main results:

- Definitions {lit}`Executor.isUpToDate` and {lit}`Executor.mustExecuteTransformer`.
- Theorem {lit}`Executor.mustExecuteTransformer_of_noTimestamp`: an output that is
  always updated and has no timestamp makes its transformer run.

Current gaps:

- The contents of files on disk are not part of the state, only their times.
-/

namespace Qbs

/-- The options of a build. -/
structure BuildOptions where
  activeFileTags : FileTags
  filesToConsider : List FilePath
  executeRulesOnly : Bool
  keepGoing : Bool
  forceTimestampCheck : Bool
  maxJobCount : Nat

/-- What surrounds one build: the project, the products to build, the options, the times of the
files on disk, none for a file that does not exist, and how values and lists of commands are
compared. -/
structure BuildEnvironment where
  project : Project
  productsToBuild : List ProductId
  options : BuildOptions
  lastModified : FilePath → Option FileTime
  sameVariant : Variant → Variant → Bool
  sameCommands : List Command → List Command → Bool

namespace BuildEnvironment

/-- The timestamp of a file, invalid for a file that does not exist. -/
def timestamp (env : BuildEnvironment) (filePath : FilePath) : FileTime :=
  (env.lastModified filePath).getD 0

/-- The environment after some files were removed from disk. -/
def withoutFiles (env : BuildEnvironment) (removed : List FilePath) : BuildEnvironment :=
  { env with lastModified := fun f => if f ∈ removed then none else env.lastModified f }

/-- What change tracking of a transformer of a product compares with. -/
def trackingContext (env : BuildEnvironment) (g : BuildGraph) (product : ProductId) :
    Option TrackingContext :=
  match h : env.project.product? product with
  | some p => some
      { project := env.project
        graph := g
        product := p
        productsToBuild := env.productsToBuild
        lastModified := env.lastModified
        sameVariant := env.sameVariant
        product_mem := Project.mem_of_product? h }
  | none => none

end BuildEnvironment

namespace BuildGraph

/-- The product of a transformer is the one of its first output. -/
def transformerProduct (g : BuildGraph) (t : TransformerId) : Option ProductId :=
  (g.transformer t).outputs.elems.head?.map g.productOf

/-- Whether the commands of a transformer need to run again; asking takes the request to check
back. -/
def commandsNeedRerun (g : BuildGraph) (env : BuildEnvironment) (t : TransformerId) :
    Bool × BuildGraph :=
  match (g.transformerProduct t).bind (env.trackingContext g) with
  | some c =>
      ((c.commandsNeedRerun (g.transformer t)).1,
        g.modifyTransformer t fun tr => (c.commandsNeedRerun tr).2)
  | none => (false, g)

end BuildGraph

namespace Executor

variable (env : BuildEnvironment)

/-! ## Up-to-date check -/

/-- Whether no artifact of a list is newer than a time. -/
def childrenUpToDate (g : BuildGraph) (time : FileTime) : List NodeId → Except ErrorInfo Bool
  | [] => return true
  | child :: children => do
      qbsCheck (!(g.artifact child).alwaysUpdated || (g.artifact child).hasTimestamp)
        "!childArtifact->alwaysUpdated || childArtifact->timestamp().isValid()"
      if time < (g.artifact child).timestamp then return false
      childrenUpToDate g time children

/-- Whether all file dependencies exist and are not newer than a time. -/
def fileDependenciesUpToDate (time : FileTime) (fileDependencies : List FilePath) : Bool :=
  fileDependencies.all fun f => env.timestamp f ≠ 0 && env.timestamp f ≤ time

/-- The timestamp of an artifact is taken from the file if that is forced. -/
def checkTimestamp (g : BuildGraph) (a : NodeId) : BuildGraph :=
  if env.options.forceTimestampCheck then
    g.setTimestamp a (env.timestamp (g.artifact a).filePath)
  else g

/-- Whether an artifact has a timestamp and nothing that it depends on is newer. -/
def dependenciesUpToDate (g : BuildGraph) (a : NodeId) : Except ErrorInfo Bool := do
  if !(g.artifact a).hasTimestamp then return false
  let children ← childrenUpToDate g (g.artifact a).timestamp (g.childArtifacts a).elems
  return children && fileDependenciesUpToDate env (g.artifact a).timestamp
    (g.artifact a).fileDependencies.elems

/-- Whether an output is up to date. -/
def isUpToDate (g : BuildGraph) (a : NodeId) : Except ErrorInfo (Bool × BuildGraph) := do
  qbsCheck ((g.artifact a).artifactType = .generated) "artifact->artifactType == Artifact::Generated"
  let upToDate ← dependenciesUpToDate env (checkTimestamp env g a) a
  return (upToDate, checkTimestamp env g a)

/-! ## Transformers -/

/-- What the check of the outputs has found: whether some output must be updated, and whether
there are up-to-date outputs that are always updated and others. -/
structure OutputCheck where
  outOfDate : Bool
  hasAlwaysUpdatedArtifacts : Bool
  hasUpToDateNotAlwaysUpdatedArtifacts : Bool

/-- Check the outputs of a transformer until one must be updated. -/
def checkOutputs (g : BuildGraph) (found : OutputCheck) :
    List NodeId → Except ErrorInfo (OutputCheck × BuildGraph)
  | [] => return (found, g)
  | a :: outputs => do
      let (upToDate, g) ← isUpToDate env g a
      if upToDate then
        if (g.artifact a).alwaysUpdated then
          checkOutputs g { found with hasAlwaysUpdatedArtifacts := true } outputs
        else checkOutputs g { found with hasUpToDateNotAlwaysUpdatedArtifacts := true } outputs
      else if (g.artifact a).alwaysUpdated || env.options.forceTimestampCheck then
        return ({ found with outOfDate := true }, g)
      else checkOutputs g found outputs

/-- Whether the commands of a transformer have to run. -/
def mustExecuteTransformer (g : BuildGraph) (t : TransformerId) :
    Except ErrorInfo (Bool × BuildGraph) := do
  if (g.transformer t).alwaysRun then return (true, g)
  if (g.transformer t).markedForRerun then return (true, g)
  let (found, g) ← checkOutputs env g ⟨false, false, false⟩ (g.transformer t).outputs.elems
  if found.outOfDate then return (true, g)
  let (rerun, g) := g.commandsNeedRerun env t
  if rerun then return (true, g)
  return (!found.hasAlwaysUpdatedArtifacts && !found.hasUpToDateNotAlwaysUpdatedArtifacts, g)

/-! ## Outputs without a timestamp -/

/-- An output that is always updated and has no timestamp, neither of its own nor on disk. -/
structure Missing (g : BuildGraph) (a : NodeId) : Prop where
  alwaysUpdated : (g.artifact a).alwaysUpdated = true
  noTimestamp : (g.artifact a).timestamp = 0
  noFile : env.options.forceTimestampCheck = true → env.timestamp (g.artifact a).filePath = 0

variable {env}

variable {g g' : BuildGraph}

variable {a : NodeId}

theorem isUpToDate_graph {upToDate : Bool} (h : isUpToDate env g a = .ok (upToDate, g')) :
    g' = checkTimestamp env g a := by
  unfold isUpToDate at h
  rcases Fallible.bind_eq_ok_iff.mp h with ⟨-, -, h⟩
  rcases Fallible.bind_eq_ok_iff.mp h with ⟨_, _, h⟩
  cases h
  rfl

/-- The check of an output leaves the output that is missing alone. -/
theorem Missing.checkTimestamp (h : Missing env g a) (b : NodeId) :
    Missing env (checkTimestamp env g b) a := by
  unfold Executor.checkTimestamp
  split <;> rename_i hforce
  · by_cases hb : a = b
    · subst hb
      refine ⟨?_, ?_, ?_⟩ <;>
        simp [BuildGraph.setTimestamp, BuildGraph.modifyArtifact, BuildGraph.setArtifact,
          h.alwaysUpdated, h.noFile hforce]
    · refine ⟨?_, ?_, ?_⟩ <;>
        simp [BuildGraph.setTimestamp, BuildGraph.modifyArtifact, BuildGraph.setArtifact, hb,
          h.alwaysUpdated, h.noTimestamp, h.noFile hforce]
  · exact h

theorem Missing.not_upToDate (h : Missing env g a) {upToDate : Bool}
    (hcheck : isUpToDate env g a = .ok (upToDate, g')) : upToDate = false := by
  have hnone := (h.checkTimestamp a).noTimestamp
  unfold isUpToDate at hcheck
  rcases Fallible.bind_eq_ok_iff.mp hcheck with ⟨-, -, hcheck⟩
  rcases Fallible.bind_eq_ok_iff.mp hcheck with ⟨_, hdependencies, hcheck⟩
  cases hcheck
  unfold dependenciesUpToDate at hdependencies
  rw [if_pos (by simp [Artifact.hasTimestamp, hnone])] at hdependencies
  cases hdependencies
  rfl

/-- A missing output among those that are checked is found to be out of date. -/
theorem checkOutputs_of_missing {outputs : List NodeId} {found found' : OutputCheck}
    (h : Missing env g a) (ha : a ∈ outputs)
    (hcheck : checkOutputs env g found outputs = .ok (found', g')) : found'.outOfDate = true := by
  induction outputs generalizing g found with
  | nil => cases ha
  | cons b outputs ih =>
      unfold checkOutputs at hcheck
      rcases Fallible.bind_eq_ok_iff.mp hcheck with ⟨⟨upToDate, g₁⟩, hb, hcheck⟩
      have hg₁ := isUpToDate_graph hb
      have h₁ : Missing env g₁ a := hg₁ ▸ h.checkTimestamp b
      by_cases hab : a = b
      · subst hab
        rw [h.not_upToDate hb] at hcheck
        simp only [Bool.false_eq_true, if_false, h₁.alwaysUpdated, Bool.true_or, if_true] at hcheck
        cases hcheck
        rfl
      · have ha' : a ∈ outputs := (List.mem_cons.mp ha).resolve_left hab
        simp only at hcheck
        split_ifs at hcheck
        · exact ih h₁ ha' hcheck
        · exact ih h₁ ha' hcheck
        · cases hcheck
          rfl
        · exact ih h₁ ha' hcheck

/-- A transformer with an output that is always updated and has no timestamp has to run. -/
theorem mustExecuteTransformer_of_noTimestamp {t : TransformerId} {mustExecute : Bool}
    (h : Missing env g a) (ha : a ∈ (g.transformer t).outputs)
    (hmust : mustExecuteTransformer env g t = .ok (mustExecute, g')) : mustExecute = true := by
  unfold mustExecuteTransformer at hmust
  split at hmust
  · cases hmust
    rfl
  · split at hmust
    · cases hmust
      rfl
    · rcases Fallible.bind_eq_ok_iff.mp hmust with ⟨⟨found, g₁⟩, hfound, hmust⟩
      dsimp only at hmust
      rw [if_pos (checkOutputs_of_missing h ha hfound)] at hmust
      cases hmust
      rfl

end Executor

end Qbs
