import QbsCore.Executor.FilesToConsider
import QbsCore.Executor.Rescue
import QbsCore.Library.StateOp
import QbsCore.Library.TransitionSystem
import QbsCore.Rules.RuleNode
import QbsCore.Tools.JobLimits

/-!
# Scheduling in the executor

The executor takes nodes whose children are built from a queue.  It applies rules, and
it starts a job for each transformer that has to run, as long as the limits of the job
pools permit.  When a job has finished, the executor goes on with the queue.

Main results:

- Definition {lit}`Executor.schedulingBlockedByJobLimit`: whether a node has to wait
  because of a job pool.
- Definition {lit}`Executor.scheduleNode`: what happens to one node of the queue.
- Definitions {lit}`Executor.build` and {lit}`Executor.Step`: the runs of a build.

Current gaps:

- Installing artifacts, progress reports, environment scripts, the retrieval of file
  dependencies and the contents of directories are left out.
- The graph stays as it was where a rule application, a scan or an up-to-date check throws.
- Nodes are taken from the queue in any order.
- The end of a build is posted in the program; here the build has ended at once.
-/

namespace Qbs

/-! ## Jobs and their limits -/

/-- The job pools that the commands of a transformer use. -/
def Transformer.jobPools (t : Transformer) : SortedSet String :=
  SortedSet.ofList ((t.commands.map Command.jobPool).filter fun pool => pool ≠ "")

/-- The address of an executor job. -/
abbrev JobId := Nat

/-- What an executor job executes at the moment. -/
structure JobExecution where
  transformer : Option TransformerId
  jobPools : SortedSet String

/-- A job that executes nothing. -/
def JobExecution.reset : JobExecution :=
  ⟨none, ∅⟩

/-- What a build is started with, apart from the build graph. -/
structure BuildSetup where
  environment : BuildEnvironment
  jobLimitsFromSettings : ProductId → JobLimits
  jobLimits : JobLimits
  productJobLimits : ProductId → JobLimits
  projectJobLimitsTakePrecedence : Bool
  defaultMaxJobCount : Nat
  changedFiles : List FilePath
  forceOutputCheck : Bool

namespace BuildSetup

variable (b : BuildSetup)

def productsToBuild : List ProductId :=
  b.environment.productsToBuild

/-- The limits that count for a product. -/
def effectiveJobLimits (p : ProductId) : JobLimits :=
  if b.projectJobLimitsTakePrecedence then
    (((∅ : JobLimits).update (b.jobLimitsFromSettings p)).update b.jobLimits).update
      (b.productJobLimits p)
  else
    (((∅ : JobLimits).update (b.productJobLimits p)).update (b.jobLimitsFromSettings p)).update
      b.jobLimits

/-- The limits are set up for the products to build. -/
def jobLimitsPerProduct (p : ProductId) : Option JobLimits :=
  if p ∈ b.productsToBuild then some (b.effectiveJobLimits p) else none

def partialBuild : Bool :=
  b.productsToBuild.length ≠ b.environment.project.allProducts.length

def maxJobCount : Nat :=
  if b.environment.options.maxJobCount = 0 then b.defaultMaxJobCount
  else b.environment.options.maxJobCount

end BuildSetup

/-- A file that a scanner has found. -/
inductive ScannedFile where
  | artifact (node : NodeId)
  | file (filePath : FilePath)

/-- What the executor learns from outside while it looks at a node: the time, the files on disk,
what scripts return, and what the scanners find for each output. -/
structure Observations where
  currentTime : FileTime
  lastModified : FilePath → Option FileTime
  scripts : RuleScripts
  dependencies : NodeId → List ScannedFile

/-- The surroundings of the build at the time of an observation. -/
def BuildSetup.environmentAt (b : BuildSetup) (w : Observations) : BuildEnvironment :=
  { b.environment with lastModified := w.lastModified }

inductive ExecutorState where
  | idle
  | running
  | canceling
deriving DecidableEq

/-- The ways in which an operation of the executor does not return: an exception of the program,
a failed lookup in the map of the job limits, of a product or for a transformer without outputs and
so without a product, which no handler catches, and undefined behaviour. -/
inductive Failure where
  | error (e : ErrorInfo)
  | outOfRange (product : ProductId)
  | noProduct
  | undefined

/-- The state of the executor. The scheduling flag says that control is in the loop over the
queue, and nothing happens any more once the process is terminated. -/
structure Executor where
  graph : BuildGraph
  selectedFiles : FilesToConsider.SelectedFiles
  tagsNeededForFilesToConsider : FileTags
  leaves : List NodeId
  delayedLeaves : List NodeId
  availableJobs : List JobId
  processingJobs : List (JobId × TransformerId)
  jobs : JobId → JobExecution
  jobCountPerPool : String → Int
  state : ExecutorState
  scheduling : Bool
  terminated : Bool

/-- An operation of the executor. -/
abbrev ExecutorOp (α : Type) :=
  StateOp Executor Failure α

namespace Executor

/-- An operation on the build graph. -/
def onGraph {α : Type} (f : BuildGraph → Except ErrorInfo (α × BuildGraph)) : ExecutorOp α :=
  StateOp.transform fun s =>
    match f s.graph with
    | .ok (a, g) => (.ok a, { s with graph := g })
    | .error e => (.error (.error e), s)

/-- A check of a condition. -/
def check (cond : Executor → Bool) (condition : String) : ExecutorOp Unit :=
  StateOp.query fun s =>
    if cond s then .ok () else .error (.error (.check condition))

variable (b : BuildSetup) (w : Observations)

/-! ## Job limits -/

/-- Whether a number of jobs reaches the limit of a pool that a transformer's product sets. -/
def jobLimitIsExceeded (s : Executor) (jobPool : String) (t : TransformerId) :
    Except Failure Bool :=
  match s.graph.transformerProduct t with
  | none => .error .noProduct
  | some p =>
      match b.jobLimitsPerProduct p with
      | none => .error (.outOfRange p)
      | some limits =>
          .ok (decide (0 < limits.getLimit jobPool) &&
            decide (limits.getLimit jobPool ≤ s.jobCountPerPool jobPool))

/-- Whether the limit of a pool is reached that the product of some running transformer sets. -/
def exceededForRunningJobs (s : Executor) (jobPool : String) (t : TransformerId) :
    List JobId → Except Failure Bool
  | [] => .ok false
  | job :: jobs =>
      if jobPool ∉ (s.jobs job).jobPools then exceededForRunningJobs s jobPool t jobs
      else
        match (s.jobs job).transformer with
        | none => exceededForRunningJobs s jobPool t jobs
        | some running =>
            if s.graph.transformerProduct running = s.graph.transformerProduct t then
              exceededForRunningJobs s jobPool t jobs
            else do
              let exceeded ← jobLimitIsExceeded b s jobPool running
              if exceeded then .ok true else exceededForRunningJobs s jobPool t jobs

/-- Whether a transformer has to wait because of one of some job pools. -/
def blockedByPools (s : Executor) (t : TransformerId) : List String → Except Failure Bool
  | [] => .ok false
  | jobPool :: jobPools =>
      if s.jobCountPerPool jobPool = 0 then blockedByPools s t jobPools
      else do
        let exceeded ← jobLimitIsExceeded b s jobPool t
        if exceeded then .ok true
        else
          let exceeded ← exceededForRunningJobs b s jobPool t (s.processingJobs.map Prod.fst)
          if exceeded then .ok true else blockedByPools s t jobPools

/-- Whether a node has to wait because of a job pool. -/
def schedulingBlockedByJobLimit (s : Executor) (node : NodeId) : Except Failure Bool :=
  if !s.graph.isArtifact node then .ok false
  else if (s.graph.artifact node).artifactType = .sourceFile then .ok false
  else
    match (s.graph.artifact node).transformer with
    | none => .error .undefined
    | some t => blockedByPools b s t (s.graph.transformer t).jobPools.elems

/-- Count a job for the pools of a transformer. -/
def updateJobCounts (t : TransformerId) (diff : Int) (s : Executor) : Executor :=
  { s with jobCountPerPool := fun pool =>
      if pool ∈ (s.graph.transformer t).jobPools then s.jobCountPerPool pool + diff
      else s.jobCountPerPool pool }

/-! ## The queue -/

/-- The time of a source file: the one on disk, unless the changed files are given. -/
def sourceFileTime (d : Artifact) : FileTime :=
  if b.changedFiles.isEmpty then (w.lastModified d.filePath).getD 0
  else if d.filePath ∈ b.changedFiles then w.currentTime
  else if !d.hasTimestamp then (w.lastModified d.filePath).getD 0
  else d.timestamp

/-- Retrieve the timestamp of a source file. -/
def retrieveSourceFileTimestamp (g : BuildGraph) (a : NodeId) : Except ErrorInfo BuildGraph :=
  let d := g.artifact a
  if sourceFileTime b w d = 0 then throw (.message s!"Source file '{d.filePath}' has disappeared.")
  else return g.modifyArtifact a fun d =>
    { d with timestamp := sourceFileTime b w d, timestampRetrieved := true }

/-- The state of a search for leaves. -/
structure LeafSearch where
  graph : BuildGraph
  seenNodes : NodeSet
  leaves : List NodeId

/-- An untouched node becomes buildable. -/
def touch (g : BuildGraph) (node : NodeId) : Except ErrorInfo BuildGraph :=
  if g.buildState node = .untouched then
    if g.isArtifact node && (g.artifact node).artifactType = .sourceFile then
      retrieveSourceFileTimestamp b w (g.setBuildState node .buildable) node
    else return g.setBuildState node .buildable
  else return g

/-- Search for the leaves below a node. -/
def updateLeavesOfNode : Nat → NodeId → LeafSearch → Except ErrorInfo LeafSearch
  | 0, _, _ => .error .outOfFuel
  | fuel + 1, node, search =>
      if node ∈ search.seenNodes then .ok search
      else do
        let g ← touch b w search.graph node
        let (isLeaf, search) ← (g.children node).elems.foldlM
          (fun (found : Bool × LeafSearch) child =>
            if found.2.graph.buildState child = .built then .ok found
            else (updateLeavesOfNode fuel child found.2).map fun search => (false, search))
          (true, ⟨g, insert node search.seenNodes, search.leaves⟩)
        return if isLeaf then { search with leaves := search.leaves ++ [node] } else search

/-- Put the leaves below some nodes into the queue. -/
def updateLeaves (nodes : NodeSet) : ExecutorOp Unit :=
  StateOp.transform fun s =>
    match nodes.elems.foldlM
        (fun search node => updateLeavesOfNode b w (s.graph.nextNode + 1) node search)
        ⟨s.graph, ∅, s.leaves⟩ with
    | .ok search => (.ok (), { s with graph := search.graph, leaves := search.leaves })
    | .error e => (.error (.error e), s)

/-- A node is built; put its parents into the queue that have no other unbuilt children. -/
def finishNode (s : Executor) (node : NodeId) : Executor :=
  let g := s.graph.setBuildState node .built
  { s with
    graph := g
    leaves := s.leaves ++ (g.parents node).elems.filter fun parent =>
      g.buildState parent = .buildable &&
        (g.children parent).elems.all fun child => g.buildState child = .built }

/-- The outputs of a transformer are built. -/
def finishTransformer (t : TransformerId) (s : Executor) : Executor :=
  let g := s.graph.modifyTransformer t fun d => { d with markedForRerun := false }
  (g.transformer t).outputs.elems.foldl finishNode { s with graph := g }

/-- Whether a node belongs to a product to build. A node of another product counts as built in a
partial build. -/
def checkNodeProduct (node : NodeId) : ExecutorOp Bool :=
  StateOp.transform fun s =>
    if !b.partialBuild || s.graph.productOf node ∈ b.productsToBuild then (.ok true, s)
    else (.ok false, s.finishNode node)

/-! ## Running a transformer -/

/-- Whether an artifact still has to wait for its children; those that were not started are searched
for leaves. -/
def checkForUnbuiltDependencies (a : NodeId) : ExecutorOp Bool := do
  let g ← StateOp.query fun s => .ok s.graph
  let unbuilt := (g.children a).filter fun c =>
    g.buildState c = .untouched || g.buildState c = .buildable
  let building := (g.children a).elems.any fun c => g.buildState c = .building
  if unbuilt.isEmpty && !building then return false
  StateOp.update fun s =>
    { s with graph := s.graph.modifyArtifact a fun d => { d with inputsScanned := false } }
  if !unbuilt.isEmpty then updateLeaves b w unbuilt
  return true

/-- Rescue the old data of an output; returns whether children were added. -/
def rescueOutput (a : NodeId) : ExecutorOp Bool :=
  StateOp.transform fun s =>
    let outcome := rescueOldBuildData b.environment s.graph a
    match outcome.error with
    | some e => (.error (.error e), { s with graph := outcome.graph })
    | none => (.ok outcome.childrenAdded, { s with graph := outcome.graph })

/-- Rescue the old data of some outputs; returns whether the transformer has to wait for a child
that was added. -/
def rescueOutputs : List NodeId → ExecutorOp Bool
  | [] => return false
  | a :: outputs => do
      let childrenAdded ← rescueOutput b a
      let wait ← if childrenAdded then checkForUnbuiltDependencies b w a else pure false
      if wait then return true
      rescueOutputs outputs

/-- Attach a file that was found by a scanner; returns whether a dependency on an artifact was
added. -/
def handleDependency (a : NodeId) (found : BuildGraph × Bool) :
    ScannedFile → Except ErrorInfo (BuildGraph × Bool)
  | .file filePath => do
      let g ← if isFileDependency found.1 filePath then pure found.1
        else found.1.insertFileDependency filePath
      return (g.modifyArtifact a fun d =>
        { d with fileDependencies := insert filePath d.fileDependencies }, found.2)
  | .artifact n =>
      if n = a || (found.1.artifact n).transformer = (found.1.artifact a).transformer ||
          n ∈ found.1.children a then return found
      else do
        let (g, connected) ← found.1.safeConnect a n
        if connected then
          return (g.modifyArtifact a fun d =>
            { d with childrenAddedByScanner := insert n d.childrenAddedByScanner }, true)
        else return (g, true)

/-- Scan the inputs of an output, unless that was done; returns whether a dependency was added. -/
def scan (a : NodeId) (g : BuildGraph) : Except ErrorInfo (Bool × BuildGraph) :=
  if (g.artifact a).inputsScanned then return (false, g)
  else do
    let cleared := g.modifyArtifact a fun d =>
      { d with inputsScanned := true, fileDependencies := ∅, childrenAddedByScanner := ∅ }
    let disconnected := (g.artifact a).childrenAddedByScanner.elems.foldl
      (fun g child => g.disconnect a child) cleared
    let (g, newDependencyAdded) ← (w.dependencies a).foldlM (handleDependency a)
      (disconnected, false)
    return (newDependencyAdded, g)

/-- Scan the inputs of some outputs; returns whether the transformer has to wait for a child that
was added. -/
def scanOutputs : List NodeId → ExecutorOp Bool
  | [] => return false
  | a :: outputs => do
      let newDependencyAdded ← onGraph (scan w a)
      let wait ← if newDependencyAdded then checkForUnbuiltDependencies b w a else pure false
      if wait then return true
      scanOutputs outputs

/-- Whether an artifact has one of the tags that are to be built. -/
def artifactHasMatchingOutputTags (s : Executor) (a : NodeId) : Bool :=
  b.environment.options.activeFileTags.intersects (s.graph.artifact a).fileTags ||
    s.tagsNeededForFilesToConsider.intersects (s.graph.artifact a).fileTags

def transformerHasMatchingOutputTags (s : Executor) (t : TransformerId) : Bool :=
  b.environment.options.activeFileTags.isEmpty ||
    (s.graph.transformer t).outputs.elems.any (s.artifactHasMatchingOutputTags b)

def transformerHasMatchingInputFiles (s : Executor) (t : TransformerId) : Bool :=
  if s.selectedFiles.filesToConsider.isEmpty then true
  else if !(s.graph.transformerProduct t).any fun p =>
      p ∈ s.selectedFiles.productsOfFilesToConsider then false
  else if (s.graph.transformer t).inputs.isEmpty then true
  else (s.graph.transformer t).inputs.elems.any fun input =>
    s.selectedFiles.filesToConsider.any fun filePath =>
      (s.graph.artifact input).filePath = filePath ||
        (s.graph.artifact input).fileTags.intersects s.tagsNeededForFilesToConsider

/-- Take a free job. -/
def takeAvailableJob : ExecutorOp JobId :=
  StateOp.transform fun s =>
    match s.availableJobs with
    | [] => (.error (.error (.check "!m_availableJobs.empty()")), s)
    | job :: jobs => (.ok job, { s with availableJobs := jobs })

/-- Run the commands of a transformer in a job. Without commands the job finishes at once. -/
def runJob (job : JobId) (t : TransformerId) : ExecutorOp Unit := do
  let d ← StateOp.query fun s => .ok (s.graph.transformer t)
  if d.commands.isEmpty then return
  StateOp.update fun s =>
    { s with graph := s.graph.modifyTransformer t fun d =>
        { d with inCommands := { ScriptRecords.empty with lastExecutionTime := w.currentTime } } }
  check (fun s => !(s.graph.transformer t).outputs.isEmpty) "!t->outputs.empty()"
  StateOp.update fun s =>
    { s with jobs := Function.update s.jobs job ⟨some t, (s.graph.transformer t).jobPools⟩ }

/-- The outputs of a transformer are in the works, and a job is to run it. -/
def assignJob (job : JobId) (t : TransformerId) (s : Executor) : Executor :=
  updateJobCounts t 1
    { s with
      graph := (s.graph.transformer t).outputs.elems.foldl
        (fun g a => g.setBuildState a .building) s.graph
      processingJobs := s.processingJobs ++ [(job, t)] }

def runTransformer (t : TransformerId) : ExecutorOp Unit := do
  let job ← takeAvailableJob
  StateOp.update (assignJob job t)
  runJob w job t

/-- Run a transformer unless it has to wait for new children or does not have to run. -/
def potentiallyRunTransformer (t : TransformerId) : ExecutorOp Unit := do
  let outputs ← StateOp.query fun s => .ok (s.graph.transformer t).outputs.elems
  let wait ← rescueOutputs b w outputs
  if wait then return
  let wanted ← StateOp.query fun s =>
    .ok (s.transformerHasMatchingOutputTags b t && s.transformerHasMatchingInputFiles t)
  if !wanted then StateOp.update (finishTransformer t)
  else
    let mustExecute ← onGraph fun g => mustExecuteTransformer (b.environmentAt w) g t
    let wait ←
      if mustExecute || b.environment.options.forceTimestampCheck then scanOutputs b w outputs
      else pure false
    if wait then return
    if !mustExecute || b.environment.options.executeRulesOnly then
      StateOp.update (finishTransformer t)
    else runTransformer w t

/-! ## Looking at a node -/

/-- Build an artifact. Source files are built as soon as their time is known. -/
def buildArtifact (a : NodeId) : ExecutorOp Unit := do
  let d ← StateOp.query fun s => .ok (s.graph.artifact a)
  let ofProduct ← if d.artifactType = .sourceFile then pure true else checkNodeProduct b a
  if !ofProduct then return
  if d.artifactType = .sourceFile then
    if !d.timestampRetrieved then
      onGraph fun g => (retrieveSourceFileTimestamp b w g a).map fun g => ((), g)
    StateOp.update fun s => s.finishNode a
  else
    match d.transformer with
    | none => StateOp.fail (.error (.check "artifact->transformer"))
    | some t => potentiallyRunTransformer b w t

/-- Apply the rule of a rule node. -/
def applyRuleNode (n : NodeId) (g : BuildGraph) :
    Except ErrorInfo ((ArtifactSet × ArtifactSet) × BuildGraph) :=
  match b.environment.project.product? (g.productOf n) with
  | none => throw (.check "product")
  | some product => do
      let result ← RuleNode.apply (b.environmentAt w) product w.scripts g n
      return ((result.createdArtifacts, result.invalidatedArtifacts), result.graph)

def executeRuleNode (n : NodeId) : ExecutorOp Unit := do
  let ofProduct ← checkNodeProduct b n
  if !ofProduct then return
  let result ← onGraph (applyRuleNode b w n)
  updateLeaves b w result.1
  updateLeaves b w result.2
  StateOp.update fun s => s.finishNode n

/-- Look at a buildable node. -/
def visit (node : NodeId) : ExecutorOp Unit := do
  let isArtifact ← StateOp.query fun s => .ok (s.graph.isArtifact node)
  if isArtifact then buildArtifact b w node else executeRuleNode b w node

/-- Look at a node that was taken from the queue: only a buildable one is built, unless it has to
wait because of a job pool. -/
def scheduleNode (node : NodeId) : ExecutorOp Unit := do
  let state ← StateOp.query fun s => .ok (s.graph.buildState node)
  if state = .buildable then
    let blocked ← StateOp.query fun s => s.schedulingBlockedByJobLimit b node
    if blocked then
      StateOp.update fun s => { s with delayedLeaves := s.delayedLeaves ++ [node] }
    else visit b w node

/-! ## The end of jobs and of the build -/

def cancelJobs (s : Executor) : Executor :=
  { s with state := .canceling }

def finish (s : Executor) : Executor :=
  { s with state := .idle }

/-- Handle an exception: the build ends when the running jobs have finished. -/
def handleError (s : Executor) : Executor :=
  if s.processingJobs.isEmpty then finish { s with scheduling := false }
  else cancelJobs { s with scheduling := false }

/-- Perform an operation as its callers do, who handle the exceptions of the program only. -/
def perform (op : ExecutorOp Unit) (s : Executor) : Executor :=
  match op.outcome s with
  | (.ok (), s) => s
  | (.error (.error _), s) => handleError s
  | (.error _, s) => { s with terminated := true }

/-- Take over an output that was built. Outputs that are always updated get the current time and
make the transformers of their parents run again. -/
def finishOutput (a : NodeId) (s : Executor) : Executor :=
  let g := s.graph
  if (g.artifact a).alwaysUpdated then
    { s with
      graph := (g.parentArtifacts a).elems.foldl
        (fun g parent => g.modifyTransformerOf parent fun d => { d with markedForRerun := true })
        (g.setTimestamp a w.currentTime) }
  else
    { s with graph := g.setTimestamp a ((w.lastModified (g.artifact a).filePath).getD 0) }

/-- An output that is always updated must exist if that is to be checked. -/
def checkOutput (a : NodeId) (s : Executor) : Except Failure Unit :=
  let d := s.graph.artifact a
  if d.alwaysUpdated && b.forceOutputCheck && (w.lastModified d.filePath).isNone then
    .error (.error (.message
      s!"Rule declares artifact '{d.filePath}', but the artifact was not produced."))
  else .ok ()

/-- Take over the outputs that were built. -/
def finishOutputs : List NodeId → ExecutorOp Unit
  | [] => return
  | a :: outputs => do
      StateOp.update (finishOutput w a)
      StateOp.query (checkOutput b w a)
      finishOutputs outputs

/-- Release a job that has finished. -/
def releaseJob (job : JobId) (t : TransformerId) (s : Executor) : Executor :=
  updateJobCounts t (-1)
    { s with
      processingJobs := s.processingJobs.filter fun e => e.1 ≠ job
      availableJobs := s.availableJobs ++ [job] }

/-- Find the transformer of a job. -/
def transformerOfJob (job : JobId) : ExecutorOp TransformerId :=
  StateOp.query fun s =>
    match s.processingJobs.find? fun e => e.1 = job with
    | some e => .ok e.2
    | none => .error (.error (.check "it != m_processingJobs.end()"))

/-- Go on after a job has finished: return to the queue, or end the build that was canceled. -/
def continueBuild (success canceled : Bool) (s : Executor) : Executor :=
  let s := if !success && !b.environment.options.keepGoing then cancelJobs s else s
  let s := if s.state = .running && canceled then cancelJobs s else s
  if s.state = .canceling then
    if s.processingJobs.isEmpty then finish s else s
  else { s with scheduling := true, delayedLeaves := [] }

/-- Handle the end of a job. -/
def finishJob (job : JobId) (success canceled : Bool) : ExecutorOp Unit := do
  check (fun s => s.state ≠ .idle) "m_state != ExecutorIdle"
  let t ← transformerOfJob job
  StateOp.update (releaseJob job t)
  if success then
    StateOp.update fun s => { s with graph := s.graph.setDirty }
    let outputs ← StateOp.query fun s => .ok (s.graph.transformer t).outputs.elems
    finishOutputs b w outputs
    StateOp.update (finishTransformer t)
  StateOp.update (continueBuild b success canceled)

/-- Leave the loop over the queue; the build ends if nothing is left, without the delay of the
posted event. -/
def leaveQueue (s : Executor) : Executor :=
  let s := { s with
    leaves := s.leaves ++ s.delayedLeaves, delayedLeaves := [], scheduling := false }
  if s.leaves.isEmpty && s.processingJobs.isEmpty then finish s else s

/-! ## The start of a build -/

/-- Prepare an artifact of a product to build. -/
def prepareArtifact (g : BuildGraph) (a : NodeId) : Except ErrorInfo BuildGraph :=
  let g := g.modifyArtifact a fun d =>
    { d with inputsScanned := false, timestampRetrieved := false }
  if (g.artifact a).artifactType = .sourceFile then retrieveSourceFileTimestamp b w g a
  else return g

/-- Reset the nodes of a product. -/
def untouchNodes (g : BuildGraph) (p : ResolvedProduct) : Except ErrorInfo BuildGraph :=
  if !p.enabled then return g
  else
    match g.productData p.uniqueName with
    | none => throw (.check "product->buildData")
    | some d => return d.nodes.elems.foldl (fun g n => g.setBuildState n .untouched) g

/-- Prepare the artifacts of a product to build. -/
def prepareArtifacts (g : BuildGraph) (p : ProductId) : Except ErrorInfo BuildGraph :=
  match g.productData p with
  | none => throw (.check "product->buildData")
  | some d => (g.filterArtifacts d.nodes).elems.foldlM (prepareArtifact b w) g

def prepareAllNodes (g : BuildGraph) : Except ErrorInfo BuildGraph := do
  let g ← b.environment.project.allProducts.foldlM untouchNodes g
  b.productsToBuild.foldlM (prepareArtifacts b w) g

/-- Nodes are iterated in the order of their addresses. -/
def iterationOrder (g : BuildGraph) :
    FilesToConsider.IterationOrder g b.productsToBuild where
  roots := (FilesToConsider.setupRootNodes g b.productsToBuild).elems
  children n := (g.children n).elems
  mem_roots _ := Iff.rfl
  mem_children _ _ := Iff.rfl

def prepareReachableNodes : ExecutorOp Unit :=
  StateOp.transform fun s =>
    match FilesToConsider.prepareReachableNodes b.environment.project s.graph s.selectedFiles
        (iterationOrder b s.graph) (s.graph.nextNode + 1) with
    | some t =>
        (.ok (), { s with
          graph := { s.graph with buildState := t.buildState }
          tagsNeededForFilesToConsider := t.tagsNeeded })
    | none => (.error (.error .outOfFuel), s)

/-- The executor at the start of a build. -/
def start (g : BuildGraph) : Executor where
  graph := g
  selectedFiles := FilesToConsider.selectFiles g b.productsToBuild
    b.environment.options.filesToConsider
  tagsNeededForFilesToConsider := ∅
  leaves := []
  delayedLeaves := []
  availableJobs := List.range b.maxJobCount
  processingJobs := []
  jobs _ := .reset
  jobCountPerPool _ := 0
  state := .running
  scheduling := false
  terminated := false

/-- Prepare the nodes and go to the queue. Without products nothing is to be done, and the posted
end comes at once. -/
def doBuild : ExecutorOp Unit :=
  if b.productsToBuild.isEmpty then StateOp.update finish
  else do
    onGraph fun g => (prepareAllNodes b w g).map fun g => ((), g)
    prepareReachableNodes b
    let roots ← StateOp.query fun s =>
      .ok (FilesToConsider.setupRootNodes s.graph b.productsToBuild)
    updateLeaves b w roots
    StateOp.update fun s => { s with scheduling := true }

/-- The executor after the start of a build. -/
def build (g : BuildGraph) : Executor :=
  perform (doBuild b w) (start b g)

/-! ## Runs -/

/-- What happens in a build: the next node of the queue is looked at, the loop over the queue ends,
the commands of a job end, the end of a job is handled, or the build is canceled. -/
inductive Event where
  | schedule (node : NodeId) (w : Observations)
  | leaveQueue
  | commandsEnd (job : JobId)
  | jobFinished (job : JobId) (success canceled : Bool) (w : Observations)
  | cancel

/-- Look at a node after it was taken from the queue. -/
def schedule (node : NodeId) (s : Executor) : Executor :=
  perform (scheduleNode b w node) { s with leaves := s.leaves.erase node }

/-- When an event can occur. The end of a job is signalled after its commands have ended, and it
is handled outside of the loop over the queue. -/
def Enabled (s : Executor) : Event → Prop
  | .schedule node _ => s.scheduling = true ∧ node ∈ s.leaves ∧ s.availableJobs ≠ []
  | .leaveQueue => s.scheduling = true ∧ (s.leaves = [] ∨ s.availableJobs = [])
  | .commandsEnd job => (s.jobs job).transformer.isSome
  | .jobFinished job _ _ _ =>
      s.scheduling = false ∧ s.state ≠ .idle ∧ job ∈ s.processingJobs.map Prod.fst ∧
        (s.jobs job).transformer = none
  | .cancel => s.state = .running

instance (s : Executor) : DecidablePred (Enabled s)
  | .schedule node _ =>
      inferInstanceAs (Decidable (s.scheduling = true ∧ node ∈ s.leaves ∧ s.availableJobs ≠ []))
  | .leaveQueue =>
      inferInstanceAs (Decidable (s.scheduling = true ∧ (s.leaves = [] ∨ s.availableJobs = [])))
  | .commandsEnd job => inferInstanceAs (Decidable ((s.jobs job).transformer.isSome = true))
  | .jobFinished job _ _ _ =>
      inferInstanceAs (Decidable (s.scheduling = false ∧ s.state ≠ .idle ∧
        job ∈ s.processingJobs.map Prod.fst ∧ (s.jobs job).transformer = none))
  | .cancel => inferInstanceAs (Decidable (s.state = .running))

/-- The state after an event. -/
def after (s : Executor) : Event → Executor
  | .schedule node w => schedule b w node s
  | .leaveQueue => leaveQueue s
  | .commandsEnd job => { s with jobs := Function.update s.jobs job .reset }
  | .jobFinished job success canceled w => perform (finishJob b w job success canceled) s
  | .cancel => cancelJobs s

/-- One step of a build. Nothing happens after the process has terminated. -/
def Step (s : Executor) (e : Event) (s' : Executor) : Prop :=
  s.terminated = false ∧ Enabled s e ∧ s' = after b s e

end Executor

end Qbs
