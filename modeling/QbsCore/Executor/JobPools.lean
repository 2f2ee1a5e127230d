import QbsCore.Executor.Scheduling
import QbsCore.Rules.NewTransformers

/-!
# Job pools

The executor counts the jobs of each pool.  The counts are right in every state of a
build, and the limits that apply to the running transformers are kept.

Main results:

- Structure {lit}`Executor.JobsConsistent`: the invariant of the executor's jobs.
- Theorem {lit}`Executor.blockedByPools_false`: what is known when a transformer does not
  have to wait.
- Theorem {lit}`Executor.build_poolsRespected`: the job pools are respected in every state
  of a build.

Current gaps:

- None.
-/

namespace Qbs

open BuildGraph

/-- A name of a product of the project. -/
def BuildSetup.IsProduct (b : BuildSetup) (name : ProductId) : Prop :=
  ∃ p, p ∈ b.environment.project.allProducts ∧ p.uniqueName = name

namespace Executor

/-! ## Operations that leave the jobs alone -/

/-- The jobs and their numbers stay the same, and the transformers are left alone. -/
structure JobsUntouched (b : BuildSetup) (s s' : Executor) : Prop where
  availableJobs : s'.availableJobs = s.availableJobs
  processingJobs : s'.processingJobs = s.processingJobs
  jobs : s'.jobs = s.jobs
  jobCountPerPool : s'.jobCountPerPool = s.jobCountPerPool
  graph : s.graph.TransformersSound → ExtendsTransformers b.IsProduct s.graph s'.graph

/-- Only the graph and the queue change, and the transformers are left alone. -/
structure GraphWork (b : BuildSetup) (s s' : Executor) : Prop where
  others : s' = { s with graph := s'.graph, leaves := s'.leaves }
  graph : s.graph.TransformersSound → ExtendsTransformers b.IsProduct s.graph s'.graph

namespace GraphWork

variable {b : BuildSetup} {s s' s'' : Executor}

theorem refl (s : Executor) : GraphWork b s s :=
  ⟨rfl, ExtendsTransformers.refl⟩

theorem trans (h : GraphWork b s s') (h' : GraphWork b s' s'') : GraphWork b s s'' := by
  refine ⟨?_, fun hs => (h.graph hs).trans (h'.graph (h.graph hs).sound)⟩
  rw [h'.others, h.others]

/-- A change of the graph and of the queue that leaves the transformers alone. -/
theorem of_keeps (s : Executor) {g : BuildGraph} (leaves : List NodeId)
    (h : KeepsTransformers s.graph g) : GraphWork b s { s with graph := g, leaves := leaves } :=
  ⟨rfl, h.extendsTransformers⟩

theorem setGraph (s : Executor) {g : BuildGraph} (h : KeepsTransformers s.graph g) :
    GraphWork b s { s with graph := g } :=
  of_keeps s s.leaves h

theorem foldl {ι : Type} {f : Executor → ι → Executor} (hf : ∀ s i, GraphWork b s (f s i))
    (l : List ι) (s : Executor) : GraphWork b s (l.foldl f s) := by
  induction l generalizing s with
  | nil => exact refl s
  | cons i l ih => exact (hf s i).trans (ih (f s i))

theorem jobsUntouched (h : GraphWork b s s') : JobsUntouched b s s' where
  availableJobs := by rw [h.others]
  processingJobs := by rw [h.others]
  jobs := by rw [h.others]
  jobCountPerPool := by rw [h.others]
  graph := h.graph

end GraphWork

namespace JobsUntouched

variable {b : BuildSetup} {s s' s'' : Executor}

theorem trans (h : JobsUntouched b s s') (h' : JobsUntouched b s' s'') : JobsUntouched b s s'' where
  availableJobs := h'.availableJobs.trans h.availableJobs
  processingJobs := h'.processingJobs.trans h.processingJobs
  jobs := h'.jobs.trans h.jobs
  jobCountPerPool := h'.jobCountPerPool.trans h.jobCountPerPool
  graph hs := (h.graph hs).trans (h'.graph (h.graph hs).sound)

/-- A change of the control that leaves the transformers alone. -/
theorem of_keeps (havailable : s'.availableJobs = s.availableJobs)
    (hprocessing : s'.processingJobs = s.processingJobs) (hjobs : s'.jobs = s.jobs)
    (hcounts : s'.jobCountPerPool = s.jobCountPerPool)
    (hgraph : KeepsTransformers s.graph s'.graph) : JobsUntouched b s s' :=
  ⟨havailable, hprocessing, hjobs, hcounts, hgraph.extendsTransformers⟩

end JobsUntouched

/-- An operation that leaves the jobs alone. -/
abbrev LeavesJobs {α : Type} (b : BuildSetup) (op : ExecutorOp α) : Prop :=
  StateOp.Within (JobsUntouched b) op

/-- An operation that only works on the graph and the queue. -/
abbrev WorksOnGraph {α : Type} (b : BuildSetup) (op : ExecutorOp α) : Prop :=
  StateOp.Within (GraphWork b) op

namespace WorksOnGraph

variable {b : BuildSetup} {α β : Type} {op : ExecutorOp α}

theorem pure (a : α) : WorksOnGraph b (Pure.pure a) :=
  StateOp.Within.pure GraphWork.refl a

theorem bind {next : α → ExecutorOp β} (h : WorksOnGraph b op)
    (hnext : ∀ a, WorksOnGraph b (next a)) : WorksOnGraph b (op >>= next) :=
  StateOp.Within.bind (fun _ _ _ hst htu => hst.trans htu) h hnext

theorem query (f : Executor → Except Failure α) : WorksOnGraph b (StateOp.query f) :=
  StateOp.Within.query GraphWork.refl f

theorem onGraph {f : BuildGraph → Except ErrorInfo (α × BuildGraph)}
    (hf : ∀ g a g', f g = .ok (a, g') → g.TransformersSound → ExtendsTransformers b.IsProduct g g') :
    WorksOnGraph b (Executor.onGraph f) := by
  apply StateOp.Within.transform
  intro s
  cases h : f s.graph with
  | error e => exact GraphWork.refl s
  | ok result => exact ⟨rfl, hf s.graph result.1 result.2 h⟩

theorem leavesJobs (h : WorksOnGraph b op) : LeavesJobs b op :=
  h.mono fun _ _ => GraphWork.jobsUntouched

end WorksOnGraph

variable {b : BuildSetup} {w : Observations}

theorem setBuildState_keeps (g : BuildGraph) (n : NodeId) (state : BuildState) :
    KeepsTransformers g (g.setBuildState n state) :=
  KeepsTransformers.of_eq rfl rfl rfl rfl rfl rfl

theorem finishNode_graphWork (s : Executor) (n : NodeId) : GraphWork b s (s.finishNode n) :=
  GraphWork.of_keeps s _ (setBuildState_keeps s.graph n .built)

theorem finishTransformer_graphWork (t : TransformerId) (s : Executor) :
    GraphWork b s (finishTransformer t s) := by
  have hmark : GraphWork b s { s with
      graph := s.graph.modifyTransformer t fun d => { d with markedForRerun := false } } :=
    GraphWork.setGraph s
      (KeepsTransformers.modifyTransformer s.graph t (fun _ => rfl) fun _ _ h => h)
  exact hmark.trans (GraphWork.foldl finishNode_graphWork _ _)

variable {g g' : BuildGraph} {a n : NodeId} {jobPool : String}

theorem retrieveSourceFileTimestamp_keeps (h : retrieveSourceFileTimestamp b w g a = .ok g') :
    KeepsTransformers g g' := by
  unfold retrieveSourceFileTimestamp at h
  dsimp only at h
  split_ifs at h
  cases h
  exact KeepsTransformers.modifyArtifact g a fun _ => rfl

theorem retrieveTimestamp_worksOnGraph (n : NodeId) : WorksOnGraph b
    (onGraph fun g => (retrieveSourceFileTimestamp b w g n).map fun g => ((), g)) := by
  refine WorksOnGraph.onGraph fun g u g' hok hg => ?_
  cases hretrieve : retrieveSourceFileTimestamp b w g n with
  | error e =>
      rw [hretrieve] at hok
      cases hok
  | ok g₁ =>
      rw [hretrieve] at hok
      cases hok
      exact (retrieveSourceFileTimestamp_keeps hretrieve).extendsTransformers hg

theorem touch_keeps (h : touch b w g n = .ok g') :
    KeepsTransformers g g' := by
  unfold touch at h
  split_ifs at h
  · exact (setBuildState_keeps g n .buildable).trans (retrieveSourceFileTimestamp_keeps h)
  · cases h
    exact setBuildState_keeps g n .buildable
  · cases h
    exact KeepsTransformers.refl _

theorem updateLeavesOfNode_keeps {fuel : Nat} {search search' : LeafSearch}
    (h : updateLeavesOfNode b w fuel n search = .ok search') :
    KeepsTransformers search.graph search'.graph := by
  induction fuel generalizing n search search' with
  | zero => cases h
  | succ fuel ih =>
      unfold updateLeavesOfNode at h
      split_ifs at h
      · cases h
        exact KeepsTransformers.refl _
      · simp only [Fallible.bind_eq_ok_iff, Fallible.pure_eq_ok_iff] at h
        rcases h with ⟨g, htouch, ⟨isLeaf, search₁⟩, hloop, heq⟩
        have hchildren : KeepsTransformers g search₁.graph := by
          refine Fallible.foldlM_invariant
            (P := fun found : Bool × LeafSearch => KeepsTransformers g found.2.graph) ?_
            (KeepsTransformers.refl g) hloop
          intro found child found' _ hfound hok
          split_ifs at hok
          · cases hok
            exact hfound
          · cases hrec : updateLeavesOfNode b w fuel child found.2 with
            | error e =>
                rw [hrec] at hok
                cases hok
            | ok search₂ =>
                rw [hrec] at hok
                cases hok
                exact hfound.trans (ih hrec)
        have hall := (touch_keeps htouch).trans hchildren
        rw [← heq]
        split_ifs
        · exact hall
        · exact hall

theorem updateLeaves_worksOnGraph (nodes : NodeSet) : WorksOnGraph b (updateLeaves b w nodes) := by
  apply StateOp.Within.transform
  intro s
  cases h : nodes.elems.foldlM
      (fun search node => updateLeavesOfNode b w (s.graph.nextNode + 1) node search)
      (⟨s.graph, ∅, s.leaves⟩ : LeafSearch) with
  | error e =>
      exact GraphWork.refl s
  | ok search =>
      have hkeeps : KeepsTransformers s.graph search.graph :=
        Fallible.foldlM_invariant
          (P := fun search : LeafSearch => KeepsTransformers s.graph search.graph)
          (fun _ _ _ _ hsearch hok => hsearch.trans (updateLeavesOfNode_keeps hok))
          (KeepsTransformers.refl _) h
      exact GraphWork.of_keeps s _ hkeeps

theorem checkNodeProduct_worksOnGraph (n : NodeId) : WorksOnGraph b (checkNodeProduct b n) := by
  apply StateOp.Within.transform
  intro s
  split_ifs
  · exact GraphWork.refl s
  · exact finishNode_graphWork s n

theorem checkForUnbuiltDependencies_worksOnGraph (a : NodeId) :
    WorksOnGraph b (checkForUnbuiltDependencies b w a) := by
  unfold checkForUnbuiltDependencies
  refine WorksOnGraph.bind (WorksOnGraph.query _) fun g => ?_
  have hmark : WorksOnGraph b (StateOp.update fun s : Executor =>
      { s with graph := s.graph.modifyArtifact a fun d => { d with inputsScanned := false } }) :=
    StateOp.Within.update fun s => GraphWork.setGraph s
      (KeepsTransformers.modifyArtifact s.graph a fun _ => rfl)
  dsimp only
  split_ifs
  · exact WorksOnGraph.pure false
  · exact WorksOnGraph.bind hmark fun _ =>
      WorksOnGraph.bind (updateLeaves_worksOnGraph _) fun _ => WorksOnGraph.pure true
  · exact WorksOnGraph.bind hmark fun _ => WorksOnGraph.pure true

theorem rescueOutput_worksOnGraph (a : NodeId) : WorksOnGraph b (rescueOutput b a) := by
  apply StateOp.Within.transform
  intro s
  have hrescue : GraphWork b s { s with graph := (rescueOldBuildData b.environment s.graph a).graph } :=
    GraphWork.setGraph s (rescueOldBuildData_keeps b.environment s.graph a)
  dsimp only
  split
  · exact hrescue
  · exact hrescue

/-- A loop over outputs that ends when some output has to wait for its children. -/
theorem wait_worksOnGraph {op : ExecutorOp Bool} (hop : WorksOnGraph b op) (a : NodeId)
    {rest : ExecutorOp Bool} (hrest : WorksOnGraph b rest) :
    WorksOnGraph b (do
      let found ← op
      let wait ← if found then checkForUnbuiltDependencies b w a else Pure.pure false
      if wait then return true
      rest) := by
  refine WorksOnGraph.bind hop fun found => ?_
  dsimp only
  split_ifs
  · refine WorksOnGraph.bind (checkForUnbuiltDependencies_worksOnGraph a) fun wait => ?_
    split_ifs
    · exact WorksOnGraph.pure true
    · exact hrest
  · exact hrest

theorem rescueOutputs_worksOnGraph (outputs : List NodeId) :
    WorksOnGraph b (rescueOutputs b w outputs) := by
  induction outputs with
  | nil => exact WorksOnGraph.pure false
  | cons a outputs ih => exact wait_worksOnGraph (rescueOutput_worksOnGraph a) a ih

theorem insertFileDependency_keeps {filePath : FilePath}
    (h : g.insertFileDependency filePath = .ok g') : KeepsTransformers g g' := by
  rcases insertIntoLookupTable_cases h with ⟨-, rfl⟩
  refine ⟨rfl, rfl, rfl, fun _ _ h => h, fun _ => rfl, fun _ _ h => h, ?_⟩
  intro f a ha
  by_cases hf : f = filePath
  · rw [hf]
    simpa [hf] using ha
  · simpa [hf] using ha

theorem handleDependency_keeps {added added' : Bool} {found : ScannedFile}
    (h : handleDependency a (g, added) found = .ok (g', added')) :
    KeepsTransformers g g' := by
  cases found with
  | file filePath =>
      simp only [handleDependency] at h
      split_ifs at h
      · cases h
        exact KeepsTransformers.modifyArtifact g a fun _ => rfl
      · simp only [Fallible.bind_eq_ok_iff, Fallible.pure_eq_ok_iff, Prod.mk.injEq] at h
        rcases h with ⟨g₁, hinsert, rfl, -⟩
        exact (insertFileDependency_keeps hinsert).trans
          (KeepsTransformers.modifyArtifact g₁ a fun _ => rfl)
  | artifact n =>
      simp only [handleDependency] at h
      split_ifs at h
      · cases h
        exact KeepsTransformers.refl _
      · simp only [Fallible.bind_eq_ok_iff] at h
        rcases h with ⟨⟨g₁, connected⟩, hconnect, h⟩
        have hg₁ := KeepsTransformers.safeConnect hconnect
        dsimp only at h
        split_ifs at h
        · cases h
          exact hg₁.trans (KeepsTransformers.modifyArtifact g₁ a fun _ => rfl)
        · cases h
          exact hg₁

theorem scan_keeps {added : Bool} (h : scan w a g = .ok (added, g')) : KeepsTransformers g g' := by
  unfold scan at h
  split_ifs at h
  · cases h
    exact KeepsTransformers.refl _
  · simp only [Fallible.bind_eq_ok_iff, Fallible.pure_eq_ok_iff, Prod.mk.injEq] at h
    rcases h with ⟨⟨g₁, added₁⟩, hloop, -, rfl⟩
    have hcleared := KeepsTransformers.modifyArtifact g a (f := fun d =>
      { d with inputsScanned := true, fileDependencies := ∅, childrenAddedByScanner := ∅ })
      fun _ => rfl
    have hdisconnected := hcleared.trans (KeepsTransformers.foldl
      (fun g child => KeepsTransformers.disconnect g a child)
      (g.artifact a).childrenAddedByScanner.elems _)
    exact Fallible.foldlM_invariant
      (P := fun found : BuildGraph × Bool => KeepsTransformers g found.1)
      (fun _ _ _ _ hfound hok => hfound.trans (handleDependency_keeps hok)) hdisconnected hloop

theorem scanOutputs_worksOnGraph (outputs : List NodeId) : WorksOnGraph b (scanOutputs b w outputs) := by
  induction outputs with
  | nil => exact WorksOnGraph.pure false
  | cons a outputs ih =>
      have hscan : WorksOnGraph b (onGraph (scan w a)) :=
        WorksOnGraph.onGraph fun _ _ _ hok hsound => (scan_keeps hok).extendsTransformers hsound
      exact wait_worksOnGraph hscan a ih

theorem mustExecute_worksOnGraph (t : TransformerId) :
    WorksOnGraph b (onGraph fun g => mustExecuteTransformer (b.environmentAt w) g t) :=
  WorksOnGraph.onGraph fun _ _ _ hok hsound =>
    (mustExecuteTransformer_keeps hok).extendsTransformers hsound

theorem applyRuleNode_extends {sets : ArtifactSet × ArtifactSet}
    (h : applyRuleNode b w n g = .ok (sets, g')) (hg : g.TransformersSound) :
    ExtendsTransformers b.IsProduct g g' := by
  unfold applyRuleNode at h
  split at h
  · cases h
  · simp only [Fallible.bind_eq_ok_iff, Fallible.pure_eq_ok_iff, Prod.mk.injEq] at h
    rename_i product hproduct
    rcases h with ⟨result, happly, -, rfl⟩
    exact RuleNode.apply_extends hg ⟨product, Project.mem_of_product? hproduct, rfl⟩ happly

theorem executeRuleNode_worksOnGraph (n : NodeId) : WorksOnGraph b (executeRuleNode b w n) := by
  unfold executeRuleNode
  refine WorksOnGraph.bind (checkNodeProduct_worksOnGraph n) fun ofProduct => ?_
  split_ifs
  · exact WorksOnGraph.pure ()
  · refine WorksOnGraph.bind (WorksOnGraph.onGraph fun _ _ _ hok hg => applyRuleNode_extends hok hg)
      fun result => ?_
    refine WorksOnGraph.bind (updateLeaves_worksOnGraph result.1) fun _ => ?_
    refine WorksOnGraph.bind (updateLeaves_worksOnGraph result.2) fun _ => ?_
    exact StateOp.Within.update fun s => finishNode_graphWork s n

theorem finishOutput_graphWork (a : NodeId) (s : Executor) :
    GraphWork b s (finishOutput w a s) := by
  unfold finishOutput
  dsimp only
  split_ifs
  · refine GraphWork.setGraph s ((KeepsTransformers.setTimestamp s.graph a w.currentTime).trans
      (KeepsTransformers.foldl (fun g parent => ?_) _ _))
    exact KeepsTransformers.modifyTransformerOf g parent (fun _ => rfl) fun _ _ h => h
  · exact GraphWork.setGraph s (KeepsTransformers.setTimestamp s.graph a _)

theorem finishOutputs_worksOnGraph (outputs : List NodeId) :
    WorksOnGraph b (finishOutputs b w outputs) := by
  induction outputs with
  | nil => exact WorksOnGraph.pure ()
  | cons a outputs ih =>
      refine WorksOnGraph.bind (StateOp.Within.update (finishOutput_graphWork a)) fun _ => ?_
      exact WorksOnGraph.bind (WorksOnGraph.query _) fun _ => ih

/-! ## Rules for operations with a job -/

section Rules

variable {P₀ P Q E : Executor → Prop} {t : TransformerId}

/-- What holds before a transformer is started only has to be kept by work on the graph. -/
theorem potentiallyRunTransformer_triple (hwork : ∀ s s', P s → GraphWork b s s' → P s')
    (hPQ : ∀ s, P s → Q s)
    (hrun : StateOp.Triple P (runTransformer w t) (fun _ => Q) (fun _ => Q)) :
    StateOp.Triple P (potentiallyRunTransformer b w t) (fun _ => Q) (fun _ => Q) := by
  have hkeeps : ∀ {α : Type} {op : ExecutorOp α}, WorksOnGraph b op →
      StateOp.Triple P op (fun _ => P) (fun _ => Q) :=
    fun hop => (hop.keeps hwork).weaken (fun _ h => h) (fun _ _ h => h) fun _ s h => hPQ s h
  have hreturn : StateOp.Triple P (Pure.pure () : ExecutorOp Unit) (fun _ => Q) (fun _ => Q) :=
    fun s hs => hPQ s hs
  have hfinish : StateOp.Triple P (StateOp.update (finishTransformer t) : ExecutorOp Unit)
      (fun _ => Q) (fun _ => Q) :=
    fun s hs => hPQ _ (hwork s _ hs (finishTransformer_graphWork t s))
  unfold potentiallyRunTransformer
  refine StateOp.Triple.bind (hkeeps (WorksOnGraph.query _)) fun outputs => ?_
  refine StateOp.Triple.bind (hkeeps (rescueOutputs_worksOnGraph outputs)) fun wait => ?_
  split_ifs
  · exact hreturn
  refine StateOp.Triple.bind (hkeeps (WorksOnGraph.query _)) fun wanted => ?_
  split_ifs
  · exact hfinish
  refine StateOp.Triple.bind (hkeeps (mustExecute_worksOnGraph t)) fun mustExecute => ?_
  have hrest : ∀ wait : Bool, StateOp.Triple P
      (if wait then Pure.pure () else
        if !mustExecute || b.environment.options.executeRulesOnly then
          StateOp.update (finishTransformer t)
        else runTransformer w t) (fun _ => Q) (fun _ => Q) := by
    intro wait
    split_ifs
    · exact hreturn
    · exact hfinish
    · exact hrun
  dsimp only
  split
  · exact StateOp.Triple.bind (hkeeps (scanOutputs_worksOnGraph outputs)) hrest
  · exact StateOp.Triple.bind (hkeeps (WorksOnGraph.pure false)) hrest

/-- The entry of a job is found. -/
theorem transformerOfJob_spec (job : JobId) :
    StateOp.Triple P (transformerOfJob job) (fun t s => P s ∧ (job, t) ∈ s.processingJobs)
      (fun _ => P) := by
  intro s hs
  unfold transformerOfJob
  rw [StateOp.outcome_query]
  cases hfind : s.processingJobs.find? fun e => decide (e.1 = job) with
  | none => exact hs
  | some e =>
      have hjob : e.1 = job := by simpa using List.find?_some hfind
      have hmem := List.mem_of_find?_eq_some hfind
      exact ⟨hs, hjob ▸ hmem⟩

/-- What holds after a job was released only has to be kept by work on the graph, until the build
goes on. -/
theorem finishJob_triple {job : JobId} {success canceled : Bool} (hP₀ : ∀ s, P₀ s → E s)
    (hrelease : ∀ s t, P₀ s → (job, t) ∈ s.processingJobs → P (releaseJob job t s))
    (hwork : ∀ s s', P s → GraphWork b s s' → P s') (hP : ∀ s, P s → E s)
    (hcontinue : ∀ s, P s → Q (continueBuild b success canceled s)) :
    StateOp.Triple P₀ (finishJob b w job success canceled) (fun _ => Q) (fun _ => E) := by
  have hkeeps : ∀ {α : Type} {op : ExecutorOp α}, WorksOnGraph b op →
      StateOp.Triple P op (fun _ => P) (fun _ => E) :=
    fun hop => (hop.keeps hwork).weaken (fun _ h => h) (fun _ _ h => h) fun _ s h => hP s h
  have hend : StateOp.Triple P
      (StateOp.update (continueBuild b success canceled) : ExecutorOp Unit) (fun _ => Q)
      (fun _ => E) :=
    fun s hs => hcontinue s hs
  have hdirty : WorksOnGraph b (StateOp.update fun s : Executor =>
      { s with graph := s.graph.setDirty }) :=
    StateOp.Within.update fun s =>
      GraphWork.setGraph s (KeepsTransformers.of_eq rfl rfl rfl rfl rfl rfl)
  unfold finishJob
  refine StateOp.Triple.bind (Q := fun _ => P₀) ((StateOp.Keeps.query _).weaken (fun _ h => h)
    (fun _ _ h => h) fun _ s h => hP₀ s h) fun _ => ?_
  refine StateOp.Triple.bind ((transformerOfJob_spec job).weaken (fun _ h => h) (fun _ _ h => h)
    fun _ s h => hP₀ s h) fun t => ?_
  refine StateOp.Triple.bind (Q := fun _ => P) (fun s hs => hrelease s t hs.1 hs.2) fun _ => ?_
  dsimp only
  split
  · refine StateOp.Triple.bind (hkeeps hdirty) fun _ => ?_
    refine StateOp.Triple.bind (hkeeps (WorksOnGraph.query _)) fun outputs => ?_
    refine StateOp.Triple.bind (hkeeps (finishOutputs_worksOnGraph outputs)) fun _ => ?_
    exact StateOp.Triple.bind
      (hkeeps (StateOp.Within.update (finishTransformer_graphWork t))) fun _ => hend
  · exact hend

/-- What holds after an operation, or after the handling of its exception. -/
theorem perform_triple {op : ExecutorOp Unit} (hop : StateOp.Triple P op (fun _ => Q) (fun _ => E))
    (herror : ∀ s, E s → Q (handleError s)) (hend : ∀ s, E s → Q { s with terminated := true })
    {s : Executor} (hs : P s) : Q (perform op s) := by
  have h := hop s hs
  unfold perform
  rcases hout : op.outcome s with ⟨e | u, t⟩
  · rw [hout] at h
    cases e with
    | error e => exact herror t h
    | outOfRange p => exact hend t h
    | noProduct => exact hend t h
    | undefined => exact hend t h
  · rw [hout] at h
    exact h

end Rules

theorem continueBuild_untouched (success canceled : Bool) (s : Executor) :
    JobsUntouched b s (continueBuild b success canceled s) := by
  unfold continueBuild cancelJobs finish
  dsimp only
  split_ifs <;> exact JobsUntouched.of_keeps rfl rfl rfl rfl (KeepsTransformers.refl _)

/-! ## The invariant of the jobs -/

/-- The entries of the running jobs whose transformers use a pool. -/
def entriesOfPool (s : Executor) (jobPool : String) : List (JobId × TransformerId) :=
  s.processingJobs.filter fun e => decide (jobPool ∈ (s.graph.transformer e.2).jobPools)

/-- A number of jobs of the pools of a transformer is within the limits of its product. -/
def WithinLimits (b : BuildSetup) (g : BuildGraph) (t : TransformerId) (jobPool : String)
    (count : Int) : Prop :=
  ∀ p, g.transformerProduct t = some p → 0 < (b.effectiveJobLimits p).getLimit jobPool →
    count ≤ (b.effectiveJobLimits p).getLimit jobPool

/-- A transformer is there, with all of its outputs in one of some products. -/
structure Established (products : ProductId → Prop) (g : BuildGraph) (t : TransformerId) :
    Prop where
  lt : t < g.nextTransformer
  oneProduct : ∃ q, products q ∧ ∀ a, a ∈ (g.transformer t).outputs → g.productOf a = q

/-- The invariant of the jobs: a job is free or has one entry, whatever executes has an entry, the
counts are right, and the limits are kept that the products of the executing transformers set.
All entries are about transformers of some products. -/
structure JobsConsistent (b : BuildSetup) (products : ProductId → Prop) (s : Executor) : Prop where
  sound : s.graph.TransformersSound
  entries_nodup : (s.processingJobs.map Prod.fst).Nodup
  available_nodup : s.availableJobs.Nodup
  available_free : ∀ job, job ∈ s.availableJobs → job ∉ s.processingJobs.map Prod.fst
  established : ∀ e, e ∈ s.processingJobs → Established products s.graph e.2
  executes : ∀ job t, (s.jobs job).transformer = some t →
    (job, t) ∈ s.processingJobs ∧ (s.jobs job).jobPools = (s.graph.transformer t).jobPools
  counts : ∀ jobPool, s.jobCountPerPool jobPool = (s.entriesOfPool jobPool).length
  limits : ∀ job t, (s.jobs job).transformer = some t →
    ∀ jobPool, jobPool ∈ (s.graph.transformer t).jobPools →
      WithinLimits b s.graph t jobPool (s.jobCountPerPool jobPool)

variable {products known : ProductId → Prop} {s s' : Executor} {g g' : BuildGraph} {t : TransformerId}

theorem jobPools_eq (hg : ExtendsTransformers known g g') (ht : t < g.nextTransformer) :
    (g'.transformer t).jobPools = (g.transformer t).jobPools := by
  unfold Transformer.jobPools
  rw [hg.commands t ht]

theorem Established.extends (h : Established products g t) (hsound : g.TransformersSound)
    (hg : ExtendsTransformers known g g') : Established products g' t := by
  refine ⟨h.lt.trans_le hg.nextTransformer_le, ?_⟩
  rcases h.oneProduct with ⟨q, hknown, hq⟩
  refine ⟨q, hknown, fun a ha => ?_⟩
  have hold := hg.outputs t h.lt a ha
  rw [hg.productOf a (hsound.outputs_lt t a hold)]
  exact hq a hold

theorem Established.transformerProduct_of_output (h : Established products g t)
    (ha : a ∈ (g.transformer t).outputs) : g.transformerProduct t = some (g.productOf a) := by
  rcases h.oneProduct with ⟨q, -, hq⟩
  unfold transformerProduct
  cases hl : (g.transformer t).outputs.elems with
  | nil =>
      rw [SortedSet.mem_def, hl] at ha
      cases ha
  | cons c l =>
      have hc : c ∈ (g.transformer t).outputs := by
        rw [SortedSet.mem_def, hl]
        exact List.mem_cons_self
      simp [hq c hc, hq a ha]

theorem Established.product (h : Established products g t) {p : ProductId}
    (hp : g.transformerProduct t = some p) : products p := by
  rcases Option.map_eq_some_iff.mp hp with ⟨a, ha, rfl⟩
  rcases h.oneProduct with ⟨q, hq, houtputs⟩
  have hmem : a ∈ (g.transformer t).outputs := List.mem_of_mem_head? ha
  rw [houtputs a hmem]
  exact hq

/-- A transformer that still has outputs stays in its product. -/
theorem Established.transformerProduct_eq (h : Established products g t)
    (hsound : g.TransformersSound) (hg : ExtendsTransformers known g g') {p : ProductId}
    (hp : g'.transformerProduct t = some p) :
    g.transformerProduct t = some p := by
  rcases Option.map_eq_some_iff.mp hp with ⟨a, ha, rfl⟩
  have hmem : a ∈ (g'.transformer t).outputs := List.mem_of_mem_head? ha
  have hold := hg.outputs t h.lt a hmem
  rw [h.transformerProduct_of_output hold, hg.productOf a (hsound.outputs_lt t a hold)]

theorem WithinLimits.extends {count : Int} (h : WithinLimits b g t jobPool count)
    (ht : Established products g t) (hsound : g.TransformersSound)
    (hg : ExtendsTransformers known g g') :
    WithinLimits b g' t jobPool count :=
  fun p hp hpos => h p (ht.transformerProduct_eq hsound hg hp) hpos

theorem entriesOfPool_eq (hprocessing : s'.processingJobs = s.processingJobs)
    (hpools : ∀ e, e ∈ s.processingJobs →
      (s'.graph.transformer e.2).jobPools = (s.graph.transformer e.2).jobPools) (jobPool : String) :
    s'.entriesOfPool jobPool = s.entriesOfPool jobPool := by
  unfold entriesOfPool
  rw [hprocessing]
  refine List.filter_congr ?_
  intro e he
  rw [hpools e he]

/-- Operations that leave the jobs alone keep the invariant. -/
theorem JobsConsistent.untouched (h : JobsConsistent b products s) (hs : JobsUntouched b s s') :
    JobsConsistent b products s' := by
  have hg := hs.graph h.sound
  have hpools : ∀ e, e ∈ s.processingJobs →
      (s'.graph.transformer e.2).jobPools = (s.graph.transformer e.2).jobPools :=
    fun e he => jobPools_eq hg (h.established e he).lt
  constructor
  · exact hg.sound
  · rw [hs.processingJobs]
    exact h.entries_nodup
  · rw [hs.availableJobs]
    exact h.available_nodup
  · rw [hs.availableJobs, hs.processingJobs]
    exact h.available_free
  · rw [hs.processingJobs]
    exact fun e he => (h.established e he).extends h.sound hg
  · rw [hs.processingJobs, hs.jobs]
    intro job t ht
    rcases h.executes job t ht with ⟨hmem, heq⟩
    exact ⟨hmem, heq.trans (hpools (job, t) hmem).symm⟩
  · intro jobPool
    rw [hs.jobCountPerPool, entriesOfPool_eq hs.processingJobs hpools]
    exact h.counts jobPool
  · rw [hs.jobs, hs.jobCountPerPool]
    intro job t hrunning jobPool hpool
    have hmem := (h.executes job t hrunning).1
    rw [hpools (job, t) hmem] at hpool
    exact (h.limits job t hrunning jobPool hpool).extends (h.established _ hmem) h.sound hg

theorem JobsConsistent.leavesJobs {α : Type} {op : ExecutorOp α} (hop : LeavesJobs b op) :
    StateOp.Keeps (JobsConsistent b products) op :=
  hop.keeps fun _ _ h hs => h.untouched hs

/-! ## Transformers that do not have to wait -/

/-- One more job for a transformer keeps the limits that its product and the products of the
executing transformers set. -/
structure Admitted (b : BuildSetup) (products : ProductId → Prop) (t : TransformerId)
    (s : Executor) : Prop where
  established : Established products s.graph t
  own : ∀ jobPool, jobPool ∈ (s.graph.transformer t).jobPools →
    WithinLimits b s.graph t jobPool (s.jobCountPerPool jobPool + 1)
  others : ∀ job running, (s.jobs job).transformer = some running →
    ∀ jobPool, jobPool ∈ (s.graph.transformer t).jobPools →
      jobPool ∈ (s.graph.transformer running).jobPools →
        WithinLimits b s.graph running jobPool (s.jobCountPerPool jobPool + 1)

theorem Admitted.untouched (h : Admitted b products t s) (hc : JobsConsistent b products s)
    (hs : JobsUntouched b s s') : Admitted b products t s' := by
  have hg := hs.graph hc.sound
  have hpools := jobPools_eq hg h.established.lt
  refine ⟨h.established.extends hc.sound hg, ?_, ?_⟩
  · rw [hpools, hs.jobCountPerPool]
    intro jobPool hpool
    exact (h.own jobPool hpool).extends h.established hc.sound hg
  · rw [hpools, hs.jobs, hs.jobCountPerPool]
    intro job running hrunning jobPool hpool hpool'
    have hestablished := hc.established _ (hc.executes job running hrunning).1
    rw [jobPools_eq hg hestablished.lt] at hpool'
    exact (h.others job running hrunning jobPool hpool hpool').extends hestablished hc.sound hg

/-- A limit that is not reached leaves room for one more job. -/
theorem withinLimits_of_not_exceeded (h : jobLimitIsExceeded b s jobPool t = .ok false) :
    WithinLimits b s.graph t jobPool (s.jobCountPerPool jobPool + 1) := by
  intro p hp hpos
  unfold jobLimitIsExceeded at h
  rw [hp] at h
  simp only at h
  split at h
  · cases h
  · rename_i limits hlimits
    unfold BuildSetup.jobLimitsPerProduct at hlimits
    split_ifs at hlimits
    cases hlimits
    simp only [Except.ok.injEq, Bool.and_eq_false_iff, decide_eq_false_iff_not] at h
    omega

theorem exceededForRunningJobs_false {jobs : List JobId}
    (h : exceededForRunningJobs b s jobPool t jobs = .ok false) {job : JobId} (hjob : job ∈ jobs)
    (hpool : jobPool ∈ (s.jobs job).jobPools) {running : TransformerId}
    (hrunning : (s.jobs job).transformer = some running) :
    s.graph.transformerProduct running = s.graph.transformerProduct t ∨
      jobLimitIsExceeded b s jobPool running = .ok false := by
  induction jobs with
  | nil => cases hjob
  | cons first jobs ih =>
      unfold exceededForRunningJobs at h
      rcases List.mem_cons.mp hjob with rfl | hjob
      · rw [if_neg (not_not.mpr hpool), hrunning] at h
        simp only at h
        split_ifs at h with hsame
        · exact Or.inl hsame
        · rcases Fallible.bind_eq_ok_iff.mp h with ⟨exceeded, hexceeded, h⟩
          cases exceeded with
          | true => cases h
          | false => exact Or.inr hexceeded
      · refine ih ?_ hjob
        split_ifs at h
        · split at h
          · exact h
          · split_ifs at h
            · exact h
            · rcases Fallible.bind_eq_ok_iff.mp h with ⟨exceeded, -, h⟩
              cases exceeded with
              | true => cases h
              | false => exact h
        · exact h

/-- What is known of a pool when a transformer does not have to wait: it is empty, or no limit is
reached. -/
theorem blockedByPools_false {jobPools : List String}
    (h : blockedByPools b s t jobPools = .ok false) (hpool : jobPool ∈ jobPools) :
    s.jobCountPerPool jobPool = 0 ∨ jobLimitIsExceeded b s jobPool t = .ok false ∧
      exceededForRunningJobs b s jobPool t (s.processingJobs.map Prod.fst) = .ok false := by
  induction jobPools with
  | nil => cases hpool
  | cons first jobPools ih =>
      unfold blockedByPools at h
      rcases List.mem_cons.mp hpool with rfl | hpool
      · split_ifs at h with hzero
        · exact Or.inl hzero
        · rcases Fallible.bind_eq_ok_iff.mp h with ⟨exceeded, hexceeded, h⟩
          cases exceeded with
          | true => cases h
          | false =>
              rcases Fallible.bind_eq_ok_iff.mp h with ⟨exceeded', hexceeded', h⟩
              cases exceeded' with
              | true => cases h
              | false => exact Or.inr ⟨hexceeded, hexceeded'⟩
      · refine ih ?_ hpool
        split_ifs at h
        · exact h
        · rcases Fallible.bind_eq_ok_iff.mp h with ⟨exceeded, -, h⟩
          cases exceeded with
          | true => cases h
          | false =>
              rcases Fallible.bind_eq_ok_iff.mp h with ⟨exceeded', -, h⟩
              cases exceeded' with
              | true => cases h
              | false => exact h

/-- The pool of a running job is not empty. -/
theorem JobsConsistent.count_pos (h : JobsConsistent b products s) {e : JobId × TransformerId}
    (he : e ∈ s.processingJobs) (hpool : jobPool ∈ (s.graph.transformer e.2).jobPools) :
    0 < s.jobCountPerPool jobPool := by
  have hmem : e ∈ s.entriesOfPool jobPool := List.mem_filter.mpr ⟨he, by simpa using hpool⟩
  have hlength := List.length_pos_of_mem hmem
  rw [h.counts jobPool]
  omega

/-- The transformer of a node that does not have to wait can be started. -/
theorem admitted_of_not_blocked (h : JobsConsistent b products s)
    (hnode : s.schedulingBlockedByJobLimit b n = .ok false)
    (hartifact : s.graph.isArtifact n = true)
    (htype : (s.graph.artifact n).artifactType ≠ .sourceFile)
    (hn : (s.graph.artifact n).transformer = some t) (hproduct : products (s.graph.productOf n)) :
    Admitted b products t s := by
  have hestablished : Established products s.graph t :=
    ⟨(h.sound.owner_lt n t hn).2, s.graph.productOf n, hproduct,
      h.sound.outputs_productOf n t hn⟩
  unfold schedulingBlockedByJobLimit at hnode
  rw [hn] at hnode
  simp only [hartifact, Bool.not_true, Bool.false_eq_true, if_false, if_neg htype] at hnode
  refine ⟨hestablished, ?_, ?_⟩
  · intro jobPool hpool
    rcases blockedByPools_false hnode hpool with hzero | ⟨hown, -⟩
    · intro p _ hpos
      omega
    · exact withinLimits_of_not_exceeded hown
  · intro job running hrunning jobPool hpool hpool'
    rcases h.executes job running hrunning with ⟨hmem, hpools⟩
    rcases blockedByPools_false hnode hpool with hzero | ⟨hown, hothers⟩
    · have hpos := h.count_pos hmem hpool'
      omega
    · rcases exceededForRunningJobs_false hothers (List.mem_map_of_mem hmem)
        (by rw [hpools]; exact hpool') hrunning with hsame | hother
      · intro p hp hpos
        exact withinLimits_of_not_exceeded hown p (hsame ▸ hp) hpos
      · exact withinLimits_of_not_exceeded hother

/-! ## Starting a job -/

/-- A job was taken to run a transformer that does not have to wait. -/
structure Taken (b : BuildSetup) (products : ProductId → Prop) (job : JobId) (t : TransformerId)
    (s : Executor) : Prop where
  consistent : JobsConsistent b products s
  admitted : Admitted b products t s
  not_available : job ∉ s.availableJobs
  no_entry : job ∉ s.processingJobs.map Prod.fst

/-- A job has an entry, and there is room for it in the pools of its transformer. -/
structure Assigned (b : BuildSetup) (products : ProductId → Prop) (job : JobId) (t : TransformerId)
    (s : Executor) : Prop where
  consistent : JobsConsistent b products s
  entry : (job, t) ∈ s.processingJobs
  room : ∀ jobPool, jobPool ∈ (s.graph.transformer t).jobPools →
    WithinLimits b s.graph t jobPool (s.jobCountPerPool jobPool)

variable {job : JobId}

theorem takeAvailableJob_spec :
    StateOp.Triple (fun s => JobsConsistent b products s ∧ Admitted b products t s) takeAvailableJob
      (fun job => Taken b products job t) (fun _ => JobsConsistent b products) := by
  rintro s ⟨hs, ht⟩
  unfold takeAvailableJob
  rw [StateOp.outcome_transform]
  cases havailable : s.availableJobs with
  | nil => exact hs
  | cons job jobs =>
      have hnodup := hs.available_nodup
      rw [havailable, List.nodup_cons] at hnodup
      have hfree : ∀ j, j ∈ jobs → j ∈ s.availableJobs := by
        intro j hj
        rw [havailable]
        exact List.mem_cons_of_mem _ hj
      have hjob : job ∈ s.availableJobs := by
        rw [havailable]
        exact List.mem_cons_self
      refine ⟨⟨hs.sound, hs.entries_nodup, hnodup.2, fun j hj => hs.available_free j (hfree j hj),
        hs.established, hs.executes, hs.counts, hs.limits⟩,
        ⟨ht.established, ht.own, ht.others⟩, hnodup.1, ?_⟩
      exact hs.available_free job hjob

/-- The state with the outputs of a transformer in the works. -/
def markOutputs (t : TransformerId) (s : Executor) : Executor :=
  { s with
    graph := (s.graph.transformer t).outputs.elems.foldl
      (fun g a => g.setBuildState a .building) s.graph }

theorem markOutputs_untouched (t : TransformerId) (s : Executor) :
    JobsUntouched b s (markOutputs t s) :=
  (GraphWork.setGraph s
    (KeepsTransformers.foldl (fun g a => setBuildState_keeps g a .building) _ _)).jobsUntouched

theorem Taken.markOutputs (h : Taken b products job t s) :
    Taken b products job t (Executor.markOutputs t s) where
  consistent := h.consistent.untouched (markOutputs_untouched t s)
  admitted := h.admitted.untouched h.consistent (markOutputs_untouched t s)
  not_available := h.not_available
  no_entry := h.no_entry

/-- A new entry, with the jobs of its pools counted. -/
def addEntry (job : JobId) (t : TransformerId) (s : Executor) : Executor :=
  updateJobCounts t 1 { s with processingJobs := s.processingJobs ++ [(job, t)] }

theorem addEntry_count (job : JobId) (t : TransformerId) (s : Executor) (jobPool : String) :
    (addEntry job t s).jobCountPerPool jobPool =
      if jobPool ∈ (s.graph.transformer t).jobPools then s.jobCountPerPool jobPool + 1
      else s.jobCountPerPool jobPool :=
  rfl

theorem addEntry_entriesOfPool (job : JobId) (t : TransformerId) (s : Executor)
    (jobPool : String) : (addEntry job t s).entriesOfPool jobPool =
      s.entriesOfPool jobPool ++
        if jobPool ∈ (s.graph.transformer t).jobPools then [(job, t)] else [] := by
  show (s.processingJobs ++ [(job, t)]).filter _ = _
  rw [List.filter_append]
  congr 1
  by_cases hpool : jobPool ∈ (s.graph.transformer t).jobPools
  · simp [addEntry, updateJobCounts, hpool]
  · simp [addEntry, updateJobCounts, hpool]

theorem Taken.addEntry (h : Taken b products job t s) :
    Assigned b products job t (Executor.addEntry job t s) := by
  have hc := h.consistent
  have hgraph : (Executor.addEntry job t s).graph = s.graph := rfl
  have hentries : (Executor.addEntry job t s).processingJobs = s.processingJobs ++ [(job, t)] := rfl
  have hkeys : (Executor.addEntry job t s).processingJobs.map Prod.fst =
      s.processingJobs.map Prod.fst ++ [job] := by
    rw [hentries, List.map_append]
    rfl
  refine ⟨⟨hc.sound, ?_, hc.available_nodup, ?_, ?_, ?_, ?_, ?_⟩, ?_, ?_⟩
  · rw [hkeys, List.nodup_append]
    refine ⟨hc.entries_nodup, List.nodup_singleton job, ?_⟩
    intro j hj j' hj' heq
    rw [List.mem_singleton.mp hj'] at heq
    exact h.no_entry (heq ▸ hj)
  · rw [hkeys]
    intro j hj hmem
    rcases List.mem_append.mp hmem with hmem | hmem
    · exact hc.available_free j hj hmem
    · rw [List.mem_singleton.mp hmem] at hj
      exact h.not_available hj
  · rw [hentries, hgraph]
    intro e he
    rcases List.mem_append.mp he with he | he
    · exact hc.established e he
    · rw [List.mem_singleton.mp he]
      exact h.admitted.established
  · rw [hentries]
    intro j t' ht'
    rcases hc.executes j t' ht' with ⟨hmem, heq⟩
    exact ⟨List.mem_append_left _ hmem, heq⟩
  · intro jobPool
    rw [addEntry_count, addEntry_entriesOfPool, hc.counts jobPool]
    split_ifs
    · simp
    · simp
  · intro j t' hrunning jobPool hpool
    rw [addEntry_count]
    split_ifs with hpool'
    · exact h.admitted.others j t' hrunning jobPool hpool' hpool
    · exact hc.limits j t' hrunning jobPool hpool
  · rw [hentries]
    exact List.mem_append_right _ List.mem_cons_self
  · intro jobPool hpool
    rw [hgraph] at hpool ⊢
    rw [addEntry_count, if_pos hpool]
    exact h.admitted.own jobPool hpool

theorem Assigned.untouched (h : Assigned b products job t s) (hs : JobsUntouched b s s') :
    Assigned b products job t s' := by
  have hg := hs.graph h.consistent.sound
  have hestablished : Established products s.graph t := h.consistent.established _ h.entry
  refine ⟨h.consistent.untouched hs, ?_, ?_⟩
  · rw [hs.processingJobs]
    exact h.entry
  · rw [jobPools_eq hg hestablished.lt, hs.jobCountPerPool]
    exact fun jobPool hpool =>
      (h.room jobPool hpool).extends hestablished h.consistent.sound hg

/-- The job of an entry executes its transformer. -/
theorem Assigned.execute (h : Assigned b products job t s) :
    JobsConsistent b products { s with
      jobs := Function.update s.jobs job ⟨some t, (s.graph.transformer t).jobPools⟩ } := by
  have hc := h.consistent
  refine ⟨hc.sound, hc.entries_nodup, hc.available_nodup, hc.available_free, hc.established,
    ?_, hc.counts, ?_⟩
  · intro j t' ht'
    by_cases hj : j = job
    · simp only [hj, Function.update_self, Option.some.injEq] at ht' ⊢
      rw [← ht']
      exact ⟨h.entry, rfl⟩
    · simp only [Function.update_of_ne hj] at ht' ⊢
      exact hc.executes j t' ht'
  · intro j t' ht' jobPool hpool
    by_cases hj : j = job
    · simp only [hj, Function.update_self, Option.some.injEq] at ht'
      rw [← ht'] at hpool ⊢
      exact h.room jobPool hpool
    · simp only [Function.update_of_ne hj] at ht'
      exact hc.limits j t' ht' jobPool hpool

theorem runJob_spec :
    StateOp.Triple (Assigned b products job t) (runJob w job t) (fun _ => JobsConsistent b products)
      (fun _ => JobsConsistent b products) := by
  have hassigned : ∀ {α : Type} {op : ExecutorOp α}, WorksOnGraph b op →
      StateOp.Triple (Assigned b products job t) op (fun _ => Assigned b products job t)
        (fun _ => JobsConsistent b products) :=
    fun hop => (hop.leavesJobs.keeps fun _ _ h hs => h.untouched hs).weaken (fun _ h => h)
      (fun _ _ h => h) fun _ _ h => h.consistent
  have hrecords : WorksOnGraph b (StateOp.update fun s : Executor =>
      { s with graph := s.graph.modifyTransformer t fun d =>
          { d with inCommands :=
              { ScriptRecords.empty with lastExecutionTime := w.currentTime } } }) :=
    StateOp.Within.update fun s => GraphWork.setGraph s
      (KeepsTransformers.modifyTransformer s.graph t (fun _ => rfl) fun _ _ h => h)
  unfold runJob
  refine StateOp.Triple.bind (hassigned (WorksOnGraph.query _)) fun d => ?_
  split_ifs
  · exact fun s hs => hs.consistent
  · refine StateOp.Triple.bind (hassigned hrecords) fun _ => ?_
    refine StateOp.Triple.bind (hassigned (WorksOnGraph.query _)) fun _ => ?_
    exact fun s hs => hs.execute

theorem runTransformer_spec :
    StateOp.Triple (fun s => JobsConsistent b products s ∧ Admitted b products t s)
      (runTransformer w t) (fun _ => JobsConsistent b products)
      (fun _ => JobsConsistent b products) := by
  unfold runTransformer
  refine StateOp.Triple.bind takeAvailableJob_spec fun job => ?_
  refine StateOp.Triple.bind (Q := fun _ => Assigned b products job t) ?_ fun _ => runJob_spec
  exact fun s hs => hs.markOutputs.addEntry

theorem potentiallyRunTransformer_spec :
    StateOp.Triple (fun s => JobsConsistent b products s ∧ Admitted b products t s)
      (potentiallyRunTransformer b w t) (fun _ => JobsConsistent b products)
      (fun _ => JobsConsistent b products) :=
  potentiallyRunTransformer_triple
    (fun _ _ hs hwork =>
      ⟨hs.1.untouched hwork.jobsUntouched, hs.2.untouched hs.1 hwork.jobsUntouched⟩)
    (fun _ hs => hs.1) runTransformer_spec

/-! ## Looking at a node -/

/-- The product of a node whose transformer may be started is one of some products. -/
def Startable (b : BuildSetup) (products : ProductId → Prop) (n : NodeId) (s : Executor) : Prop :=
  ∀ t, (s.graph.artifact n).transformer = some t →
    (b.partialBuild = true → s.graph.productOf n ∈ b.productsToBuild) →
      products (s.graph.productOf n)

/-- A node was found to be one that does not have to wait. -/
structure Unblocked (b : BuildSetup) (products : ProductId → Prop) (n : NodeId) (s : Executor) :
    Prop where
  consistent : JobsConsistent b products s
  startable : Startable b products n s
  unblocked : s.schedulingBlockedByJobLimit b n = .ok false

theorem buildArtifact_spec (n : NodeId) :
    StateOp.Triple (fun s => Unblocked b products n s ∧ s.graph.isArtifact n = true)
      (buildArtifact b w n) (fun _ => JobsConsistent b products)
      (fun _ => JobsConsistent b products) := by
  rintro s ⟨hs, hartifact⟩
  have hfinish : WorksOnGraph b (StateOp.update fun s : Executor => s.finishNode n) :=
    StateOp.Within.update fun s => finishNode_graphWork s n
  unfold buildArtifact
  by_cases htype : (s.graph.artifact n).artifactType = .sourceFile
  · have hsource : WorksOnGraph b (do
        if !(s.graph.artifact n).timestampRetrieved then
          onGraph fun g => (retrieveSourceFileTimestamp b w g n).map fun g => ((), g)
        StateOp.update fun s => s.finishNode n) := by
      dsimp only
      split_ifs
      · exact WorksOnGraph.bind (retrieveTimestamp_worksOnGraph n) fun _ => hfinish
      · exact hfinish
    have hspec := JobsConsistent.leavesJobs hsource.leavesJobs s hs.consistent
    simpa [StateOp.outcome_bind, htype] using hspec
  · by_cases hproduct : (!b.partialBuild || s.graph.productOf n ∈ b.productsToBuild) = true
    · have hcheck : (checkNodeProduct b n).outcome s = (.ok true, s) := by
        unfold checkNodeProduct
        rw [StateOp.outcome_transform, if_pos hproduct]
      cases hn : (s.graph.artifact n).transformer with
      | none => simpa [StateOp.outcome_bind, htype, hcheck, hn] using hs.consistent
      | some t =>
          have hwanted : b.partialBuild = true → s.graph.productOf n ∈ b.productsToBuild := by
            intro hsome
            simpa [hsome] using hproduct
          have hadmitted := admitted_of_not_blocked hs.consistent hs.unblocked hartifact htype hn
            (hs.startable t hn hwanted)
          have hspec := potentiallyRunTransformer_spec (w := w) s ⟨hs.consistent, hadmitted⟩
          simpa [StateOp.outcome_bind, htype, hcheck, hn] using hspec
    · have hcheck : (checkNodeProduct b n).outcome s = (.ok false, s.finishNode n) := by
        unfold checkNodeProduct
        rw [StateOp.outcome_transform, if_neg hproduct]
      have hfinished := hs.consistent.untouched (finishNode_graphWork s n).jobsUntouched
      simpa [StateOp.outcome_bind, htype, hcheck] using hfinished

theorem scheduleNode_spec (n : NodeId) :
    StateOp.Triple (fun s => JobsConsistent b products s ∧ Startable b products n s)
      (scheduleNode b w n) (fun _ => JobsConsistent b products)
      (fun _ => JobsConsistent b products) := by
  unfold scheduleNode
  refine StateOp.Triple.bind (Q := fun _ s => JobsConsistent b products s ∧
    Startable b products n s) (fun s hs => hs) fun state => ?_
  split
  · refine StateOp.Triple.bind (Q := fun blocked s => (JobsConsistent b products s ∧
      Startable b products n s) ∧ s.schedulingBlockedByJobLimit b n = .ok blocked) ?_
      fun blocked => ?_
    · exact (StateOp.Triple.query _).weaken (fun _ h => h) (fun _ _ h => h) fun _ _ h => h.1.1
    · cases blocked with
      | true =>
          intro s hs
          exact hs.1.1.untouched (JobsUntouched.of_keeps rfl rfl rfl rfl (KeepsTransformers.refl _))
      | false =>
          unfold visit
          refine StateOp.Triple.bind (Q := fun isArtifact s => Unblocked b products n s ∧
            s.graph.isArtifact n = isArtifact) ?_ fun isArtifact => ?_
          · intro s hs
            exact ⟨⟨hs.1.1, hs.1.2, hs.2⟩, rfl⟩
          · cases isArtifact with
            | true => exact buildArtifact_spec n
            | false =>
                intro s hs
                exact JobsConsistent.leavesJobs (executeRuleNode_worksOnGraph n).leavesJobs s
                  hs.1.consistent
  · exact fun s hs => hs.1

/-! ## The end of a job -/

variable {t : TransformerId}

/-- Removing the entry of a job removes it from the entries of its pools. -/
theorem length_filter_entry {l : List (JobId × TransformerId)} (hnodup : (l.map Prod.fst).Nodup)
    {job : JobId} (hmem : (job, t) ∈ l) (q : JobId × TransformerId → Bool) :
    ((l.filter fun e => e.1 ≠ job).filter q).length + (if q (job, t) then 1 else 0) =
      (l.filter q).length := by
  induction l with
  | nil => cases hmem
  | cons e l ih =>
      rw [List.map_cons, List.nodup_cons] at hnodup
      rcases List.mem_cons.mp hmem with rfl | hmem
      · have hrest : (l.filter fun e => decide (e.1 ≠ job)) = l := by
          refine List.filter_eq_self.mpr ?_
          intro e he
          have hkey : e.1 ∈ l.map Prod.fst := List.mem_map_of_mem he
          have hne : e.1 ≠ job := fun heq => hnodup.1 (heq ▸ hkey)
          simpa using hne
        rw [List.filter_cons_of_neg (by simp), hrest, List.filter_cons]
        split_ifs
        · rw [List.length_cons]
        · rfl
      · have hkey : job ∈ l.map Prod.fst := List.mem_map_of_mem hmem
        have hne : e.1 ≠ job := by
          intro heq
          exact hnodup.1 (heq ▸ hkey)
        have hih := ih hnodup.2 hmem
        rw [List.filter_cons_of_pos (by simpa using hne)]
        by_cases he : q e = true
        · rw [List.filter_cons_of_pos he, List.filter_cons_of_pos he, List.length_cons,
            List.length_cons]
          omega
        · rw [List.filter_cons_of_neg he, List.filter_cons_of_neg he]
          exact hih

theorem releaseJob_count (job : JobId) (t : TransformerId) (s : Executor) (jobPool : String) :
    (releaseJob job t s).jobCountPerPool jobPool =
      if jobPool ∈ (s.graph.transformer t).jobPools then s.jobCountPerPool jobPool - 1
      else s.jobCountPerPool jobPool :=
  rfl

/-- Releasing a job that has finished keeps the invariant. -/
theorem JobsConsistent.releaseJob (h : JobsConsistent b products s)
    (hentry : (job, t) ∈ s.processingJobs) (hreset : (s.jobs job).transformer = none) :
    JobsConsistent b products (Executor.releaseJob job t s) := by
  have hentries : (Executor.releaseJob job t s).processingJobs =
      s.processingJobs.filter fun e => e.1 ≠ job := rfl
  have hgraph : (Executor.releaseJob job t s).graph = s.graph := rfl
  have hmem : ∀ e, e ∈ (Executor.releaseJob job t s).processingJobs →
      e ∈ s.processingJobs ∧ e.1 ≠ job := by
    intro e he
    simpa [hentries] using he
  have hkeys : ∀ j, j ∈ (Executor.releaseJob job t s).processingJobs.map Prod.fst →
      j ∈ s.processingJobs.map Prod.fst ∧ j ≠ job := by
    intro j hj
    rcases List.mem_map.mp hj with ⟨e, he, rfl⟩
    exact ⟨List.mem_map_of_mem (hmem e he).1, (hmem e he).2⟩
  have havailable : (Executor.releaseJob job t s).availableJobs = s.availableJobs ++ [job] := rfl
  have hkey : job ∈ s.processingJobs.map Prod.fst := List.mem_map_of_mem hentry
  refine ⟨h.sound, ?_, ?_, ?_, fun e he => h.established e (hmem e he).1, ?_, ?_, ?_⟩
  · rw [hentries]
    exact h.entries_nodup.sublist (List.filter_sublist.map Prod.fst)
  · rw [havailable, List.nodup_append]
    refine ⟨h.available_nodup, List.nodup_singleton job, ?_⟩
    intro j hj j' hj' heq
    rw [List.mem_singleton.mp hj'] at heq
    exact h.available_free j hj (heq ▸ hkey)
  · rw [havailable]
    intro j hj hmem
    rcases List.mem_append.mp hj with hj | hj
    · exact h.available_free j hj (hkeys j hmem).1
    · exact (hkeys j hmem).2 (List.mem_singleton.mp hj)
  · intro j t' ht'
    rcases h.executes j t' ht' with ⟨hold, hpools⟩
    have hne : j ≠ job := by
      intro heq
      rw [heq] at ht'
      exact absurd (hreset.symm.trans ht') (by simp)
    rw [hentries, List.mem_filter]
    exact ⟨⟨hold, by simpa using hne⟩, hpools⟩
  · intro jobPool
    have hlength := length_filter_entry h.entries_nodup hentry
      fun e => decide (jobPool ∈ (s.graph.transformer e.2).jobPools)
    have hcount := h.counts jobPool
    unfold entriesOfPool at hcount ⊢
    rw [releaseJob_count, hentries, hgraph, hcount]
    simp only [decide_eq_true_eq] at hlength
    split_ifs at hlength ⊢ <;> omega
  · intro j t' hrunning jobPool hpool p hp hpos
    have hle := h.limits j t' hrunning jobPool hpool p hp hpos
    rw [releaseJob_count]
    split_ifs <;> omega

theorem finishJob_spec (job : JobId) (success canceled : Bool) :
    StateOp.Triple (fun s => JobsConsistent b products s ∧ (s.jobs job).transformer = none)
      (finishJob b w job success canceled) (fun _ => JobsConsistent b products)
      (fun _ => JobsConsistent b products) :=
  finishJob_triple (P := JobsConsistent b products) (fun _ hs => hs.1)
    (fun _ _ hs hentry => hs.1.releaseJob hentry hs.2)
    (fun _ _ hs hwork => hs.untouched hwork.jobsUntouched) (fun _ hs => hs)
    fun s hs => hs.untouched (continueBuild_untouched success canceled s)

/-! ## The start of a build -/

theorem prepareArtifact_keeps (h : prepareArtifact b w g a = .ok g') :
    KeepsTransformers g g' := by
  have hreset := KeepsTransformers.modifyArtifact g a (f := fun d =>
    { d with inputsScanned := false, timestampRetrieved := false }) fun _ => rfl
  unfold prepareArtifact at h
  dsimp only at h
  split_ifs at h
  · exact hreset.trans (retrieveSourceFileTimestamp_keeps h)
  · cases h
    exact hreset

theorem untouchNodes_keeps {product : ResolvedProduct} (h : untouchNodes g product = .ok g') :
    KeepsTransformers g g' := by
  unfold untouchNodes at h
  split_ifs at h
  · cases h
    exact KeepsTransformers.refl _
  · split at h
    · cases h
    · cases h
      exact KeepsTransformers.foldl (fun g n => setBuildState_keeps g n .untouched) _ _

theorem prepareArtifacts_keeps {product : ProductId} (h : prepareArtifacts b w g product = .ok g') :
    KeepsTransformers g g' := by
  unfold prepareArtifacts at h
  split at h
  · cases h
  · exact Fallible.foldlM_invariant (P := fun g' => KeepsTransformers g g')
      (fun _ _ _ _ hsofar hok => hsofar.trans (prepareArtifact_keeps hok))
      (KeepsTransformers.refl g) h

theorem prepareAllNodes_keeps (h : prepareAllNodes b w g = .ok g') : KeepsTransformers g g' := by
  unfold prepareAllNodes at h
  rcases Fallible.bind_eq_ok_iff.mp h with ⟨g₁, hreset, hprepare⟩
  have huntouched : KeepsTransformers g g₁ :=
    Fallible.foldlM_invariant (P := fun g' => KeepsTransformers g g')
      (fun _ _ _ _ hsofar hok => hsofar.trans (untouchNodes_keeps hok))
      (KeepsTransformers.refl g) hreset
  exact Fallible.foldlM_invariant (P := fun g' => KeepsTransformers g g')
    (fun _ _ _ _ hsofar hok => hsofar.trans (prepareArtifacts_keeps hok)) huntouched hprepare

theorem prepareReachableNodes_leavesJobs : LeavesJobs b (prepareReachableNodes b) := by
  apply StateOp.Within.transform
  intro s
  split
  · exact JobsUntouched.of_keeps rfl rfl rfl rfl (KeepsTransformers.of_eq rfl rfl rfl rfl rfl rfl)
  · exact (GraphWork.refl s).jobsUntouched

theorem prepareAllNodes_worksOnGraph :
    WorksOnGraph b (onGraph fun g => (prepareAllNodes b w g).map fun g => ((), g)) := by
  refine WorksOnGraph.onGraph fun g u g' hok hsound => ?_
  cases hall : prepareAllNodes b w g with
  | error e =>
      rw [hall] at hok
      cases hok
  | ok g₁ =>
      rw [hall] at hok
      cases hok
      exact (prepareAllNodes_keeps hall).extendsTransformers hsound

theorem doBuild_leavesJobs : LeavesJobs b (doBuild b w) := by
  have hbind : ∀ {α : Type} {op : ExecutorOp α} {next : α → ExecutorOp Unit}, LeavesJobs b op →
      (∀ a, LeavesJobs b (next a)) → LeavesJobs b (op >>= next) :=
    StateOp.Within.bind fun _ _ _ hst htu => hst.trans htu
  unfold doBuild
  split_ifs
  · exact StateOp.Within.update fun s =>
      JobsUntouched.of_keeps rfl rfl rfl rfl (KeepsTransformers.refl _)
  · refine hbind prepareAllNodes_worksOnGraph.leavesJobs fun _ => ?_
    refine hbind prepareReachableNodes_leavesJobs fun _ => ?_
    refine hbind (WorksOnGraph.query _).leavesJobs fun roots => ?_
    refine hbind (updateLeaves_worksOnGraph roots).leavesJobs fun _ => ?_
    exact StateOp.Within.update fun s =>
      JobsUntouched.of_keeps rfl rfl rfl rfl (KeepsTransformers.refl _)

theorem start_jobsConsistent (hg : g.TransformersSound) :
    JobsConsistent b products (start b g) where
  sound := hg
  entries_nodup := List.nodup_nil
  available_nodup := List.nodup_range
  available_free _ _ := List.not_mem_nil
  established _ he := absurd he List.not_mem_nil
  executes _ _ ht := absurd ht (by simp [start, JobExecution.reset])
  counts _ := rfl
  limits _ _ ht := absurd ht (by simp [start, JobExecution.reset])

/-! ## Whole builds -/

theorem handleError_untouched (s : Executor) : JobsUntouched b s (handleError s) := by
  unfold handleError finish cancelJobs
  split_ifs
  · exact JobsUntouched.of_keeps rfl rfl rfl rfl (KeepsTransformers.refl _)
  · exact JobsUntouched.of_keeps rfl rfl rfl rfl (KeepsTransformers.refl _)

theorem perform_jobsConsistent {op : ExecutorOp Unit} {P : Executor → Prop}
    (hop : StateOp.Triple P op (fun _ => JobsConsistent b products)
      (fun _ => JobsConsistent b products))
    (hs : P s) : JobsConsistent b products (perform op s) :=
  perform_triple hop (fun s hs => hs.untouched (handleError_untouched s))
    (fun _ hs => hs.untouched (JobsUntouched.of_keeps rfl rfl rfl rfl (KeepsTransformers.refl _))) hs

theorem build_jobsConsistent (hg : g.TransformersSound) : JobsConsistent b products (build b w g) :=
  perform_jobsConsistent (JobsConsistent.leavesJobs doBuild_leavesJobs) (start_jobsConsistent hg)

/-- The end of the commands of a job. -/
theorem JobsConsistent.commandsEnd (h : JobsConsistent b products s) (job : JobId) :
    JobsConsistent b products { s with jobs := Function.update s.jobs job .reset } := by
  have hold : ∀ j t, (Function.update s.jobs job .reset j).transformer = some t →
      Function.update s.jobs job .reset j = s.jobs j := by
    intro j t ht
    by_cases hj : j = job
    · rw [hj, Function.update_self] at ht
      cases ht
    · exact Function.update_of_ne hj _ _
  refine ⟨h.sound, h.entries_nodup, h.available_nodup, h.available_free, h.established, ?_,
    h.counts, ?_⟩
  · intro j t ht
    have heq := hold j t ht
    simp only [heq] at ht ⊢
    exact h.executes j t ht
  · intro j t ht
    simp only [hold j t ht] at ht
    exact h.limits j t ht

theorem leaveQueue_untouched (s : Executor) : JobsUntouched b s (leaveQueue s) := by
  unfold leaveQueue finish
  dsimp only
  split_ifs
  · exact JobsUntouched.of_keeps rfl rfl rfl rfl (KeepsTransformers.refl _)
  · exact JobsUntouched.of_keeps rfl rfl rfl rfl (KeepsTransformers.refl _)

/-- Each step of a build keeps the invariant of the jobs. -/
theorem Step.jobsConsistent {e : Event} (hstep : Step b s e s') (h : JobsConsistent b products s)
    (hok : ∀ node w, e = .schedule node w → Startable b products node s) :
    JobsConsistent b products s' := by
  rcases hstep with ⟨-, henabled, rfl⟩
  cases e with
  | schedule node w =>
      have htaken : JobsConsistent b products { s with leaves := s.leaves.erase node } :=
        h.untouched (JobsUntouched.of_keeps rfl rfl rfl rfl (KeepsTransformers.refl _))
      exact perform_jobsConsistent (scheduleNode_spec node) ⟨htaken, hok node w rfl⟩
  | leaveQueue => exact h.untouched (leaveQueue_untouched s)
  | commandsEnd job => exact h.commandsEnd job
  | jobFinished job success canceled w =>
      exact perform_jobsConsistent (finishJob_spec job success canceled) ⟨h, henabled.2.2.2⟩
  | cancel => exact h.untouched (JobsUntouched.of_keeps rfl rfl rfl rfl (KeepsTransformers.refl _))

/-! ## The job pools -/

/-- A job executes a transformer that uses a pool. -/
def ExecutesIn (s : Executor) (jobPool : String) (job : JobId) (t : TransformerId) : Prop :=
  (s.jobs job).transformer = some t ∧ jobPool ∈ (s.graph.transformer t).jobPools

/-- The job pools are respected: the counts are right and never negative, and no number of jobs
executes in a pool that is beyond a limit that the product of one of their transformers sets. -/
structure PoolsRespected (b : BuildSetup) (s : Executor) : Prop where
  counts : ∀ jobPool, s.jobCountPerPool jobPool = (s.entriesOfPool jobPool).length
  nonneg : ∀ jobPool, 0 ≤ s.jobCountPerPool jobPool
  limits : ∀ jobPool (jobs : List JobId), jobs.Nodup →
    (∀ job, job ∈ jobs → ∃ t, s.ExecutesIn jobPool job t) →
      ∀ job t, job ∈ jobs → s.ExecutesIn jobPool job t →
        WithinLimits b s.graph t jobPool jobs.length

/-- The jobs that execute in a pool are counted. -/
theorem JobsConsistent.length_le (h : JobsConsistent b products s) {jobs : List JobId}
    (hnodup : jobs.Nodup) (hjobs : ∀ job, job ∈ jobs → ∃ t, s.ExecutesIn jobPool job t) :
    (jobs.length : Int) ≤ s.jobCountPerPool jobPool := by
  have hsub : jobs ⊆ (s.entriesOfPool jobPool).map Prod.fst := by
    intro job hjob
    rcases hjobs job hjob with ⟨t, ht, hpool⟩
    have hmem : (job, t) ∈ s.entriesOfPool jobPool :=
      List.mem_filter.mpr ⟨(h.executes job t ht).1, by simpa using hpool⟩
    exact List.mem_map_of_mem hmem
  have hle := hnodup.length_le_of_subset hsub
  rw [List.length_map] at hle
  rw [h.counts jobPool]
  exact_mod_cast hle

theorem JobsConsistent.poolsRespected (h : JobsConsistent b products s) : PoolsRespected b s where
  counts := h.counts
  nonneg jobPool := by
    rw [h.counts jobPool]
    exact Int.natCast_nonneg _
  limits jobPool jobs hnodup hjobs job t _ ht p hp hpos := by
    have hcount := h.limits job t ht.1 jobPool ht.2 p hp hpos
    exact (h.length_le hnodup hjobs).trans hcount

/-- The job pools are respected in every state of a build. -/
theorem build_poolsRespected (b : BuildSetup) (w : Observations) (g : BuildGraph)
    (hg : g.TransformersSound) (trace : List (Executor × Event)) (s : Executor)
    (hrun : TransitionSystem.Run (Step b) (build b w g) trace s) : PoolsRespected b s := by
  have hconsistent : JobsConsistent b (fun _ => True) s :=
    hrun.invariant (fun _ _ => True)
      (fun _ _ _ ht _ hstep => hstep.jobsConsistent ht fun _ _ _ _ _ _ => trivial)
      (build_jobsConsistent hg) fun _ _ => trivial
  exact hconsistent.poolsRespected

/-! ## Two compilers at a time -/

/-- A product of a project without properties. -/
def productNamed (name : ProductId) : ResolvedProduct :=
  { ResolvedProduct.create name ∅ with projectName := "top" }

/-- An application, and a generator of headers that the application does not depend on. -/
def sampleProject : Project where
  name := "top"
  allProducts := [productNamed "app", productNamed "gen"]
  projectProperties _ := none
  rule r :=
    if r = 0 then { (default : Rule) with inputs := {"c"}, outputFileTags := {"obj"} }
    else { (default : Rule) with outputFileTags := {"hpp"} }
  uniqueNames := by decide

/-- Only the application is built, which admits two compilers at a time. -/
def sampleSetup : BuildSetup where
  environment :=
    { project := sampleProject
      productsToBuild := ["app"]
      options := ⟨∅, [], false, false, false, 2⟩
      lastModified := fun _ => none
      sameVariant := fun v v' => v = v'
      sameCommands := fun l l' => l = l' }
  jobLimitsFromSettings _ := ∅
  jobLimits := ∅
  productJobLimits p :=
    if p = "app" then (∅ : JobLimits).setJobLimit (JobLimit.create "compiler" 2) else ∅
  projectJobLimitsTakePrecedence := false
  defaultMaxJobCount := 1
  changedFiles := []
  forceOutputCheck := false

/-- A transformer with a command that uses the pool of the compiler. -/
def compilation (rule : RuleId) (inputs outputs : ArtifactSet) : Transformer :=
  { Transformer.create rule with
    inputs := inputs
    outputs := outputs
    commands := [⟨true, .invalid, "compiler", [], []⟩] }

def sampleArtifact (n : NodeId) : Artifact :=
  if n = 0 then { Artifact.create .sourceFile "/src/a.c" with fileTags := {"c"} }
  else if n = 1 then
    { Artifact.create .generated "/build/a.o" with fileTags := {"obj"}, transformer := some 0 }
  else if n = 2 then { Artifact.create .sourceFile "/src/b.c" with fileTags := {"c"} }
  else if n = 3 then
    { Artifact.create .generated "/build/b.o" with fileTags := {"obj"}, transformer := some 1 }
  else if n = 4 then
    { Artifact.create .generated "/build/gen.h" with fileTags := {"hpp"}, transformer := some 2 }
  else Artifact.create .generated ""

/-- Two objects are compiled from two sources, and the header of an earlier build is there. -/
def sampleGraph : BuildGraph :=
  { BuildGraph.empty with
    nodeType := fun n => if n = 5 || n = 6 then .ruleNode else .artifactNode
    productOf := fun n => if n = 4 || n = 5 then "gen" else "app"
    children := fun n =>
      if n = 1 then {0, 6} else if n = 3 then {2, 6} else if n = 4 then {5}
      else if n = 6 then {0, 2} else ∅
    parents := fun n =>
      if n = 0 then {1, 6} else if n = 2 then {3, 6} else if n = 5 then {4}
      else if n = 6 then {1, 3} else ∅
    artifact := sampleArtifact
    ruleNode := fun n =>
      if n = 6 then { RuleNode.create 0 with oldInputArtifacts := ⟨{0, 2}, false⟩ }
      else RuleNode.create 1
    transformer := fun t =>
      if t = 0 then compilation 0 {0} {1} else if t = 1 then compilation 0 {2} {3}
      else if t = 2 then compilation 1 ∅ {4} else Transformer.create 0
    productData := fun p =>
      if p = "app" then some ⟨{0, 1, 2, 3, 6}, {1, 3}, ∅,
        ((((∅ : ArtifactSetByFileTag).add "c" 0).add "c" 2).add "obj" 1).add "obj" 3⟩
      else if p = "gen" then some ⟨{4, 5}, {4}, ∅, (∅ : ArtifactSetByFileTag).add "hpp" 4⟩
      else none
    lookupTable := fun file =>
      if file = "/src/a.c" then [.artifact 0] else if file = "/build/a.o" then [.artifact 1]
      else if file = "/src/b.c" then [.artifact 2] else if file = "/build/b.o" then [.artifact 3]
      else if file = "/build/gen.h" then [.artifact 4] else []
    nextNode := 7
    nextTransformer := 3 }

/-- All files are there, and the second source includes the header. -/
def sampleObservations : Observations where
  currentTime := 9
  lastModified _ := some 1
  scripts :=
    { outputArtifacts := fun _ => .ok []
      filePaths := fun _ => .ok []
      dummyFilePath := fun _ => ""
      bindings := fun _ _ => []
      prepare := fun _ =>
        { project := sampleProject
          product := productNamed "app"
          filePathsPerImport := fun _ => []
          accesses := []
          currentTime := 9
          result := .ok []
          recorded := by simp }
      usesIo := false
      currentTime := 9 }
  dependencies a := if a = 3 then [.artifact 4] else []

theorem sampleGraph_owner (h : (sampleGraph.artifact a).transformer = some t) :
    a = 1 ∧ t = 0 ∨ a = 3 ∧ t = 1 ∨ a = 4 ∧ t = 2 := by
  simp only [sampleGraph, sampleArtifact] at h
  split_ifs at h <;> simp_all [Artifact.create]

theorem sampleGraph_outputs (h : a ∈ (sampleGraph.transformer t).outputs) :
    t = 0 ∧ a = 1 ∨ t = 1 ∧ a = 3 ∨ t = 2 ∧ a = 4 := by
  simp only [sampleGraph] at h
  split_ifs at h <;> simp_all [compilation, Transformer.create]

theorem sampleGraph_transformersSound : sampleGraph.TransformersSound where
  outputs_productOf a t ht b hb := by
    rcases sampleGraph_owner ht with ⟨rfl, rfl⟩ | ⟨rfl, rfl⟩ | ⟨rfl, rfl⟩ <;>
      rcases sampleGraph_outputs hb with ⟨h, rfl⟩ | ⟨h, rfl⟩ | ⟨h, rfl⟩ <;> first | rfl | cases h
  outputs_lt t b hb := by
    show b < 7
    rcases sampleGraph_outputs hb with ⟨-, rfl⟩ | ⟨-, rfl⟩ | ⟨-, rfl⟩ <;> decide
  owner_lt a t ht := by
    show a < 7 ∧ t < 3
    rcases sampleGraph_owner ht with ⟨rfl, rfl⟩ | ⟨rfl, rfl⟩ | ⟨rfl, rfl⟩ <;> decide
  lookupTable_lt f a ha := by
    show a < 7
    simp only [sampleGraph] at ha
    split_ifs at ha <;> simp_all

/-- The same files, none of which includes another. -/
def independentSources : Observations :=
  { sampleObservations with dependencies := fun _ => [] }

/-- The state after some nodes of the sample were looked at. -/
def stateAfter (w : Observations) (nodes : List NodeId) : Executor :=
  nodes.foldl (fun s n => schedule sampleSetup w n s) (build sampleSetup w sampleGraph)

def sampleState (nodes : List NodeId) : Executor :=
  stateAfter sampleObservations nodes

/-- Whether some nodes can be looked at in a row. -/
def canSchedule (w : Observations) : Executor → List NodeId → Bool
  | _, [] => true
  | s, n :: nodes =>
      !s.terminated && decide (Enabled s (.schedule n w)) &&
        canSchedule w (schedule sampleSetup w n s) nodes

theorem run_of_canSchedule (nodes : List NodeId) {trace : List (Executor × Event)}
    (hrun : TransitionSystem.Run (Step sampleSetup) (build sampleSetup w sampleGraph) trace s)
    (h : canSchedule w s nodes = true) :
    ∃ trace, TransitionSystem.Run (Step sampleSetup) (build sampleSetup w sampleGraph) trace
      (nodes.foldl (fun s n => schedule sampleSetup w n s) s) := by
  induction nodes generalizing s trace with
  | nil => exact ⟨trace, hrun⟩
  | cons n nodes ih =>
      simp only [canSchedule, Bool.and_eq_true, Bool.not_eq_true', decide_eq_true_eq] at h
      exact ih (hrun.snoc ⟨h.1.1, h.1.2, rfl⟩) h.2

/-- Two compilers run, as many as the application admits. -/
theorem build_poolsRespected_stateAfter :
    (stateAfter independentSources [0, 2, 6, 1, 3]).processingJobs = [(0, 0), (1, 1)] ∧
      (stateAfter independentSources [0, 2, 6, 1, 3]).jobCountPerPool "compiler" = 2 ∧
        PoolsRespected sampleSetup (stateAfter independentSources [0, 2, 6, 1, 3]) := by
  rcases run_of_canSchedule (w := independentSources) [0, 2, 6, 1, 3] TransitionSystem.Run.nil
    (by decide +kernel) with ⟨trace, hrun⟩
  exact ⟨by decide +kernel, by decide +kernel, build_poolsRespected sampleSetup independentSources
    sampleGraph sampleGraph_transformersSound trace _ hrun⟩

end Executor

end Qbs
