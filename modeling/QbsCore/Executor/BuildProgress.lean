import QbsCore.Executor.JobPools

/-!
# Builds go on until they are done

Outside of the loop over the queue the executor waits for the end of a job.  In no state of a build
does it wait without a job that is running: either the build has ended, or there is such a job.
When a build was canceled, no further job is started.

Main results:

- Structure {lit}`Executor.Progressing`: the invariant of the control.
- Theorem {lit}`Executor.build_progresses`: a build has ended exactly when no job is running, and it
  never gets stuck.
- Theorem {lit}`Executor.canceled_run`: what still happens in a canceled build.

Current gaps:

- Whether the commands of a job end at all.
-/

namespace Qbs

open BuildGraph

namespace Executor

/-! ## Operations within a pass of the loop -/

/-- An operation in the loop leaves the control and the transformers alone. It may give free jobs
entries, and entries are not taken away. -/
structure Advances (b : BuildSetup) (s s' : Executor) : Prop where
  delayedLeaves : s'.delayedLeaves = s.delayedLeaves
  state : s'.state = s.state
  scheduling : s'.scheduling = s.scheduling
  entries : s.processingJobs <+: s'.processingJobs
  number : s'.availableJobs.length + s'.processingJobs.length =
    s.availableJobs.length + s.processingJobs.length
  graph : s.graph.TransformersSound → ExtendsTransformers b.IsProduct s.graph s'.graph

namespace Advances

variable {b : BuildSetup} {s s' s'' : Executor}

theorem trans (h : Advances b s s') (h' : Advances b s' s'') : Advances b s s'' where
  delayedLeaves := h'.delayedLeaves.trans h.delayedLeaves
  state := h'.state.trans h.state
  scheduling := h'.scheduling.trans h.scheduling
  entries := h.entries.trans h'.entries
  number := h'.number.trans h.number
  graph hs := (h.graph hs).trans (h'.graph (h.graph hs).sound)

theorem of_graphWork (h : GraphWork b s s') : Advances b s s' where
  delayedLeaves := by rw [h.others]
  state := by rw [h.others]
  scheduling := by rw [h.others]
  entries := h.jobsUntouched.processingJobs ▸ List.prefix_rfl
  number := by rw [h.others]
  graph := h.graph

theorem refl (s : Executor) : Advances b s s :=
  of_graphWork (GraphWork.refl s)

end Advances

/-- An operation in the loop. -/
abbrev InLoop {α : Type} (b : BuildSetup) (op : ExecutorOp α) : Prop :=
  StateOp.Within (Advances b) op

variable {b : BuildSetup} {w : Observations} {s s' : Executor}

theorem InLoop.bind {α β : Type} {op : ExecutorOp α} {next : α → ExecutorOp β}
    (h : InLoop b op) (hnext : ∀ a, InLoop b (next a)) : InLoop b (op >>= next) :=
  StateOp.Within.bind (fun _ _ _ hst htu => hst.trans htu) h hnext

theorem WorksOnGraph.inLoop {α : Type} {op : ExecutorOp α} (h : WorksOnGraph b op) :
    InLoop b op :=
  h.mono fun _ _ => Advances.of_graphWork

theorem runJob_inLoop (job : JobId) (t : TransformerId) : InLoop b (runJob w job t) := by
  unfold runJob
  refine InLoop.bind (WorksOnGraph.query _).inLoop fun d => ?_
  split
  · exact (WorksOnGraph.pure ()).inLoop
  · refine InLoop.bind (StateOp.Within.update fun s => Advances.of_graphWork ?_) fun _ => ?_
    · exact GraphWork.setGraph s
        (KeepsTransformers.modifyTransformer s.graph t (fun _ => rfl) fun _ _ h => h)
    refine InLoop.bind (WorksOnGraph.query _).inLoop fun _ => ?_
    exact StateOp.Within.update fun s =>
      ⟨rfl, rfl, rfl, List.prefix_rfl, rfl, ExtendsTransformers.refl⟩

/-- A free job gets an entry. -/
theorem runTransformer_inLoop (t : TransformerId) : InLoop b (runTransformer w t) := by
  intro s
  rw [runTransformer, StateOp.outcome_bind, takeAvailableJob, StateOp.outcome_transform]
  cases havailable : s.availableJobs with
  | nil => exact Advances.refl s
  | cons job jobs =>
      dsimp only
      rw [StateOp.outcome_update_bind]
      have hassign : Advances b s (assignJob job t { s with availableJobs := jobs }) := by
        refine ⟨rfl, rfl, rfl, List.prefix_append _ _, ?_, (markOutputs_untouched t s).graph⟩
        simp [assignJob, updateJobCounts, havailable]
        omega
      exact hassign.trans (runJob_inLoop job t _)

theorem potentiallyRunTransformer_inLoop (t : TransformerId) :
    InLoop b (potentiallyRunTransformer b w t) := by
  intro s
  have hkeeps : StateOp.Keeps (Advances b s) (potentiallyRunTransformer b w t) :=
    potentiallyRunTransformer_triple (fun _ _ hs hwork => hs.trans (Advances.of_graphWork hwork))
      (fun _ hs => hs) (StateOp.Within.keeps (runTransformer_inLoop t) fun _ _ hs => hs.trans)
  exact hkeeps.outcome (Advances.refl s)

theorem buildArtifact_inLoop (a : NodeId) : InLoop b (buildArtifact b w a) := by
  have hfinish : InLoop b (StateOp.update fun s : Executor => s.finishNode a) :=
    StateOp.Within.update fun s => Advances.of_graphWork (finishNode_graphWork s a)
  unfold buildArtifact
  refine InLoop.bind (WorksOnGraph.query _).inLoop fun d => ?_
  dsimp only
  split
  · refine InLoop.bind (WorksOnGraph.pure true).inLoop fun ofProduct => ?_
    split_ifs
    · exact (WorksOnGraph.pure ()).inLoop
    · exact InLoop.bind (retrieveTimestamp_worksOnGraph a).inLoop fun _ => hfinish
    · exact hfinish
  · refine InLoop.bind (checkNodeProduct_worksOnGraph a).inLoop fun ofProduct => ?_
    split_ifs
    · exact (WorksOnGraph.pure ()).inLoop
    · split
      · exact StateOp.Within.fail Advances.refl _
      · exact potentiallyRunTransformer_inLoop _

theorem visit_inLoop (n : NodeId) : InLoop b (visit b w n) := by
  unfold visit
  refine InLoop.bind (WorksOnGraph.query _).inLoop fun isArtifact => ?_
  split
  · exact buildArtifact_inLoop n
  · exact (executeRuleNode_worksOnGraph n).inLoop

/-! ## Nodes that have to wait -/

/-- A node only has to wait because of a pool that is in use. -/
theorem blockedByPools_true {t : TransformerId} {jobPools : List String}
    (h : blockedByPools b s t jobPools = .ok true) : ∃ pool, s.jobCountPerPool pool ≠ 0 := by
  induction jobPools with
  | nil => cases h
  | cons pool jobPools ih =>
      rw [blockedByPools] at h
      split at h
      · exact ih h
      · rename_i hcount
        exact ⟨pool, hcount⟩

theorem schedulingBlocked_true {n : NodeId} (h : s.schedulingBlockedByJobLimit b n = .ok true) :
    ∃ pool, s.jobCountPerPool pool ≠ 0 := by
  unfold schedulingBlockedByJobLimit at h
  split_ifs at h
  · cases h
  · cases h
  · split at h
    · cases h
    · exact blockedByPools_true h

variable {products : ProductId → Prop}

/-- A pool is in use because of a job that is running. -/
theorem JobsConsistent.processingJobs_ne_nil (h : JobsConsistent b products s) {pool : String}
    (hcount : s.jobCountPerPool pool ≠ 0) :
    s.processingJobs ≠ [] := by
  intro hnil
  rw [h.counts pool, entriesOfPool, hnil] at hcount
  simp at hcount

/-! ## The control of a build -/

/-- In the loop the build has not ended, and nodes only have to wait if there is a job that is
running. Outside of it the build has ended exactly when there is none. All jobs are free or have an
entry. -/
structure Progressing (b : BuildSetup) (s : Executor) : Prop where
  number : s.availableJobs.length + s.processingJobs.length = b.maxJobCount
  inLoop : s.scheduling = true →
    s.state ≠ .idle ∧ (s.delayedLeaves ≠ [] → s.processingJobs ≠ [])
  outside : s.scheduling = false → (s.state = .idle ↔ s.processingJobs = [])

theorem Progressing.advances (h : Progressing b s) (hs : Advances b s s')
    (hscheduling : s.scheduling = true) : Progressing b s' where
  number := hs.number.trans h.number
  inLoop _ := by
    rw [hs.state, hs.delayedLeaves]
    refine ⟨(h.inLoop hscheduling).1, fun hdelayed hnil => ?_⟩
    have hempty := hs.entries
    rw [hnil, List.prefix_nil] at hempty
    exact (h.inLoop hscheduling).2 hdelayed hempty
  outside hnot := by
    rw [hs.scheduling, hscheduling] at hnot
    cases hnot

/-- After an exception the build has ended, or it ends with the last job. -/
theorem progressing_handleError
    (h : s.availableJobs.length + s.processingJobs.length = b.maxJobCount) :
    Progressing b (handleError s) := by
  unfold handleError
  split_ifs with hempty
  · refine ⟨h, ?_, fun _ => ⟨fun _ => List.isEmpty_iff.mp hempty, fun _ => rfl⟩⟩
    intro hscheduling
    cases hscheduling
  · refine ⟨h, ?_, fun _ => ⟨?_, ?_⟩⟩
    · intro hscheduling
      cases hscheduling
    · intro hidle
      cases hidle
    · intro hnil
      exact absurd (List.isEmpty_iff.mpr hnil) hempty

theorem progressing_leaveQueue (hmax : 0 < b.maxJobCount) (h : Progressing b s)
    (hscheduling : s.scheduling = true) (hend : s.leaves = [] ∨ s.availableJobs = []) :
    Progressing b (leaveQueue s) := by
  have hloop := h.inLoop hscheduling
  unfold leaveQueue
  dsimp only
  split_ifs with hempty
  · rw [Bool.and_eq_true, List.isEmpty_iff, List.isEmpty_iff] at hempty
    refine ⟨h.number, ?_, fun _ => ⟨fun _ => hempty.2, fun _ => rfl⟩⟩
    intro hnot
    cases hnot
  · refine ⟨h.number, ?_, fun _ => ⟨fun hidle => absurd hidle hloop.1, ?_⟩⟩
    · intro hnot
      cases hnot
    intro hnil
    exfalso
    -- without running jobs all jobs are free, and no node had to wait
    have hnumber := h.number
    have hprocessing : s.processingJobs = [] := hnil
    have hdelayed : s.delayedLeaves = [] := by
      by_contra hne
      exact hloop.2 hne hprocessing
    have hleaves : s.leaves ≠ [] := by
      intro hleaves
      apply hempty
      simp [hleaves, hdelayed, hprocessing]
    rw [hend.resolve_left hleaves, hprocessing] at hnumber
    simp only [List.length_nil] at hnumber
    omega

/-- The number of jobs after an exception. -/
def AllJobs (b : BuildSetup) (s : Executor) : Prop :=
  s.availableJobs.length + s.processingJobs.length = b.maxJobCount

theorem progressing_perform {op : ExecutorOp Unit} {P : Executor → Prop}
    (hop : StateOp.Triple P op (fun _ => Progressing b) (fun _ => AllJobs b)) (hs : P s)
    (hend : (perform op s).terminated = false) : Progressing b (perform op s) := by
  refine perform_triple (Q := fun s => s.terminated = false → Progressing b s)
    (hop.weaken (fun _ h => h) (fun _ _ h _ => h) fun _ _ h => h)
    (fun _ h _ => progressing_handleError h) (fun _ _ hnot => ?_) hs hend
  cases hnot

/-- An operation in the loop after which the control goes on. -/
theorem InLoop.progressing {op : ExecutorOp Unit} (h : InLoop b op) :
    StateOp.Triple (fun s => Progressing b s ∧ s.scheduling = true) op (fun _ => Progressing b)
      (fun _ => AllJobs b) := by
  rintro s ⟨hs, hscheduling⟩
  have hadvances := h s
  rcases hout : op.outcome s with ⟨e | u, t⟩
  · rw [hout] at hadvances
    exact (hs.advances hadvances hscheduling).number
  · rw [hout] at hadvances
    exact hs.advances hadvances hscheduling

theorem scheduleNode_progressing (n : NodeId) :
    StateOp.Triple
      (fun s => (Progressing b s ∧ s.scheduling = true) ∧ JobsConsistent b products s)
      (scheduleNode b w n) (fun _ => Progressing b) (fun _ => AllJobs b) := by
  rintro s ⟨hs, hjobs⟩
  unfold scheduleNode
  rw [StateOp.outcome_query_bind]
  split_ifs
  · rw [StateOp.outcome_bind, StateOp.outcome_query]
    cases hblocked : s.schedulingBlockedByJobLimit b n with
    | error e => exact hs.1.number
    | ok blocked =>
        cases blocked with
        | false => exact (visit_inLoop n).progressing s hs
        | true =>
            rcases schedulingBlocked_true hblocked with ⟨pool, hpool⟩
            refine ⟨hs.1.number, fun _ => ⟨(hs.1.inLoop hs.2).1, fun _ => ?_⟩, ?_⟩
            · exact hjobs.processingJobs_ne_nil hpool
            · intro hnot
              exact absurd (hs.2.symm.trans hnot) Bool.noConfusion
  · exact hs.1

/-! ### The end of a job -/

/-- The job of an entry becomes free. -/
theorem allJobs_releaseJob {job : JobId} {t : TransformerId} (h : AllJobs b s)
    (hnodup : (s.processingJobs.map Prod.fst).Nodup) (hentry : (job, t) ∈ s.processingJobs) :
    AllJobs b (releaseJob job t s) := by
  have hlength := length_filter_entry hnodup hentry fun _ => true
  simp only [List.filter_true, ↓reduceIte] at hlength
  unfold AllJobs at h ⊢
  simp only [releaseJob, updateJobCounts, List.length_append, List.length_singleton]
  omega

theorem cancelJobs_eq_self (h : s.state = .canceling) : cancelJobs s = s := by
  unfold cancelJobs
  rw [← h]

/-- The executor waits for the other jobs of a build that is canceled, or it returns to the queue. -/
theorem continueBuild_cases (b : BuildSetup) (success canceled : Bool) (s : Executor) :
    continueBuild b success canceled s =
        (if s.processingJobs.isEmpty then finish (cancelJobs s) else cancelJobs s) ∨
      s.state ≠ .canceling ∧
        continueBuild b success canceled s = { s with scheduling := true, delayedLeaves := [] } := by
  have hstate : (cancelJobs s).state = .canceling := rfl
  have hentries : (cancelJobs s).processingJobs = s.processingJobs := rfl
  unfold continueBuild
  dsimp only
  by_cases hfailed : (!success && !b.environment.options.keepGoing) = true
  · rw [if_pos hfailed]
    simp [hstate, hentries]
  · rw [if_neg hfailed]
    by_cases hcanceled : (s.state = .running && canceled) = true
    · rw [if_pos hcanceled]
      simp [hstate, hentries]
    · rw [if_neg hcanceled]
      by_cases hcanceling : s.state = .canceling
      · rw [if_pos hcanceling, cancelJobs_eq_self hcanceling]
        exact .inl rfl
      · rw [if_neg hcanceling]
        exact .inr ⟨hcanceling, rfl⟩

theorem progressing_continueBuild {success canceled : Bool} (h : AllJobs b s)
    (hscheduling : s.scheduling = false) (hidle : s.state ≠ .idle) :
    Progressing b (continueBuild b success canceled s) := by
  rcases continueBuild_cases b success canceled s with heq | ⟨-, heq⟩
  · rw [heq]
    split_ifs with hempty
    · refine ⟨h, ?_, fun _ => ⟨fun _ => List.isEmpty_iff.mp hempty, fun _ => rfl⟩⟩
      intro hnot
      exact absurd (hscheduling.symm.trans hnot) Bool.noConfusion
    · refine ⟨h, ?_, fun _ => ⟨?_, fun hnil => absurd (List.isEmpty_iff.mpr hnil) hempty⟩⟩
      · intro hnot
        exact absurd (hscheduling.symm.trans hnot) Bool.noConfusion
      · intro hnot
        cases hnot
  · rw [heq]
    refine ⟨h, fun _ => ⟨hidle, fun hnil => absurd rfl hnil⟩, ?_⟩
    intro hnot
    cases hnot

/-- The end of a job outside of the loop. -/
structure Waiting (b : BuildSetup) (s : Executor) : Prop where
  number : AllJobs b s
  scheduling : s.scheduling = false
  state : s.state ≠ .idle

theorem finishJob_progressing (job : JobId) (success canceled : Bool) :
    StateOp.Triple (fun s => Waiting b s ∧ (s.processingJobs.map Prod.fst).Nodup)
      (finishJob b w job success canceled) (fun _ => Progressing b) (fun _ => AllJobs b) := by
  refine finishJob_triple (P := Waiting b) (fun _ hs => hs.1.number) ?_ ?_
    (fun _ hs => hs.number)
    fun _ hs => progressing_continueBuild hs.number hs.scheduling hs.state
  · intro s t hs hentry
    exact ⟨allJobs_releaseJob hs.1.number hs.2 hentry, hs.1.scheduling, hs.1.state⟩
  · intro s s' hs hwork
    rw [hwork.others]
    exact ⟨hs.number, hs.scheduling, hs.state⟩

/-! ## Whole builds -/

theorem doBuild_progressing :
    StateOp.Triple (fun s => AllJobs b s ∧ s.processingJobs = [] ∧ s.delayedLeaves = [] ∧
        s.scheduling = false ∧ s.state = .running) (doBuild b w) (fun _ => Progressing b)
      (fun _ => AllJobs b) := by
  rintro s ⟨hnumber, hentries, hdelayed, hscheduling, hstate⟩
  unfold doBuild
  split_ifs
  · refine ⟨hnumber, ?_, fun _ => ⟨fun _ => hentries, fun _ => rfl⟩⟩
    intro hnot
    exact absurd (hscheduling.symm.trans hnot) Bool.noConfusion
  · have hprepare : InLoop b (prepareReachableNodes b) := by
      refine StateOp.Within.transform fun s => ?_
      split
      · refine ⟨rfl, rfl, rfl, List.prefix_rfl, rfl, KeepsTransformers.extendsTransformers ?_⟩
        exact KeepsTransformers.of_eq rfl rfl rfl rfl rfl rfl
      · exact Advances.refl s
    have hqueue : StateOp.Triple (Advances b s) (StateOp.update fun s : Executor =>
        { s with scheduling := true } : ExecutorOp Unit) (fun _ => Progressing b)
        (fun _ => AllJobs b) := by
      intro t ht
      refine ⟨ht.number.trans hnumber, fun _ => ⟨?_, fun hne => absurd ?_ hne⟩, ?_⟩
      · show t.state ≠ .idle
        rw [ht.state, hstate]
        exact fun hnot => nomatch hnot
      · exact ht.delayedLeaves.trans hdelayed
      · intro hnot
        cases hnot
    have hadvances : ∀ {α : Type} {op : ExecutorOp α}, InLoop b op →
        StateOp.Triple (Advances b s) op (fun _ => Advances b s) (fun _ => AllJobs b) := by
      intro α op hop
      refine StateOp.Triple.weaken (StateOp.Within.keeps hop fun t u ht htu =>
        ht.trans htu : StateOp.Keeps (Advances b s) op) (fun _ ht => ht) (fun _ _ ht => ht) ?_
      exact fun _ t ht => ht.number.trans hnumber
    refine (StateOp.Triple.bind (hadvances prepareAllNodes_worksOnGraph.inLoop) fun _ => ?_ :
      StateOp.Triple (Advances b s) _ _ _) s (Advances.refl s)
    refine StateOp.Triple.bind (hadvances hprepare) fun _ => ?_
    refine StateOp.Triple.bind (hadvances (WorksOnGraph.query _).inLoop) fun roots => ?_
    exact StateOp.Triple.bind (hadvances (updateLeaves_worksOnGraph roots).inLoop) fun _ => hqueue

theorem build_progressing (g : BuildGraph) (hend : (build b w g).terminated = false) :
    Progressing b (build b w g) := by
  refine progressing_perform doBuild_progressing ⟨?_, rfl, rfl, rfl, rfl⟩ hend
  simp [AllJobs, start]

/-- Each step of a build keeps the invariant of the control. -/
theorem Step.progressing {e : Event} (hmax : 0 < b.maxJobCount) (hstep : Step b s e s')
    (hjobs : JobsConsistent b products s) (h : Progressing b s) (hend : s'.terminated = false) :
    Progressing b s' := by
  rcases hstep with ⟨-, henabled, rfl⟩
  cases e with
  | schedule n w =>
      have hnode : StateOp.Triple
          (fun s => (Progressing b s ∧ s.scheduling = true) ∧ JobsConsistent b products s)
          (scheduleNode b w n) (fun _ => Progressing b) (fun _ => AllJobs b) :=
        scheduleNode_progressing n
      refine progressing_perform hnode ⟨⟨?_, henabled.1⟩, ?_⟩ hend
      · exact ⟨h.number, h.inLoop, h.outside⟩
      · exact hjobs.untouched (JobsUntouched.of_keeps rfl rfl rfl rfl
          (BuildGraph.KeepsTransformers.refl _))
  | leaveQueue => exact progressing_leaveQueue hmax h henabled.1 henabled.2
  | commandsEnd job => exact ⟨h.number, h.inLoop, h.outside⟩
  | jobFinished job success canceled w =>
      exact progressing_perform (finishJob_progressing job success canceled)
        ⟨⟨h.number, henabled.1, henabled.2.1⟩, hjobs.entries_nodup⟩ hend
  | cancel =>
      have hrunning : s.state = .running := henabled
      refine ⟨h.number, fun hscheduling => ⟨?_, (h.inLoop hscheduling).2⟩,
        fun hscheduling => ⟨?_, fun hnil => ?_⟩⟩
      · exact fun hnot => nomatch hnot
      · exact fun hnot => nomatch hnot
      · have hidle := (h.outside hscheduling).mpr hnil
        rw [hrunning] at hidle
        cases hidle

/-- A build never gets stuck: it has ended just if the executor is outside of the loop and no job
is running, and as long as it has not ended there is something that can happen without the user. -/
theorem build_progresses (b : BuildSetup) (w : Observations) (g : BuildGraph)
    (hmax : 0 < b.maxJobCount) (hg : g.TransformersSound) (trace : List (Executor × Event))
    (s : Executor) (hrun : TransitionSystem.Run (Step b) (build b w g) trace s)
    (hend : s.terminated = false) :
    (s.state = .idle ↔ s.scheduling = false ∧ s.processingJobs = []) ∧
      (s.state ≠ .idle → ∃ e, e ≠ .cancel ∧ Enabled s e) := by
  have hinvariant : JobsConsistent b (fun _ => True) s ∧
      (s.terminated = false → Progressing b s) := by
    refine hrun.invariant_of_steps (P := fun s => JobsConsistent b (fun _ => True) s ∧
      (s.terminated = false → Progressing b s)) ?_ ⟨build_jobsConsistent hg, build_progressing g⟩
    intro t e u ht hstep
    exact ⟨hstep.jobsConsistent ht.1 fun _ _ _ _ _ _ => trivial,
      hstep.progressing hmax ht.1 (ht.2 hstep.1)⟩
  have hprogress := hinvariant.2 hend
  have hidle : s.state = .idle ↔ s.scheduling = false ∧ s.processingJobs = [] := by
    cases hscheduling : s.scheduling with
    | true => simp [(hprogress.inLoop hscheduling).1]
    | false => simp [hprogress.outside hscheduling]
  refine ⟨hidle, fun hstate => ?_⟩
  cases hscheduling : s.scheduling with
  | true =>
      cases hleaves : s.leaves with
      | nil => exact ⟨.leaveQueue, Event.noConfusion, hscheduling, .inl hleaves⟩
      | cons n leaves =>
          by_cases havailable : s.availableJobs = []
          · exact ⟨.leaveQueue, Event.noConfusion, hscheduling, .inr havailable⟩
          · refine ⟨.schedule n w, Event.noConfusion, hscheduling, ?_, havailable⟩
            rw [hleaves]
            exact List.mem_cons_self
  | false =>
      cases hentries : s.processingJobs with
      | nil => exact absurd (hidle.mpr ⟨hscheduling, hentries⟩) hstate
      | cons entry entries =>
          cases htransformer : (s.jobs entry.1).transformer with
          | some t => exact ⟨.commandsEnd entry.1, Event.noConfusion, by simp [Enabled, htransformer]⟩
          | none =>
              refine ⟨.jobFinished entry.1 true false w, Event.noConfusion, hscheduling, hstate, ?_,
                htransformer⟩
              rw [hentries]
              exact List.mem_cons_self

/-- While two compilers run, the build goes on. -/
theorem build_progresses_stateAfter :
    (stateAfter independentSources [0, 2, 6, 1, 3]).processingJobs = [(0, 0), (1, 1)] ∧
      ∃ e, e ≠ .cancel ∧ Enabled (stateAfter independentSources [0, 2, 6, 1, 3]) e := by
  rcases run_of_canSchedule (w := independentSources) [0, 2, 6, 1, 3] TransitionSystem.Run.nil
    (by decide +kernel) with ⟨trace, hrun⟩
  have hprogress := build_progresses sampleSetup independentSources sampleGraph (by decide)
    sampleGraph_transformersSound trace _ hrun (by decide +kernel)
  exact ⟨by decide +kernel, hprogress.2 (by decide +kernel)⟩

/-! ## Builds that are canceled -/

/-- The executor does not return to the loop, and it starts no job. -/
structure Stopping (s s' : Executor) : Prop where
  scheduling : s'.scheduling = false
  state : s'.state ≠ .running
  entries : s'.processingJobs.Sublist s.processingJobs

theorem stopping_handleError (h : Stopping s s') : Stopping s (handleError s') := by
  unfold handleError
  split_ifs
  · exact ⟨rfl, fun hnot => (nomatch hnot), h.entries⟩
  · exact ⟨rfl, fun hnot => (nomatch hnot), h.entries⟩

/-- In a build that was canceled the end of a job does not lead back to the loop. -/
theorem stopping_continueBuild {success canceled : Bool} (h : Stopping s s')
    (hidle : s'.state ≠ .idle) : Stopping s (continueBuild b success canceled s') := by
  have hcanceling : s'.state = .canceling := by
    cases hstate : s'.state with
    | idle => exact absurd hstate hidle
    | running => exact absurd hstate h.state
    | canceling => rfl
  rcases continueBuild_cases b success canceled s' with heq | ⟨hnot, -⟩
  · rw [heq]
    split_ifs
    · exact ⟨h.scheduling, fun hnot => (nomatch hnot), h.entries⟩
    · exact ⟨h.scheduling, fun hnot => (nomatch hnot), h.entries⟩
  · exact absurd hcanceling hnot

theorem finishJob_stopping (job : JobId) (success canceled : Bool) :
    StateOp.Triple (fun s' => Stopping s s' ∧ s'.state ≠ .idle)
      (finishJob b w job success canceled) (fun _ => Stopping s) (fun _ => Stopping s) := by
  refine finishJob_triple (P := fun s' => Stopping s s' ∧ s'.state ≠ .idle) (fun _ hs => hs.1)
    ?_ ?_ (fun _ hs => hs.1) fun _ hs => stopping_continueBuild hs.1 hs.2
  · intro s' t hs _
    exact ⟨⟨hs.1.scheduling, hs.1.state, List.filter_sublist.trans hs.1.entries⟩, hs.2⟩
  · intro s' s'' hs hwork
    rw [hwork.others]
    exact ⟨⟨hs.1.scheduling, hs.1.state, hs.1.entries⟩, hs.2⟩

theorem Step.stopping {t u : Executor} {e : Event} (hstep : Step b t e u) (h : Stopping s t) :
    Stopping s u := by
  rcases hstep with ⟨-, henabled, rfl⟩
  cases e with
  | schedule n w => exact absurd (h.scheduling.symm.trans henabled.1) Bool.noConfusion
  | leaveQueue => exact absurd (h.scheduling.symm.trans henabled.1) Bool.noConfusion
  | commandsEnd job => exact ⟨h.scheduling, h.state, h.entries⟩
  | jobFinished job success canceled w =>
      exact perform_triple (finishJob_stopping job success canceled)
        (fun _ hs => stopping_handleError hs)
        (fun _ hs => ⟨hs.scheduling, hs.state, hs.entries⟩) ⟨h, henabled.2.1⟩
  | cancel => exact absurd henabled h.state

/-- As soon as a build is canceled or has ended, and the executor is outside of the loop, no
transformer is started any more, and a build that has ended stays so. -/
theorem canceled_run (b : BuildSetup) (s s' : Executor) (trace : List (Executor × Event))
    (hrun : TransitionSystem.Run (Step b) s trace s') (hscheduling : s.scheduling = false)
    (hstate : s.state ≠ .running) :
    (s'.scheduling = false ∧ s'.state ≠ .running ∧ s'.processingJobs.Sublist s.processingJobs) ∧
      (s.state = .idle → s'.state = .idle ∧ s'.graph = s.graph) := by
  have hstopping : Stopping s s' :=
    hrun.invariant_of_steps (P := Stopping s) (fun t e u ht hstep => hstep.stopping ht)
      ⟨hscheduling, hstate, List.Sublist.refl _⟩
  refine ⟨⟨hstopping.scheduling, hstopping.state, hstopping.entries⟩, fun hidle => ?_⟩
  have hended : s'.scheduling = false ∧ s'.state = .idle ∧ s'.graph = s.graph := by
    refine hrun.invariant_of_steps (P := fun t => t.scheduling = false ∧ t.state = .idle ∧
      t.graph = s.graph) ?_ ⟨hscheduling, hidle, rfl⟩
    rintro t e u ⟨hloop, hidle, hgraph⟩ ⟨-, henabled, rfl⟩
    cases e with
    | schedule n w => exact absurd (hloop.symm.trans henabled.1) Bool.noConfusion
    | leaveQueue => exact absurd (hloop.symm.trans henabled.1) Bool.noConfusion
    | commandsEnd job => exact ⟨hloop, hidle, hgraph⟩
    | jobFinished job success canceled w => exact absurd hidle henabled.2.1
    | cancel => exact absurd (hidle.symm.trans henabled) (fun hnot => nomatch hnot)
  exact hended.2

/-- The state after the first compiler was started, and the build canceled. -/
def canceledState : Executor :=
  leaveQueue (cancelJobs (sampleState [0, 2, 6, 1]))

/-- The build ends with the compiler. -/
theorem canceled_run_canceledState :
    ∃ s' : Executor, (s'.scheduling = false ∧ s'.state ≠ .running ∧
      s'.processingJobs.Sublist canceledState.processingJobs) ∧ s'.state = .idle := by
  have hrun : TransitionSystem.Run (Step sampleSetup) canceledState
      [(canceledState, .commandsEnd 0),
        (after sampleSetup canceledState (.commandsEnd 0),
          .jobFinished 0 true false sampleObservations)]
      (after sampleSetup (after sampleSetup canceledState (.commandsEnd 0))
        (.jobFinished 0 true false sampleObservations)) :=
    (TransitionSystem.Run.nil.snoc ⟨rfl, by decide, rfl⟩).snoc ⟨rfl, by decide, rfl⟩
  exact ⟨_, (canceled_run sampleSetup canceledState _ _ hrun (by decide) (by decide)).1, by decide⟩

end Executor

end Qbs
