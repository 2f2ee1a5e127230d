import QbsCore.Executor.BuildProgress

/-!
# Looking up job limits

The limits of the job pools are set up for the products to build.  A build of some
products can queue nodes of other products, and whether they belong to a product to build
is checked after the limits were looked up.

Main results:

- Theorem {lit}`Executor.build_lookup_iff`: in every state of a build, the nodes for which
  the lookup fails.
- Theorem {lit}`Executor.build_lookupsSucceed_iff`: the builds in which no lookup fails.

Current gaps:

- None.
-/

namespace Qbs

open BuildGraph

namespace Executor

variable {b : BuildSetup} {w : Observations} {s s' : Executor} {g : BuildGraph}
  {t : TransformerId}

/-! ## The graph in a build -/

/-- The transformers of the graph are left alone, apart from new ones. -/
def ExtendsGraph (b : BuildSetup) (s s' : Executor) : Prop :=
  s.graph.TransformersSound → ExtendsTransformers b.IsProduct s.graph s'.graph

namespace ExtendsGraph

theorem refl (s : Executor) : ExtendsGraph b s s :=
  ExtendsTransformers.refl

theorem trans {s'' : Executor} (h : ExtendsGraph b s s') (h' : ExtendsGraph b s' s'') :
    ExtendsGraph b s s'' :=
  fun hs => (h hs).trans (h' (h hs).sound)

theorem of_untouched (h : JobsUntouched b s s') : ExtendsGraph b s s' :=
  h.graph

theorem of_graph_eq (h : s'.graph = s.graph) : ExtendsGraph b s s' := by
  intro hs
  rw [h]
  exact ExtendsTransformers.refl hs

end ExtendsGraph

/-- An operation that leaves the transformers of the graph alone, apart from new ones. -/
abbrev LeavesGraph (b : BuildSetup) (op : ExecutorOp Unit) : Prop :=
  StateOp.Within (ExtendsGraph b) op

theorem scheduleNode_leavesGraph (n : NodeId) : LeavesGraph b (scheduleNode b w n) := by
  intro s
  unfold scheduleNode
  rw [StateOp.outcome_query_bind]
  split_ifs
  · rw [StateOp.outcome_bind, StateOp.outcome_query]
    cases s.schedulingBlockedByJobLimit b n with
    | error e => exact ExtendsGraph.refl s
    | ok blocked =>
        cases blocked with
        | true => exact ExtendsGraph.of_graph_eq rfl
        | false => exact fun hs => (visit_inLoop n s).graph hs
  · exact ExtendsGraph.refl s

theorem finishJob_leavesGraph (job : JobId) (success canceled : Bool) :
    LeavesGraph b (finishJob b w job success canceled) := by
  intro s
  have hkeeps : StateOp.Keeps (ExtendsGraph b s) (finishJob b w job success canceled) :=
    finishJob_triple (P := ExtendsGraph b s) (fun _ hs => hs) (fun _ _ hs _ => hs)
      (fun _ _ hs hwork => hs.trans (ExtendsGraph.of_untouched hwork.jobsUntouched))
      (fun _ hs => hs)
      fun s' hs => hs.trans
        (ExtendsGraph.of_untouched (continueBuild_untouched success canceled s'))
  exact hkeeps.outcome (ExtendsGraph.refl s)

theorem perform_extendsGraph {op : ExecutorOp Unit} (hop : LeavesGraph b op) (s : Executor) :
    ExtendsGraph b s (perform op s) :=
  perform_triple (Q := ExtendsGraph b s) (StateOp.Within.keeps hop fun _ _ hs => hs.trans)
    (fun s' hs => hs.trans (ExtendsGraph.of_untouched (handleError_untouched s')))
    (fun _ hs => hs) (ExtendsGraph.refl s)

/-- Each step of a build leaves the transformers alone, apart from new ones. -/
theorem Step.extendsGraph {e : Event} (hstep : Step b s e s') : ExtendsGraph b s s' := by
  rcases hstep with ⟨-, -, rfl⟩
  cases e with
  | schedule node w =>
      have htaken : ExtendsGraph b s { s with leaves := s.leaves.erase node } :=
        ExtendsGraph.of_graph_eq rfl
      exact htaken.trans (perform_extendsGraph (scheduleNode_leavesGraph node) _)
  | leaveQueue => exact ExtendsGraph.of_untouched (leaveQueue_untouched s)
  | commandsEnd job => exact ExtendsGraph.of_graph_eq rfl
  | jobFinished job success canceled w =>
      exact perform_extendsGraph (finishJob_leavesGraph job success canceled) s
  | cancel => exact ExtendsGraph.of_graph_eq rfl

/-! ## Lookups -/

theorem jobLimitIsExceeded_outOfRange (jobPool : String) {p : ProductId} :
    jobLimitIsExceeded b s jobPool t = .error (.outOfRange p) ↔
      s.graph.transformerProduct t = some p ∧ p ∉ b.productsToBuild := by
  unfold jobLimitIsExceeded BuildSetup.jobLimitsPerProduct
  cases s.graph.transformerProduct t with
  | none => simp
  | some q =>
      by_cases hq : q ∈ b.productsToBuild
      · simp only [if_pos hq, reduceCtorEq, Option.some.injEq, false_iff, not_and, not_not]
        intro heq
        rwa [← heq]
      · simp only [if_neg hq, Except.error.injEq, Failure.outOfRange.injEq, Option.some.injEq]
        constructor
        · intro heq
          exact ⟨heq, heq ▸ hq⟩
        · exact fun h => h.1

/-- The products of the executing transformers are built. -/
def RunningBuilt (b : BuildSetup) (s : Executor) : Prop :=
  ∀ job running p, (s.jobs job).transformer = some running →
    s.graph.transformerProduct running = some p → p ∈ b.productsToBuild

theorem JobsConsistent.runningBuilt (h : JobsConsistent b (fun p => p ∈ b.productsToBuild) s) :
    RunningBuilt b s :=
  fun job running _ hrunning hp => (h.established _ (h.executes job running hrunning).1).product hp

theorem exceededForRunningJobs_ne_outOfRange (h : RunningBuilt b s) (jobPool : String)
    (t : TransformerId) (jobs : List JobId) (p : ProductId) :
    exceededForRunningJobs b s jobPool t jobs ≠ .error (.outOfRange p) := by
  induction jobs with
  | nil => simp [exceededForRunningJobs]
  | cons job jobs ih =>
      unfold exceededForRunningJobs
      split_ifs
      · cases hrunning : (s.jobs job).transformer with
        | none => exact ih
        | some running =>
            simp only
            split_ifs
            · exact ih
            · intro herror
              cases hlookup : jobLimitIsExceeded b s jobPool running with
              | error e =>
                  rw [hlookup] at herror
                  have hfail : jobLimitIsExceeded b s jobPool running =
                      .error (.outOfRange p) := by
                    rw [hlookup]
                    exact congrArg Except.error (Except.error.inj herror)
                  have hmissing := (jobLimitIsExceeded_outOfRange jobPool).mp hfail
                  exact hmissing.2 (h job running p hrunning hmissing.1)
              | ok exceeded =>
                  rw [hlookup] at herror
                  cases exceeded with
                  | true => cases herror
                  | false => exact ih herror
      · exact ih

/-- The lookups for a transformer fail if its product is not built and one of its pools is in
use. -/
theorem blockedByPools_outOfRange (h : RunningBuilt b s) {p : ProductId} (jobPools : List String) :
    blockedByPools b s t jobPools = .error (.outOfRange p) ↔
      (s.graph.transformerProduct t = some p ∧ p ∉ b.productsToBuild) ∧
        ∃ jobPool, jobPool ∈ jobPools ∧ s.jobCountPerPool jobPool ≠ 0 := by
  induction jobPools with
  | nil => simp [blockedByPools]
  | cons jobPool jobPools ih =>
      unfold blockedByPools
      by_cases hzero : s.jobCountPerPool jobPool = 0
      · rw [if_pos hzero, ih]
        simp [hzero]
      · rw [if_neg hzero]
        have hexists : ∃ pool, pool ∈ jobPool :: jobPools ∧ s.jobCountPerPool pool ≠ 0 :=
          ⟨jobPool, List.mem_cons_self, hzero⟩
        rw [and_iff_left hexists, ← jobLimitIsExceeded_outOfRange jobPool]
        cases hlookup : jobLimitIsExceeded b s jobPool t with
        | error e => exact Iff.rfl
        | ok exceeded =>
            have hbuilt : ¬(s.graph.transformerProduct t = some p ∧ p ∉ b.productsToBuild) := by
              rw [← jobLimitIsExceeded_outOfRange jobPool, hlookup]
              simp
            refine iff_of_false ?_ (by simp)
            cases exceeded with
            | true => exact fun herror => by cases herror
            | false =>
                intro herror
                cases hothers : exceededForRunningJobs b s jobPool t
                    (s.processingJobs.map Prod.fst) with
                | error e =>
                    rw [hothers] at herror
                    have hfail : exceededForRunningJobs b s jobPool t
                        (s.processingJobs.map Prod.fst) = .error (.outOfRange p) := by
                      rw [hothers]
                      exact congrArg Except.error (Except.error.inj herror)
                    exact exceededForRunningJobs_ne_outOfRange h jobPool t _ p hfail
                | ok exceeded =>
                    rw [hothers] at herror
                    cases exceeded with
                    | true => cases herror
                    | false => exact hbuilt (ih.mp herror).1

/-- A node whose transformer would be looked at although its product is not built, while one of
its pools is in use. -/
structure LimitsMissing (b : BuildSetup) (s : Executor) (n : NodeId) (p : ProductId) : Prop where
  isArtifact : s.graph.isArtifact n = true
  notSource : (s.graph.artifact n).artifactType ≠ .sourceFile
  notBuilt : p ∉ b.productsToBuild
  poolInUse : ∃ t, (s.graph.artifact n).transformer = some t ∧
    s.graph.transformerProduct t = some p ∧
      ∃ jobPool, jobPool ∈ (s.graph.transformer t).jobPools ∧ s.jobCountPerPool jobPool ≠ 0

theorem schedulingBlockedByJobLimit_outOfRange (h : RunningBuilt b s) (n : NodeId)
    (p : ProductId) :
    s.schedulingBlockedByJobLimit b n = .error (.outOfRange p) ↔ LimitsMissing b s n p := by
  unfold schedulingBlockedByJobLimit
  by_cases hartifact : s.graph.isArtifact n = true
  · by_cases htype : (s.graph.artifact n).artifactType = .sourceFile
    · simp only [hartifact, htype, Bool.not_true, Bool.false_eq_true, if_false, if_true,
        reduceCtorEq, false_iff]
      exact fun hmissing => hmissing.notSource htype
    · simp only [hartifact, htype, Bool.not_true, Bool.false_eq_true, if_false]
      cases hn : (s.graph.artifact n).transformer with
      | none =>
          simp only [Except.error.injEq, reduceCtorEq, false_iff]
          intro hmissing
          rcases hmissing.poolInUse with ⟨t, ht, -⟩
          cases hn.symm.trans ht
      | some t =>
          rw [blockedByPools_outOfRange h]
          constructor
          · rintro ⟨⟨hp, hbuilt⟩, hpool⟩
            exact ⟨hartifact, htype, hbuilt, t, hn, hp, hpool⟩
          · intro hmissing
            rcases hmissing.poolInUse with ⟨t', ht', hp, hpool⟩
            cases Option.some.inj (hn.symm.trans ht')
            exact ⟨⟨hp, hmissing.notBuilt⟩, hpool⟩
  · simp only [hartifact, Bool.not_false, if_true, reduceCtorEq, false_iff]
    exact fun hmissing => hartifact hmissing.isArtifact

/-! ## Whole builds -/

/-- A build graph of the products of the project, some of which are to be built. -/
structure BuildOf (b : BuildSetup) (g : BuildGraph) : Prop where
  transformers : g.TransformersSound
  nodes : ∀ n, n < g.nextNode → b.IsProduct (g.productOf n)
  productsToBuild_nodup : b.productsToBuild.Nodup
  productsToBuild_isProduct : ∀ p, p ∈ b.productsToBuild → b.IsProduct p

/-- A build that is not partial is one of all products. -/
theorem BuildOf.mem_productsToBuild (h : BuildOf b g) (hfull : b.partialBuild = false)
    {p : ProductId} (hp : b.IsProduct p) : p ∈ b.productsToBuild := by
  have hnames : b.productsToBuild ⊆
      b.environment.project.allProducts.map ResolvedProduct.uniqueName := by
    intro q hq
    rcases h.productsToBuild_isProduct q hq with ⟨product, hproduct, rfl⟩
    exact List.mem_map_of_mem hproduct
  have hlength : b.productsToBuild.length = b.environment.project.allProducts.length := by
    simpa [BuildSetup.partialBuild] using hfull
  have hperm := (List.subperm_of_subset h.productsToBuild_nodup hnames).perm_of_length_le
    (by rw [List.length_map, hlength])
  rcases hp with ⟨product, hproduct, rfl⟩
  exact hperm.mem_iff.mpr (List.mem_map_of_mem hproduct)

/-- The invariant of a build: the transformers that were started belong to products to build, and
all nodes to products of the project. -/
structure ProductsKnown (b : BuildSetup) (s : Executor) : Prop where
  consistent : JobsConsistent b (fun p => p ∈ b.productsToBuild) s
  nodes : ∀ n, n < s.graph.nextNode → b.IsProduct (s.graph.productOf n)

theorem ExtendsGraph.nodes (h : ExtendsGraph b s s') (hs : s.graph.TransformersSound)
    (hnodes : ∀ n, n < s.graph.nextNode → b.IsProduct (s.graph.productOf n)) :
    ∀ n, n < s'.graph.nextNode → b.IsProduct (s'.graph.productOf n) := by
  intro n hn
  by_cases hold : n < s.graph.nextNode
  · rw [(h hs).productOf n hold]
    exact hnodes n hold
  · exact (h hs).newNodes n (Nat.le_of_not_lt hold) hn

theorem Step.productsKnown (hb : BuildOf b g) {e : Event} (hstep : Step b s e s')
    (h : ProductsKnown b s) : ProductsKnown b s' := by
  refine ⟨hstep.jobsConsistent h.consistent ?_,
    hstep.extendsGraph.nodes h.consistent.sound h.nodes⟩
  intro node w _ t ht hwanted
  by_cases hp : b.partialBuild = true
  · exact hwanted hp
  · have hlt := (h.consistent.sound.owner_lt node t ht).1
    exact hb.mem_productsToBuild (by simpa using hp) (h.nodes node hlt)

theorem build_productsKnown (hb : BuildOf b g) : ProductsKnown b (build b w g) :=
  ⟨build_jobsConsistent hb.transformers,
    (perform_extendsGraph (doBuild_leavesJobs.mono fun _ _ => ExtendsGraph.of_untouched) (start b g)).nodes hb.transformers hb.nodes⟩

theorem ProductsKnown.lookup_iff (h : ProductsKnown b s) (n : NodeId) (p : ProductId) :
    s.schedulingBlockedByJobLimit b n = .error (.outOfRange p) ↔ LimitsMissing b s n p :=
  schedulingBlockedByJobLimit_outOfRange h.consistent.runningBuilt n p

variable {trace : List (Executor × Event)}

theorem run_productsKnown (hb : BuildOf b g)
    (hrun : TransitionSystem.Run (Step b) (build b w g) trace s) : ProductsKnown b s :=
  hrun.invariant (fun _ _ => True) (fun _ _ _ ht _ hstep => hstep.productsKnown hb ht)
    (build_productsKnown hb) fun _ _ => trivial

/-- In every state of a build, the nodes for which the lookup fails. -/
theorem build_lookup_iff (hb : BuildOf b g)
    (hrun : TransitionSystem.Run (Step b) (build b w g) trace s) (n : NodeId) (p : ProductId) :
    s.schedulingBlockedByJobLimit b n = .error (.outOfRange p) ↔ LimitsMissing b s n p :=
  (run_productsKnown hb hrun).lookup_iff n p

/-- In a build of all products no lookup fails. -/
theorem build_lookup_of_full (hb : BuildOf b g) (hfull : b.partialBuild = false)
    (hrun : TransitionSystem.Run (Step b) (build b w g) trace s) (n : NodeId) (p : ProductId) :
    s.schedulingBlockedByJobLimit b n ≠ .error (.outOfRange p) := by
  have hknown := run_productsKnown hb hrun
  rw [Ne, hknown.lookup_iff n p]
  intro hmissing
  rcases hmissing.poolInUse with ⟨t, ht, hp, -⟩
  have hsound := hknown.consistent.sound
  have howner := hsound.owner_lt n t ht
  have hestablished : Established b.IsProduct s.graph t :=
    ⟨howner.2, s.graph.productOf n, hknown.nodes n howner.1, hsound.outputs_productOf n t ht⟩
  exact hmissing.notBuilt (hb.mem_productsToBuild hfull (hestablished.product hp))

/-- The lookups succeed that are made for a node taken from the queue. -/
def LookupsSucceed (b : BuildSetup) (s : Executor) (e : Event) : Prop :=
  ∀ node w, e = .schedule node w → s.graph.buildState node = .buildable →
    ∀ p, s.schedulingBlockedByJobLimit b node ≠ .error (.outOfRange p)

/-- A node taken from the queue belongs to a product to build, or no pool of its transformer is in
use. -/
def LimitsThere (b : BuildSetup) (s : Executor) (e : Event) : Prop :=
  ∀ node w, e = .schedule node w → s.graph.buildState node = .buildable →
    ∀ p, ¬LimitsMissing b s node p

/-- The builds in which no lookup fails. -/
theorem build_lookupsSucceed_iff (b : BuildSetup) (w : Observations) (g : BuildGraph)
    (hb : BuildOf b g) (trace : List (Executor × Event)) (s : Executor)
    (hrun : TransitionSystem.Run (Step b) (build b w g) trace s) :
    (∀ e, e ∈ trace → LookupsSucceed b e.1 e.2) ↔ ∀ e, e ∈ trace → LimitsThere b e.1 e.2 := by
  have hknown : ∀ e, e ∈ trace → ProductsKnown b e.1 :=
    hrun.invariant_trace (fun _ _ => True) (fun _ _ _ ht _ hstep => hstep.productsKnown hb ht)
      (build_productsKnown hb) fun _ _ => trivial
  constructor
  · intro h e he node w hnode hstate p hmissing
    exact h e he node w hnode hstate p (((hknown e he).lookup_iff node p).mpr hmissing)
  · intro h e he node w hnode hstate p hfail
    exact h e he node w hnode hstate p (((hknown e he).lookup_iff node p).mp hfail)

/-! ## A header of a product that is not built -/

theorem sampleGraph_buildOf : BuildOf sampleSetup sampleGraph where
  transformers := sampleGraph_transformersSound
  nodes n _ := by
    show sampleSetup.IsProduct (if n = 4 || n = 5 then "gen" else "app")
    split_ifs
    · exact ⟨productNamed "gen", List.mem_cons_of_mem _ List.mem_cons_self, rfl⟩
    · exact ⟨productNamed "app", List.mem_cons_self, rfl⟩
  productsToBuild_nodup := List.nodup_singleton _
  productsToBuild_isProduct p hp := by
    rw [List.mem_singleton.mp hp]
    exact ⟨productNamed "app", List.mem_cons_self, rfl⟩

theorem limitsThere_of_built {n : NodeId} (h : ∀ t, t ∈ (s.graph.artifact n).transformer →
    ∀ p, p ∈ s.graph.transformerProduct t → p ∈ b.productsToBuild) :
    LimitsThere b s (.schedule n w) := by
  rintro node w' heq - p hmissing
  cases heq
  rcases hmissing.poolInUse with ⟨t, ht, hp, -⟩
  exact hmissing.notBuilt (h t ht p hp)

/-- The limits are there for both compilers. -/
theorem build_lookupsSucceed_iff_stateAfter :
    (stateAfter independentSources [0, 2, 6, 1, 3]).processingJobs = [(0, 0), (1, 1)] ∧
      ∀ e, e ∈ [(stateAfter independentSources [], Event.schedule 0 independentSources),
          (stateAfter independentSources [0], .schedule 2 independentSources),
          (stateAfter independentSources [0, 2], .schedule 6 independentSources),
          (stateAfter independentSources [0, 2, 6], .schedule 1 independentSources),
          (stateAfter independentSources [0, 2, 6, 1], .schedule 3 independentSources)] →
        LookupsSucceed sampleSetup e.1 e.2 := by
  refine ⟨by decide +kernel, ?_⟩
  refine (build_lookupsSucceed_iff sampleSetup independentSources sampleGraph sampleGraph_buildOf
    _ (stateAfter independentSources [0, 2, 6, 1, 3]) ?_).mpr ?_
  · exact ((((TransitionSystem.Run.nil.snoc ⟨rfl, by decide, rfl⟩).snoc
      ⟨rfl, by decide +kernel, rfl⟩).snoc ⟨rfl, by decide +kernel, rfl⟩).snoc
      ⟨rfl, by decide +kernel, rfl⟩).snoc ⟨rfl, by decide +kernel, rfl⟩
  · intro e he
    simp only [List.mem_cons, List.not_mem_nil, or_false] at he
    rcases he with rfl | rfl | rfl | rfl | rfl
    · exact limitsThere_of_built (by decide +kernel)
    · exact limitsThere_of_built (by decide +kernel)
    · exact limitsThere_of_built (by decide +kernel)
    · exact limitsThere_of_built (by decide +kernel)
    · exact limitsThere_of_built (by decide +kernel)

theorem sampleState_limitsMissing :
    LimitsMissing sampleSetup (sampleState [0, 2, 6, 1, 3, 5]) 4 "gen" where
  isArtifact := by decide +kernel
  notSource := by decide +kernel
  notBuilt := by decide
  poolInUse := ⟨2, by decide +kernel, by decide +kernel, "compiler", by decide +kernel,
    by decide +kernel⟩

/-- While a compiler runs, the header that the second source includes is taken from the queue. -/
theorem lookupsSucceed_sampleState_false :
    (¬∀ b w g, BuildOf b g → ∀ trace s,
      TransitionSystem.Run (Step b) (build b w g) trace s →
        ∀ e, e ∈ trace → LookupsSucceed b e.1 e.2) ∧
      (sampleState [0, 2, 6, 1, 3, 5, 4]).terminated = true := by
  refine ⟨?_, by decide +kernel⟩
  intro h
  rcases run_of_canSchedule (w := sampleObservations) [0, 2, 6, 1, 3, 5]
    TransitionSystem.Run.nil (by decide +kernel) with ⟨trace, hrun⟩
  have hstep : Step sampleSetup (sampleState [0, 2, 6, 1, 3, 5])
      (.schedule 4 sampleObservations)
      (schedule sampleSetup sampleObservations 4 (sampleState [0, 2, 6, 1, 3, 5])) :=
    ⟨by decide +kernel, by decide +kernel, rfl⟩
  refine h sampleSetup sampleObservations sampleGraph sampleGraph_buildOf _ _ (hrun.snoc hstep)
    (sampleState [0, 2, 6, 1, 3, 5], .schedule 4 sampleObservations)
    (List.mem_append_right _ (List.mem_singleton_self _)) 4 sampleObservations rfl
    (by decide +kernel) "gen" ?_
  exact (build_lookup_iff sampleGraph_buildOf hrun 4 "gen").mpr sampleState_limitsMissing

end Executor

end Qbs
