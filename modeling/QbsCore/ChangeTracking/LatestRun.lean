import QbsCore.ChangeTracking.ReadChanges
import QbsCore.Library.TransitionSystem

/-!
# Records of the latest run

A rule is applied again and again while the project changes in between.  The records
of the prepare script should describe the latest run and only it, so that the script
is reported exactly when something that this run has read has changed.

Main results:

- Theorem {lit}`LatestRun.describesLatestRun_iff`: in every history the records
  describe the latest run in each state exactly when in each application the reads
  agree with each other and with the exported modules taken over.
- Theorem {lit}`LatestRun.exportedModule_change_hidden`: an exported module that
  changes and changes back is not noticed.

Current gaps:

- None.
-/

namespace Qbs

namespace LatestRun

/-! ## Histories of rule applications -/

/-- The transformer that the applications of a rule have led to, and the run it stems from when
that run created its commands. -/
structure History where
  transformer : Option Transformer
  lastRun : Option ScriptRun

/-- The new transformer of an application before its scripts run. -/
def newTransformer (rule : RuleId) : Option Transformer → Transformer
  | some other => (Transformer.create rule).rescueChangeTrackingData other
  | none => Transformer.create rule

/-- The scripts of one application. -/
def applyScripts (rule : RuleId) (old : Option Transformer) (run : ScriptRun) :
    Transformer × Except ErrorInfo Unit :=
  match run.accesses.foldlM ScriptEngine.observe .cleared with
  | .error err => (newTransformer rule old, .error err)
  | .ok e => (newTransformer rule old).createCommands run e

/-- Whether an application creates its commands. -/
def Succeeds (rule : RuleId) (old : Option Transformer) (run : ScriptRun) : Prop :=
  (applyScripts rule old run).2 = .ok ()

/-- One application. The project changes in between show in what the next run reads. -/
def Step (rule : RuleId) (s : History) (run : ScriptRun) (s' : History) : Prop :=
  s'.transformer = some (applyScripts rule s.transformer run).1 ∧
    match (applyScripts rule s.transformer run).2 with
    | .ok () => s'.lastRun = some run
    | .error _ => s'.lastRun = none

/-- The records that the next application takes over. -/
def rescuedRecords (s : History) : ScriptRecords :=
  match s.transformer with
  | some t => t.inPrepareScript
  | none => .empty

/-- The records of a transformer describe a run: they are exactly what the run has read, and
change tracking reports the script exactly when something that the run has read has changed. -/
structure Describes (t : Transformer) (run : ScriptRun) : Prop where
  exact : run.RecordsExact t.inPrepareScript
  reported_iff : ∀ c : TrackedState, c.Comparable run →
    ((c.prepareScriptNeedsRerun { t with prepareScriptNeedsChangeTracking := true }).1 = true ↔
      c.Changed run)

/-- If the latest run created its commands, the records describe this run. -/
def DescribesLatestRun (s : History) : Prop :=
  ∀ run, s.lastRun = some run → ∃ t, s.transformer = some t ∧ Describes t run

/-! ## One application -/

/-- Exact records are reported exactly when a read has changed. -/
theorem describes_iff {t : Transformer} {run : ScriptRun}
    (htime : t.inPrepareScript.lastExecutionTime = run.currentTime) :
    Describes t run ↔ run.RecordsExact t.inPrepareScript := by
  refine ⟨fun h => h.exact, fun hexact => ⟨hexact, ?_⟩⟩
  intro c hcomparable
  rw [TrackingContext.prepareScriptNeedsRerun, if_pos rfl]
  exact TrackedState.needsRerun_iff hexact htime hcomparable

theorem newTransformer_inPrepareScript (rule : RuleId) (s : History) :
    (newTransformer rule s.transformer).inPrepareScript = rescuedRecords s := by
  unfold newTransformer rescuedRecords
  cases s.transformer <;> rfl

/-- A successful application leaves the records of its run. -/
theorem applyScripts_of_succeeds {rule : RuleId} {s : History} {run : ScriptRun}
    (h : Succeeds rule s.transformer run) :
    ∃ e, Notes .cleared run.accesses e ∧
      (applyScripts rule s.transformer run).1.inPrepareScript =
        (rescuedRecords s).afterRun run e := by
  unfold Succeeds applyScripts at h
  unfold applyScripts
  cases he : run.accesses.foldlM ScriptEngine.observe .cleared with
  | error err => simp [he] at h
  | ok e =>
      refine ⟨e, ScriptEngine.notes_foldlM_observe he, ?_⟩
      simp only [he, Transformer.createCommands] at h ⊢
      cases hr : run.result with
      | error err => simp [hr] at h
      | ok commands => rw [newTransformer_inPrepareScript]

/-- After one application the records describe the run exactly when its reads agree. -/
theorem describesLatestRun_step_iff {rule : RuleId} {s s' : History} {run : ScriptRun}
    (h : Step rule s run s') :
    DescribesLatestRun s' ↔
      (Succeeds rule s.transformer run → run.ReadsAgree (rescuedRecords s)) := by
  rcases h with ⟨ht, hlast⟩
  unfold DescribesLatestRun
  cases hr : (applyScripts rule s.transformer run).2 with
  | error err =>
      rw [hr] at hlast
      simp only [hlast, Succeeds, hr]
      simp
  | ok u =>
      rw [hr] at hlast
      have hs : Succeeds rule s.transformer run := hr
      rcases applyScripts_of_succeeds hs with ⟨e, hnotes, hrecords⟩
      have hiff : Describes (applyScripts rule s.transformer run).1 run ↔
          run.ReadsAgree (rescuedRecords s) := by
        rw [describes_iff (by rw [hrecords]; rfl), hrecords]
        exact ScriptRun.recordsExact_iff hnotes
      simp only [hlast, ht, hs, true_implies, ← hiff]
      simp

/-! ## All histories -/

/-- In every history of a rule that starts without a run, the records describe the latest run in
each state exactly when in each successful application the reads agree with each other and with
the exported modules taken over. -/
theorem describesLatestRun_iff (rule : RuleId) (s : History) (hs : s.lastRun = none)
    (trace : List (History × ScriptRun)) (s' : History)
    (hrun : TransitionSystem.Run (Step rule) s trace s') :
    ((∀ e, e ∈ trace → DescribesLatestRun e.1) ∧ DescribesLatestRun s') ↔
      ∀ e, e ∈ trace → Succeeds rule e.1.transformer e.2 →
        e.2.ReadsAgree (rescuedRecords e.1) := by
  have hnone : DescribesLatestRun s := by
    intro run hlast
    rw [hs] at hlast
    cases hlast
  have hstep : ∀ t run u, True → DescribesLatestRun t → Step rule t run u →
      (DescribesLatestRun u ↔
        (Succeeds rule t.transformer run → run.ReadsAgree (rescuedRecords t))) :=
    fun _ _ _ _ _ h => describesLatestRun_step_iff h
  exact hrun.invariant_iff (W := fun _ => True) _ (fun _ _ _ _ _ => trivial) hstep trivial hnone

/-! ## An exported module that changes and changes back -/

/-- A product that exports one value. -/
def libProduct (value : String) : ResolvedProduct :=
  { ResolvedProduct.create "lib" ∅ with
    projectName := "top"
    exportedModule := { (default : ExportedModule) with
      propertyValues := [("x", .string value)] } }

def libProject (value : String) : Project where
  name := "top"
  allProducts := [libProduct value]
  projectProperties name := if name = "top" then some [] else none
  rule _ := default
  uniqueNames := List.pairwise_singleton _ _

/-- A run that reads what the product exports. -/
def readLib (value : String) (time : FileTime) : ScriptRun where
  project := libProject value
  product := libProduct value
  filePathsPerImport _ := []
  accesses := [(BuildGraph.empty, .exports "lib")]
  currentTime := time
  result := .ok []
  recorded := by simp

theorem libParameters_nonempty (key : ProductKey) (v : VariantMap)
    (h : (∅ : AssocMap ProductKey VariantMap).lookup key = some v) : v ≠ [] := by
  cases h

def libTracked : TrackedProduct :=
  ⟨⟨"lib", ""⟩, [], [], ∅, ∅, ∅, libParameters_nonempty⟩

/-- The product in a project of its own. -/
def libTree : ProjectTree TrackedProduct :=
  .mk ⟨0, "top", []⟩ [libTracked] []

theorem libTree_siblingNamesDiffer : libTree.SiblingNamesDiffer := by
  simp [libTree, ProjectTree.SiblingNamesDiffer, ProjectTree.SiblingNamesDifferAmong]

theorem libTree_distinct : (libTree.projects.map ProjectNode.addr).Nodup ∧
    (libTree.allProducts.map fun e => e.2.uniqueName).Nodup := by
  decide

def libTracking : PropertyTracking where
  root := libTree
  siblingNamesDiffer := libTree_siblingNamesDiffer
  projectsDistinct := libTree_distinct.1
  productsDistinct := libTree_distinct.2
  project := ⟨0, "top", []⟩
  product := libTracked
  product_mem := List.mem_singleton_self _
  productsToBuild := []
  toBuild_mem _ hp := absurd hp List.not_mem_nil

def libState (value : String) : TrackedState where
  project := libProject value
  graph := BuildGraph.empty
  product := libProduct value
  productsToBuild := []
  lastModified _ := none
  sameVariant v w := v = w
  product_mem := by simp [libProject]
  tracking := libTracking
  projectName := rfl
  ownProperties := rfl
  projects name := by
    rw [PropertyTracking.lookup_projectsByName]
    show (if name = "top" then some [] else none) =
      (List.find? (fun n => decide (n.name = name)) [⟨0, "top", []⟩]).map
        ProjectNode.projectProperties
    by_cases hname : name = "top"
    · simp [hname]
    · simp [hname, Ne.symm hname]
  products name := by
    show Option.Rel _ (if name = "lib" then _ else none) (if name = "lib" then _ else none)
    split_ifs
    · exact .some ⟨rfl, rfl, rfl, rfl⟩
    · exact .none

/-- The state after an application to a given state that succeeds. -/
def afterApplication (s : History) (run : ScriptRun) : History :=
  ⟨some (applyScripts 0 s.transformer run).1, some run⟩

/-- The second run reads the new value, but the record of the first run stays: the change back to
the first value is not reported, although the commands stem from the second. -/
theorem exportedModule_change_hidden :
    ∃ trace s', TransitionSystem.Run (Step 0) ⟨none, none⟩ trace s' ∧
      trace.map Prod.snd = [readLib "v1" 1, readLib "v2" 2] ∧ ¬DescribesLatestRun s' ∧
      ∃ t, s'.transformer = some t ∧
        ((libState "v1").prepareScriptNeedsRerun
          { t with prepareScriptNeedsChangeTracking := true }).1 = false ∧
        (libState "v1").Comparable (readLib "v2" 2) ∧ (libState "v1").Changed (readLib "v2" 2) := by
  have hstep₁ : Step 0 ⟨none, none⟩ (readLib "v1" 1)
      (afterApplication ⟨none, none⟩ (readLib "v1" 1)) := ⟨rfl, rfl⟩
  have hstep₂ : Step 0 (afterApplication ⟨none, none⟩ (readLib "v1" 1)) (readLib "v2" 2)
      (afterApplication (afterApplication ⟨none, none⟩ (readLib "v1" 1)) (readLib "v2" 2)) :=
    ⟨rfl, rfl⟩
  have hreads : ∀ a, a ∈ (readLib "v2" 2).reads →
      a = .exportedModule "lib" (libProduct "v2").exportedModule := by
    intro a ha
    simpa [ScriptRun.reads, readLib, Access.reads, Project.exportedModule, libProject,
      Project.product?, libProduct, ResolvedProduct.create] using ha
  have hexports : Read.exportedModule "lib" (libProduct "v2").exportedModule ∈
      (readLib "v2" 2).reads := by
    rw [ScriptRun.exportedModule_mem_reads]
    exact ⟨⟨_, List.mem_singleton_self _⟩, by decide⟩
  refine ⟨_, _, (TransitionSystem.Run.nil.snoc hstep₁).snoc hstep₂, rfl, ?_, _, rfl, by decide, ?_,
    Or.inr ⟨_, hexports, ?_⟩⟩
  · rw [describesLatestRun_step_iff hstep₂]
    intro hagree
    have hstale : Read.exportedModule "lib" (libProduct "v1").exportedModule ∈
        (readLib "v2" 2).reads := (hagree rfl).exports _ _ (by decide)
    exact absurd (Read.exportedModule.inj (hreads _ hstale)).2 (by decide)
  · refine ⟨by simp [readLib], fun a ha => ?_⟩
    rw [hreads a ha]
    refine ⟨Or.inl (Or.inl rfl), fun p hp => ?_⟩
    cases (Option.some.inj hp)
    decide
  · intro p hp
    cases (Option.some.inj hp)
    decide

/-- A history with one application. -/
theorem describesLatestRun_iff_readLib :
    ∃ trace s', TransitionSystem.Run (Step 0) ⟨none, none⟩ trace s' ∧
      trace.map Prod.snd = [readLib "v1" 1] ∧
      (((∀ e, e ∈ trace → DescribesLatestRun e.1) ∧ DescribesLatestRun s') ↔
        ∀ e, e ∈ trace → Succeeds 0 e.1.transformer e.2 →
          e.2.ReadsAgree (rescuedRecords e.1)) := by
  have hstep : Step 0 ⟨none, none⟩ (readLib "v1" 1)
      (afterApplication ⟨none, none⟩ (readLib "v1" 1)) := ⟨rfl, rfl⟩
  have hrun := TransitionSystem.Run.nil.snoc hstep
  exact ⟨_, _, hrun, rfl, describesLatestRun_iff 0 ⟨none, none⟩ rfl _ _ hrun⟩

end LatestRun

end Qbs
