import QbsCore.BuildGraph.ReferenceIntegrity
import QbsCore.Executor.TransformerCheck

/-!
# Updating timestamps without a build

The generated artifacts of the given products get the current time as their timestamp, and
the files of target artifacts are opened for appending.  The documentation promises the
build graph of a successful build.

Main results:

- Definition {lit}`TimestampsUpdater.updateTimestamps`.
- Theorem {lit}`TimestampsUpdater.UpdateCase.updatesRight_iff`: no transformer has to run
  afterwards exactly when nothing but timestamps asked for it.
- Theorem {lit}`TimestampsUpdater.UpdateCase.upToDate_seen_iff`: without forced timestamps a
  missing file dependency is all that keeps an output out of date.
- Theorem {lit}`TimestampsUpdater.not_updatesRight_marked`: a transformer that is marked for
  re-run has to run all the same.

Current gaps:

- The file of the stored build graph is not part of the state.
-/

namespace Qbs

namespace TimestampsUpdater

/-! ## The update -/

/-- Open a file for appending. A file that is there stays as it is. -/
def openForAppending (now : FileTime) (env : BuildEnvironment) (filePath : FilePath) :
    BuildEnvironment :=
  if (env.lastModified filePath).isSome then env
  else { env with lastModified := Function.update env.lastModified filePath (some now) }

/-- The artifacts among the root nodes of a product; each must have one of its tags. -/
def targetArtifacts (g : BuildGraph) (product : ResolvedProduct) :
    Except ErrorInfo (List NodeId) := do
  match g.productData product.uniqueName with
  | none => throw (.check "buildData")
  | some buildData =>
      (g.filterArtifacts buildData.roots).elems.forM fun a =>
        qbsCheck ((g.artifact a).fileTags.intersects product.fileTags)
          "a->fileTags().intersects(fileTags)"
      return (g.filterArtifacts buildData.roots).elems

/-- The timestamp of an artifact is only updated when its file exists. -/
def doVisit (env : BuildEnvironment) (now : FileTime) (g : BuildGraph) (artifact : NodeId) :
    BuildGraph :=
  if (env.lastModified (g.artifact artifact).filePath).isSome then g.setTimestamp artifact now
  else g

/-- Only generated artifacts are visited. -/
def visitNode (env : BuildEnvironment) (now : FileTime) (g : BuildGraph) (n : NodeId) :
    BuildGraph :=
  if g.isArtifact n ∧ (g.artifact n).artifactType = .generated then doVisit env now g n else g

/-- The files of target artifacts are touched. -/
def touchTarget (g : BuildGraph) (now : FileTime) (env : BuildEnvironment) (a : NodeId) :
    BuildEnvironment :=
  if (env.lastModified (g.artifact a).filePath).isSome then
    openForAppending now env (g.artifact a).filePath
  else env

def visitProduct (now : FileTime) (s : BuildEnvironment × BuildGraph)
    (product : ResolvedProduct) : Except ErrorInfo (BuildEnvironment × BuildGraph) := do
  match s.2.productData product.uniqueName with
  | none => throw (.check "product->buildData")
  | some buildData =>
      let g := buildData.nodes.elems.foldl (visitNode s.1 now) s.2
      let targets ← targetArtifacts g product
      return (targets.foldl (touchTarget g now) s.1, g)

/-- Storing skips a build graph that is not marked as modified. -/
def store (g : BuildGraph) : BuildGraph :=
  if g.isDirty then g.setClean else g

/-- Update the timestamps of the generated artifacts of some products. -/
def updateTimestamps (env : BuildEnvironment) (g : BuildGraph) (products : List ResolvedProduct)
    (now : FileTime) : Except ErrorInfo (BuildEnvironment × BuildGraph) := do
  let (env, g) ← products.foldlM (visitProduct now) (env, g)
  return (env, store (if products.isEmpty then g else g.setDirty))

/-! ## What the update does -/

variable {env : BuildEnvironment} {g : BuildGraph} {now : FileTime} {times : NodeId → FileTime}

theorem touchTarget_eq (g : BuildGraph) (now : FileTime) (env : BuildEnvironment) (a : NodeId) :
    touchTarget g now env a = env := by
  unfold touchTarget openForAppending
  split <;> rfl

/-- Opening files for appending leaves them all as they are. -/
theorem foldl_touchTarget (g : BuildGraph) (now : FileTime) (env : BuildEnvironment)
    (targets : List NodeId) : targets.foldl (touchTarget g now) env = env := by
  induction targets with
  | nil => rfl
  | cons a targets ih => rw [List.foldl_cons, touchTarget_eq, ih]

variable (env g) in
/-- An artifact whose timestamp the update sets when it gets there. -/
def Updated (n : NodeId) : Prop :=
  g.isArtifact n = true ∧ (g.artifact n).artifactType = .generated ∧
    (env.lastModified (g.artifact n).filePath).isSome = true

instance (n : NodeId) : Decidable (Updated env g n) :=
  inferInstanceAs (Decidable (_ ∧ _ ∧ _))

variable (env g now times) in
/-- The timestamps after visits to some nodes. -/
def timesAfter (nodes : List NodeId) (n : NodeId) : FileTime :=
  if n ∈ nodes ∧ Updated env g n then now else times n

theorem timesAfter_nil : timesAfter env g now times [] = times := by
  funext n
  simp [timesAfter]

theorem timesAfter_append (nodes nodes' : List NodeId) :
    timesAfter env g now times (nodes ++ nodes') =
      timesAfter env g now (timesAfter env g now times nodes) nodes' := by
  funext n
  simp only [timesAfter, List.mem_append]
  split_ifs <;> tauto

theorem visitNode_withTimes (n : NodeId) :
    visitNode env now (g.withTimes times) n =
      g.withTimes (timesAfter env g now times [n]) := by
  have hdef : visitNode env now (g.withTimes times) n =
      if g.isArtifact n = true ∧ (g.artifact n).artifactType = .generated then
        if (env.lastModified (g.artifact n).filePath).isSome then
          (g.withTimes times).setTimestamp n now
        else g.withTimes times
      else g.withTimes times := rfl
  rw [hdef, BuildGraph.setTimestamp_withTimes]
  simp only [← ite_and, and_assoc]
  split <;> rename_i h
  · congr 1
    funext m
    by_cases hm : m = n
    · subst hm
      simp [timesAfter, Updated, h]
    · simp [timesAfter, hm]
  · congr 1
    funext m
    by_cases hm : m = n
    · subst hm
      simp [timesAfter, Updated, h]
    · simp [timesAfter, hm]

theorem foldl_visitNode_withTimes (nodes : List NodeId) :
    nodes.foldl (visitNode env now) (g.withTimes times) =
      g.withTimes (timesAfter env g now times nodes) := by
  induction nodes generalizing times with
  | nil => rw [List.foldl_nil, timesAfter_nil]
  | cons n nodes ih =>
      rw [List.foldl_cons, visitNode_withTimes, ih, ← timesAfter_append, List.singleton_append]

/-- The nodes of a product. -/
def nodesOf (g : BuildGraph) (product : ResolvedProduct) : List NodeId :=
  match g.productData product.uniqueName with
  | some buildData => buildData.nodes.elems
  | none => []

/-- A product has build data, and its target artifacts have target tags. -/
def HasTargets (g : BuildGraph) (product : ResolvedProduct) : Prop :=
  ∃ d, g.productData product.uniqueName = some d ∧
    ∀ a, a ∈ g.filterArtifacts d.roots → (g.artifact a).fileTags.intersects product.fileTags = true

theorem visitProduct_withTimes {product : ResolvedProduct} (h : HasTargets g product) :
    visitProduct now (env, g.withTimes times) product =
      .ok (env, g.withTimes (timesAfter env g now times (nodesOf g product))) := by
  rcases h with ⟨d, hd, htargets⟩
  have hdata : (g.withTimes times).productData product.uniqueName = some d := hd
  have hdata' : (g.withTimes (timesAfter env g now times d.nodes.elems)).productData
      product.uniqueName = some d := hd
  have hchecks : (g.filterArtifacts d.roots).elems.forM (fun a =>
      qbsCheck ((g.artifact a).fileTags.intersects product.fileTags)
        "a->fileTags().intersects(fileTags)") = .ok PUnit.unit := by
    rw [Fallible.forM_eq_ok_iff]
    intro a ha
    rw [qbsCheck_eq_ok_iff]
    exact htargets a ha
  have htargetArtifacts : targetArtifacts
      (g.withTimes (timesAfter env g now times d.nodes.elems)) product =
      .ok (g.filterArtifacts d.roots).elems := by
    unfold targetArtifacts
    rw [hdata']
    exact Fallible.bind_eq_ok_iff.mpr ⟨PUnit.unit, hchecks, rfl⟩
  unfold visitProduct
  simp only [hdata, foldl_visitNode_withTimes, htargetArtifacts]
  rw [nodesOf, hd]
  change Except.ok (_, _) = _
  rw [foldl_touchTarget]

theorem foldlM_visitProduct {products : List ResolvedProduct}
    (h : ∀ p ∈ products, HasTargets g p) :
    products.foldlM (visitProduct now) (env, g.withTimes times) =
      .ok (env, g.withTimes (timesAfter env g now times (products.flatMap (nodesOf g)))) := by
  induction products generalizing times with
  | nil =>
      rw [List.flatMap_nil, timesAfter_nil]
      rfl
  | cons p products ih =>
      rw [List.foldlM_cons, visitProduct_withTimes (h p List.mem_cons_self)]
      change products.foldlM (visitProduct now) _ = _
      rw [ih fun q hq => h q (List.mem_cons_of_mem p hq), ← timesAfter_append, List.flatMap_cons]

/-- A build graph that was not modified is marked as saved already. -/
theorem store_eq (g : BuildGraph) : store g = g.setClean := by
  unfold store
  split <;> rename_i h
  · rfl
  · rw [Bool.not_eq_true] at h
    unfold BuildGraph.setClean
    rw [← h]

/-- The build graph after an update: new timestamps, and saved. -/
theorem updateTimestamps_eq {products : List ResolvedProduct}
    (h : ∀ p ∈ products, HasTargets g p) :
    updateTimestamps env g products now =
      .ok (env, g.setClean.withTimes (timesAfter env g now (fun n => (g.artifact n).timestamp)
        (products.flatMap (nodesOf g)))) := by
  have hrun := @foldlM_visitProduct env g now (fun n => (g.artifact n).timestamp) products h
  rw [BuildGraph.withTimes_self] at hrun
  unfold updateTimestamps
  rw [hrun]
  change Except.ok (_, _) = _
  rw [store_eq]
  split <;> rfl

/-! ## The state after a successful build -/

/-- An artifact of a product of the project. -/
structure Known (g : BuildGraph) (n : NodeId) : Prop where
  contains : g.Contains n
  isArtifact : g.isArtifact n = true

/-- A project with all its products, whose generated artifacts all exist, and the build graph in
an arbitrary state. Neither source files nor file dependencies are newer than now. -/
structure UpdateCase where
  env : BuildEnvironment
  graph : BuildGraph
  products : List ResolvedProduct
  now : FileTime
  now_ne : now ≠ 0
  hasTargets : ∀ p ∈ products, HasTargets graph p
  allProducts : ∀ n, graph.Contains n → ∃ p ∈ products, p.uniqueName = graph.productOf n
  exist : ∀ n, Known graph n → (graph.artifact n).artifactType = .generated →
    (env.lastModified (graph.artifact n).filePath).isSome = true
  sourceFiles_le : ∀ n, Known graph n → (graph.artifact n).artifactType = .sourceFile →
    (graph.artifact n).timestamp ≤ now
  fileDependencies_le : ∀ n, Known graph n → ∀ f, f ∈ (graph.artifact n).fileDependencies →
    env.timestamp f ≤ now
  children_known : ∀ n, Known graph n → ∀ c, c ∈ graph.childArtifacts n → Known graph c
  outputs_known : ∀ n t, Known graph n → (graph.artifact n).transformer = some t →
    ∀ o, o ∈ (graph.transformer t).outputs →
      Known graph o ∧ (graph.artifact o).artifactType = .generated

namespace UpdateCase

variable (c : UpdateCase)

/-- The transformers of the project. -/
def HasTransformer (t : TransformerId) : Prop :=
  ∃ n, Known c.graph n ∧ (c.graph.artifact n).transformer = some t

/-- The update succeeds, and only transformers that always run have to run afterwards. -/
def UpdatesRight : Prop :=
  ∃ env g, updateTimestamps c.env c.graph c.products c.now = .ok (env, g) ∧
    ∀ t, c.HasTransformer t → (g.transformer t).alwaysRun = false →
      ∃ g', Executor.mustExecuteTransformer env g t = .ok (false, g')

/-- All generated artifacts have the current time, and source files the time that is known. -/
def currentTimes (n : NodeId) : FileTime :=
  if (c.graph.artifact n).artifactType = .generated then c.now else (c.graph.artifact n).timestamp

/-- The times that the check of an output of a transformer sees. -/
def seen (t : TransformerId) (o : NodeId) : NodeId → FileTime :=
  Executor.timesSeen c.env c.graph c.currentTimes (c.graph.transformer t).outputs.elems o

/-- Nothing but timestamps asks for a transformer to run: neither the mark for re-run, nor the
records of its commands, nor a file dependency that does not exist, nor a source file that has no
timestamp but must have one, nor the files of its outputs when these are looked at. -/
structure OnlyTimestamps (t : TransformerId) : Prop where
  notMarked : (c.graph.transformer t).markedForRerun = false
  noRerun : (c.graph.commandsNeedRerun c.env t).1 = false
  childrenTimed : ∀ o, o ∈ (c.graph.transformer t).outputs →
    Executor.ChildrenTimed c.graph (c.seen t o) o
  upToDate : ∀ o, o ∈ (c.graph.transformer t).outputs →
    (c.graph.artifact o).alwaysUpdated = true ∨ c.env.options.forceTimestampCheck = true →
      Executor.UpToDate c.env c.graph (c.seen t o) o
  someUpToDate : ∃ o, o ∈ (c.graph.transformer t).outputs ∧
    Executor.UpToDate c.env c.graph (c.seen t o) o

variable {c}

variable {n o : NodeId} {t : TransformerId}

theorem updated_eq (hn : Known c.graph n) :
    timesAfter c.env c.graph c.now (fun n => (c.graph.artifact n).timestamp)
      (c.products.flatMap (nodesOf c.graph)) n = c.currentTimes n := by
  have hmem : n ∈ c.products.flatMap (nodesOf c.graph) := by
    rcases c.allProducts n hn.contains with ⟨p, hp, hname⟩
    rcases hn.contains with ⟨d, hd, hnd⟩
    refine List.mem_flatMap.mpr ⟨p, hp, ?_⟩
    rw [nodesOf, hname, hd]
    exact hnd
  unfold timesAfter currentTimes
  by_cases hgenerated : (c.graph.artifact n).artifactType = .generated
  · rw [if_pos ⟨hmem, hn.isArtifact, hgenerated, c.exist n hn hgenerated⟩, if_pos hgenerated]
  · rw [if_neg fun h => hgenerated h.2.2.1, if_neg hgenerated]

theorem currentTimes_le (hn : Known c.graph n) : c.currentTimes n ≤ c.now := by
  unfold currentTimes
  split <;> rename_i hgenerated
  · exact le_rfl
  · apply c.sourceFiles_le n hn
    cases htype : (c.graph.artifact n).artifactType with
    | sourceFile => rfl
    | generated => exact absurd htype hgenerated

variable (c) in
/-- The build graph after the update. -/
def updatedGraph : BuildGraph :=
  c.graph.setClean.withTimes (timesAfter c.env c.graph c.now
    (fun n => (c.graph.artifact n).timestamp) (c.products.flatMap (nodesOf c.graph)))

variable (c) in
/-- The times that the check of an output sees in the build graph after the update. -/
def seenAfter (t : TransformerId) (o : NodeId) : NodeId → FileTime :=
  Executor.timesSeen c.env c.graph.setClean (timesAfter c.env c.graph c.now
    (fun n => (c.graph.artifact n).timestamp) (c.products.flatMap (nodesOf c.graph)))
    (c.graph.transformer t).outputs.elems o

theorem seenAfter_eq (hn : Known c.graph n) :
    c.seenAfter t o n = c.seen t o n := by
  unfold seenAfter seen Executor.timesSeen
  rw [updated_eq hn]
  rfl

theorem seenAfter_of_not_forced (hn : Known c.graph n)
    (hforce : c.env.options.forceTimestampCheck = false) :
    c.seenAfter t o n = c.currentTimes n := by
  rw [seenAfter_eq hn]
  simp [seen, Executor.timesSeen, hforce]

theorem upToDate_seenAfter (ho : Known c.graph o) :
    Executor.UpToDate c.env c.graph.setClean (c.seenAfter t o) o ↔
      Executor.UpToDate c.env c.graph (c.seen t o) o := by
  rw [← Executor.upToDate_congr (seenAfter_eq ho)
    fun n hn => seenAfter_eq (c.children_known o ho n hn)]
  exact ⟨fun h => ⟨h.hasTimestamp, h.children, h.fileDependencies⟩,
    fun h => ⟨h.hasTimestamp, h.children, h.fileDependencies⟩⟩

theorem childrenTimed_seenAfter (ho : Known c.graph o) :
    Executor.ChildrenTimed c.graph.setClean (c.seenAfter t o) o ↔
      Executor.ChildrenTimed c.graph (c.seen t o) o :=
  Executor.childrenTimed_congr fun n hn => seenAfter_eq (c.children_known o ho n hn)

/-- When an output passes after the update. -/
theorem passes_seenAfter (ho : Known c.graph o)
    (hgenerated : (c.graph.artifact o).artifactType = .generated) :
    Executor.Passes c.env c.graph.setClean (c.seenAfter t o) o ↔
      Executor.ChildrenTimed c.graph (c.seen t o) o ∧
        ((c.graph.artifact o).alwaysUpdated = true ∨ c.env.options.forceTimestampCheck = true →
          Executor.UpToDate c.env c.graph (c.seen t o) o) := by
  rw [@Executor.passes_iff c.env c.graph.setClean (c.seenAfter t o) o hgenerated,
    childrenTimed_seenAfter ho, upToDate_seenAfter ho]
  · rfl
  · intro hforce
    have htime : c.seenAfter t o o = c.now := by
      rw [seenAfter_of_not_forced ho hforce, currentTimes, if_pos hgenerated]
    rw [htime]
    refine ⟨c.now_ne, fun n hn => ?_⟩
    rw [seenAfter_of_not_forced (c.children_known o ho n hn) hforce]
    exact currentTimes_le (c.children_known o ho n hn)

/-- After the update a transformer does not have to run exactly when only timestamps have asked
for it before. -/
theorem mustNotExecute_updated_iff (ht : c.HasTransformer t)
    (hrun : (c.graph.transformer t).alwaysRun = false) :
    (∃ g', Executor.mustExecuteTransformer c.env c.updatedGraph t = .ok (false, g')) ↔
      c.OnlyTimestamps t := by
  rcases ht with ⟨a, ha, hat⟩
  have houtputs := c.outputs_known a t ha hat
  have hclean : (c.graph.setClean.commandsNeedRerun c.env t).1 =
      (c.graph.commandsNeedRerun c.env t).1 :=
    c.graph.commandsNeedRerun_congr BuildGraph.setClean rfl rfl fun _ _ => rfl
  have hcheck := @Executor.mustNotExecute_iff c.env c.graph.setClean (timesAfter c.env c.graph c.now
    (fun n => (c.graph.artifact n).timestamp) (c.products.flatMap (nodesOf c.graph))) t
  rw [hclean] at hcheck
  have hpasses : (∀ o, o ∈ (c.graph.transformer t).outputs →
      Executor.Passes c.env c.graph.setClean (c.seenAfter t o) o) ↔
      ∀ o, o ∈ (c.graph.transformer t).outputs → Executor.ChildrenTimed c.graph (c.seen t o) o ∧
        ((c.graph.artifact o).alwaysUpdated = true ∨ c.env.options.forceTimestampCheck = true →
          Executor.UpToDate c.env c.graph (c.seen t o) o) :=
    forall₂_congr fun o ho => passes_seenAfter (houtputs o ho).1 (houtputs o ho).2
  refine hcheck.trans ?_
  constructor
  · intro h
    rcases h with ⟨-, hmarked, hrerun, hall, o, ho, -, hup⟩
    exact ⟨hmarked, hrerun, fun o ho => (hpasses.mp hall o ho).1,
      fun o ho => (hpasses.mp hall o ho).2, o, ho, (upToDate_seenAfter (houtputs o ho).1).mp hup⟩
  · intro h
    rcases h.someUpToDate with ⟨o, ho, hup⟩
    exact ⟨hrun, h.notMarked, h.noRerun,
      hpasses.mpr fun o ho => ⟨h.childrenTimed o ho, h.upToDate o ho⟩, o, ho,
      (childrenTimed_seenAfter (houtputs o ho).1).mpr (h.childrenTimed o ho),
      (upToDate_seenAfter (houtputs o ho).1).mpr hup⟩

/-- Only transformers that always run have to run after an update exactly when nothing but
timestamps has asked for any other. -/
theorem updatesRight_iff (c : UpdateCase) :
    c.UpdatesRight ↔ ∀ t, c.HasTransformer t → (c.graph.transformer t).alwaysRun = false →
      c.OnlyTimestamps t := by
  have hupdate : updateTimestamps c.env c.graph c.products c.now = .ok (c.env, c.updatedGraph) :=
    updateTimestamps_eq c.hasTargets
  constructor
  · intro h t ht hrun
    rcases h with ⟨env, g, hrun', hall⟩
    rw [hupdate] at hrun'
    cases hrun'
    exact (mustNotExecute_updated_iff ht hrun).mp (hall t ht hrun)
  · intro h
    exact ⟨c.env, c.updatedGraph, hupdate, fun t ht hrun =>
      (mustNotExecute_updated_iff ht hrun).mpr (h t ht hrun)⟩

end UpdateCase

/-! ## A transformer that is marked for re-run -/

/-- A build of a project with one product, for which all files have the time 1. -/
def oneProduct : BuildEnvironment where
  project :=
    { name := "project"
      allProducts := [.create "p" ∅]
      projectProperties := fun _ => none
      rule := fun _ => default
      uniqueNames := List.pairwise_singleton _ _ }
  productsToBuild := ["p"]
  options := ⟨∅, [], false, false, false, 1⟩
  lastModified _ := some 1
  sameVariant v v' := v = v'
  sameCommands l l' := l = l'

/-- A product with two artifacts. The second one is an input of the first one and was rebuilt in the
last build, which ended before the transformer of the first one could run. -/
def markedGraph : BuildGraph :=
  { BuildGraph.empty with
    productOf := fun _ => "p"
    children := Function.update (fun _ => ∅) 0 {1}
    parents := Function.update (fun _ => ∅) 1 {0}
    artifact := fun n =>
      { Artifact.create .generated (if n = 0 then "/build/x" else "/build/y") with
        transformer := some n, alwaysUpdated := true }
    transformer := fun t =>
      { Transformer.create t with outputs := {t}, inputs := if t = 0 then {1} else ∅,
                                  markedForRerun := t = 0 }
    productData := Function.update (fun _ => none) "p" (some { (default : ProductBuildData) with
      nodes := {0, 1} }) }

theorem known_markedGraph (n : NodeId) : Known markedGraph n ↔ n = 0 ∨ n = 1 := by
  have hnodes (d : ProductBuildData) (hd : markedGraph.productData "p" = some d) :
      n ∈ d.nodes ↔ n = 0 ∨ n = 1 := by
    cases hd
    simp
  constructor
  · intro h
    rcases h.contains with ⟨d, hd, hn⟩
    exact (hnodes d hd).mp hn
  · intro h
    exact ⟨⟨_, rfl, (hnodes _ rfl).mpr h⟩, rfl⟩

def marked : UpdateCase where
  env := oneProduct
  graph := markedGraph
  products := [.create "p" ∅]
  now := 2
  now_ne := by decide
  hasTargets p hp := by
    rw [List.mem_singleton.mp hp]
    exact ⟨_, rfl, fun a ha => absurd ha (by simp [default])⟩
  allProducts n _ := ⟨_, List.mem_singleton.mpr rfl, rfl⟩
  exist _ _ _ := rfl
  sourceFiles_le n _ h := by cases h
  fileDependencies_le n _ f hf := absurd hf (SortedSet.not_mem_empty f)
  children_known n _ c hc := by
    have hchild := (BuildGraph.mem_filterArtifacts _).mp hc
    rcases Decidable.em (n = 0) with rfl | hn
    · exact (known_markedGraph c).mpr (.inr (SortedSet.mem_singleton.mp hchild.1))
    · simp [markedGraph, hn] at hchild
  outputs_known n t hn ht o ho := by
    cases ht
    rw [SortedSet.mem_singleton.mp ho]
    exact ⟨hn, rfl⟩

/-- The mark for re-run survives an update. -/
theorem not_updatesRight_marked : ¬marked.UpdatesRight := by
  intro h
  rcases h with ⟨env, g, hupdate, hall⟩
  rw [updateTimestamps_eq marked.hasTargets] at hupdate
  cases hupdate
  have hknown : Known marked.graph 0 := (known_markedGraph 0).mpr (.inl rfl)
  rcases hall 0 ⟨0, hknown, rfl⟩ rfl with ⟨g', hmust⟩
  cases hmust

end TimestampsUpdater

end Qbs
