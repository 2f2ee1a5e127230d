import QbsCore.Executor.UpToDate

/-!
# When a transformer does not have to run

The check of a transformer goes through its outputs and may take their timestamps from the
files on the way.  The outputs are checked in ascending order, so that a check sees the
forced timestamps of the outputs up to its own.

Main results:

- Theorem {lit}`Executor.mustNotExecute_iff`: exactly when the commands of a transformer do
  not have to run.
- Theorem {lit}`Executor.dependenciesUpToDate_eq_true_iff`: exactly when an output is found to
  be up to date.

Current gaps:

- None.
-/

namespace Qbs

namespace BuildGraph

/-! ## Other timestamps -/

/-- The build graph with other timestamps. -/
def withTimes (g : BuildGraph) (times : NodeId → FileTime) : BuildGraph :=
  { g with artifact := fun n => { g.artifact n with timestamp := times n } }

variable (g : BuildGraph) (times : NodeId → FileTime)

theorem withTimes_self : g.withTimes (fun n => (g.artifact n).timestamp) = g :=
  rfl

theorem setTimestamp_withTimes (n : NodeId) (time : FileTime) :
    (g.withTimes times).setTimestamp n time = g.withTimes (Function.update times n time) := by
  simp only [withTimes, setTimestamp, modifyArtifact, setArtifact, BuildGraph.mk.injEq, true_and,
    and_true]
  funext m
  by_cases h : m = n
  · subst h
    simp
  · simp [h]

/-- Whether commands have to run again is the same in a build graph in which no comparison with
the records comes out differently. -/
theorem commandsNeedRerun_congr (f : BuildGraph → BuildGraph) {env : BuildEnvironment}
    {t : TransformerId} (htransformer : (f g).transformer t = g.transformer t)
    (hproduct : (f g).transformerProduct t = g.transformerProduct t)
    (hcompare : ∀ (c : TrackingContext) (tr : Transformer),
      TrackingContext.commandsNeedRerun { c with graph := f c.graph } tr =
        c.commandsNeedRerun tr) :
    ((f g).commandsNeedRerun env t).1 = (g.commandsNeedRerun env t).1 := by
  have hcontext : ∀ p, env.trackingContext (f g) p =
      (env.trackingContext g p).map fun c => { c with graph := f c.graph } := by
    intro p
    unfold BuildEnvironment.trackingContext
    split <;> rfl
  unfold commandsNeedRerun
  rw [hproduct]
  cases g.transformerProduct t with
  | none => rfl
  | some p =>
      simp only [Option.bind_some, hcontext, htransformer]
      cases env.trackingContext g p with
      | none => rfl
      | some c => simp [hcompare]

/-- Whether commands have to run again does not depend on timestamps of artifacts. -/
theorem commandsNeedRerun_withTimes (env : BuildEnvironment) (t : TransformerId) :
    ((g.withTimes times).commandsNeedRerun env t).1 = (g.commandsNeedRerun env t).1 :=
  g.commandsNeedRerun_congr (fun g => g.withTimes times) rfl rfl fun _ _ => rfl

end BuildGraph

namespace Executor

variable (env : BuildEnvironment) (g : BuildGraph) (times : NodeId → FileTime)

/-! ## What the check of an output sees -/

/-- The times that the check of an output sees: with forced timestamps, the outputs up to it have
those of their files. -/
def timesSeen (outputs : List NodeId) (o c : NodeId) : FileTime :=
  if env.options.forceTimestampCheck = true ∧ c ∈ outputs ∧ c ≤ o then
    env.timestamp (g.artifact c).filePath
  else times c

/-- Every child that is always updated has a timestamp. -/
def ChildrenTimed (o : NodeId) : Prop :=
  ∀ c, c ∈ g.childArtifacts o → (g.artifact c).alwaysUpdated = true → times c ≠ 0

/-- An artifact has a timestamp and nothing that it depends on is newer. -/
structure UpToDate (o : NodeId) : Prop where
  hasTimestamp : times o ≠ 0
  children : ∀ c, c ∈ g.childArtifacts o → times c ≤ times o
  fileDependencies :
    fileDependenciesUpToDate env (times o) (g.artifact o).fileDependencies.elems = true

variable {env g times}

variable {outputs : List NodeId} {a o : NodeId} {found : OutputCheck}

theorem childrenTimed_congr {times' : NodeId → FileTime}
    (h : ∀ c, c ∈ g.childArtifacts o → times c = times' c) :
    ChildrenTimed g times o ↔ ChildrenTimed g times' o :=
  forall₂_congr fun c hc => by rw [h c hc]

theorem upToDate_congr {times' : NodeId → FileTime} (ho : times o = times' o)
    (h : ∀ c, c ∈ g.childArtifacts o → times c = times' c) :
    UpToDate env g times o ↔ UpToDate env g times' o := by
  constructor
  · intro hu
    exact ⟨ho ▸ hu.hasTimestamp, fun c hc => h c hc ▸ ho ▸ hu.children c hc,
      ho ▸ hu.fileDependencies⟩
  · intro hu
    exact ⟨ho ▸ hu.hasTimestamp, fun c hc => h c hc ▸ ho ▸ hu.children c hc,
      ho ▸ hu.fileDependencies⟩

theorem checkTimestamp_withTimes (a : NodeId) :
    checkTimestamp env (g.withTimes times) a =
      g.withTimes (timesSeen env g times [a] a) := by
  unfold checkTimestamp
  split <;> rename_i hforce
  · rw [BuildGraph.setTimestamp_withTimes]
    congr 1
    funext c
    by_cases hc : c = a
    · subst hc
      simp [timesSeen, hforce, BuildGraph.withTimes]
    · simp [timesSeen, hc]
  · congr 1
    funext c
    simp [timesSeen, hforce]

/-- The outputs after an output are not seen by its check. -/
theorem timesSeen_cons_self (h : ∀ b ∈ outputs, a < b) :
    timesSeen env g times (a :: outputs) a = timesSeen env g times [a] a := by
  funext c
  have hc : c ∈ a :: outputs ∧ c ≤ a ↔ c ∈ [a] ∧ c ≤ a := by
    simp only [List.mem_cons, List.not_mem_nil, or_false, and_congr_left_iff, or_iff_left_iff_imp]
    intro hle hmem
    exact absurd (h c hmem) (not_lt_of_ge hle)
  simp only [timesSeen, hc]

/-- The checks after that of an output start from what it has left. -/
theorem timesSeen_cons (h : a ≤ o) :
    timesSeen env g times (a :: outputs) o =
      timesSeen env g (timesSeen env g times [a] a) outputs o := by
  funext c
  by_cases hc : c = a
  · subst hc
    simp only [timesSeen, List.mem_cons, true_or, h, and_true, le_refl, List.not_mem_nil,
      or_false]
    split_ifs <;> simp_all
  · simp [timesSeen, hc]

/-! ## One output -/

variable {upToDate : Bool}

/-- When no child is newer, every child is checked. -/
theorem childrenUpToDate_of_le {time : FileTime} {children : List NodeId}
    (h : ∀ c ∈ children, (g.artifact c).timestamp ≤ time) :
    childrenUpToDate g time children = .ok upToDate ↔
      upToDate = true ∧
        ∀ c ∈ children, (g.artifact c).alwaysUpdated = true → (g.artifact c).timestamp ≠ 0 := by
  induction children with
  | nil => simp [childrenUpToDate, @eq_comm Bool true]
  | cons c children ih =>
      have hc : ¬time < (g.artifact c).timestamp := not_lt_of_ge (h c List.mem_cons_self)
      have hrest := ih fun b hb => h b (List.mem_cons_of_mem c hb)
      unfold childrenUpToDate
      simp only [if_neg hc, Fallible.bind_eq_ok_iff, qbsCheck_eq_ok_iff, hrest,
        List.forall_mem_cons, Artifact.hasTimestamp]
      cases (g.artifact c).alwaysUpdated <;> simp [and_left_comm]

theorem le_of_childrenUpToDate {time : FileTime} {children : List NodeId}
    (h : childrenUpToDate g time children = .ok true) :
    ∀ c ∈ children, (g.artifact c).timestamp ≤ time := by
  induction children with
  | nil => simp
  | cons c children ih =>
      unfold childrenUpToDate at h
      rcases Fallible.bind_eq_ok_iff.mp h with ⟨-, -, h⟩
      split at h <;> rename_i hc
      · cases h
      · rw [List.forall_mem_cons]
        exact ⟨le_of_not_gt hc, ih h⟩

/-- When no child of an artifact with a timestamp is newer, its check succeeds exactly when its
children are timed, and then it is right. -/
theorem dependenciesUpToDate_of_le (htime : times o ≠ 0)
    (h : ∀ c, c ∈ g.childArtifacts o → times c ≤ times o) :
    dependenciesUpToDate env (g.withTimes times) o = .ok upToDate ↔
      ChildrenTimed g times o ∧ (upToDate = true ↔ UpToDate env g times o) := by
  have hnone : (!((g.withTimes times).artifact o).hasTimestamp) = false := by
    simp [Artifact.hasTimestamp, BuildGraph.withTimes, htime]
  have hupToDate : UpToDate env g times o ↔
      fileDependenciesUpToDate env (times o) (g.artifact o).fileDependencies.elems = true :=
    ⟨fun hu => hu.fileDependencies, fun hf => ⟨htime, h, hf⟩⟩
  have hchildren : ∀ b, childrenUpToDate (g.withTimes times) (times o) (g.childArtifacts o).elems =
      .ok b ↔ b = true ∧ ChildrenTimed g times o := fun b => childrenUpToDate_of_le h
  unfold dependenciesUpToDate
  rw [hnone, hupToDate]
  change (do
    let children ← childrenUpToDate (g.withTimes times) (times o) (g.childArtifacts o).elems
    return children && fileDependenciesUpToDate env (times o) (g.artifact o).fileDependencies.elems)
      = _ ↔ _
  simp only [Fallible.bind_eq_ok_iff, hchildren, Fallible.pure_eq_ok_iff]
  constructor
  · intro hrun
    rcases hrun with ⟨b, ⟨hb, htimed⟩, heq⟩
    subst hb
    rw [← heq, Bool.true_and]
    exact ⟨htimed, Iff.rfl⟩
  · intro hrun
    exact ⟨true, ⟨rfl, hrun.1⟩, by rw [Bool.true_and, Bool.eq_iff_iff, hrun.2]⟩

/-- An artifact is found to be up to date exactly when it is and its children are timed. -/
theorem dependenciesUpToDate_eq_true_iff :
    dependenciesUpToDate env (g.withTimes times) o = .ok true ↔
      ChildrenTimed g times o ∧ UpToDate env g times o := by
  by_cases htime : times o = 0
  · have hnone : ((g.withTimes times).artifact o).hasTimestamp = false := by
      simp [Artifact.hasTimestamp, BuildGraph.withTimes, htime]
    unfold dependenciesUpToDate
    simp only [hnone, Bool.not_false, if_true, Fallible.pure_eq_ok_iff, Bool.false_eq_true,
      false_iff, not_and]
    exact fun _ hu => hu.hasTimestamp htime
  by_cases h : ∀ c, c ∈ g.childArtifacts o → times c ≤ times o
  · rw [dependenciesUpToDate_of_le htime h]
    simp
  · constructor
    · intro hrun
      have hchildren : childrenUpToDate (g.withTimes times) (times o)
          (g.childArtifacts o).elems = .ok true := by
        unfold dependenciesUpToDate at hrun
        split at hrun
        · cases hrun
        · rcases Fallible.bind_eq_ok_iff.mp hrun with ⟨b, hb, hrun⟩
          cases b with
          | true => exact hb
          | false => cases hrun
      exact absurd (le_of_childrenUpToDate hchildren) h
    · exact fun hu => absurd hu.2.children h

/-! ## All outputs -/

variable (env g times) in
/-- The check of an output succeeds and does not ask for an update. -/
def Passes (o : NodeId) : Prop :=
  (g.artifact o).artifactType = .generated ∧
    ∃ upToDate, dependenciesUpToDate env (g.withTimes times) o = .ok upToDate ∧
      (upToDate = false →
        (g.artifact o).alwaysUpdated = false ∧ env.options.forceTimestampCheck = false)

/-- Unless timestamps are forced, what is not newer than an output passes when its children are
timed and it is up to date or need not be. -/
theorem passes_iff {o : NodeId} (hgenerated : (g.artifact o).artifactType = .generated)
    (h : env.options.forceTimestampCheck = false →
      times o ≠ 0 ∧ ∀ c, c ∈ g.childArtifacts o → times c ≤ times o) :
    Passes env g times o ↔ ChildrenTimed g times o ∧
      ((g.artifact o).alwaysUpdated = true ∨ env.options.forceTimestampCheck = true →
        UpToDate env g times o) := by
  unfold Passes
  cases hforce : env.options.forceTimestampCheck with
  | true => simp [hgenerated, ← dependenciesUpToDate_eq_true_iff]
  | false =>
      rcases h hforce with ⟨htime, hle⟩
      simp only [dependenciesUpToDate_of_le htime hle, hgenerated, true_and, and_true,
        Bool.false_eq_true, or_false]
      constructor
      · intro hpasses
        rcases hpasses with ⟨upToDate, ⟨htimed, hiff⟩, hup⟩
        refine ⟨htimed, ?_⟩
        intro halways
        apply hiff.mp
        by_contra hfalse
        rw [hup (by simpa using hfalse)] at halways
        cases halways
      · intro hpasses
        rcases hpasses with ⟨htimed, hup⟩
        by_cases hu : UpToDate env g times o
        · exact ⟨true, ⟨htimed, by simp [hu]⟩, by simp⟩
        · refine ⟨false, ⟨htimed, by simp [hu]⟩, fun _ => ?_⟩
          by_contra halways
          exact hu (hup (by simpa using halways))

/-- Whether some output was found to be up to date. -/
def OutputCheck.hasUpToDateArtifacts (found : OutputCheck) : Bool :=
  found.hasAlwaysUpdatedArtifacts || found.hasUpToDateNotAlwaysUpdatedArtifacts

theorem isUpToDate_withTimes_iff {g' : BuildGraph} :
    isUpToDate env (g.withTimes times) o = .ok (upToDate, g') ↔
      (g.artifact o).artifactType = .generated ∧
        dependenciesUpToDate env (g.withTimes (timesSeen env g times [o] o)) o = .ok upToDate ∧
        g' = g.withTimes (timesSeen env g times [o] o) := by
  unfold isUpToDate
  simp only [checkTimestamp_withTimes, Fallible.bind_eq_ok_iff, qbsCheck_eq_ok_iff,
    Fallible.pure_eq_ok_iff, decide_eq_true_eq, Prod.mk.injEq]
  constructor
  · intro h
    rcases h with ⟨-, hgenerated, b, hb, hbu, hg⟩
    exact ⟨hgenerated, hbu ▸ hb, hg.symm⟩
  · intro h
    exact ⟨(), h.1, upToDate, h.2.1, rfl, h.2.2.symm⟩

/-- What is found after the check of an output that passes. -/
def OutputCheck.add (found : OutputCheck) (alwaysUpdated upToDate : Bool) : OutputCheck :=
  if upToDate then
    if alwaysUpdated then { found with hasAlwaysUpdatedArtifacts := true }
    else { found with hasUpToDateNotAlwaysUpdatedArtifacts := true }
  else found

theorem OutputCheck.outOfDate_add (found : OutputCheck) (alwaysUpdated upToDate : Bool) :
    (found.add alwaysUpdated upToDate).outOfDate = found.outOfDate := by
  unfold OutputCheck.add
  split_ifs <;> simp

theorem OutputCheck.hasUpToDateArtifacts_add (found : OutputCheck)
    (alwaysUpdated upToDate : Bool) :
    (found.add alwaysUpdated upToDate).hasUpToDateArtifacts =
      (found.hasUpToDateArtifacts || upToDate) := by
  unfold OutputCheck.add OutputCheck.hasUpToDateArtifacts
  cases upToDate <;> cases alwaysUpdated <;> simp

/-- The check of the outputs ends with an output that must be updated. -/
theorem checkOutputs_cons {g g₁ : BuildGraph} (h : isUpToDate env g a = .ok (upToDate, g₁)) :
    checkOutputs env g found (a :: outputs) =
      if upToDate = false ∧
          ((g₁.artifact a).alwaysUpdated = true ∨ env.options.forceTimestampCheck = true) then
        .ok ({ found with outOfDate := true }, g₁)
      else checkOutputs env g₁ (found.add (g₁.artifact a).alwaysUpdated upToDate) outputs := by
  rw [checkOutputs, h]
  change (if upToDate = true then _ else _) = _
  cases upToDate <;> cases ha : (g₁.artifact a).alwaysUpdated <;>
    cases hf : env.options.forceTimestampCheck <;> simp [OutputCheck.add]

/-- The check of the outputs goes on behind an output that passes, and only there. -/
theorem checkOutputs_cons_iff {found' : OutputCheck} {g' : BuildGraph} :
    checkOutputs env (g.withTimes times) found (a :: outputs) = .ok (found', g') ∧
        found'.outOfDate = false ↔
      ∃ upToDate, (g.artifact a).artifactType = .generated ∧
        dependenciesUpToDate env (g.withTimes (timesSeen env g times [a] a)) a = .ok upToDate ∧
        (upToDate = false →
          (g.artifact a).alwaysUpdated = false ∧ env.options.forceTimestampCheck = false) ∧
        checkOutputs env (g.withTimes (timesSeen env g times [a] a))
          (found.add (g.artifact a).alwaysUpdated upToDate) outputs = .ok (found', g') ∧
        found'.outOfDate = false := by
  constructor
  · intro h
    rcases h with ⟨hrun, hfound⟩
    have hstart := hrun
    rw [checkOutputs] at hstart
    rcases Fallible.bind_eq_ok_iff.mp hstart with ⟨⟨upToDate, g₁⟩, hcheck, -⟩
    rw [checkOutputs_cons hcheck] at hrun
    rcases isUpToDate_withTimes_iff.mp hcheck with ⟨hgenerated, hdeps, hg₁⟩
    subst hg₁
    split at hrun <;> rename_i hupdate
    · cases hrun
      cases hfound
    · refine ⟨upToDate, hgenerated, hdeps, ?_, hrun, hfound⟩
      intro hup
      simpa [hup, BuildGraph.withTimes] using hupdate
  · intro h
    rcases h with ⟨upToDate, hgenerated, hdeps, hpasses, hrest, hfound⟩
    rw [checkOutputs_cons (isUpToDate_withTimes_iff.mpr ⟨hgenerated, hdeps, rfl⟩), if_neg]
    · exact ⟨hrest, hfound⟩
    · intro hupdate
      simp [hpasses hupdate.1, BuildGraph.withTimes] at hupdate

/-- The check of the outputs finds an up-to-date one and none that must be updated exactly when
each passes and one of them is up to date. -/
theorem checkOutputs_iff (hsorted : outputs.Pairwise (· < ·)) (hfound : found.outOfDate = false) :
    (∃ found' g', (checkOutputs env (g.withTimes times) found outputs = .ok (found', g') ∧
        found'.outOfDate = false) ∧ found'.hasUpToDateArtifacts = true) ↔
      (∀ o ∈ outputs, Passes env g (timesSeen env g times outputs o) o) ∧
        (found.hasUpToDateArtifacts = true ∨ ∃ o ∈ outputs,
          dependenciesUpToDate env (g.withTimes (timesSeen env g times outputs o)) o =
            .ok true) := by
  induction outputs generalizing times found with
  | nil => simp [checkOutputs, hfound]
  | cons a outputs ih =>
      rcases List.pairwise_cons.mp hsorted with ⟨ha, hrest⟩
      have hself := @timesSeen_cons_self env g times outputs a ha
      have hother : ∀ o ∈ outputs, timesSeen env g times (a :: outputs) o =
          timesSeen env g (timesSeen env g times [a] a) outputs o :=
        fun o ho => timesSeen_cons (le_of_lt (ha o ho))
      have hpasses : (∀ o ∈ a :: outputs, Passes env g (timesSeen env g times (a :: outputs) o) o) ↔
          Passes env g (timesSeen env g times [a] a) a ∧
            ∀ o ∈ outputs,
              Passes env g (timesSeen env g (timesSeen env g times [a] a) outputs o) o := by
        rw [List.forall_mem_cons, hself]
        exact and_congr Iff.rfl (forall₂_congr fun o ho => by rw [hother o ho])
      have hupToDate : (∃ o ∈ a :: outputs, dependenciesUpToDate env
            (g.withTimes (timesSeen env g times (a :: outputs) o)) o = .ok true) ↔
          dependenciesUpToDate env (g.withTimes (timesSeen env g times [a] a)) a = .ok true ∨
            ∃ o ∈ outputs, dependenciesUpToDate env
              (g.withTimes (timesSeen env g (timesSeen env g times [a] a) outputs o)) o =
              .ok true := by
        rw [List.exists_mem_cons_iff, hself]
        refine or_congr Iff.rfl (exists_congr fun o => and_congr_right fun ho => ?_)
        rw [hother o ho]
      rw [hpasses, hupToDate]
      simp only [checkOutputs_cons_iff]
      constructor
      · intro h
        rcases h with ⟨found', g', ⟨upToDate, hgenerated, hdeps, hup, hrun⟩, hflag⟩
        rcases (ih hrest ((found.outOfDate_add _ _).trans hfound)).mp ⟨found', g', hrun, hflag⟩ with
          ⟨hall, hsome⟩
        refine ⟨⟨⟨hgenerated, upToDate, hdeps, hup⟩, hall⟩, ?_⟩
        rw [OutputCheck.hasUpToDateArtifacts_add, Bool.or_eq_true] at hsome
        rcases hsome with (hflag | hupToDate) | hsome
        · exact Or.inl hflag
        · exact Or.inr (Or.inl (hupToDate ▸ hdeps))
        · exact Or.inr (Or.inr hsome)
      · intro h
        rcases h with ⟨⟨⟨hgenerated, upToDate, hdeps, hup⟩, hall⟩, hsome⟩
        have hsome' : (found.add (g.artifact a).alwaysUpdated upToDate).hasUpToDateArtifacts = true ∨
            ∃ o ∈ outputs, dependenciesUpToDate env
              (g.withTimes (timesSeen env g (timesSeen env g times [a] a) outputs o)) o =
              .ok true := by
          rw [OutputCheck.hasUpToDateArtifacts_add, Bool.or_eq_true, or_assoc]
          refine hsome.imp_right (Or.imp_left ?_)
          intro htrue
          rw [hdeps] at htrue
          exact Except.ok.inj htrue
        rcases (ih hrest ((found.outOfDate_add _ _).trans hfound)).mpr ⟨hall, hsome'⟩ with
          ⟨found', g', hrun, hflag⟩
        exact ⟨found', g', ⟨upToDate, hgenerated, hdeps, hup, hrun⟩, hflag⟩

theorem checkOutputs_graph {found' : OutputCheck} {g' : BuildGraph}
    (h : checkOutputs env (g.withTimes times) found outputs = .ok (found', g')) :
    ∃ times', g' = g.withTimes times' := by
  induction outputs generalizing times found with
  | nil =>
      cases h
      exact ⟨times, rfl⟩
  | cons a outputs ih =>
      have hstart := h
      rw [checkOutputs] at hstart
      rcases Fallible.bind_eq_ok_iff.mp hstart with ⟨⟨upToDate, g₁⟩, hcheck, -⟩
      have hg₁ := (isUpToDate_withTimes_iff.mp hcheck).2.2
      rw [checkOutputs_cons hcheck, hg₁] at h
      split at h
      · cases h
        exact ⟨_, rfl⟩
      · exact ih h

/-- The commands of a transformer do not have to run exactly when nothing asks for it: neither
itself nor its records, and its outputs pass, at least one of them being up to date. -/
theorem mustNotExecute_iff {t : TransformerId} :
    (∃ g', mustExecuteTransformer env (g.withTimes times) t = .ok (false, g')) ↔
      (g.transformer t).alwaysRun = false ∧ (g.transformer t).markedForRerun = false ∧
        (g.commandsNeedRerun env t).1 = false ∧
        (∀ o, o ∈ (g.transformer t).outputs →
          Passes env g (timesSeen env g times (g.transformer t).outputs.elems o) o) ∧
        ∃ o, o ∈ (g.transformer t).outputs ∧
          ChildrenTimed g (timesSeen env g times (g.transformer t).outputs.elems o) o ∧
          UpToDate env g (timesSeen env g times (g.transformer t).outputs.elems o) o := by
  have hcheck := @checkOutputs_iff env g times _ ⟨false, false, false⟩
    (g.transformer t).outputs.sorted rfl
  have hnone : (OutputCheck.mk false false false).hasUpToDateArtifacts = false := rfl
  have hnot : ∀ found : OutputCheck, (!found.hasAlwaysUpdatedArtifacts &&
      !found.hasUpToDateNotAlwaysUpdatedArtifacts) = !found.hasUpToDateArtifacts :=
    fun found => (Bool.not_or _ _).symm
  simp only [dependenciesUpToDate_eq_true_iff, hnone, Bool.false_eq_true, false_or] at hcheck
  have ht : (g.withTimes times).transformer t = g.transformer t := rfl
  simp only [SortedSet.mem_def, ← hcheck]
  unfold mustExecuteTransformer
  rw [ht]
  split <;> rename_i hrun
  · simp [hrun]
  split <;> rename_i hmarked
  · simp [hmarked]
  simp only [hrun, hmarked, Fallible.bind_eq_ok_iff, Prod.exists, true_and, hnot]
  constructor
  · intro h
    rcases h with ⟨g', found, g₁, hfound, hrest⟩
    rcases checkOutputs_graph hfound with ⟨times', rfl⟩
    split at hrest <;> rename_i hupdate
    · cases hrest
    rw [← g.commandsNeedRerun_withTimes times']
    split at hrest <;> rename_i hrerun
    · cases hrest
    refine ⟨by simpa using hrerun, found, _, ⟨hfound, by simpa using hupdate⟩, ?_⟩
    rw [Fallible.pure_eq_ok_iff, Prod.mk.injEq] at hrest
    simpa using hrest.1
  · intro h
    rcases h with ⟨hrerun, found, g₁, ⟨hfound, hupdate⟩, hflag⟩
    rcases checkOutputs_graph hfound with ⟨times', rfl⟩
    rw [← g.commandsNeedRerun_withTimes times'] at hrerun
    refine ⟨((g.withTimes times').commandsNeedRerun env t).2, found, _, hfound, ?_⟩
    simp [hupdate, hrerun, hflag]

end Executor

end Qbs
