import QbsCore.BuildGraph.ArtifactCleaner

/-!
# The build data after cleaning

Cleaning changes three things in the build data: the timestamps of artifacts, the recorded data, and
the mark that tells whether the build data have to be saved.  A dry run does not touch the
timestamps and the mark.

Main results:

- Structure {lit}`ArtifactCleaner.CleansUp`: the build data before and after a part of a clean job.
- Theorem {lit}`ArtifactCleaner.CleansUp.trans`: one part comes behind another one.
- Theorems {lit}`ArtifactCleaner.CleansUp.invalidate` and {lit}`ArtifactCleaner.CleansUp.forget`:
  the two kinds of parts.

Current gaps:

- None.
-/

namespace Qbs

open FileInfo

namespace ArtifactCleaner

/-- The artifacts that are visited for a product. -/
def cleanedArtifacts (g : BuildGraph) (product : ProductId) : List NodeId :=
  (generatedArtifacts g product).elems.filter fun a => g.productOf a = product

/-- Some artifacts have lost their timestamps, and some recorded data are gone. -/
structure CleansUp (dryRun : Bool) (invalidated : NodeId → Prop)
    (forgotten : ProductId → FilePath → Prop) (g g' : BuildGraph) : Prop where
  frame : ∃ artifact productData isDirty,
    g' = { g with artifact := artifact, productData := productData, isDirty := isDirty }
  artifact_of : ∀ n, dryRun = false ∧ invalidated n → g'.artifact n = { g.artifact n with timestamp := 0 }
  artifact_of_not : ∀ n, ¬(dryRun = false ∧ invalidated n) → g'.artifact n = g.artifact n
  productData : ∀ p, ∃ data,
    g'.productData p = (g.productData p).map fun d => { d with rescuableArtifactData := data }
  recorded_of : ∀ p f, forgotten p f → g'.rescuableArtifactData? p f = none
  recorded_of_not : ∀ p f, ¬forgotten p f →
    g'.rescuableArtifactData? p f = g.rescuableArtifactData? p f
  isDirty : g'.isDirty = true ↔ g.isDirty = true ∨ dryRun = false ∧
    ((∃ n, invalidated n ∧ (g.artifact n).hasTimestamp = true) ∨
      ∃ p f d, forgotten p f ∧ g.rescuableArtifactData? p f = some d ∧ d.timeStamp ≠ 0)

/-- The data of a product are its data with some recorded data. -/
theorem exists_recorded_eq (g : BuildGraph) (p : ProductId) : ∃ data, g.productData p =
    (g.productData p).map fun d => { d with rescuableArtifactData := data } := by
  cases h : g.productData p with
  | none => exact ⟨∅, rfl⟩
  | some d => exact ⟨d.rescuableArtifactData, rfl⟩

namespace CleansUp

variable {dryRun : Bool} {invalidated invalidated' : NodeId → Prop}
  {forgotten forgotten' : ProductId → FilePath → Prop} {g g' g'' : BuildGraph} {p : ProductId}
  {f : FilePath} {n : NodeId}

theorem refl (g : BuildGraph) : CleansUp dryRun (fun _ => False) (fun _ _ => False) g g where
  frame := ⟨g.artifact, g.productData, g.isDirty, rfl⟩
  artifact_of _ h := h.2.elim
  artifact_of_not _ _ := rfl
  productData := exists_recorded_eq g
  recorded_of _ _ h := h.elim
  recorded_of_not _ _ _ := rfl
  isDirty := by simp

theorem productOf_eq (h : CleansUp dryRun invalidated forgotten g g') : g'.productOf = g.productOf := by
  rcases h.frame with ⟨artifact, productData, isDirty, heq⟩
  rw [heq]

theorem nodeType_eq (h : CleansUp dryRun invalidated forgotten g g') : g'.nodeType = g.nodeType := by
  rcases h.frame with ⟨artifact, productData, isDirty, heq⟩
  rw [heq]

theorem exists_artifact_eq (h : CleansUp dryRun invalidated forgotten g g') (n : NodeId) :
    ∃ time, g'.artifact n = { g.artifact n with timestamp := time } := by
  by_cases hn : dryRun = false ∧ invalidated n
  · exact ⟨0, h.artifact_of n hn⟩
  · exact ⟨(g.artifact n).timestamp, h.artifact_of_not n hn⟩

theorem filePath_eq (h : CleansUp dryRun invalidated forgotten g g') (n : NodeId) :
    (g'.artifact n).filePath = (g.artifact n).filePath := by
  rcases h.exists_artifact_eq n with ⟨time, heq⟩
  rw [heq]

theorem generatedArtifacts_eq (h : CleansUp dryRun invalidated forgotten g g') (p : ProductId) :
    generatedArtifacts g' p = generatedArtifacts g p := by
  have htype : ∀ n, (g'.artifact n).artifactType = (g.artifact n).artifactType := by
    intro n
    rcases h.exists_artifact_eq n with ⟨time, heq⟩
    rw [heq]
  have hisArtifact : g'.isArtifact = g.isArtifact := by
    ext n
    simp only [BuildGraph.isArtifact, h.nodeType_eq]
  rcases h.productData p with ⟨data, hdata⟩
  unfold generatedArtifacts
  rw [hdata]
  cases g.productData p with
  | none => rfl
  | some d => simp only [Option.map_some, BuildGraph.filterArtifacts, htype, hisArtifact]

/-- The artifacts that are visited stay the same. -/
theorem cleanedArtifacts_eq (h : CleansUp dryRun invalidated forgotten g g') (p : ProductId) :
    cleanedArtifacts g' p = cleanedArtifacts g p := by
  unfold cleanedArtifacts
  rw [h.generatedArtifacts_eq, h.productOf_eq]

/-- One part of a clean job comes behind another one. -/
theorem trans (h : CleansUp dryRun invalidated forgotten g g')
    (h' : CleansUp dryRun invalidated' forgotten' g' g'') :
    CleansUp dryRun (fun n => invalidated n ∨ invalidated' n)
      (fun p f => forgotten p f ∨ forgotten' p f) g g'' where
  frame := by
    rcases h.frame with ⟨_, _, _, heq⟩
    rcases h'.frame with ⟨artifact, productData, isDirty, heq'⟩
    exact ⟨artifact, productData, isDirty, by rw [heq', heq]⟩
  artifact_of n hn := by
    by_cases hlate : dryRun = false ∧ invalidated' n
    · rcases h.exists_artifact_eq n with ⟨time, heq⟩
      rw [h'.artifact_of n hlate, heq]
    · have hearly : invalidated n := hn.2.resolve_right fun hn' => hlate ⟨hn.1, hn'⟩
      rw [h'.artifact_of_not n hlate, h.artifact_of n ⟨hn.1, hearly⟩]
  artifact_of_not n hn := by
    rw [h'.artifact_of_not n fun hlate => hn ⟨hlate.1, .inr hlate.2⟩,
      h.artifact_of_not n fun hearly => hn ⟨hearly.1, .inl hearly.2⟩]
  productData p := by
    rcases h.productData p with ⟨data, heq⟩
    rcases h'.productData p with ⟨data', heq'⟩
    refine ⟨data', ?_⟩
    rw [heq', heq]
    cases g.productData p <;> rfl
  recorded_of p f hf := by
    by_cases hlate : forgotten' p f
    · exact h'.recorded_of p f hlate
    · rw [h'.recorded_of_not p f hlate, h.recorded_of p f (hf.resolve_right hlate)]
  recorded_of_not p f hf := by
    rw [h'.recorded_of_not p f fun hlate => hf (.inr hlate),
      h.recorded_of_not p f fun hearly => hf (.inl hearly)]
  isDirty := by
    rw [h'.isDirty, h.isDirty]
    constructor
    · rintro ((hdirty | ⟨hdry, htimes⟩) | ⟨hdry, ⟨n, hn, htime⟩ | ⟨p, f, d, hf, hd, htime⟩⟩)
      · exact .inl hdirty
      · refine .inr ⟨hdry, htimes.imp ?_ ?_⟩
        · exact fun hn => hn.imp fun n hn => ⟨.inl hn.1, hn.2⟩
        · rintro ⟨p, f, d, hf, hd, htime⟩
          exact ⟨p, f, d, .inl hf, hd, htime⟩
      · refine .inr ⟨hdry, .inl ⟨n, .inr hn, ?_⟩⟩
        by_cases hearly : dryRun = false ∧ invalidated n
        · rw [h.artifact_of n hearly] at htime
          simp [Artifact.hasTimestamp] at htime
        · rwa [h.artifact_of_not n hearly] at htime
      · refine .inr ⟨hdry, .inr ⟨p, f, d, .inr hf, ?_, htime⟩⟩
        by_cases hearly : forgotten p f
        · rw [h.recorded_of p f hearly] at hd
          cases hd
        · rwa [h.recorded_of_not p f hearly] at hd
    · rintro (hdirty | ⟨hdry, ⟨n, hn, htime⟩ | ⟨p, f, d, hf, hd, htime⟩⟩)
      · exact .inl (.inl hdirty)
      · by_cases hearly : invalidated n
        · exact .inl (.inr ⟨hdry, .inl ⟨n, hearly, htime⟩⟩)
        · refine .inr ⟨hdry, .inl ⟨n, hn.resolve_left hearly, ?_⟩⟩
          rwa [h.artifact_of_not n fun hn' => hearly hn'.2]
      · by_cases hearly : forgotten p f
        · exact .inl (.inr ⟨hdry, .inr ⟨p, f, d, hearly, hd, htime⟩⟩)
        · refine .inr ⟨hdry, .inr ⟨p, f, d, hf.resolve_left hearly, ?_, htime⟩⟩
          rwa [h.recorded_of_not p f hearly]

/-- Only the artifacts count, and the recorded data that are there. -/
theorem congr (h : CleansUp dryRun invalidated forgotten g g')
    (hinvalidated : ∀ n, invalidated n ↔ invalidated' n)
    (hforgotten : ∀ p f d, g.rescuableArtifactData? p f = some d → (forgotten p f ↔ forgotten' p f)) :
    CleansUp dryRun invalidated' forgotten' g g' := by
  have hnot : ∀ p f, ¬(forgotten p f ↔ forgotten' p f) → g.rescuableArtifactData? p f = none := by
    intro p f hnot
    cases hd : g.rescuableArtifactData? p f with
    | none => rfl
    | some d => exact absurd (hforgotten p f d hd) hnot
  have hnone : ∀ p f, g.rescuableArtifactData? p f = none → g'.rescuableArtifactData? p f = none := by
    intro p f hd
    by_cases hf : forgotten p f
    · exact h.recorded_of p f hf
    · rw [h.recorded_of_not p f hf, hd]
  refine ⟨h.frame, ?_, ?_, h.productData, ?_, ?_, ?_⟩
  · exact fun n hn => h.artifact_of n ⟨hn.1, (hinvalidated n).mpr hn.2⟩
  · exact fun n hn => h.artifact_of_not n fun hn' => hn ⟨hn'.1, (hinvalidated n).mp hn'.2⟩
  · intro p f hf'
    by_cases hf : forgotten p f
    · exact h.recorded_of p f hf
    · exact hnone p f (hnot p f fun hiff => hf (hiff.mpr hf'))
  · intro p f hf'
    by_cases hf : forgotten p f
    · have hd := hnot p f fun hiff => hf' (hiff.mp hf)
      rw [hnone p f hd, hd]
    · exact h.recorded_of_not p f hf
  · rw [h.isDirty]
    refine or_congr_right (and_congr_right fun _ => or_congr ?_ ?_)
    · simp only [hinvalidated]
    · constructor
      · rintro ⟨p, f, d, hf, hd, htime⟩
        exact ⟨p, f, d, (hforgotten p f d hd).mp hf, hd, htime⟩
      · rintro ⟨p, f, d, hf, hd, htime⟩
        exact ⟨p, f, d, (hforgotten p f d hd).mpr hf, hd, htime⟩

/-- The timestamp of one artifact becomes invalid. -/
theorem invalidate (g : BuildGraph) (a : NodeId) :
    CleansUp dryRun (fun n => n = a) (fun _ _ => False) g
      (if dryRun then g else invalidateArtifactTimestamp a g) := by
  cases dryRun with
  | true => exact ⟨⟨g.artifact, g.productData, g.isDirty, rfl⟩, by simp, by simp, exists_recorded_eq g, by simp, by simp, by simp⟩
  | false =>
      simp only [Bool.false_eq_true, ↓reduceIte]
      have hzero : (g.artifact a).hasTimestamp ≠ true →
          g.artifact a = { g.artifact a with timestamp := 0 } := by
        intro hnot
        have htime : (g.artifact a).timestamp = 0 := by simpa [Artifact.hasTimestamp] using hnot
        rw [← htime]
      unfold invalidateArtifactTimestamp
      split <;> rename_i htime
      · refine ⟨⟨_, g.productData, true, rfl⟩, ?_, ?_, exists_recorded_eq g, by simp, ?_, ?_⟩
        · rintro n ⟨-, rfl⟩
          simp [BuildGraph.setDirty, BuildGraph.clearTimestamp, BuildGraph.setTimestamp,
            BuildGraph.modifyArtifact, BuildGraph.setArtifact]
        · intro n hn
          have hne : n ≠ a := fun heq => hn ⟨rfl, heq⟩
          simp [BuildGraph.setDirty, BuildGraph.clearTimestamp, BuildGraph.setTimestamp,
            BuildGraph.modifyArtifact, BuildGraph.setArtifact, hne]
        · exact fun _ _ _ => rfl
        · simp [BuildGraph.setDirty, htime]
      · refine ⟨⟨g.artifact, g.productData, g.isDirty, rfl⟩, ?_, fun _ _ => rfl, exists_recorded_eq g, by simp, fun _ _ _ => rfl, ?_⟩
        · rintro n ⟨-, rfl⟩
          exact hzero htime
        · simp [htime]

/-- The recorded data of one file are removed. -/
theorem erase (g : BuildGraph) (p : ProductId) (f : FilePath) :
    CleansUp true (fun _ => False) (fun q e => q = p ∧ e = f) g
      (g.removeFromRescuableArtifactData p [f]) := by
  have hlookup : ∀ q e, (g.removeFromRescuableArtifactData p [f]).rescuableArtifactData? q e =
      if q = p ∧ e = f then none else g.rescuableArtifactData? q e := by
    intro q e
    unfold BuildGraph.rescuableArtifactData? BuildGraph.removeFromRescuableArtifactData
      BuildGraph.modifyProductData
    by_cases hq : q = p
    · rw [hq]
      by_cases he : e = f
      · rw [he]
        cases g.productData p <;> simp [AList.lookup_erase]
      · cases g.productData p <;> simp [he, AList.lookup_erase_ne]
    · simp [hq]
  refine ⟨⟨g.artifact, (g.removeFromRescuableArtifactData p [f]).productData, g.isDirty, rfl⟩,
    by simp, fun _ _ => rfl, ?_, ?_, ?_, ?_⟩
  · intro q
    unfold BuildGraph.removeFromRescuableArtifactData BuildGraph.modifyProductData
    by_cases hq : q = p
    · rw [hq]
      cases g.productData p with
      | none => exact ⟨∅, by simp⟩
      | some d => exact ⟨AList.erase f d.rescuableArtifactData, by simp⟩
    · simp only [ne_eq, hq, not_false_eq_true, Function.update_of_ne]
      exact exists_recorded_eq g q
  · intro q e hqe
    rw [hlookup, if_pos hqe]
  · intro q e hqe
    rw [hlookup, if_neg hqe]
  · simp [BuildGraph.removeFromRescuableArtifactData, BuildGraph.modifyProductData]

/-- The file of recorded data is removed, and then the data. -/
theorem forget {d : RescuableArtifactData} (hd : g.rescuableArtifactData? p f = some d) :
    CleansUp dryRun (fun _ => False) (fun q e => q = p ∧ e = f) g
      ((if dryRun then g else invalidateTemporary d.timeStamp g).removeFromRescuableArtifactData
        p [f]) := by
  have hdirty : ∃ isDirty, (if dryRun then g else invalidateTemporary d.timeStamp g) =
      { g with isDirty := isDirty } ∧
        (isDirty = true ↔ g.isDirty = true ∨ dryRun = false ∧ d.timeStamp ≠ 0) := by
    cases dryRun with
    | true => exact ⟨g.isDirty, by simp, by simp⟩
    | false =>
        by_cases htime : d.timeStamp = 0
        · exact ⟨g.isDirty, by simp [invalidateTemporary, htime], by simp [htime]⟩
        · exact ⟨true, by simp [invalidateTemporary, htime, BuildGraph.setDirty], by simp [htime]⟩
  rcases hdirty with ⟨isDirty, heq, hdirty⟩
  rw [heq]
  have herase := erase g p f
  refine ⟨⟨g.artifact, (g.removeFromRescuableArtifactData p [f]).productData, isDirty, rfl⟩,
    by simp, fun _ _ => rfl, herase.productData, herase.recorded_of, herase.recorded_of_not, ?_⟩
  refine hdirty.trans (or_congr_right (and_congr_right fun _ => ?_))
  constructor
  · exact fun htime => .inr ⟨p, f, d, ⟨rfl, rfl⟩, hd, htime⟩
  · rintro (⟨n, hn, -⟩ | ⟨q, e, d', ⟨rfl, rfl⟩, hd', htime⟩)
    · exact hn.elim
    · rw [hd] at hd'
      rwa [Option.some.inj hd']

end CleansUp

end ArtifactCleaner

end Qbs
