import Mathlib.Data.Finset.Sort
import QbsCore.BuildGraph.CleanedData
import QbsCore.BuildGraph.ExaminedDirectories

/-!
# What a clean job leaves behind

A clean job removes what is recorded in the build data, and after it the directories without files.
Without errors this is known before the job begins.  With errors, or when the job is canceled, less
is removed, and never anything else.

Main results:

- Theorem {lit}`ArtifactCleaner.cleanup_eq_ok`: the files, directories and build data after a job
  without errors.
- Theorem {lit}`ArtifactCleaner.cleanup_dryRun_unchanged_iff`: when a dry run changes nothing.
- Theorem {lit}`ArtifactCleaner.cleanup_loses`: what any job may remove.
- Theorem {lit}`ArtifactCleaner.cleansRight_iff`: when jobs do what they are for.

Current gaps:

- Other programs do not touch the files in the meantime.
-/

namespace Qbs

open FileInfo

namespace ArtifactCleaner

variable (cleaner : ArtifactCleaner)

/-! ## What is removed -/

/-- The paths of the artifacts and of the recorded files of some products. -/
def IsCleaned (g : BuildGraph) (products : List ProductId) (f : FilePath) : Prop :=
  ∃ product, product ∈ products ∧
    ((∃ a, a ∈ cleanedArtifacts g product ∧ (g.artifact a).filePath = f) ∨
      ∃ d, g.rescuableArtifactData? product f = some d)

/-- What is at or below one of some paths, unless nothing is to be removed. -/
def Removes (paths : FilePath → Prop) (node : CleanPath) : Prop :=
  cleaner.options.dryRun = false ∧ ∃ f, paths f ∧ node.IsBelow (.ofFilePath f)

/-- A directory that is looked at: that of an artifact, or one above it other than the build
directory. Its path begins with the text of the build directory. -/
def Examined (g : BuildGraph) (products : List ProductId) (d : CleanPath) : Prop :=
  cleaner.buildDirectory.text <+: d.text ∧
    ∃ product, product ∈ products ∧ ∃ a, a ∈ cleanedArtifacts g product ∧
      (CleanPath.ofFilePath (g.artifact a).filePath).parent.IsBelow d ∧
        (d = (CleanPath.ofFilePath (g.artifact a).filePath).parent ∨ d ≠ cleaner.buildDirectory)

/-- Below the build directory. -/
def Inside (d : CleanPath) : Prop :=
  d.IsBelow cleaner.buildDirectory ∧ d ≠ cleaner.buildDirectory

/-- At or below a directory that is looked at, and all files in it are removed. -/
def Emptied (products : List ProductId) (s : CleanState) (d : CleanPath) : Prop :=
  (∃ e, cleaner.Examined s.graph products e ∧ d.IsBelow e) ∧
    ∀ f, f ∈ s.tree.files → f.IsBelow d → cleaner.Removes (IsCleaned s.graph products) f

variable {cleaner} {s s' : CleanState} {d : CleanPath}

/-! ## The visits of the products -/

/-- What a part of a clean job without errors changes: some artifacts are visited, and some recorded
files are removed. -/
structure Cleans (cleaner : ArtifactCleaner) (visited : NodeId → Prop)
    (recorded : ProductId → FilePath → Prop) (s s' : CleanState) : Prop where
  hasError : s.hasError = false
  tree : FileTree.Kept (fun node => ¬cleaner.Removes (fun f =>
    (∃ a, visited a ∧ (s.graph.artifact a).filePath = f) ∨ ∃ p, recorded p f) node) s.tree s'.tree
  graph : CleansUp cleaner.options.dryRun visited recorded s.graph s'.graph
  directories : ∀ d, d ∈ s'.directories ↔ d ∈ s.directories ∨
    ∃ a, visited a ∧ d = (CleanPath.ofFilePath (s.graph.artifact a).filePath).parent

namespace Cleans

variable {visited visited' : NodeId → Prop} {recorded recorded' : ProductId → FilePath → Prop}
  {s'' : CleanState}

theorem refl (s : CleanState) (h : s.hasError = false) :
    cleaner.Cleans (fun _ => False) (fun _ _ => False) s s where
  hasError := h
  tree := FileTree.Kept.refl (by simp [Removes])
  graph := CleansUp.refl s.graph
  directories := by simp

theorem trans (h : cleaner.Cleans visited recorded s s')
    (h' : cleaner.Cleans visited' recorded' s' s'') :
    cleaner.Cleans (fun n => visited n ∨ visited' n) (fun p f => recorded p f ∨ recorded' p f)
      s s'' where
  hasError := h.hasError
  tree := by
    refine (h.tree.trans h'.tree).congr fun node _ => ?_
    simp only [Removes, h.graph.filePath_eq, ← not_or, ← and_or_left]
    refine not_congr (and_congr_right fun _ => ?_)
    rw [← exists_or]
    refine exists_congr fun f => ?_
    rw [← or_and_right]
    refine and_congr_left fun _ => ?_
    simp only [or_and_right, exists_or]
    exact or_or_or_comm
  graph := h.graph.trans h'.graph
  directories d := by
    rw [h'.directories, h.directories]
    simp only [h.graph.filePath_eq, or_and_right, exists_or, or_assoc]

theorem congr (h : cleaner.Cleans visited recorded s s') (hvisited : ∀ n, visited n ↔ visited' n)
    (hrecorded : ∀ p f, recorded p f ↔ recorded' p f) : cleaner.Cleans visited' recorded' s s' := by
  have heq : visited = visited' := funext fun n => propext (hvisited n)
  have heq' : recorded = recorded' := funext fun p => funext fun f => propext (hrecorded p f)
  rw [← heq, ← heq']
  exact h

end Cleans

variable {g g' : BuildGraph} {invalidate : BuildGraph → BuildGraph}

/-- The removal of a file without an error. -/
theorem removeArtifactFromDisk_eq_ok {f : FilePath}
    (h : (cleaner.removeArtifactFromDisk f invalidate).outcome s = (.ok (), s')) :
    s' = { s with
        tree := s'.tree
        graph := if cleaner.options.dryRun then s.graph else invalidate s.graph } ∧
      FileTree.Kept (fun node => ¬cleaner.Removes (· = f) node) s.tree s'.tree := by
  simp only [Removes, exists_eq_left]
  rw [removeArtifactFromDisk, StateOp.outcome_query_bind] at h
  by_cases hdry : cleaner.options.dryRun = true
  · rw [if_pos hdry, StateOp.outcome_pure, Prod.mk.injEq] at h
    rw [← h.2, if_pos hdry]
    exact ⟨rfl, FileTree.Kept.refl (by simp [hdry])⟩
  · rw [if_neg hdry, StateOp.outcome_update_bind] at h
    simp only [hdry, true_and]
    split at h <;> rename_i hexists
    · rw [StateOp.outcome_transform, Prod.mk.injEq] at h
      split at h <;> rename_i hremoved
      · rw [← h.2]
        exact ⟨rfl, DiskAccess.kept_removeFileRecursion hremoved⟩
      · simp at h
    · rw [StateOp.outcome_pure, Prod.mk.injEq] at h
      rw [← h.2]
      refine ⟨rfl, FileTree.Kept.refl fun node hnode => ?_⟩
      exact FileTree.not_isBelow_of_not_fileExists (by simpa using hexists) hnode

variable {products : List ProductId} {p : ProductId}

/-- The visit of an artifact without an error. -/
theorem doVisit_eq_ok {a : NodeId} (h : (cleaner.doVisit p a).outcome s = (.ok (), s'))
    (herror : s'.hasError = false) :
    cleaner.Cleans (fun n => n = a ∧ s.graph.productOf n = p) (fun _ _ => False) s s' := by
  rw [doVisit, StateOp.outcome_bind_eq_ok] at h
  rcases h with ⟨canceled, s₀, hpoll, h⟩
  rw [StateOp.outcome_transform, Prod.mk.injEq, Except.ok.injEq] at hpoll
  rw [← hpoll.1, ← hpoll.2] at h
  split at h
  · simp at h
  · rw [StateOp.outcome_query_bind] at h
    by_cases hp : s.graph.productOf a = p
    · rw [if_neg (by simpa using hp), StateOp.outcome_bind_eq_ok] at h
      rcases h with ⟨_, s₁, hremove, hlast⟩
      rw [StateOp.outcome_update, Prod.mk.injEq] at hlast
      have herror₁ : s₁.hasError = false := by
        rw [← hlast.2] at herror
        exact herror
      rw [StateOp.outcome_attempt] at hremove
      split at hremove
      · rename_i u t hout
        have hok : (cleaner.removeArtifactFromDisk (s.graph.artifact a).filePath
            (invalidateArtifactTimestamp a)).outcome { s with polls := s.polls + 1 } =
              (.ok (), s₁) := hout.trans hremove
        have hkept := removeArtifactFromDisk_eq_ok hok
        rw [← hlast.2]
        rw [hkept.1] at herror₁
        refine ⟨herror₁, ?_, ?_, ?_⟩
        · refine hkept.2.congr fun node _ => ?_
          simp only [Removes, exists_false, or_false]
          refine not_congr (and_congr_right fun _ => exists_congr fun f => and_congr_left fun _ => ?_)
          constructor
          · exact fun heq => ⟨a, ⟨rfl, hp⟩, heq.symm⟩
          · rintro ⟨n, ⟨rfl, -⟩, heq⟩
            exact heq.symm
        · rw [hkept.1]
          refine (CleansUp.invalidate s.graph a).congr (fun n => ?_) fun _ _ _ _ => Iff.rfl
          constructor
          · rintro rfl
            exact ⟨rfl, hp⟩
          · exact fun hn => hn.1
        · intro d
          rw [hkept.1, SortedSet.mem_insert]
          constructor
          · rintro (hd | hd)
            · exact .inr ⟨a, ⟨rfl, hp⟩, hd⟩
            · exact .inl hd
          · rintro (hd | ⟨n, ⟨rfl, -⟩, hd⟩)
            · exact .inr hd
            · exact .inl hd
      · split at hremove
        · simp at hremove
        · rw [StateOp.outcome_update, Prod.mk.injEq] at hremove
          rw [← hremove.2] at herror₁
          simp at herror₁
    · rw [if_pos hp, StateOp.outcome_pure, Prod.mk.injEq] at h
      rw [← h.2] at herror ⊢
      refine Cleans.congr ⟨herror, FileTree.Kept.refl (by simp [Removes]),
        CleansUp.refl s.graph, by simp⟩ (fun n => ?_) fun _ _ => Iff.rfl
      constructor
      · exact fun hn => hn.elim
      · rintro ⟨rfl, hn⟩
        exact hp hn

/-- The visits of some artifacts without an error. -/
theorem forM_doVisit_eq_ok {as : List NodeId}
    (h : (as.forM (cleaner.doVisit p)).outcome s = (.ok (), s')) (herror : s'.hasError = false) :
    cleaner.Cleans (fun n => n ∈ as ∧ s.graph.productOf n = p) (fun _ _ => False) s s' := by
  refine StateOp.forM_eq_ok (R := fun as s s' => s'.hasError = false →
    cleaner.Cleans (fun n => n ∈ as ∧ s.graph.productOf n = p) (fun _ _ => False) s s') ?_ ?_ h herror
  · intro s hs
    exact (Cleans.refl s hs).congr (by simp) fun _ _ => Iff.rfl
  · intro a as s t u ha htail hu
    have hrest := htail hu
    have hfirst := doVisit_eq_ok ha hrest.hasError
    refine (hfirst.trans hrest).congr (fun n => ?_) fun _ _ => or_self_iff
    rw [hfirst.graph.productOf_eq, List.mem_cons, or_and_right]

/-- The removal of recorded files without an error. -/
theorem forM_recorded_eq_ok {p : ProductId}
    {entries : List (Sigma fun _ : FilePath => RescuableArtifactData)}
    (hrecorded : ∀ e, e ∈ entries → s.graph.rescuableArtifactData? p e.1 = some e.2)
    (hnodup : entries.NodupKeys)
    (h : (entries.forM fun entry =>
      cleaner.removeArtifactFromDisk entry.1 (invalidateTemporary entry.2.timeStamp) >>= fun _ =>
      StateOp.update fun s =>
        { s with graph := s.graph.removeFromRescuableArtifactData p [entry.1] }).outcome s =
      (.ok (), s')) (herror : s'.hasError = false) :
    cleaner.Cleans (fun _ => False) (fun q f => q = p ∧ f ∈ entries.keys) s s' := by
  refine StateOp.forM_eq_ok (R := fun entries s s' =>
    (∀ e, e ∈ entries → s.graph.rescuableArtifactData? p e.1 = some e.2) →
    entries.NodupKeys → s'.hasError = false →
      cleaner.Cleans (fun _ => False) (fun q f => q = p ∧ f ∈ entries.keys) s s')
    ?_ ?_ h hrecorded hnodup herror
  · intro s _ _ hs
    exact (Cleans.refl s hs).congr (fun _ => Iff.rfl) (by simp)
  · intro e entries s t u he htail hrecorded hnodup hu
    rw [StateOp.outcome_bind_eq_ok] at he
    rcases he with ⟨_, s₁, hremove, hforget⟩
    rw [StateOp.outcome_update, Prod.mk.injEq] at hforget
    have hkept := removeArtifactFromDisk_eq_ok hremove
    have hgraph : CleansUp cleaner.options.dryRun (fun _ => False) (fun q f => q = p ∧ f = e.1)
        s.graph t.graph := by
      rw [← hforget.2, hkept.1]
      exact CleansUp.forget (hrecorded e List.mem_cons_self)
    rw [List.nodupKeys_cons] at hnodup
    have hrest := htail (fun e' he' => by
      rw [hgraph.recorded_of_not p e'.1 fun heq => hnodup.1 (heq.2 ▸ List.mem_keys_of_mem he')]
      exact hrecorded e' (List.mem_cons_of_mem e he')) hnodup.2 hu
    have hfirst : cleaner.Cleans (fun _ => False) (fun q f => q = p ∧ f = e.1) s t := by
      have hnone := hrest.hasError
      rw [← hforget.2, hkept.1] at hnone
      refine ⟨hnone, ?_, hgraph, ?_⟩
      · rw [← hforget.2]
        refine hkept.2.congr fun node _ => ?_
        simp [Removes]
      · rw [← hforget.2, hkept.1]
        simp
    refine (hfirst.trans hrest).congr (fun _ => or_self_iff) fun q f => ?_
    rw [List.keys_cons, List.mem_cons, and_or_left]

theorem mem_allRescuableArtifactData {p : ProductId} {f : FilePath} {data : RescuableArtifactData} :
    (⟨f, data⟩ : Sigma fun _ : FilePath => RescuableArtifactData) ∈
      (allRescuableArtifactData g p).entries ↔ g.rescuableArtifactData? p f = some data := by
  unfold allRescuableArtifactData BuildGraph.rescuableArtifactData?
  rw [← AList.mem_lookup_iff, Option.mem_def]
  cases g.productData p <;> simp

/-- The visit of a product without an error. -/
theorem visitProduct_eq_ok (h : (cleaner.visitProduct p).outcome s = (.ok (), s'))
    (herror : s'.hasError = false) :
    cleaner.Cleans (fun n => n ∈ cleanedArtifacts s.graph p)
      (fun q f => q = p ∧ ∃ d, s.graph.rescuableArtifactData? p f = some d) s s' := by
  rw [visitProduct, StateOp.outcome_query_bind, StateOp.outcome_bind_eq_ok] at h
  rcases h with ⟨_, s₁, hartifacts, h⟩
  rw [StateOp.outcome_query_bind] at h
  have hrecorded := forM_recorded_eq_ok (fun e he => mem_allRescuableArtifactData.mp he)
    (allRescuableArtifactData s₁.graph p).nodupKeys h herror
  have hvisited := forM_doVisit_eq_ok hartifacts hrecorded.hasError
  refine (hvisited.trans hrecorded).congr (fun n => ?_) fun q f => ?_
  · simp [cleanedArtifacts]
  · rw [false_or]
    refine and_congr_right fun _ => ?_
    rw [← hvisited.graph.recorded_of_not p f id]
    simp only [← mem_allRescuableArtifactData]
    simp [List.keys]

/-- The visits of the products without an error. -/
theorem forM_visitProduct_eq_ok (h : (products.forM cleaner.visitProduct).outcome s = (.ok (), s'))
    (herror : s'.hasError = false) :
    cleaner.Cleans (fun n => ∃ p, p ∈ products ∧ n ∈ cleanedArtifacts s.graph p)
      (fun p f => p ∈ products ∧ ∃ d, s.graph.rescuableArtifactData? p f = some d) s s' := by
  refine StateOp.forM_eq_ok (R := fun products s s' => s'.hasError = false →
    cleaner.Cleans (fun n => ∃ p, p ∈ products ∧ n ∈ cleanedArtifacts s.graph p)
      (fun p f => p ∈ products ∧ ∃ d, s.graph.rescuableArtifactData? p f = some d) s s')
    ?_ ?_ h herror
  · intro s hs
    exact (Cleans.refl s hs).congr (by simp) (by simp)
  · intro p products s t u hp htail hu
    have hrest := htail hu
    have hfirst := visitProduct_eq_ok hp hrest.hasError
    refine (hfirst.trans hrest).congr (fun n => ?_) fun q f => ?_
    · simp [hfirst.graph.cleanedArtifacts_eq]
    · rw [List.mem_cons, or_and_right]
      by_cases hq : q = p ∧ ∃ d, s.graph.rescuableArtifactData? p f = some d
      · simp [hq]
      · rw [hfirst.graph.recorded_of_not q f hq]
        constructor
        · rintro (hf | hf)
          · exact absurd hf hq
          · exact .inr hf
        · rintro (⟨rfl, hf⟩ | hf)
          · exact absurd ⟨rfl, hf⟩ hq
          · exact .inr hf

/-! ## Jobs -/

/-- A job without errors first visits the products, and then removes directories. -/
theorem cleanup_phases (h : (cleaner.cleanup products).outcome s = (.ok (), s')) : ∃ s₁,
      cleaner.Cleans (fun a => ∃ p, p ∈ products ∧ a ∈ cleanedArtifacts s.graph p)
        (fun p f => p ∈ products ∧ ∃ d, s.graph.rescuableArtifactData? p f = some d)
        { s with hasError := false, directories := ∅ } s₁ ∧
      EmptiedIn (fun d => d ∈ cleaner.examinedDirectories [] s₁.directories.elems ∧
        cleaner.buildDirectory.text <+: d.text) s₁.tree s'.tree ∧ s'.graph = s₁.graph := by
  rw [cleanup, StateOp.outcome_update_bind, StateOp.outcome_bind_eq_ok] at h
  rcases h with ⟨_, s₁, hvisits, h⟩
  rw [StateOp.outcome_query_bind, StateOp.outcome_bind_eq_ok] at h
  rcases h with ⟨_, s₂, hdirectories, h⟩
  rw [StateOp.outcome_query, Prod.mk.injEq] at h
  have herror : s₂.hasError = false := by
    by_contra hnot
    rw [if_pos (by simpa using hnot)] at h
    cases h.1
  have hwithin : StateOp.Within _ (cleaner.cleanDirectories [] s₁.directories.elems) :=
    within_cleanDirectories [] s₁.directories.elems
  have hgraph := (hwithin s₁).graph
  rw [hdirectories] at hgraph
  rw [← h.2]
  exact ⟨s₁, forM_visitProduct_eq_ok hvisits (Descends.hasError_eq_false hwithin hdirectories
    herror), cleanDirectories_eq_ok hdirectories herror, hgraph⟩

theorem removes_isCleaned_iff {node : CleanPath} :
    cleaner.Removes (IsCleaned g products) node ↔ cleaner.Removes (fun f =>
      (∃ a, (∃ p, p ∈ products ∧ a ∈ cleanedArtifacts g p) ∧ (g.artifact a).filePath = f) ∨
        ∃ p, p ∈ products ∧ ∃ d, g.rescuableArtifactData? p f = some d) node := by
  unfold Removes IsCleaned
  refine and_congr_right fun _ => exists_congr fun f => and_congr_left fun _ => ?_
  constructor
  · rintro ⟨p, hp, ⟨a, ha, hf⟩ | hd⟩
    · exact .inl ⟨a, ⟨p, hp, ha⟩, hf⟩
    · exact .inr ⟨p, hp, hd⟩
  · rintro (⟨a, ⟨p, hp, ha⟩, hf⟩ | ⟨p, hp, hd⟩)
    · exact ⟨p, hp, .inl ⟨a, ha, hf⟩⟩
    · exact ⟨p, hp, .inr hd⟩

theorem cleanup_kept (h : (cleaner.cleanup products).outcome s = (.ok (), s')) :
    FileTree.Kept (fun node => ¬cleaner.Removes (IsCleaned s.graph products) node ∧
      ¬cleaner.Emptied products s node) s.tree s'.tree := by
  rcases cleanup_phases h with ⟨s₁, hcleans, hemptied, -⟩
  have hexamined : ∀ d, (d ∈ cleaner.examinedDirectories [] s₁.directories.elems ∧
      cleaner.buildDirectory.text <+: d.text) ↔ cleaner.Examined s.graph products d := by
    intro d
    unfold Examined
    rw [and_comm]
    refine and_congr_right fun hstarts => ?_
    rw [mem_examinedDirectories_iff hstarts]
    simp only [← SortedSet.mem_def, hcleans.directories]
    constructor
    · rintro ⟨q, hq | ⟨a, ⟨p, hp, ha⟩, rfl⟩, hd⟩
      · exact absurd hq (SortedSet.not_mem_empty q)
      · exact ⟨p, hp, a, ha, hd⟩
    · rintro ⟨p, hp, a, ha, hd⟩
      exact ⟨_, .inr ⟨a, ⟨p, hp, ha⟩, rfl⟩, hd⟩
  refine (hcleans.tree.trans hemptied).congr fun node _ => ?_
  simp only [← removes_isCleaned_iff, hexamined]
  refine and_congr_right fun _ => not_congr (and_congr_right fun _ => ?_)
  unfold FileTree.FileFree
  simp only [hcleans.tree.files, ← removes_isCleaned_iff, and_imp]
  refine forall_congr' fun f => imp_congr_right fun _ => ?_
  constructor
  · intro hfree hbelow
    by_contra hnot
    exact hfree hnot hbelow
  · exact fun hremoved hnot hbelow => hnot (hremoved hbelow)

theorem cleanup_cleansUp (h : (cleaner.cleanup products).outcome s = (.ok (), s')) :
    CleansUp cleaner.options.dryRun (fun a => ∃ p, p ∈ products ∧ a ∈ cleanedArtifacts s.graph p)
      (fun p _ => p ∈ products) s.graph s'.graph := by
  rcases cleanup_phases h with ⟨s₁, hcleans, -, hgraph⟩
  rw [hgraph]
  refine hcleans.graph.congr (fun _ => Iff.rfl) fun p f d hd => ?_
  simp [show s.graph.rescuableArtifactData? p f = some d from hd]

/-- A job without errors leaves just what is neither at a path that is cleaned, or below it, nor
without files in a directory that is looked at.  The artifacts have lost their timestamps, if the
run is not a dry one, and there are no recorded data for the products. -/
theorem cleanup_eq_ok {products : List ProductId}
    (h : (cleaner.cleanup products).outcome s = (.ok (), s')) :
    FileTree.Kept (fun node =>
        ¬cleaner.Removes (IsCleaned s.graph products) node ∧
        ¬((∃ d, cleaner.Examined s.graph products d ∧ node.IsBelow d) ∧
          ∀ f, f ∈ s.tree.files → f.IsBelow node → cleaner.Removes (IsCleaned s.graph products) f))
      s.tree s'.tree ∧
    CleansUp cleaner.options.dryRun (fun a => ∃ p, p ∈ products ∧ a ∈ cleanedArtifacts s.graph p)
      (fun p _ => p ∈ products) s.graph s'.graph :=
  ⟨cleanup_kept h, cleanup_cleansUp h⟩

/-! ### A build directory with one file -/

/-- A system that allows everything and lists by names. -/
def openDisk : DiskAccess where
  listing s := s.sort (· ≤ ·)
  mem_listing s p := by simp
  nodup_listing s := s.sort_nodup _
  mayRemove _ := true

def buildPath : CleanPath :=
  ⟨["out".toList], by decide⟩

def objectPath : CleanPath :=
  ⟨["out".toList, "o".toList], by decide⟩

def builtTree : FileTree where
  dirs := {CleanPath.root, buildPath}
  files := {objectPath}
  root_mem := by decide
  parent_mem := by decide
  disjoint := by decide

/-- The product "p" with the artifact of the file. -/
def builtGraph : BuildGraph :=
  { BuildGraph.empty with
    productOf := fun _ => "p"
    artifact := fun _ => { Artifact.create .generated "/out/o" with timestamp := 1 }
    productData := fun _ => some ⟨{0}, ∅, ∅, ∅⟩
    nextNode := 1 }

def builtState : CleanState :=
  ⟨builtTree, builtGraph, 0, ∅, false⟩

def builtCleaner (dryRun : Bool) : ArtifactCleaner where
  options := ⟨dryRun, false⟩
  disk := openDisk
  canceled _ := false
  buildDirectory := buildPath
  buildDirectory_ne := by decide

theorem cleanup_builtState (dryRun : Bool) :
    ((builtCleaner dryRun).cleanup ["p"]).outcome builtState =
      (.ok (), (((builtCleaner dryRun).cleanup ["p"]).outcome builtState).2) := by
  refine Prod.ext ?_ rfl
  cases dryRun with
  | false => decide +kernel
  | true => decide +kernel

/-- The file is removed. -/
theorem objectPath_not_mem_cleanup :
    objectPath ∉ (((builtCleaner false).cleanup ["p"]).outcome builtState).2.tree.files := by
  intro hmem
  refine (((cleanup_eq_ok (cleanup_builtState false)).1.files objectPath).mp hmem).2.1 ?_
  exact ⟨rfl, "/out/o", ⟨"p", List.mem_singleton_self _, .inl ⟨0, by decide, rfl⟩⟩, by decide⟩

/-- A dry run without errors changes nothing just if there are no recorded data for the products,
and no directories without files in those that are looked at. -/
theorem cleanup_dryRun_unchanged_iff {products : List ProductId}
    (hdry : cleaner.options.dryRun = true)
    (h : (cleaner.cleanup products).outcome s = (.ok (), s')) :
    ((s'.tree.dirs = s.tree.dirs ∧ s'.tree.files = s.tree.files) ∧
        s'.graph.rescuableArtifactData? = s.graph.rescuableArtifactData?) ↔
      (∀ d e, d ∈ s.tree.dirs → s.tree.FileFree d → cleaner.Examined s.graph products e →
          ¬d.IsBelow e) ∧
        ∀ p f, p ∈ products → s.graph.rescuableArtifactData? p f = none := by
  have hgraph := cleanup_cleansUp h
  have hemptied : EmptiedIn (cleaner.Examined s.graph products) s.tree s'.tree :=
    (cleanup_kept h).congr fun node _ => by simp [Removes, Emptied, hdry, FileTree.FileFree]
  have hdirs : s'.tree.dirs = s.tree.dirs ↔ ∀ d e, d ∈ s.tree.dirs → s.tree.FileFree d →
      cleaner.Examined s.graph products e → ¬d.IsBelow e := by
    rw [Finset.ext_iff]
    simp only [FileTree.Kept.dirs hemptied, and_iff_left_iff_imp]
    constructor
    · intro hsame d e hd hfree hexamined hbelow
      exact hsame d hd ⟨⟨e, hexamined, hbelow⟩, hfree⟩
    · rintro hnone d hd ⟨⟨e, hexamined, hbelow⟩, hfree⟩
      exact hnone d e hd hfree hexamined hbelow
  have hrecorded : s'.graph.rescuableArtifactData? = s.graph.rescuableArtifactData? ↔
      ∀ p f, p ∈ products → s.graph.rescuableArtifactData? p f = none := by
    constructor
    · intro hsame p f hp
      rw [← hsame]
      exact hgraph.recorded_of p f hp
    · intro hnone
      ext1 p
      ext1 f
      by_cases hp : p ∈ products
      · rw [hgraph.recorded_of p f hp, hnone p f hp]
      · exact hgraph.recorded_of_not p f hp
  rw [hdirs, hrecorded]
  simp [hemptied.files_eq]

/-- In a dry run, the directory of the file stays, and there are no recorded data. -/
theorem cleanup_dryRun_builtState :
    (((((builtCleaner true).cleanup ["p"]).outcome builtState).2.tree.dirs = builtTree.dirs ∧
        (((builtCleaner true).cleanup ["p"]).outcome builtState).2.tree.files = builtTree.files) ∧
      (((builtCleaner true).cleanup ["p"]).outcome builtState).2.graph.rescuableArtifactData? =
        builtGraph.rescuableArtifactData?) := by
  refine (cleanup_dryRun_unchanged_iff rfl (cleanup_builtState true)).mpr ⟨?_, ?_⟩
  · intro d e hd hfree hexamined hbelow
    have hd' : d = CleanPath.root ∨ d = buildPath := by simpa [builtState, builtTree] using hd
    have hobject : objectPath ∈ builtTree.files := by decide
    rcases hd' with rfl | rfl
    · exact hfree objectPath hobject (by decide)
    · exact hfree objectPath hobject (by decide)
  · exact fun _ _ _ => rfl

/-! ## Jobs with errors -/

/-- What never changes in the build data, and what is not made up. -/
structure SameNodes (g g' : BuildGraph) : Prop where
  productOf : g'.productOf = g.productOf
  filePath : ∀ n, (g'.artifact n).filePath = (g.artifact n).filePath
  generatedArtifacts : ∀ p, generatedArtifacts g' p = generatedArtifacts g p
  recorded : ∀ p f d, g'.rescuableArtifactData? p f = some d → g.rescuableArtifactData? p f = some d

theorem SameNodes.trans {g'' : BuildGraph} (h : SameNodes g g') (h' : SameNodes g' g'') :
    SameNodes g g'' where
  productOf := h'.productOf.trans h.productOf
  filePath n := (h'.filePath n).trans (h.filePath n)
  generatedArtifacts p := (h'.generatedArtifacts p).trans (h.generatedArtifacts p)
  recorded p f d hd := h.recorded p f d (h'.recorded p f d hd)

theorem CleansUp.sameNodes {dryRun : Bool} {invalidated : NodeId → Prop}
    {forgotten : ProductId → FilePath → Prop} (h : CleansUp dryRun invalidated forgotten g g') :
    SameNodes g g' where
  productOf := h.productOf_eq
  filePath := h.filePath_eq
  generatedArtifacts := h.generatedArtifacts_eq
  recorded p f d hd := by
    by_cases hf : forgotten p f
    · rw [h.recorded_of p f hf] at hd
      cases hd
    · rwa [h.recorded_of_not p f hf] at hd

theorem sameNodes_invalidateTemporary (time : FileTime) (g : BuildGraph) :
    SameNodes g (invalidateTemporary time g) := by
  unfold invalidateTemporary
  split
  · exact ⟨rfl, fun _ => rfl, fun _ => rfl, fun _ _ _ hd => hd⟩
  · exact ⟨rfl, fun _ => rfl, fun _ => rfl, fun _ _ _ hd => hd⟩

/-- There are no recorded data for some products. -/
def Unrecorded (g : BuildGraph) (products : List ProductId) : Prop :=
  ∀ p f, p ∈ products → g.rescuableArtifactData? p f = none

/-- What a job has done to the state that it began with, if it has not come to the directories. -/
structure Visiting (cleaner : ArtifactCleaner) (products : List ProductId) (s s' : CleanState) :
    Prop where
  tree : FileTree.Loses (cleaner.Removes (IsCleaned s.graph products)) s.tree s'.tree
  graph : SameNodes s.graph s'.graph
  directories : ∀ d, d ∈ s'.directories → ∃ p, p ∈ products ∧
    ∃ a, a ∈ cleanedArtifacts s.graph p ∧
      d = (CleanPath.ofFilePath (s.graph.artifact a).filePath).parent
  unchanged : cleaner.options.dryRun = true → Unrecorded s.graph products → s'.graph = s.graph

/-- The removal of a file that is to be cleaned. -/
theorem keeps_removeArtifactFromDisk {f : FilePath} (hf : IsCleaned s.graph products f)
    (hinvalidate : ∀ g, SameNodes g (invalidate g)) :
    StateOp.Keeps (cleaner.Visiting products s) (cleaner.removeArtifactFromDisk f invalidate) := by
  refine StateOp.Keeps.bind (StateOp.Keeps.query _) fun fileExists => ?_
  by_cases hdry : cleaner.options.dryRun = true
  · rw [if_pos hdry]
    exact StateOp.Keeps.pure ()
  · rw [if_neg hdry]
    refine StateOp.Keeps.bind (StateOp.Keeps.update fun t ht => ?_) fun _ => ?_
    · exact ⟨ht.tree, ht.graph.trans (hinvalidate t.graph), ht.directories, fun h => absurd h hdry⟩
    · split
      · refine StateOp.Keeps.transform fun t ht =>
          ⟨ht.tree.trans ?_, ht.graph, ht.directories, ht.unchanged⟩
        have hloses : FileTree.Loses _ t.tree
            (cleaner.disk.removeFileRecursion (t.tree.depth + 1) (.ofFilePath f) ⟨t.tree, ""⟩).2.tree :=
          DiskAccess.loses_removeFileRecursion (t.tree.depth + 1) (.ofFilePath f) ⟨t.tree, ""⟩
        exact hloses.mono fun node hnode => ⟨by simpa using hdry, f, hf, hnode⟩
      · exact StateOp.Keeps.pure ()

theorem keeps_doVisit {a : NodeId} (hp : p ∈ products) (ha : a ∈ generatedArtifacts s.graph p) :
    StateOp.Keeps (cleaner.Visiting products s) (cleaner.doVisit p a) := by
  refine StateOp.Keeps.bind (StateOp.Keeps.transform fun t ht =>
    ⟨ht.tree, ht.graph, ht.directories, ht.unchanged⟩) fun canceled => ?_
  split
  · exact StateOp.Keeps.fail _
  · intro t ht
    rw [StateOp.outcome_query_bind, ht.graph.productOf, ht.graph.filePath]
    refine (show StateOp.Keeps (cleaner.Visiting products s) _ from ?_) t ht
    by_cases hproduct : s.graph.productOf a = p
    · have hcleaned : a ∈ cleanedArtifacts s.graph p := by
        refine List.mem_filter.mpr ⟨ha, by simpa using hproduct⟩
      rw [if_neg (by simpa using hproduct)]
      refine StateOp.Keeps.bind (StateOp.Keeps.attempt ?_ fun error => ?_) fun _ => ?_
      · exact keeps_removeArtifactFromDisk ⟨p, hp, .inl ⟨a, hcleaned, rfl⟩⟩ fun g =>
          (show CleansUp false _ _ g _ from CleansUp.invalidate g a).sameNodes
      · split
        · exact StateOp.Keeps.fail _
        · exact StateOp.Keeps.update fun t ht => ⟨ht.tree, ht.graph, ht.directories, ht.unchanged⟩
      · refine StateOp.Keeps.update fun t ht => ⟨ht.tree, ht.graph, fun d hd => ?_, ht.unchanged⟩
        rcases SortedSet.mem_insert.mp hd with hd | hd
        · exact ⟨p, hp, a, hcleaned, hd⟩
        · exact ht.directories d hd
    · rw [if_pos hproduct]
      exact StateOp.Keeps.pure ()

theorem keeps_visitProduct (hp : p ∈ products) :
    StateOp.Keeps (cleaner.Visiting products s) (cleaner.visitProduct p) := by
  intro t ht
  rw [visitProduct, StateOp.outcome_query_bind, ht.graph.generatedArtifacts]
  refine (StateOp.Keeps.bind (StateOp.Keeps.forM fun a ha => keeps_doVisit hp ha)
    fun _ => ?_ : StateOp.Keeps (cleaner.Visiting products s) _) t ht
  intro u hu
  rw [StateOp.outcome_query_bind]
  refine (StateOp.Keeps.forM fun entry hentry => ?_ :
    StateOp.Keeps (cleaner.Visiting products s) _) u hu
  have hrecorded := hu.graph.recorded _ _ _ (mem_allRescuableArtifactData.mp hentry)
  refine StateOp.Keeps.bind ?_ fun _ => ?_
  · exact keeps_removeArtifactFromDisk ⟨p, hp, .inr ⟨_, hrecorded⟩⟩
      (sameNodes_invalidateTemporary _)
  · refine StateOp.Keeps.update fun v hv => ⟨hv.tree, hv.graph.trans ?_, hv.directories, ?_⟩
    · exact (CleansUp.erase v.graph p entry.1).sameNodes
    · intro _ hnone
      rw [hnone p entry.1 hp] at hrecorded
      cases hrecorded

/-- Whether a job ends with an error, is canceled or neither, it first visits products, and then
removes directories at or below those that are looked at. -/
theorem cleanup_within (products : List ProductId) (s : CleanState) : ∃ s₁,
    cleaner.Visiting products s s₁ ∧
      Descends (fun node => ∃ e, cleaner.Examined s.graph products e ∧ node.IsBelow e) s₁
        ((cleaner.cleanup products).outcome s).2 := by
  set s₀ := { s with hasError := false, directories := (∅ : SortedSet CleanPath) } with hs₀
  have hstart : cleaner.Visiting products s s₀ := by
    refine ⟨FileTree.Loses.refl s.tree, ⟨rfl, fun _ => rfl, fun _ => rfl, fun _ _ _ hd => hd⟩, ?_,
      fun _ _ => rfl⟩
    intro d hd
    exact absurd hd (SortedSet.not_mem_empty d)
  have hvisits : StateOp.Keeps (cleaner.Visiting products s) (products.forM cleaner.visitProduct) :=
    StateOp.Keeps.forM fun p hp => keeps_visitProduct hp
  have hfirst := hvisits.outcome hstart
  rw [cleanup, StateOp.outcome_update_bind, StateOp.outcome_bind, ← hs₀]
  rcases hout : (products.forM cleaner.visitProduct).outcome s₀ with ⟨_ | _, s₁⟩
  · rw [hout] at hfirst
    exact ⟨s₁, hfirst, Descends.refl s₁⟩
  · rw [hout] at hfirst
    refine ⟨s₁, hfirst, ?_⟩
    dsimp only at hfirst ⊢
    rw [StateOp.outcome_query_bind]
    have hlast : StateOp.Within (Descends fun node => ∃ d,
        (d ∈ cleaner.examinedDirectories [] s₁.directories.elems ∧
          cleaner.buildDirectory.text <+: d.text) ∧ node.IsBelow d)
        (cleaner.cleanDirectories [] s₁.directories.elems >>= fun _ =>
          StateOp.query fun s : CleanState =>
            if s.hasError then .error (ErrorInfo.message "Failed to remove some files.")
            else .ok ()) :=
      StateOp.Within.bind Descends.trans (within_cleanDirectories _ _) fun _ =>
        StateOp.Within.query Descends.refl _
    refine (hlast s₁).mono ?_
    rintro node ⟨e, ⟨he, hstarts⟩, hbelow⟩
    rcases (mem_examinedDirectories_iff hstarts).mp he with ⟨q, hq, hqe⟩
    rcases hfirst.directories q hq with ⟨p, hp, a, ha, rfl⟩
    exact ⟨e, ⟨hstarts, p, hp, a, ha, hqe⟩, hbelow⟩

/-- Whether a job ends with an error, is canceled or neither: a file that is gone was at the path of
an artifact or a recorded file, or below it, and the run was not a dry one. A directory that is gone
was there, too, or at or below a directory that is looked at. -/
theorem cleanup_loses (products : List ProductId) (s : CleanState) :
    (((cleaner.cleanup products).outcome s).2.tree.dirs ⊆ s.tree.dirs ∧
        ((cleaner.cleanup products).outcome s).2.tree.files ⊆ s.tree.files) ∧
      (∀ f, f ∈ s.tree.files → f ∉ ((cleaner.cleanup products).outcome s).2.tree.files →
        cleaner.Removes (IsCleaned s.graph products) f) ∧
      ∀ d, d ∈ s.tree.dirs → d ∉ ((cleaner.cleanup products).outcome s).2.tree.dirs →
        cleaner.Removes (IsCleaned s.graph products) d ∨
          ∃ e, cleaner.Examined s.graph products e ∧ d.IsBelow e := by
  rcases cleaner.cleanup_within products s with ⟨s₁, hfirst, hdesc⟩
  refine ⟨⟨hdesc.tree.dirs.trans hfirst.tree.dirs, hdesc.tree.files.trans hfirst.tree.files⟩,
    ?_, ?_⟩
  · intro f hf hf'
    rw [hdesc.files] at hf'
    exact hfirst.tree.lostFiles f hf hf'
  · intro d hd hd'
    by_cases hmem : d ∈ s₁.tree.dirs
    · exact .inr (hdesc.tree.lostDirs d hmem hd')
    · exact .inl (hfirst.tree.lostDirs d hd hmem)

/-! ## What a clean job is for -/

variable (cleaner) in
/-- A dry run changes nothing. Another run without errors removes the artifacts and recorded files
of the products, and else only directories without files in the build directory. -/
structure CleansRight (products : List ProductId) (s : CleanState)
    (result : Except ErrorInfo Unit × CleanState) : Prop where
  unchanged : cleaner.options.dryRun = true → (result.2.tree.dirs = s.tree.dirs ∧
    result.2.tree.files = s.tree.files) ∧ result.2.graph = s.graph
  gone : cleaner.options.dryRun = false → result.1 = .ok () → ∀ f, IsCleaned s.graph products f →
    result.2.tree.fileExists (.ofFilePath f) = false
  timestamps : cleaner.options.dryRun = false → result.1 = .ok () → ∀ p a, p ∈ products →
    a ∈ cleanedArtifacts s.graph p → (result.2.graph.artifact a).hasTimestamp = false
  removed : cleaner.options.dryRun = false → result.1 = .ok () → ∀ node,
    s.tree.fileExists node = true → result.2.tree.fileExists node = false →
      (∃ f, IsCleaned s.graph products f ∧ node.IsBelow (.ofFilePath f)) ∨
        node ∈ s.tree.dirs ∧ cleaner.Inside node ∧ result.2.tree.FileFree node

variable (cleaner) in
/-- Only directories in the build directory are emptied, and none in a dry run, for which there are
no recorded data. -/
def Contained (products : List ProductId) (s : CleanState) : Prop :=
  (∀ d, d ∈ s.tree.dirs → ¬cleaner.Removes (IsCleaned s.graph products) d →
      cleaner.Emptied products s d → cleaner.options.dryRun = false ∧ cleaner.Inside d) ∧
    (cleaner.options.dryRun = true → Unrecorded s.graph products)

/-- A dry run, whether or not it ends with an error. -/
theorem Contained.unchanged (h : cleaner.Contained products s)
    (hdry : cleaner.options.dryRun = true) :
    (((cleaner.cleanup products).outcome s).2.tree.dirs = s.tree.dirs ∧
      ((cleaner.cleanup products).outcome s).2.tree.files = s.tree.files) ∧
        ((cleaner.cleanup products).outcome s).2.graph = s.graph := by
  rcases cleaner.cleanup_within products s with ⟨s₁, hfirst, hdesc⟩
  have hnot : ∀ node, ¬cleaner.Removes (IsCleaned s.graph products) node := by
    rintro node ⟨hwet, -⟩
    rw [hdry] at hwet
    cases hwet
  have hfiles : ((cleaner.cleanup products).outcome s).2.tree.files = s.tree.files := by
    rw [hdesc.files]
    refine Finset.Subset.antisymm hfirst.tree.files fun f hf => ?_
    by_contra hlost
    exact hnot f (hfirst.tree.lostFiles f hf hlost)
  refine ⟨⟨Finset.Subset.antisymm (hdesc.tree.dirs.trans hfirst.tree.dirs) fun d hd => ?_, hfiles⟩,
    hdesc.graph.trans (hfirst.unchanged hdry (h.2 hdry))⟩
  by_contra hlost
  have hmem : d ∈ s₁.tree.dirs := by
    by_contra hgone
    exact hnot d (hfirst.tree.lostDirs d hd hgone)
  -- a file in the directory would still be there
  have hwet := h.1 d hd (hnot d) ⟨hdesc.tree.lostDirs d hmem hlost, fun f hf hbelow => by
    rw [← hfiles] at hf
    refine absurd (FileTree.mem_dirs_of_isBelow (Finset.mem_union_right _ hf) hbelow ?_) hlost
    rintro rfl
    rw [hfiles] at hf
    exact Finset.disjoint_left.mp s.tree.disjoint hd hf⟩
  rw [hdry] at hwet
  cases hwet.1

/-- A run without errors that is not dry. -/
theorem Contained.removed (h : cleaner.Contained products s)
    (hout : (cleaner.cleanup products).outcome s = (.ok (), s')) {node : CleanPath}
    (hnode : s.tree.fileExists node = true) (hlost : s'.tree.fileExists node = false) :
    (∃ f, IsCleaned s.graph products f ∧ node.IsBelow (.ofFilePath f)) ∨
      node ∈ s.tree.dirs ∧ cleaner.Inside node ∧ s'.tree.FileFree node := by
  have hkept := cleanup_kept hout
  by_cases hremoved : cleaner.Removes (IsCleaned s.graph products) node
  · exact .inl hremoved.2
  · have hemptied : cleaner.Emptied products s node := by
      by_contra hnot
      rw [hkept.fileExists_iff.mpr ⟨hnode, hremoved, hnot⟩] at hlost
      cases hlost
    have hdir : node ∈ s.tree.dirs := by
      refine (FileTree.fileExists_iff.mp hnode).resolve_right fun hfile => ?_
      exact hremoved (hemptied.2 node hfile (CleanPath.isBelow_refl node))
    refine .inr ⟨hdir, (h.1 node hdir hremoved hemptied).2, fun f hf hbelow => ?_⟩
    have hf' := (hkept.files f).mp hf
    exact hf'.2.1 (hemptied.2 f hf'.1 hbelow)

/-- A job does what it is for if only directories in the build directory are emptied, and none in a
dry run, for which there are no recorded data. For jobs without errors that is also needed. -/
theorem cleansRight_iff (products : List ProductId) (s : CleanState) :
    (cleaner.Contained products s →
        cleaner.CleansRight products s ((cleaner.cleanup products).outcome s)) ∧
      (((cleaner.cleanup products).outcome s).1 = .ok () →
        cleaner.CleansRight products s ((cleaner.cleanup products).outcome s) →
          cleaner.Contained products s) := by
  refine ⟨fun h => ⟨h.unchanged, fun hwet hok f hf => ?_, fun hwet hok p a hp ha => ?_,
    fun hwet hok node => h.removed (Prod.ext hok rfl)⟩, fun hok h => ⟨?_, fun hdry p f hp => ?_⟩⟩
  · by_contra hnot
    have hkept := (cleanup_kept (Prod.ext hok rfl)).fileExists_iff.mp (by simpa using hnot)
    exact hkept.2.1 ⟨hwet, f, hf, CleanPath.isBelow_refl _⟩
  · rw [(cleanup_cleansUp (Prod.ext hok rfl)).artifact_of a ⟨hwet, p, hp, ha⟩]
    simp [Artifact.hasTimestamp]
  · intro d hd hnot hemptied
    have hkept := @cleanup_kept cleaner s _ products (Prod.ext hok rfl)
    by_cases hdry : cleaner.options.dryRun = true
    · rw [← (h.unchanged hdry).1.1] at hd
      exact absurd hemptied ((hkept.dirs d).mp hd).2.2
    · have hwet : cleaner.options.dryRun = false := by simpa using hdry
      refine ⟨hwet, ?_⟩
      have hlost : ((cleaner.cleanup products).outcome s).2.tree.fileExists d = false := by
        by_contra hexists
        exact (hkept.fileExists_iff.mp (by simpa using hexists)).2.2 hemptied
      rcases h.removed hwet hok d (FileTree.fileExists_iff.mpr (.inl hd)) hlost with hf | hinside
      · exact absurd ⟨hwet, hf⟩ hnot
      · exact hinside.2.1
  · rw [← (h.unchanged hdry).2]
    exact (cleanup_cleansUp (Prod.ext hok rfl)).recorded_of p f hp

def graphPath : CleanPath :=
  ⟨["out".toList, "default.bg".toList], by decide⟩

def productPath : CleanPath :=
  ⟨["out".toList, "p".toList], by decide⟩

def artifactPath : CleanPath :=
  ⟨["out".toList, "p".toList, "o".toList], by decide⟩

def productTree : FileTree where
  dirs := {CleanPath.root, buildPath, productPath}
  files := {graphPath, artifactPath}
  root_mem := by decide
  parent_mem := by decide
  disjoint := by decide

/-- The artifact is in the directory of the product. -/
def productState (t : FileTree) : CleanState :=
  { builtState with
    tree := t
    graph :=
      { builtGraph with artifact := fun _ => Artifact.create .generated "/out/p/o" } }

/-- The artifact and the directory are removed. -/
theorem cleansRight_productState : (builtCleaner false).CleansRight ["p"] (productState productTree)
    (((builtCleaner false).cleanup ["p"]).outcome (productState productTree)) := by
  refine (cleansRight_iff ["p"] (productState productTree)).1 ⟨fun d hd hnot hemptied => ?_,
    fun hdry => by cases hdry⟩
  have hd' : d = CleanPath.root ∨ d = buildPath ∨ d = productPath := by
    simpa [productState, productTree] using hd
  -- the build graph stays where it is
  have hgraph : ¬(builtCleaner false).Removes
      (IsCleaned (productState productTree).graph ["p"]) graphPath := by
    rintro ⟨-, f, ⟨p, -, ⟨a, -, rfl⟩ | ⟨d, hrecorded⟩⟩, hbelow⟩
    · exact absurd hbelow (show ¬graphPath.IsBelow (.ofFilePath "/out/p/o") by decide)
    · cases hrecorded
  have hmem : graphPath ∈ (productState productTree).tree.files := by decide
  rcases hd' with rfl | rfl | rfl
  · exact absurd (hemptied.2 graphPath hmem (by decide)) hgraph
  · exact absurd (hemptied.2 graphPath hmem (by decide)) hgraph
  · exact ⟨rfl, by decide, by decide⟩

/-- If the artifact was removed before, a dry run removes the directory. -/
theorem not_cleansRight_dryRun : ¬∀ (cleaner : ArtifactCleaner) (products : List ProductId)
    (s : CleanState), cleaner.CleansRight products s ((cleaner.cleanup products).outcome s) := by
  intro hall
  have hright := hall (builtCleaner true) ["p"]
    (productState ((productTree.removeFile artifactPath).getD productTree))
  have hdirs := (hright.unchanged rfl).1.1
  revert hdirs
  decide +kernel

end ArtifactCleaner

end Qbs
