import Mathlib.Data.List.ProdSigma
import QbsCore.Library.WorklistTraces
import QbsCore.Scanner.InputArtifactScanner

/-!
# Scanned dependencies

A scan attaches to the output just the files that can be reached from its inputs: a file leads to
those to which the names found in it lead, and these are looked through themselves if the scanner
is recursive, and if they are no artifacts that still have to be built.  For the executor such a
scan is one that finds a certain list of files.

Main results:

- Theorem {lit}`InputArtifactScanner.scanFiles_eq_ok`: the loop over the files that have to be
  looked through follows a trace of a worklist.
- Theorem {lit}`InputArtifactScanner.scan_result`: what a scan that returns has looked through, and
  what it has attached to the output.

Current gaps:

- None.
-/

namespace Qbs

namespace InputArtifactScanner

variable {env : ScanEnvironment} {a i : NodeId} {inputs : List NodeId} {s t u : ScanState}
  {scanner : DependencyScanner} {found found' : List ScannedFile}

/-! ## Changes of the graph -/

/-- The data of all nodes apart from what a scan sets. -/
def nodeData (g : BuildGraph) :
    (NodeId → Artifact) × (NodeId → BuildState) × (NodeId → ProductId) :=
  (fun n => { g.artifact n with
    inputsScanned := false, fileDependencies := ∅, childrenAddedByScanner := ∅ },
    g.buildState, g.productOf)

section Graph

variable {g g' : BuildGraph}

theorem filePath_of_nodeData (h : nodeData g' = nodeData g) (n : NodeId) :
    (g'.artifact n).filePath = (g.artifact n).filePath :=
  congrArg (fun d => (d.1 n).filePath) h

theorem scannersForTags_of_nodeData (env : ScanEnvironment) (h : nodeData g' = nodeData g)
    (n : NodeId) : env.scannersForTags (g'.productOf n) (g'.artifact n).fileTags =
      env.scannersForTags (g.productOf n) (g.artifact n).fileTags :=
  congrArg (fun d => env.scannersForTags (d.2.2 n) (d.1 n).fileTags) h

theorem canBeScanned_of_nodeData (h : nodeData g' = nodeData g) :
    canBeScanned g' = canBeScanned g := by
  funext r
  cases r with
  | artifact n => exact congrArg (fun d => decide ((d.1 n).artifactType = .sourceFile) ||
      decide (d.2.1 n = .built)) h
  | file filePath => rfl

theorem nodeData_modifyArtifact {n : NodeId} {f : Artifact → Artifact}
    (hf : { f (g.artifact n) with
        inputsScanned := false, fileDependencies := ∅, childrenAddedByScanner := ∅ } =
      { g.artifact n with
        inputsScanned := false, fileDependencies := ∅, childrenAddedByScanner := ∅ }) :
    nodeData (g.modifyArtifact n f) = nodeData g := by
  refine Prod.ext (funext fun m => ?_) rfl
  by_cases hm : m = n
  · subst hm
    simpa [nodeData, BuildGraph.modifyArtifact, BuildGraph.setArtifact] using hf
  · simp [nodeData, BuildGraph.modifyArtifact, BuildGraph.setArtifact, hm]

@[simp]
theorem artifact_modifyArtifact (g : BuildGraph) (n : NodeId) (f : Artifact → Artifact) :
    (g.modifyArtifact n f).artifact n = f (g.artifact n) := by
  simp [BuildGraph.modifyArtifact, BuildGraph.setArtifact]

/-- An artifact needs no connection to the output, or it has one: it is the output, it belongs to
the same transformer, it is a child, or it depends on the output. -/
def Related (g : BuildGraph) (a n : NodeId) : Prop :=
  n = a ∨ (g.artifact n).transformer = (g.artifact a).transformer ∨ n ∈ g.children a ∨
    Relation.ReflTransGen g.IsChild n a

variable {added added' : Bool}

/-- What attaching a file does to the graph. -/
theorem handleDependency_cases {r : ScannedFile}
    (h : Executor.handleDependency a (g, added) r = .ok (g', added')) :
    (∃ p table files dirty, r = .file p ∧
      g' = BuildGraph.modifyArtifact
        { g with lookupTable := table, fileDependencies := files, isDirty := dirty } a
        fun d => { d with fileDependencies := insert p d.fileDependencies }) ∨
    ∃ n, r = .artifact n ∧ (g' = g ∧ Related g a n ∨ ∃ g₁, g.connect a n = .ok g₁ ∧
      g' = g₁.modifyArtifact a
        fun d => { d with childrenAddedByScanner := insert n d.childrenAddedByScanner }) := by
  cases r with
  | file p =>
      simp only [Executor.handleDependency] at h
      split_ifs at h
      · cases h
        exact .inl ⟨p, _, _, _, rfl, rfl⟩
      · simp only [Fallible.bind_eq_ok_iff, Fallible.pure_eq_ok_iff, Prod.mk.injEq] at h
        rcases h with ⟨g₁, hinsert, rfl, -⟩
        rcases BuildGraph.insertIntoLookupTable_cases hinsert with ⟨-, rfl⟩
        exact .inl ⟨p, _, _, _, rfl, rfl⟩
  | artifact n =>
      refine .inr ⟨n, rfl, ?_⟩
      simp only [Executor.handleDependency] at h
      split_ifs at h with hskip
      · cases h
        simp only [Bool.or_eq_true, decide_eq_true_eq, or_assoc] at hskip
        exact .inl ⟨rfl, hskip.imp_right (Or.imp_right .inl)⟩
      · simp only [Fallible.bind_eq_ok_iff] at h
        rcases h with ⟨⟨g₁, connected⟩, hconnect, h⟩
        rcases (BuildGraph.safeConnect_cases hconnect).2 with
          ⟨rfl, rfl, hpath⟩ | ⟨rfl, hconnect', -⟩
        · cases h
          exact .inl ⟨rfl, .inr (.inr (.inr (GraphSearch.visit_found _ _ _ n ∅ hpath)))⟩
        · cases h
          exact .inr ⟨g₁, hconnect', rfl⟩

theorem artifact_of_connect {n : NodeId} (h : g.connect a n = .ok g') :
    g'.artifact = g.artifact ∧ nodeData g' = nodeData g := by
  rcases (BuildGraph.connect_cases h).2 with ⟨rfl, -⟩ | rfl
  · exact ⟨rfl, rfl⟩
  · exact ⟨rfl, rfl⟩

theorem nodeData_handleDependency {r : ScannedFile}
    (h : Executor.handleDependency a (g, added) r = .ok (g', added')) :
    nodeData g' = nodeData g := by
  rcases handleDependency_cases h with
    ⟨p, table, files, dirty, -, rfl⟩ | ⟨n, -, ⟨rfl, -⟩ | ⟨g₁, hconnect, rfl⟩⟩
  · exact nodeData_modifyArtifact rfl
  · rfl
  · exact (nodeData_modifyArtifact rfl).trans (artifact_of_connect hconnect).2

/-- What the output has once some files are attached to it. -/
structure Attached (a : NodeId) (g : BuildGraph) (found : List ScannedFile) : Prop where
  fileDependencies : ∀ p, p ∈ (g.artifact a).fileDependencies ↔ .file p ∈ found
  childrenAddedByScanner : ∀ n, n ∈ (g.artifact a).childrenAddedByScanner →
    .artifact n ∈ found ∧ n ∈ g.children a
  artifacts : ∀ n, .artifact n ∈ found → Related g a n

/-- One more file is attached. -/
theorem Attached.handleDependency {r : ScannedFile} (hattached : Attached a g found)
    (h : Executor.handleDependency a (g, added) r = .ok (g', added')) :
    Attached a g' (found ++ [r]) := by
  have htransformer : ∀ n, (g'.artifact n).transformer = (g.artifact n).transformer :=
    fun n => congrArg (fun d => (d.1 n).transformer) (nodeData_handleDependency h)
  have hkeep : (∀ p c, g.IsChild p c → g'.IsChild p c) → ∀ n, Related g a n → Related g' a n := by
    rintro hgrows n (hself | hsame | hchild | hpath)
    · exact .inl hself
    · exact .inr (.inl (by rw [htransformer, htransformer, hsame]))
    · exact .inr (.inr (.inl (hgrows a n hchild)))
    · exact .inr (.inr (.inr (Relation.ReflTransGen.mono hgrows _ _ hpath)))
  rcases handleDependency_cases h with
    ⟨p, table, files, dirty, rfl, rfl⟩ | ⟨n, rfl, ⟨rfl, hrelated⟩ | ⟨g₁, hconnect, rfl⟩⟩
  · refine ⟨fun q => ?_, fun n hn => ?_, fun n hn => ?_⟩
    · simp [hattached.fileDependencies, or_comm]
    · rw [artifact_modifyArtifact] at hn
      exact (hattached.childrenAddedByScanner n hn).imp_left (List.mem_append_left _)
    · exact hkeep (fun _ _ hc => hc) n (hattached.artifacts n (by simpa using hn))
  · refine ⟨fun q => by simp [hattached.fileDependencies], fun m hm => ?_, fun m hm => ?_⟩
    · exact (hattached.childrenAddedByScanner m hm).imp_left (List.mem_append_left _)
    · rcases List.mem_append.mp hm with hm | hm
      · exact hattached.artifacts m hm
      · cases List.mem_singleton.mp hm
        exact hrelated
  · have hartifact := (artifact_of_connect hconnect).1
    have hchildren : ∀ u c, c ∈ g₁.children u ↔ c ∈ g.children u ∨ u = a ∧ c = n :=
      fun u c => BuildGraph.mem_children_connect hconnect
    refine ⟨fun q => ?_, fun m hm => ?_, fun m hm => ?_⟩
    · simp [hartifact, hattached.fileDependencies]
    · simp only [artifact_modifyArtifact, SortedSet.mem_insert, hartifact] at hm
      rcases hm with rfl | hm
      · exact ⟨List.mem_append_right _ List.mem_cons_self, (hchildren a m).mpr (.inr ⟨rfl, rfl⟩)⟩
      · exact (hattached.childrenAddedByScanner m hm).imp (List.mem_append_left _)
          fun hc => (hchildren a m).mpr (.inl hc)
    · rcases List.mem_append.mp hm with hm | hm
      · exact hkeep (fun u c hc => (hchildren u c).mpr (.inl hc)) m (hattached.artifacts m hm)
      · cases List.mem_singleton.mp hm
        exact .inr (.inr (.inl ((hchildren a n).mpr (.inr ⟨rfl, rfl⟩))))

/-- Files are attached one after the other. -/
theorem Attached.foldlM (hattached : Attached a g found)
    (h : found'.foldlM (Executor.handleDependency a) (g, added) = .ok (g', added')) :
    Attached a g' (found ++ found') := by
  induction found' generalizing g added found with
  | nil =>
      cases h
      rwa [List.append_nil]
  | cons r found' ih =>
      rw [List.foldlM_cons, Fallible.bind_eq_ok_iff] at h
      rcases h with ⟨⟨g₁, added₁⟩, hstep, hrest⟩
      rw [List.append_cons]
      exact ih (hattached.handleDependency hstep) hrest

/-- Nothing is attached once the results of the last scan are forgotten. -/
theorem attached_withoutScannedDependencies (a : NodeId) (g : BuildGraph) :
    Attached a (withoutScannedDependencies a g) [] := by
  suffices hempty : ((withoutScannedDependencies a g).artifact a).fileDependencies = ∅ ∧
      ((withoutScannedDependencies a g).artifact a).childrenAddedByScanner = ∅ by
    exact ⟨by simp [hempty.1], by simp [hempty.2], by simp⟩
  unfold withoutScannedDependencies
  refine List.foldlRecOn (motive := fun g' : BuildGraph =>
    (g'.artifact a).fileDependencies = ∅ ∧ (g'.artifact a).childrenAddedByScanner = ∅) _ _ ?_ ?_
  · simp
  · rintro g' ⟨hfiles, hadded⟩ child -
    unfold BuildGraph.disconnect
    split
    · refine ⟨?_, SortedSet.ext fun n => ?_⟩
      · simpa [BuildGraph.removeEdge] using hfiles
      · simp [BuildGraph.removeEdge, hadded]
    · exact ⟨hfiles, hadded⟩

end Graph

/-! ## Progress of a scan -/

/-- Where the data of a scanner come from: they are known from an earlier scan, or the scanner was
run for one of the inputs, or there was no reason to run it. -/
inductive Origin (env : ScanEnvironment) (inputs : List NodeId) (s : ScanState)
    (filePath : FilePath) (data : ScanData) : Prop where
  | stored : data ∈ s.rawScanResults filePath → Origin env inputs s filePath data
  | scanned {scanner : DependencyScanner} {i : NodeId} {texts : List String} :
      i ∈ inputs → scanner.id = data.scannerId →
        env.collectDependencies scanner i filePath = .ok texts →
        data.rawScanResult = texts.map RawScannedDependency.ofText →
        Origin env inputs s filePath data
  | failed {scanner : DependencyScanner} {i : NodeId} {e : ErrorInfo} :
      i ∈ inputs → scanner.id = data.scannerId →
        env.collectDependencies scanner i filePath = .error e → data.rawScanResult = [] →
        Origin env inputs s filePath data
  | untouched : data.lastScanTime = 0 → data.rawScanResult = [] →
      Origin env inputs s filePath data

/-- The graph at some time while files are attached to the output. -/
def GraphAt (a : NodeId) (s : ScanState) (found : List ScannedFile) (g : BuildGraph) : Prop :=
  ∃ before added, before <+: found ∧
    before.foldlM (Executor.handleDependency a) (s.graph, s.newDependencyAdded) = .ok (g, added)

/-- The file to which a name leads, if it has been looked for. -/
def ScanState.resolution (s : ScanState) (id : CacheId) (key : Nat) (d : RawScannedDependency) :
    Option (Option ScannedFile) :=
  (s.cache id key).resolvedDependenciesCache d

/-- What part of a scan does to the state. Some files are attached to the output one after the
other, the scanners are run where it is necessary, and a name leads to one file for good. -/
structure Progress (env : ScanEnvironment) (a : NodeId) (inputs : List NodeId) (s t : ScanState)
    (found : List ScannedFile) : Prop where
  attached : found.foldlM (Executor.handleDependency a) (s.graph, s.newDependencyAdded) =
    .ok (t.graph, t.newDependencyAdded)
  origin : ∀ filePath data, data ∈ t.rawScanResults filePath → Origin env inputs s filePath data
  searchPaths : ∀ id key, (s.cache id key).valid = true → (t.cache id key).valid = true ∧
    (t.cache id key).searchPaths = (s.cache id key).searchPaths
  kept : ∀ id key d r, s.resolution id key d = some r → t.resolution id key d = some r
  resolved : ∀ id key d r, t.resolution id key d = some r → s.resolution id key d = some r ∨
    (t.cache id key).valid = true ∧ ∃ i g, i ∈ inputs ∧ GraphAt a s found g ∧
      r = resolve env g (g.productOf i) (t.cache id key).searchPaths d

namespace Progress

theorem nodeData_eq (h : Progress env a inputs s t found) : nodeData t.graph = nodeData s.graph :=
  Fallible.foldlM_invariant (P := fun x : BuildGraph × Bool => nodeData x.1 = nodeData s.graph)
    (fun _ _ _ _ hx hstep => (nodeData_handleDependency hstep).trans hx) rfl h.attached

theorem filePath (h : Progress env a inputs s t found) : t.filePath = s.filePath := by
  funext r
  cases r with
  | artifact n => exact filePath_of_nodeData h.nodeData_eq n
  | file filePath => rfl

/-- Something that does not attach a file, and does not look for one. -/
theorem of_caches (hgraph : t.graph = s.graph)
    (hadded : t.newDependencyAdded = s.newDependencyAdded)
    (horigin : ∀ filePath data, data ∈ t.rawScanResults filePath →
      Origin env inputs s filePath data)
    (hpaths : ∀ id key, (s.cache id key).valid = true → t.cache id key = s.cache id key)
    (hresolved : t.resolution = s.resolution) : Progress env a inputs s t [] where
  attached := by rw [List.foldlM_nil, hgraph, hadded]; rfl
  origin := horigin
  searchPaths id key hvalid := by rw [hpaths id key hvalid]; exact ⟨hvalid, rfl⟩
  kept id key d r h := by rw [hresolved]; exact h
  resolved id key d r h := by rw [hresolved] at h; exact .inl h

theorem refl (s : ScanState) : Progress env a inputs s s [] :=
  of_caches rfl rfl (fun _ _ => .stored) (fun _ _ _ => rfl) rfl

theorem origin_trans (h : Progress env a inputs s t found) {filePath : FilePath} {data : ScanData}
    (ht : Origin env inputs t filePath data) : Origin env inputs s filePath data := by
  cases ht with
  | stored hmem => exact h.origin filePath data hmem
  | scanned hi hid hcollect hraw => exact .scanned hi hid hcollect hraw
  | failed hi hid hcollect hraw => exact .failed hi hid hcollect hraw
  | untouched htime hraw => exact .untouched htime hraw

theorem trans (h : Progress env a inputs s t found) (h' : Progress env a inputs t u found') :
    Progress env a inputs s u (found ++ found') where
  attached := by
    rw [List.foldlM_append, h.attached]
    exact h'.attached
  origin filePath data hdata := h.origin_trans (h'.origin filePath data hdata)
  searchPaths id key hvalid := by
    rcases h.searchPaths id key hvalid with ⟨hvalid', hpaths⟩
    rcases h'.searchPaths id key hvalid' with ⟨hvalid'', hpaths'⟩
    exact ⟨hvalid'', hpaths'.trans hpaths⟩
  kept id key d r hs := h'.kept id key d r (h.kept id key d r hs)
  resolved id key d r hu := by
    rcases h'.resolved id key d r hu with
      ht | ⟨hvalid, i, g, hi, ⟨before, added, hbefore, hfold⟩, hr⟩
    · rcases h.resolved id key d r ht with
        hs | ⟨hvalid, i, g, hi, ⟨before, added, hbefore, hfold⟩, hr⟩
      · exact .inl hs
      · rcases h'.searchPaths id key hvalid with ⟨hvalid', hpaths⟩
        exact .inr ⟨hvalid', i, g, hi,
          ⟨before, added, hbefore.trans (List.prefix_append _ _), hfold⟩, hpaths ▸ hr⟩
    · refine .inr ⟨hvalid, i, g, hi, ⟨found ++ before, added,
        (List.prefix_append_right_inj found).mpr hbefore, ?_⟩, hr⟩
      rw [List.foldlM_append, h.attached]
      exact hfold

end Progress

/-! ## What has been looked through -/

/-- A file that was looked through by a scanner, with the names that were found there and the files
to which they lead. -/
structure FileScan where
  file : ScannedFile
  scanner : DependencyScanner
  dependencies : List (RawScannedDependency × Option ScannedFile)

namespace FileScan

def included (x : FileScan) : List ScannedFile :=
  x.dependencies.filterMap Prod.snd

/-- The files that have to be looked through as well. -/
def followed (g : BuildGraph) (x : FileScan) : List ScannedFile :=
  x.included.filter fun r => x.scanner.recursive && canBeScanned g r

end FileScan

/-- The names in a file are those that its scanner has found, and the caches have the files to which
they lead. -/
structure Looked (env : ScanEnvironment) (inputs : List NodeId) (i : NodeId) (s t : ScanState)
    (x : FileScan) : Prop where
  origin : ∃ data, Origin env inputs s (s.filePath x.file) data ∧ data.scannerId = x.scanner.id ∧
    data.rawScanResult = x.dependencies.map Prod.fst
  resolution : ∀ e, e ∈ x.dependencies →
    t.resolution (cacheId env i x.scanner) x.scanner.key e.1 = some e.2

theorem Looked.mono {x : FileScan} (h : Looked env inputs i s t x)
    (hprogress : Progress env a inputs t u found) : Looked env inputs i s u x :=
  ⟨h.origin, fun e he => hprogress.kept _ _ _ _ (h.resolution e he)⟩

theorem Looked.after {x : FileScan} (h : Looked env inputs i t u x)
    (hprogress : Progress env a inputs s t found) : Looked env inputs i s u x := by
  rcases h.origin with ⟨data, horigin, hdata⟩
  rw [hprogress.filePath] at horigin
  exact ⟨⟨data, hprogress.origin_trans horigin, hdata⟩, h.resolution⟩

/-! ## The operations of a scan -/

theorem modifyCache_apply (id id' : CacheId) (key key' : Nat)
    (f : ScannerResolvedDependenciesCache → ScannerResolvedDependenciesCache) :
    (s.modifyCache id key f).cache id' key' =
      if id' = id ∧ key' = key then f (s.cache id key) else s.cache id' key' := by
  by_cases hid : id' = id
  · subst hid
    by_cases hkey : key' = key
    · subst hkey
      simp [ScanState.modifyCache]
    · simp [ScanState.modifyCache, hkey]
  · simp [ScanState.modifyCache, hid]

theorem provideSearchPaths_eq_ok (a : NodeId) (inputs : List NodeId)
    (h : (provideSearchPaths env i scanner).outcome s = (.ok (), t)) :
    Progress env a inputs s t [] ∧ (t.cache (cacheId env i scanner) scanner.key).valid = true := by
  unfold provideSearchPaths at h
  rw [StateOp.outcome_query_bind] at h
  split_ifs at h with hvalid
  · cases h
    exact ⟨Progress.refl s, hvalid⟩
  · rw [StateOp.outcome_update_bind, StateOp.outcome_bind_eq_ok] at h
    rcases h with ⟨searchPaths, u, hpaths, ht⟩
    have hu := (Prod.mk.inj hpaths).2
    have ht' := (Prod.mk.inj ht).2
    subst hu ht'
    refine ⟨Progress.of_caches rfl rfl (fun _ _ hmem => .stored hmem) ?_ ?_, ?_⟩
    · intro id key hother
      have hne : ¬(id = cacheId env i scanner ∧ key = scanner.key) := by
        rintro ⟨rfl, rfl⟩
        exact hvalid hother
      rw [modifyCache_apply, if_neg hne, modifyCache_apply, if_neg hne]
    · funext id key d
      unfold ScanState.resolution
      by_cases hsame : id = cacheId env i scanner ∧ key = scanner.key
      · rw [modifyCache_apply, if_pos hsame, modifyCache_apply, if_pos ⟨rfl, rfl⟩, hsame.1, hsame.2]
      · rw [modifyCache_apply, if_neg hsame, modifyCache_apply, if_neg hsame]
    · rw [modifyCache_apply, if_pos ⟨rfl, rfl⟩, modifyCache_apply, if_pos ⟨rfl, rfl⟩]

theorem setResolved_resolution (id id' : CacheId) (key key' : Nat) (d d' : RawScannedDependency)
    (r : Option ScannedFile) :
    (s.setResolved id key d r).resolution id' key' d' =
      if id' = id ∧ key' = key ∧ d' = d then some r else s.resolution id' key' d' := by
  unfold ScanState.resolution ScanState.setResolved
  rw [modifyCache_apply]
  by_cases hsame : id' = id ∧ key' = key
  · rcases hsame with ⟨rfl, rfl⟩
    simp [Function.update_apply]
  · rw [if_neg hsame, if_neg fun hall => hsame ⟨hall.1, hall.2.1⟩]

theorem getResolvedDependency_eq_ok {id : CacheId} {key : Nat} {d : RawScannedDependency}
    {r : Option ScannedFile} (hi : i ∈ inputs) (hvalid : (s.cache id key).valid = true)
    (h : (getResolvedDependency env i id key d).outcome s = (.ok r, t)) :
    Progress env a inputs s t [] ∧ t.resolution id key d = some r := by
  unfold getResolvedDependency at h
  rw [StateOp.outcome_transform] at h
  cases hknown : (s.cache id key).resolvedDependenciesCache d with
  | some known =>
      rw [hknown] at h
      cases h
      exact ⟨Progress.refl s, hknown⟩
  | none =>
      rw [hknown] at h
      have hr := Except.ok.inj (Prod.mk.inj h).1
      have ht := (Prod.mk.inj h).2
      rw [hr] at ht
      subst ht
      have hsame : ∀ id' key', ((s.setResolved id key d r).cache id' key').valid =
            (s.cache id' key').valid ∧
          ((s.setResolved id key d r).cache id' key').searchPaths =
            (s.cache id' key').searchPaths := by
        intro id' key'
        rw [ScanState.setResolved, modifyCache_apply]
        split_ifs with hthis
        · rw [hthis.1, hthis.2]
          exact ⟨rfl, rfl⟩
        · exact ⟨rfl, rfl⟩
      refine ⟨⟨rfl, fun _ _ hmem => .stored hmem, fun id' key' hvalid' => ?_, ?_, ?_⟩, ?_⟩
      · rw [(hsame id' key').1, (hsame id' key').2]
        exact ⟨hvalid', rfl⟩
      · intro id' key' d' r' hs
        rw [setResolved_resolution, if_neg ?_]
        · exact hs
        · rintro ⟨rfl, rfl, rfl⟩
          rw [ScanState.resolution, hknown] at hs
          cases hs
      · intro id' key' d' r' hmem
        rw [setResolved_resolution] at hmem
        split_ifs at hmem with hthis
        · rcases hthis with ⟨rfl, rfl, rfl⟩
          rw [(hsame id' key').1, (hsame id' key').2]
          exact .inr ⟨hvalid, i, s.graph, hi, ⟨[], s.newDependencyAdded, List.nil_prefix, rfl⟩,
            (Option.some.inj hmem).symm.trans hr.symm⟩
        · exact .inl hmem
      · rw [setResolved_resolution, if_pos ⟨rfl, rfl, rfl⟩]

theorem handleDependency_eq_ok (inputs : List NodeId) {r : ScannedFile}
    (h : (handleDependency env a r).outcome s = (.ok (), t)) :
    Progress env a inputs s t [r] := by
  unfold handleDependency at h
  rw [StateOp.outcome_transform] at h
  split_ifs at h
  · cases h
  · cases hfound : Executor.handleDependency a (s.graph, s.newDependencyAdded) r with
    | error e =>
        rw [hfound] at h
        cases h
    | ok found =>
        rw [hfound] at h
        have ht := (Prod.mk.inj h).2
        subst ht
        refine ⟨?_, fun _ _ hmem => .stored hmem, fun _ _ hvalid => ⟨hvalid, rfl⟩,
          fun _ _ _ _ hs => hs, fun _ _ _ _ hs => .inl hs⟩
        rw [List.foldlM_cons, hfound]
        rfl

/-- The names that were found in a file are resolved, and their files are attached. -/
theorem resolveScanResultDependencies_eq_ok {deps : List RawScannedDependency}
    {next : List ScannedFile} (hi : i ∈ inputs)
    (hvalid : (s.cache (cacheId env i scanner) scanner.key).valid = true)
    (h : (resolveScanResultDependencies env a i (cacheId env i scanner) scanner deps).outcome s =
      (.ok next, t)) (file : ScannedFile) :
    ∃ x : FileScan, x.file = file ∧ x.scanner = scanner ∧ x.dependencies.map Prod.fst = deps ∧
      next = x.followed t.graph ∧ Progress env a inputs s t x.included ∧ ∀ e, e ∈ x.dependencies →
        t.resolution (cacheId env i scanner) scanner.key e.1 = some e.2 := by
  induction deps generalizing s next with
  | nil =>
      cases h
      exact ⟨⟨file, scanner, []⟩, rfl, rfl, rfl, rfl, Progress.refl _, by simp⟩
  | cons d deps ih =>
      rw [resolveScanResultDependencies, StateOp.outcome_bind_eq_ok] at h
      rcases h with ⟨r, u, hresolved, h⟩
      rcases getResolvedDependency_eq_ok (a := a) hi hvalid hresolved with ⟨hsu, hknown⟩
      have hvalidu := (hsu.searchPaths _ _ hvalid).1
      cases r with
      | none =>
          rcases ih hvalidu h with ⟨⟨_, _, rest⟩, rfl, rfl, rfl, rfl, hut, hall⟩
          exact ⟨⟨_, _, (d, none) :: rest⟩, rfl, rfl, rfl, rfl, hsu.trans hut,
            List.forall_mem_cons.mpr ⟨hut.kept _ _ _ _ hknown, hall⟩⟩
      | some r =>
          simp only [StateOp.outcome_bind_eq_ok] at h
          rcases h with ⟨_, v, hhandle, must, w, hquery, files, y, hrest, hlast⟩
          have huv := handleDependency_eq_ok inputs hhandle
          have hw := (Prod.mk.inj hquery).2
          have hmust := Except.ok.inj (Prod.mk.inj hquery).1
          have hy := (Prod.mk.inj hlast).2
          have hnext := Except.ok.inj (Prod.mk.inj hlast).1
          subst hw hy
          rcases ih (huv.searchPaths _ _ hvalidu).1 hrest with
            ⟨⟨_, _, rest⟩, rfl, rfl, rfl, rfl, hvt, hall⟩
          refine ⟨⟨_, _, (d, some r) :: rest⟩, rfl, rfl, rfl, ?_, hsu.trans (huv.trans hvt),
            List.forall_mem_cons.mpr ⟨(huv.trans hvt).kept _ _ _ _ hknown, hall⟩⟩
          rw [← hnext, ← hmust, ← canBeScanned_of_nodeData hvt.nodeData_eq]
          simp [FileScan.followed, FileScan.included, List.filter_cons]

/-- The data that are looked up are in the list, or they are new. -/
theorem findScanData_spec (env : ScanEnvironment) (scanner : DependencyScanner)
    (properties : VariantMap) (l : List ScanData) :
    ((findScanData env scanner properties l).1.scannerId = scanner.id ∧
      ((findScanData env scanner properties l).1 ∈ l ∨
      (findScanData env scanner properties l).1.lastScanTime = 0 ∧
        (findScanData env scanner properties l).1.rawScanResult = [])) ∧
      ∀ data x, x ∈ (findScanData env scanner properties l).2 data → x = data ∨ x ∈ l := by
  induction l with
  | nil => exact ⟨⟨rfl, .inr ⟨rfl, rfl⟩⟩, fun data x hx => .inl (List.mem_singleton.mp hx)⟩
  | cons data rest ih =>
      rw [findScanData]
      split_ifs with hfits
      · refine ⟨⟨hfits.1.symm, .inl List.mem_cons_self⟩, fun data' x hx => ?_⟩
        exact (List.mem_cons.mp hx).imp_right (List.mem_cons_of_mem data)
      · refine ⟨⟨ih.1.1, ih.1.2.imp_left (List.mem_cons_of_mem data)⟩, fun data' x hx => ?_⟩
        rcases List.mem_cons.mp hx with rfl | hx
        · exact .inr List.mem_cons_self
        · exact (ih.2 data' x hx).imp_right (List.mem_cons_of_mem data)

variable {file : ScannedFile}

theorem rawScanResult_eq_ok {deps : List RawScannedDependency} (hi : i ∈ inputs)
    (h : (rawScanResult env a i scanner file).outcome s = (.ok deps, t)) :
    Progress env a inputs s t [] ∧ t.cache = s.cache ∧
      ∃ data, Origin env inputs s (s.filePath file) data ∧ data.scannerId = scanner.id ∧
        data.rawScanResult = deps := by
  have hspec := findScanData_spec env scanner (s.graph.artifact a).properties
    (s.rawScanResults (s.filePath file))
  unfold rawScanResult at h
  rw [StateOp.outcome_transform] at h
  generalize findScanData env scanner (s.graph.artifact a).properties
    (s.rawScanResults (s.filePath file)) = found at h hspec
  rcases hspec with ⟨⟨hid, horigin⟩, hput⟩
  suffices hdata : ∃ data, t = s.setScanData (s.filePath file) (found.2 data) ∧
      Origin env inputs s (s.filePath file) data ∧ data.scannerId = scanner.id ∧
      data.rawScanResult = deps by
    rcases hdata with ⟨data, rfl, hdata⟩
    refine ⟨Progress.of_caches rfl rfl ?_ (fun _ _ _ => rfl) rfl, rfl, data, hdata⟩
    intro filePath x hx
    change x ∈ Function.update s.rawScanResults (s.filePath file) (found.2 data) filePath at hx
    by_cases hpath : filePath = s.filePath file
    · subst hpath
      rw [Function.update_self] at hx
      rcases hput data x hx with rfl | hx
      · exact hdata.1
      · exact .stored hx
    · rw [Function.update_of_ne hpath] at hx
      exact .stored hx
  dsimp only at h
  split_ifs at h
  · cases hcollect : env.collectDependencies scanner i (s.filePath file) with
    | ok texts =>
        rw [hcollect] at h
        exact ⟨_, (Prod.mk.inj h).2.symm, .scanned hi hid.symm hcollect rfl, hid,
          Except.ok.inj (Prod.mk.inj h).1⟩
    | error e =>
        rw [hcollect] at h
        exact ⟨_, (Prod.mk.inj h).2.symm, .failed hi hid.symm hcollect rfl, hid,
          Except.ok.inj (Prod.mk.inj h).1⟩
  · refine ⟨_, (Prod.mk.inj h).2.symm, ?_, hid, Except.ok.inj (Prod.mk.inj h).1⟩
    rcases horigin with hmem | ⟨hzero, hempty⟩
    · exact .stored hmem
    · exact .untouched hzero hempty

/-- A file is looked through by a scanner. -/
theorem scanForScannerFileDependencies_eq_ok {next : List ScannedFile} (hi : i ∈ inputs)
    (h : (scanForScannerFileDependencies env a i file scanner).outcome s = (.ok next, t)) :
    ∃ x : FileScan, x.file = file ∧ x.scanner = scanner ∧ next = x.followed t.graph ∧
      Progress env a inputs s t x.included ∧ Looked env inputs i s t x := by
  unfold scanForScannerFileDependencies at h
  simp only [StateOp.outcome_bind_eq_ok] at h
  rcases h with ⟨_, u, hpaths, deps, v, hraw, hresolve⟩
  rcases provideSearchPaths_eq_ok a inputs hpaths with ⟨hsu, hvalid⟩
  rcases rawScanResult_eq_ok (a := a) hi hraw with ⟨huv, hcache, data, horigin, hid, rfl⟩
  rw [← hcache] at hvalid
  rcases resolveScanResultDependencies_eq_ok hi hvalid hresolve file with
    ⟨x, rfl, rfl, hdeps, hnext, hvt, hresolved⟩
  rw [hsu.filePath] at horigin
  exact ⟨x, rfl, rfl, hnext, hsu.trans (huv.trans hvt),
    ⟨data, hsu.origin_trans horigin, hid, hdeps.symm⟩, hresolved⟩

/-- A file is looked through by several scanners. -/
theorem scanWithAll_eq_ok {scanners : List DependencyScanner} {next : List ScannedFile}
    (hi : i ∈ inputs) (h : (scanWithAll env a i file scanners).outcome s = (.ok next, t)) :
    ∃ log : List FileScan,
      log.map (fun x => (x.file, x.scanner)) = scanners.map (fun scanner => (file, scanner)) ∧
      next = log.flatMap (FileScan.followed t.graph) ∧
      Progress env a inputs s t (log.flatMap FileScan.included) ∧
      ∀ x, x ∈ log → Looked env inputs i s t x := by
  induction scanners generalizing s next with
  | nil =>
      cases h
      exact ⟨[], rfl, rfl, Progress.refl _, by simp⟩
  | cons scanner scanners ih =>
      simp only [scanWithAll, StateOp.outcome_bind_eq_ok] at h
      rcases h with ⟨next, u, hscan, others, v, hrest, hlast⟩
      have hv := (Prod.mk.inj hlast).2
      have hboth := Except.ok.inj (Prod.mk.inj hlast).1
      subst hv hboth
      rcases scanForScannerFileDependencies_eq_ok (a := a) hi hscan with
        ⟨x, rfl, rfl, rfl, hsu, hx⟩
      rcases ih hrest with ⟨log, hlog, rfl, hut, hall⟩
      have hcan := canBeScanned_of_nodeData hut.nodeData_eq
      refine ⟨x :: log, by rw [List.map_cons, hlog, List.map_cons], ?_, hsu.trans hut,
        List.forall_mem_cons.mpr ⟨hx.mono hut, fun y hy => (hall y hy).after hsu⟩⟩
      rw [List.flatMap_cons, FileScan.followed, FileScan.followed, hcan]

/-- Looking through the file with a path leads to the file with another one. -/
def LeadsTo (t : ScanState) (log : List FileScan) (p q : FilePath) : Prop :=
  ∃ x, x ∈ log ∧ t.filePath x.file = p ∧ q ∈ (x.followed t.graph).map t.filePath

theorem leadsTo_append {log log' : List FileScan} {p q : FilePath} :
    LeadsTo t (log ++ log') p q ↔ LeadsTo t log p q ∨ LeadsTo t log' p q := by
  simp [LeadsTo, or_and_right, exists_or]

/-- One file leads to what has to be looked through after it. -/
theorem leadsTo_of_file {log : List FileScan} {p q : FilePath}
    (hfile : ∀ x, x ∈ log → x.file = file) : LeadsTo t log p q ↔
      p = t.filePath file ∧ q ∈ (log.flatMap (FileScan.followed t.graph)).map t.filePath := by
  simp only [LeadsTo, List.mem_map, List.mem_flatMap]
  constructor
  · rintro ⟨x, hx, rfl, r, hr, rfl⟩
    exact ⟨by rw [hfile x hx], r, ⟨x, hx, hr⟩, rfl⟩
  · rintro ⟨rfl, r, ⟨x, hx, hr⟩, rfl⟩
    exact ⟨x, hx, by rw [hfile x hx], r, hr, rfl⟩

/-- The loop over the files that have to be looked through. -/
theorem scanFiles_eq_ok {scanners : List DependencyScanner} {fuel : Nat}
    {filesToScan : List ScannedFile} {visitedFilePaths : List FilePath} (hi : i ∈ inputs)
    (h : (scanFiles env a i scanners fuel filesToScan visitedFilePaths).outcome s = (.ok (), t)) :
    ∃ (log : List FileScan) (files : List ScannedFile) (visits : List (FilePath × List FilePath)),
      log.map (fun x => (x.file, x.scanner)) = files ×ˢ scanners ∧
      files.map t.filePath = visits.map Prod.fst ∧
      Worklist.Trace (filesToScan.map t.filePath) visitedFilePaths visits ∧
      (∀ p q, Worklist.LeadsTo visits p q ↔ LeadsTo t log p q) ∧
      Progress env a inputs s t (log.flatMap FileScan.included) ∧
      ∀ x, x ∈ log → Looked env inputs i s t x := by
  induction fuel, filesToScan, visitedFilePaths using scanFiles.induct generalizing s with
  | case1 fuel visitedFilePaths =>
      have hst : s = t := by cases fuel <;> exact (Prod.mk.inj h).2
      subst hst
      exact ⟨[], [], [], rfl, rfl, .done _, by simp [Worklist.LeadsTo, LeadsTo],
        Progress.refl _, by simp⟩
  | case2 file filesToScan visitedFilePaths => cases h
  | case3 fuel file filesToScan visitedFilePaths ihSkip ihVisit =>
      rw [scanFiles, StateOp.outcome_query_bind] at h
      split_ifs at h with hvisited
      · rcases ihSkip h with ⟨log, files, visits, hlog, hpaths, htrace, hleads, hprogress, hall⟩
        refine ⟨log, files, visits, hlog, hpaths, ?_, hleads, hprogress, hall⟩
        rw [List.map_cons]
        exact .skip (hprogress.filePath ▸ hvisited) htrace
      · rw [StateOp.outcome_bind_eq_ok] at h
        rcases h with ⟨next, u, hscan, h⟩
        rcases scanWithAll_eq_ok hi hscan with ⟨log, hlog, rfl, hsu, hlooked⟩
        rcases ihVisit _ _ h with ⟨log', files, visits, hlog', hpaths, htrace, hleads, hut, hall⟩
        have hprogress := hsu.trans hut
        have hfollowed : FileScan.followed u.graph = FileScan.followed t.graph := by
          funext x
          rw [FileScan.followed, FileScan.followed, canBeScanned_of_nodeData hut.nodeData_eq]
        have hfile : ∀ x, x ∈ log → x.file = file := by
          intro x hx
          have hmem := List.mem_map_of_mem (f := fun x => (x.file, x.scanner)) hx
          rw [hlog] at hmem
          rcases List.mem_map.mp hmem with ⟨scanner, -, heq⟩
          exact (Prod.mk.inj heq).1.symm
        refine ⟨log ++ log', file :: files, (t.filePath file,
          (log.flatMap (FileScan.followed t.graph)).map t.filePath) :: visits, ?_, ?_, ?_, ?_,
          by rw [List.flatMap_append]; exact hprogress, ?_⟩
        · rw [List.map_append, hlog, hlog', List.product_cons]
        · rw [List.map_cons, List.map_cons, hpaths]
        · rw [← hprogress.filePath] at hvisited htrace
          rw [List.map_append, hfollowed] at htrace
          exact .visit hvisited htrace
        · intro p q
          rw [Worklist.leadsTo_cons, leadsTo_append, hleads p q, leadsTo_of_file hfile]
        · exact List.forall_mem_append.mpr
            ⟨fun x hx => (hlooked x hx).mono hut, fun x hx => (hall x hx).after hsu⟩

/-! ## The inputs -/

/-- What a scan has done for an input. Starting with the input itself, the files that it leads to
were looked through, each of them once by each of the scanners. -/
structure InputScan (env : ScanEnvironment) (inputs : List NodeId) (i : NodeId) (s t : ScanState)
    (log : List FileScan) : Prop where
  looked : ∀ x, x ∈ log → Looked env inputs i s t x
  reached : ∃ files : List ScannedFile,
    log.map (fun x => (x.file, x.scanner)) =
      files ×ˢ env.scannersForTags (t.graph.productOf i) (t.graph.artifact i).fileTags ∧
    (files.map t.filePath).Nodup ∧
    ∀ p, p ∈ files.map t.filePath ↔
      Relation.ReflTransGen (LeadsTo t log) (t.filePath (.artifact i)) p

namespace InputScan

variable {log : List FileScan}

theorem after (h : InputScan env inputs i t u log) (hprogress : Progress env a inputs s t found) :
    InputScan env inputs i s u log :=
  ⟨fun x hx => (h.looked x hx).after hprogress, h.reached⟩

theorem mono (h : InputScan env inputs i s t log) (hprogress : Progress env a inputs t u found) :
    InputScan env inputs i s u log where
  looked x hx := (h.looked x hx).mono hprogress
  reached := by
    have hnodes := hprogress.nodeData_eq
    have hleads : LeadsTo u log = LeadsTo t log := by
      funext p q
      unfold LeadsTo FileScan.followed
      rw [hprogress.filePath, canBeScanned_of_nodeData hnodes]
    rw [hprogress.filePath, hleads, scannersForTags_of_nodeData env hnodes]
    exact h.reached

end InputScan

theorem scanForFileDependencies_eq_ok {fuel : Nat} (hi : i ∈ inputs)
    (h : (scanForFileDependencies env a fuel i).outcome s = (.ok (), t)) :
    ∃ log, Progress env a inputs s t (log.flatMap FileScan.included) ∧
      InputScan env inputs i s t log := by
  rw [scanForFileDependencies, StateOp.outcome_query_bind] at h
  split_ifs at h with hempty
  · cases h
    refine ⟨[], Progress.refl _, by simp, [.artifact i], ?_, List.nodup_singleton _, fun p => ?_⟩
    · rw [List.isEmpty_iff.mp hempty]
      rfl
    · have hstuck : ∀ q r, ¬LeadsTo s [] q r := by simp [LeadsTo]
      rw [Relation.reflTransGen_iff_eq (hstuck _), List.map_singleton, List.mem_singleton]
  · rcases scanFiles_eq_ok hi h with
      ⟨log, files, visits, hlog, hpaths, htrace, hleads, hprogress, hlooked⟩
    have hscanners := scannersForTags_of_nodeData env hprogress.nodeData_eq i
    have hsame : Worklist.LeadsTo visits = LeadsTo t log :=
      funext fun p => funext fun q => propext (hleads p q)
    refine ⟨log, hprogress, hlooked, files, by rw [hlog, hscanners], ?_, fun p => ?_⟩
    · rw [hpaths]
      exact htrace.nodup
    · rw [hpaths, htrace.handled_iff, hsame, List.map_singleton]
      simp only [List.mem_singleton, exists_eq_left]

/-- All that the scan of some inputs has found. -/
def foundIn (logs : List (NodeId × List FileScan)) : List ScannedFile :=
  logs.flatMap fun e => e.2.flatMap FileScan.included

/-- The inputs are scanned one after the other. -/
theorem forM_scanForFileDependencies_eq_ok {fuel : Nat} {l : List NodeId} (hl : l ⊆ inputs)
    (h : (l.forM (scanForFileDependencies env a fuel)).outcome s = (.ok (), t)) :
    ∃ logs : List (NodeId × List FileScan), logs.map Prod.fst = l ∧
      Progress env a inputs s t (foundIn logs) ∧
      ∀ e, e ∈ logs → InputScan env inputs e.1 s t e.2 := by
  induction l generalizing s with
  | nil =>
      have hst := (Prod.mk.inj h).2
      subst hst
      exact ⟨[], rfl, Progress.refl _, by simp⟩
  | cons i l ih =>
      rcases List.cons_subset.mp hl with ⟨hi, hl⟩
      rcases StateOp.outcome_bind_eq_ok.mp h with ⟨_, u, hscan, hrest⟩
      rcases scanForFileDependencies_eq_ok hi hscan with ⟨log, hsu, hinput⟩
      rcases ih hl hrest with ⟨logs, rfl, hut, hinputs⟩
      exact ⟨(i, log) :: logs, rfl, hsu.trans hut,
        List.forall_mem_cons.mpr ⟨hinput.mono hut, fun e he => (hinputs e he).after hsu⟩⟩

/-! ## The outcome of a scan -/

/-- The state once the dependencies are forgotten that the last scan has found. -/
def cleared (a : NodeId) (s : ScanState) : ScanState :=
  { s with graph := withoutScannedDependencies a s.graph, newDependencyAdded := false }

/-- What a scan that returns has looked through, and what it has attached to the output. -/
structure ScanResult (env : ScanEnvironment) (a : NodeId) (s t : ScanState)
    (logs : List (NodeId × List FileScan)) : Prop where
  inputs : logs.map Prod.fst = InputArtifactScanner.inputs a s.graph
  inputScans : ∀ e, e ∈ logs → InputScan env (logs.map Prod.fst) e.1 (cleared a s) t e.2
  resolved : ∀ id key d r, t.resolution id key d = some r → s.resolution id key d = some r ∨
    (t.cache id key).valid = true ∧
      ∃ i g, i ∈ logs.map Prod.fst ∧ GraphAt a (cleared a s) (foundIn logs) g ∧
        r = resolve env g (g.productOf i) (t.cache id key).searchPaths d
  attached : Attached a t.graph (foundIn logs)
  executor : ∀ w : Observations, w.dependencies a = foundIn logs →
    Executor.scan w a s.graph = .ok (t.newDependencyAdded, t.graph)

/-- The outcome of a scan that returns. -/
theorem scan_result {fuel : Nat} (hnew : (s.graph.artifact a).inputsScanned = false)
    (h : (scan env a fuel).outcome s = (.ok (), t)) :
    ∃ logs, ScanResult env a s t logs := by
  rw [scan, StateOp.outcome_update_bind, StateOp.outcome_query_bind] at h
  dsimp only at h
  rw [hnew, if_neg Bool.false_ne_true, StateOp.outcome_update_bind] at h
  rcases forM_scanForFileDependencies_eq_ok (s := cleared a s) (List.Subset.refl _) h with
    ⟨logs, hlogs, hprogress, hinputs⟩
  refine ⟨logs, hlogs, ?_, ?_,
    (attached_withoutScannedDependencies a s.graph).foldlM hprogress.attached, ?_⟩
  · rw [hlogs]
    exact fun e he => hinputs e he
  · rw [hlogs]
    exact hprogress.resolved
  · intro w hw
    unfold Executor.scan
    rw [hnew, if_neg Bool.false_ne_true, hw]
    have hfold := hprogress.attached
    change (foundIn logs).foldlM (Executor.handleDependency a)
      (withoutScannedDependencies a s.graph, false) = _ at hfold
    unfold withoutScannedDependencies at hfold
    simp only [hfold]
    rfl

/-- A source file includes a header, and this and another header include each other. -/
def sampleEnvironment : ScanEnvironment where
  homePath := "/h".toList
  dependencies _ := []
  propertiesOf _ := 0
  scannersForTags _ tags := if "cpp" ∈ tags then [⟨"cpp", 0, true, false⟩] else []
  collectSearchPaths _ _ := .ok ["/i"]
  collectDependencies _ _ filePath :=
    .ok (if filePath = "/i/x.h" then ["y.h"] else ["x.h"])
  areModulePropertiesCompatible _ _ _ := true
  fileExists filePath := filePath = "/i/x.h" || filePath = "/i/y.h"
  lastModified _ := 1
  currentTime := 2

def sampleState : ScanState where
  graph :=
    { BuildGraph.empty with
      artifact := fun n =>
        if n = 0 then
          { Artifact.create .sourceFile "/s/a.cpp" with fileTags := {"cpp"}, timestamp := 1 }
        else { Artifact.create .generated "/b/a.o" with transformer := some 0 }
      transformer := fun _ => { Transformer.create 0 with inputs := {0}, outputs := {1} }
      nextNode := 2
      nextTransformer := 1 }
  rawScanResults _ := []
  fileDependencyTimes _ := 0
  cache _ _ := ⟨false, [], fun _ => none⟩
  newDependencyAdded := false

theorem scan_result_sample :
    ∃ logs, ScanResult sampleEnvironment 1 sampleState
      ((scan sampleEnvironment 1 4).outcome sampleState).2 logs := by
  have hsplit : ∀ out : Except ScanFailure Unit × ScanState,
      out.1.isOk = true → out = (.ok (), out.2) := by
    rintro ⟨_ | _, t⟩ h
    · exact absurd h Bool.false_ne_true
    · rfl
  have hreturns : ((scan sampleEnvironment 1 4).outcome sampleState).1.isOk = true := by
    decide +kernel
  exact scan_result (by decide) (hsplit _ hreturns)

end InputArtifactScanner

end Qbs
