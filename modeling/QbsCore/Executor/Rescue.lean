import QbsCore.Executor.UpToDate
import Mathlib.Data.List.TakeWhile

/-!
# Rescuing old build data

When the build data of a product is set up anew, the loader records for each artifact
that a rule may create again what it was built from.  When the executor comes to the
new artifact, it takes the old timestamp over if nothing that matters has changed, and
removes the old file otherwise.

Main results:

- Definitions {lit}`BuildGraphLoader.rescueOldBuildData` and
  {lit}`Executor.rescueOldBuildData`.
- Theorem {lit}`Executor.rescueOldBuildData_sound`: the old timestamp is only restored
  with the same commands, children and file dependencies.

Current gaps:

- None.
-/

namespace Qbs

/-! ## Recording -/

/-- The child artifacts of a node before its product was removed. -/
structure ChildrenInfo where
  children : ArtifactSet
  childrenAddedByScanner : ArtifactSet

/-- What is recorded of a child. -/
def ChildrenInfo.childData (info : ChildrenInfo) (g : BuildGraph) (child : NodeId) : ChildData :=
  ⟨g.productOf child, (g.artifact child).filePath, child ∈ info.childrenAddedByScanner⟩

/-- What is recorded of an old artifact with a transformer. The file dependencies are added in
the loop over the children. -/
def BuildGraph.rescuableData (g : BuildGraph) (oldArtifact : NodeId) (t : TransformerId)
    (info : ChildrenInfo) : RescuableArtifactData where
  timeStamp := (g.artifact oldArtifact).timestamp
  children := info.children.elems.map (info.childData g)
  fileDependencies :=
    info.children.elems.flatMap fun _ => (g.artifact oldArtifact).fileDependencies.elems
  commands := (g.transformer t).commands
  inPrepareScript := (g.transformer t).inPrepareScript
  inCommands := (g.transformer t).inCommands
  knownOutOfDate := (g.transformer t).markedForRerun
  fileTags := (g.artifact oldArtifact).fileTags
  properties := (g.artifact oldArtifact).properties

namespace BuildGraphLoader

/-- Record one old artifact, unless the new product has an artifact with its path already. -/
def recordOldArtifact (g : BuildGraph) (product : ProductId) (childLists : NodeId → ChildrenInfo)
    (rad : AssocMap FilePath RescuableArtifactData) (oldArtifact : NodeId) :
    AssocMap FilePath RescuableArtifactData :=
  match (g.artifact oldArtifact).transformer,
      g.lookupArtifact product (g.artifact oldArtifact).filePath with
  | some t, none =>
      rad.insert (g.artifact oldArtifact).filePath
        (g.rescuableData oldArtifact t (childLists oldArtifact))
  | _, _ => rad

/-- Record the artifacts of a product that was set up anew. -/
def rescueOldBuildData (g : BuildGraph) (restoredProduct : Option ProductBuildData)
    (product : ProductId) (childLists : NodeId → ChildrenInfo)
    (existingRad : AssocMap FilePath RescuableArtifactData) : Except ErrorInfo BuildGraph :=
  match restoredProduct with
  | none => return g
  | some restored => do
      let d := (g.productData product).getD default
      qbsCheck d.rescuableArtifactData.entries.isEmpty
        "newlyResolvedProduct->buildData->rescuableArtifactData().empty()"
      return { g with
        productData := Function.update g.productData product (some { d with
          rescuableArtifactData := (g.filterArtifacts restored.nodes).elems.foldl
            (recordOldArtifact g product childLists) existingRad }) }

end BuildGraphLoader

/-! ## Rescuing -/

namespace BuildGraph

/-- The recorded data of a path in a product. -/
def rescuableArtifactData? (g : BuildGraph) (product : ProductId) (f : FilePath) :
    Option RescuableArtifactData :=
  (g.productData product).bind fun d => d.rescuableArtifactData.lookup f

/-- Remove the recorded data of some paths in a product. -/
def removeFromRescuableArtifactData (g : BuildGraph) (product : ProductId) (fs : List FilePath) :
    BuildGraph :=
  g.modifyProductData product fun d =>
    { d with rescuableArtifactData := fs.foldl (fun m f => AList.erase f m) d.rescuableArtifactData }

end BuildGraph

namespace Executor

/-- What the loop over the recorded children has found. -/
structure FoundChildren where
  canRescue : Bool
  childrenToConnect : List NodeId
  vanished : List FilePath

/-- Look for one recorded child. -/
def findRecordedChild (g : BuildGraph) (a : NodeId) (found : FoundChildren) (cd : ChildData) :
    FoundChildren :=
  match g.lookupArtifact cd.product cd.childFilePath with
  | some child =>
      if child ∈ g.children a then found
      else if !cd.addedByScanner then { found with canRescue := false }
      else if found.canRescue then
        { found with childrenToConnect := found.childrenToConnect ++ [child] }
      else found
  | none => { found with canRescue := false, vanished := found.vanished ++ [cd.childFilePath] }

/-- Look for all recorded children. -/
def findRecordedChildren (g : BuildGraph) (a : NodeId) (children : List ChildData) :
    FoundChildren :=
  children.foldl (findRecordedChild g a) ⟨true, [], []⟩

/-- The outcome of an attempt to rescue data. An error ends the attempt where it occurs. The
files to remove are those whose removal is tried; where it fails, there is only a warning. -/
structure RescueOutcome where
  graph : BuildGraph
  childrenAdded : Bool
  filesToRemove : List FilePath
  error : Option ErrorInfo

/-- Connect the rescued children, except where that would close a cycle. -/
def connectRescuedChildren (g : BuildGraph) (a : NodeId) :
    List NodeId → BuildGraph × Option ErrorInfo
  | [] => (g, none)
  | child :: children =>
      match g.safeConnect a child with
      | .error e => (g, some e)
      | .ok (g, true) =>
          connectRescuedChildren (g.modifyArtifact a fun d =>
            { d with childrenAddedByScanner := insert child d.childrenAddedByScanner }) a children
      | .ok (g, false) => connectRescuedChildren g a children

/-- The transformer gets its old records and is checked again. -/
def restoreRecords (rad : RescuableArtifactData) (t : Transformer) : Transformer :=
  { t with
    inPrepareScript := rad.inPrepareScript
    inCommands := rad.inCommands
    commandsNeedChangeTracking := true
    markedForRerun := t.markedForRerun || rad.knownOutOfDate }

/-- The file of an artifact whose data cannot be rescued is to be removed. -/
def notRescued (g : BuildGraph) (a : NodeId) (removed : List FilePath) : RescueOutcome :=
  ⟨g, false, removed ++ [(g.artifact a).filePath], none⟩

/-- Whether a file is in the project's list of file dependencies. -/
def isFileDependency (g : BuildGraph) (f : FilePath) : Bool :=
  .fileDependency ∈ g.lookupTable f

/-- Attach file dependencies up to the first one that is not known. -/
def attachFileDependencies (g : BuildGraph) (a : NodeId) (fs : List FilePath) : BuildGraph :=
  g.modifyArtifact a fun d =>
    { d with
      fileDependencies := d.fileDependencies.unite
        (SortedSet.ofList (fs.takeWhile (isFileDependency g))) }

/-- Restore the data of an artifact. -/
def restore (g : BuildGraph) (a : NodeId) (rad : RescuableArtifactData)
    (childrenToConnect : List NodeId) : RescueOutcome :=
  let connected := connectRescuedChildren
    ((g.modifyTransformerOf a (restoreRecords rad)).setTimestamp a rad.timeStamp) a childrenToConnect
  ⟨connected.1, !childrenToConnect.isEmpty, [], connected.2⟩

/-- Try to rescue the data of an artifact with the recorded data. -/
def attemptRescue (env : BuildEnvironment) (g : BuildGraph) (a : NodeId)
    (rad : RescuableArtifactData) : RescueOutcome :=
  if !env.sameCommands ((g.transformerOf a).getD default).commands rad.commands then
    notRescued g a []
  else
    let found := findRecordedChildren g a rad.children
    let removed := found.vanished.filter fun f =>
      (g.rescuableArtifactData? (g.productOf a) f).isSome
    let g := g.removeFromRescuableArtifactData (g.productOf a) found.vanished
    let g := attachFileDependencies g a rad.fileDependencies
    if found.canRescue && rad.fileDependencies.all (isFileDependency g) then
      let newChildCount := found.childrenToConnect.length + (g.childArtifacts a).size
      if newChildCount < rad.children.length then
        ⟨g, false, removed, some (.check "newChildCount >= rad.children.size()")⟩
      else if rad.children.length < newChildCount then notRescued g a removed
      else restore g a rad found.childrenToConnect
    else notRescued g a removed

/-- Rescue the data of an artifact, if that has not been tried yet. -/
def rescueOldBuildData (env : BuildEnvironment) (g : BuildGraph) (a : NodeId) : RescueOutcome :=
  if !(g.artifact a).oldDataPossiblyPresent then ⟨g, false, [], none⟩
  else
    let g := g.modifyArtifact a fun d => { d with oldDataPossiblyPresent := false }
    if (g.artifact a).artifactType ≠ .generated then ⟨g, false, [], none⟩
    else
      match g.rescuableArtifactData? (g.productOf a) (g.artifact a).filePath with
      | none => ⟨g, false, [], none⟩
      | some rad =>
          attemptRescue env (g.removeFromRescuableArtifactData (g.productOf a)
            [(g.artifact a).filePath]) a rad

/-! ## Connecting the rescued children -/

/-- What connecting children to an artifact leaves alone, adds and achieves. -/
structure ChildrenConnected (g : BuildGraph) (a : NodeId) (children : List NodeId)
    (g' : BuildGraph) (error : Option ErrorInfo) : Prop where
  nodeType : g'.nodeType = g.nodeType
  productOf : g'.productOf = g.productOf
  nextNode : g'.nextNode = g.nextNode
  transformer : g'.transformer = g.transformer
  lookupTable : g'.lookupTable = g.lookupTable
  artifact : ∀ n, ∃ scanner, g'.artifact n =
    { g.artifact n with childrenAddedByScanner := scanner }
  kept : ∀ u v, v ∈ g.children u → v ∈ g'.children u
  added : ∀ u v, v ∈ g'.children u → v ∈ g.children u ∨ u = a ∧ v ∈ children
  connected : error = none → ∀ c, c ∈ children →
    c ∈ g'.children a ∨ Relation.ReflTransGen g'.IsChild c a

namespace ChildrenConnected

theorem refl (g : BuildGraph) (a : NodeId) (children : List NodeId) (e : ErrorInfo) :
    ChildrenConnected g a children g (some e) :=
  ⟨rfl, rfl, rfl, rfl, rfl, fun n => ⟨(g.artifact n).childrenAddedByScanner, rfl⟩,
    fun _ _ h => h, fun _ _ h => Or.inl h, by simp⟩

/-- A refused child changes nothing; there is a path back from it. -/
theorem cons_refused {g g' : BuildGraph} {a c : NodeId} {children : List NodeId}
    {error : Option ErrorInfo} (hpath : Relation.ReflTransGen g.IsChild c a)
    (h : ChildrenConnected g a children g' error) :
    ChildrenConnected g a (c :: children) g' error where
  nodeType := h.nodeType
  productOf := h.productOf
  nextNode := h.nextNode
  transformer := h.transformer
  lookupTable := h.lookupTable
  artifact := h.artifact
  kept := h.kept
  added u v hv := (h.added u v hv).imp_right fun hnew => ⟨hnew.1, List.mem_cons_of_mem c hnew.2⟩
  connected herr d hd := by
    rcases List.mem_cons.mp hd with rfl | hd
    · exact Or.inr (hpath.lift id fun u v huv => h.kept u v huv)
    · exact h.connected herr d hd

/-- A child that was connected is a child from then on. -/
theorem cons_connected {g g₁ g' : BuildGraph} {a c : NodeId} {children : List NodeId}
    {error : Option ErrorInfo} (hconnect : g.connect a c = .ok g₁)
    (h : ChildrenConnected (g₁.modifyArtifact a fun d =>
      { d with childrenAddedByScanner := insert c d.childrenAddedByScanner }) a children g' error) :
    ChildrenConnected g a (c :: children) g' error := by
  have hedges := fun u v => BuildGraph.mem_children_connect (u := u) (v := v) hconnect
  have hframe : g₁.nodeType = g.nodeType ∧ g₁.productOf = g.productOf ∧
      g₁.nextNode = g.nextNode ∧ g₁.transformer = g.transformer ∧
      g₁.lookupTable = g.lookupTable ∧ g₁.artifact = g.artifact := by
    rcases (BuildGraph.connect_cases hconnect).2 with ⟨rfl, -⟩ | rfl <;>
      exact ⟨rfl, rfl, rfl, rfl, rfl, rfl⟩
  rcases hframe with ⟨htype, hproduct, hnext, htransformer, hlookup, hartifact⟩
  refine ⟨h.nodeType.trans htype, h.productOf.trans hproduct, h.nextNode.trans hnext,
    h.transformer.trans htransformer, h.lookupTable.trans hlookup, ?_, ?_, ?_, ?_⟩
  · intro n
    rcases h.artifact n with ⟨scanner, hn⟩
    refine ⟨scanner, ?_⟩
    rw [hn, ← hartifact]
    simp only [BuildGraph.modifyArtifact, BuildGraph.setArtifact]
    by_cases ha : n = a
    · subst ha
      simp
    · simp [ha]
  · intro u v hv
    exact h.kept u v ((hedges u v).mpr (Or.inl hv))
  · intro u v hv
    rcases h.added u v hv with hv | ⟨rfl, hv⟩
    · rcases (hedges u v).mp hv with hv | ⟨rfl, rfl⟩
      · exact Or.inl hv
      · exact Or.inr ⟨rfl, by simp⟩
    · exact Or.inr ⟨rfl, List.mem_cons_of_mem c hv⟩
  · intro herr d hd
    rcases List.mem_cons.mp hd with rfl | hd
    · exact Or.inl (h.kept a d ((hedges a d).mpr (Or.inr ⟨rfl, rfl⟩)))
    · exact h.connected herr d hd

end ChildrenConnected

variable {g : BuildGraph} {cds : List ChildData} {cs : List NodeId} {a : NodeId} {t : TransformerId}

/-- Connecting the rescued children. -/
theorem connectRescuedChildren_spec {children : List NodeId} (he : g.EdgesAllocated)
    (ha : a < g.nextNode) (hc : ∀ c, c ∈ children → c < g.nextNode) :
    ChildrenConnected g a children (connectRescuedChildren g a children).1
      (connectRescuedChildren g a children).2 := by
  induction children generalizing g with
  | nil =>
      exact ⟨rfl, rfl, rfl, rfl, rfl, fun n => ⟨(g.artifact n).childrenAddedByScanner, rfl⟩,
        fun _ _ h => h, fun _ _ h => Or.inl h, by simp⟩
  | cons c children ih =>
      have hcg : c < g.nextNode := hc c (by simp)
      have hrest : ∀ d, d ∈ children → d < g.nextNode := fun d hd =>
        hc d (List.mem_cons_of_mem c hd)
      unfold connectRescuedChildren
      cases hsafe : g.safeConnect a c with
      | error e => exact ChildrenConnected.refl g a (c :: children) e
      | ok result =>
          rcases result with ⟨g₁, connected⟩
          rcases (BuildGraph.safeConnect_cases hsafe).2 with ⟨rfl, rfl, hpath⟩ | ⟨rfl, hconnect, -⟩
          · exact ChildrenConnected.cons_refused ((BuildGraph.existsPath_iff he hcg).mp hpath)
              (ih he ha hrest)
          · refine ChildrenConnected.cons_connected hconnect (ih ?_ ?_ ?_)
            · have hnext : g₁.nextNode = g.nextNode := by
                rcases (BuildGraph.connect_cases hconnect).2 with ⟨rfl, -⟩ | rfl <;> rfl
              constructor
              · intro u v huv
                rcases (BuildGraph.mem_children_connect hconnect).mp huv with huv | ⟨rfl, rfl⟩
                · exact hnext ▸ he.parent_lt u v huv
                · exact hnext ▸ ha
              · intro u v huv
                rcases (BuildGraph.mem_children_connect hconnect).mp huv with huv | ⟨rfl, rfl⟩
                · exact hnext ▸ he.child_lt u v huv
                · exact hnext ▸ hcg
            · rcases (BuildGraph.connect_cases hconnect).2 with ⟨rfl, -⟩ | rfl <;> exact ha
            · rcases (BuildGraph.connect_cases hconnect).2 with ⟨rfl, -⟩ | rfl <;> exact hrest

/-! ## Finding the recorded children -/

/-- Where the data can be rescued, each recorded child was found, and those that are not yet
children are to be connected. -/
theorem findRecordedChildren_spec {found : FoundChildren}
    (h : (cds.foldl (findRecordedChild g a) found).canRescue = true) :
    found.canRescue = true ∧ ∃ cs : List NodeId,
      List.Forall₂ (fun cd c => g.lookupArtifact cd.product cd.childFilePath = some c) cds cs ∧
      (cds.foldl (findRecordedChild g a) found).childrenToConnect =
        found.childrenToConnect ++ cs.filter fun c => c ∉ g.children a := by
  induction cds generalizing found with
  | nil => exact ⟨h, [], .nil, by simp⟩
  | cons cd cds ih =>
      rw [List.foldl_cons] at h ⊢
      rcases ih h with ⟨hstep, cs, hcs, hconnect⟩
      rw [hconnect]
      unfold findRecordedChild at hstep ⊢
      cases hlookup : g.lookupArtifact cd.product cd.childFilePath with
      | none => simp [hlookup] at hstep
      | some c =>
          simp only [hlookup] at hstep ⊢
          by_cases hc : c ∈ g.children a
          · rw [if_pos hc] at hstep ⊢
            exact ⟨hstep, c :: cs, .cons hlookup hcs, by simp [hc]⟩
          · rw [if_neg hc] at hstep ⊢
            split at hstep
            · simp at hstep
            · next hscanner =>
                split at hstep
                · next hrescue =>
                    rw [if_neg hscanner, if_pos hrescue]
                    exact ⟨hrescue, c :: cs, .cons hlookup hcs, by simp [hc]⟩
                · next hrescue => exact absurd hstep hrescue

/-- The entries of the lookup table are artifacts that were created, with the path under which
they are listed. -/
structure LookupTableSound (g : BuildGraph) : Prop where
  isArtifact : ∀ f n, .artifact n ∈ g.lookupTable f → g.isArtifact n = true
  filePath : ∀ f n, .artifact n ∈ g.lookupTable f → (g.artifact n).filePath = f
  allocated : ∀ f n, .artifact n ∈ g.lookupTable f → n < g.nextNode

/-- The product and the path of a child. -/
def childKey (g : BuildGraph) (c : NodeId) : ProductId × FilePath :=
  (g.productOf c, (g.artifact c).filePath)

/-- The product and the path of a recorded child. -/
def recordedKey (cd : ChildData) : ProductId × FilePath :=
  (cd.product, cd.childFilePath)

/-- The artifacts found have the recorded products and paths. -/
theorem map_childKey_found (hl : LookupTableSound g)
    (h : List.Forall₂ (fun cd c => g.lookupArtifact cd.product cd.childFilePath = some c) cds cs) :
    cs.map (childKey g) = cds.map recordedKey := by
  induction h with
  | nil => rfl
  | cons hlookup _ ih =>
      rcases BuildGraph.lookupArtifact_eq_some hlookup with ⟨hmem, hproduct⟩
      rw [List.map_cons, List.map_cons, ih, childKey, hproduct, hl.filePath _ _ hmem]
      rfl

theorem found_isArtifact (hl : LookupTableSound g)
    (h : List.Forall₂ (fun cd c => g.lookupArtifact cd.product cd.childFilePath = some c) cds cs) :
    ∀ c, c ∈ cs → g.isArtifact c = true ∧ c < g.nextNode := by
  induction h with
  | nil => simp
  | cons hlookup _ ih =>
      intro c hc
      rcases List.mem_cons.mp hc with rfl | hc
      · have hmem := (BuildGraph.lookupArtifact_eq_some hlookup).1
        exact ⟨hl.isArtifact _ _ hmem, hl.allocated _ _ hmem⟩
      · exact ih c hc

/-! ## Outcomes -/

/-- The check of the number of children. -/
def childCountCheck : ErrorInfo :=
  .check "newChildCount >= rad.children.size()"

theorem safeConnect_error_ne {u v : NodeId} {e : ErrorInfo} (h : g.safeConnect u v = .error e) :
    e ≠ childCountCheck := by
  have hcheck : ∀ {cond : Bool} {text : String} {e : ErrorInfo},
      qbsCheck cond text = .error e → e = .check text := by
    intro cond text e h
    unfold qbsCheck at h
    split at h
    · cases h
    · exact (Except.error.inj h).symm
  have hfind : ∀ {l : List NodeId} {e : ErrorInfo}, g.findChildArtifact v l = .error e →
      ∃ text, e = .message text := by
    intro l e h
    induction l with
    | nil => cases h
    | cons c l ih =>
        unfold BuildGraph.findChildArtifact at h
        split at h
        · cases h
        · split at h
          · exact ⟨_, (Except.error.inj h).symm⟩
          · exact ih h
  unfold BuildGraph.safeConnect at h
  rcases Fallible.bind_eq_error_iff.mp h with h | ⟨_, -, h⟩
  · rw [hcheck h]
    decide
  · split at h
    · cases h
    · rcases Fallible.bind_eq_error_iff.mp h with h | ⟨_, -, h⟩
      · unfold BuildGraph.connect at h
        rcases Fallible.bind_eq_error_iff.mp h with h | ⟨_, -, h⟩
        · rw [hcheck h]
          decide
        · rcases Fallible.bind_eq_error_iff.mp h with h | ⟨_, -, h⟩
          · unfold BuildGraph.findChild at h
            split at h
            · rcases hfind h with ⟨text, rfl⟩
              exact fun h => ErrorInfo.noConfusion h
            · cases h
          · cases h
      · cases h

theorem connectRescuedChildren_error_ne (children : List NodeId) (g : BuildGraph) (a : NodeId) :
    (connectRescuedChildren g a children).2 ≠ some childCountCheck := by
  induction children generalizing g with
  | nil => simp [connectRescuedChildren]
  | cons c children ih =>
      unfold connectRescuedChildren
      cases hsafe : g.safeConnect a c with
      | error e => simpa using safeConnect_error_ne hsafe
      | ok result =>
          rcases result with ⟨g₁, connected⟩
          cases connected
          · exact ih _
          · exact ih _

/-- The data of an artifact was restored from its recorded data. -/
structure Restored (env : BuildEnvironment) (g : BuildGraph) (a : NodeId) (t : TransformerId)
    (rad : RescuableArtifactData) (out : RescueOutcome) : Prop where
  commands : env.sameCommands (g.transformer t).commands rad.commands = true
  timestamp : (out.graph.artifact a).timestamp = rad.timeStamp
  children_recorded : ∀ c, c ∈ out.graph.childArtifacts a →
    ∃ cd, cd ∈ rad.children ∧ childKey out.graph c = recordedKey cd
  recorded_children : out.error = none → ∀ cd, cd ∈ rad.children →
    ∃ c, childKey out.graph c = recordedKey cd ∧
      (c ∈ out.graph.childArtifacts a ∨ Relation.ReflTransGen out.graph.IsChild c a)
  fileDependencies : ∀ f, f ∈ rad.fileDependencies →
    f ∈ (out.graph.artifact a).fileDependencies ∧ isFileDependency out.graph f = true
  markedForRerun : rad.knownOutOfDate = true → (out.graph.transformer t).markedForRerun = true
  error : out.error ≠ some childCountCheck

/-- The data of an artifact was not restored; its file is to be removed. -/
structure NotRestored (g : BuildGraph) (a : NodeId) (out : RescueOutcome) : Prop where
  timestamp : (out.graph.artifact a).timestamp = (g.artifact a).timestamp
  alwaysUpdated : (out.graph.artifact a).alwaysUpdated = (g.artifact a).alwaysUpdated
  filePath : (out.graph.artifact a).filePath = (g.artifact a).filePath
  transformer : out.graph.transformer = g.transformer
  removed : (g.artifact a).filePath ∈ out.filesToRemove
  error : out.error = none

/-! ## Restoring -/

/-- The graph in which the rescued children are connected. -/
def restoredGraph (g : BuildGraph) (a : NodeId) (rad : RescuableArtifactData) : BuildGraph :=
  (g.modifyTransformerOf a (restoreRecords rad)).setTimestamp a rad.timeStamp

theorem artifact_restoredGraph (g : BuildGraph) (a n : NodeId) (rad : RescuableArtifactData) :
    (restoredGraph g a rad).artifact n = { g.artifact n with
      timestamp := if n = a then rad.timeStamp else (g.artifact n).timestamp } := by
  simp only [restoredGraph, BuildGraph.setTimestamp, BuildGraph.modifyArtifact,
    BuildGraph.setArtifact, BuildGraph.modifyTransformerOf]
  by_cases hn : n = a
  · subst hn
    simp
  · simp [hn]

/-- The data of an artifact is restored if its recorded children were all found and are as many
as its children will be. -/
theorem restored_of_connected {env : BuildEnvironment} {g g' : BuildGraph} {a : NodeId} {t : TransformerId}
    {rad : RescuableArtifactData} {cs : List NodeId} {error : Option ErrorInfo} (added : Bool)
    (hl : LookupTableSound g) (ht : (g.artifact a).transformer = some t)
    (hcommands : env.sameCommands (g.transformer t).commands rad.commands = true)
    (hfound : List.Forall₂ (fun cd c => g.lookupArtifact cd.product cd.childFilePath = some c)
      rad.children cs)
    (hall : ∀ c, c ∈ g.childArtifacts a → c ∈ cs)
    (hdeps : ∀ f, f ∈ rad.fileDependencies →
      f ∈ (g.artifact a).fileDependencies ∧ isFileDependency g f = true)
    (herror : error ≠ some childCountCheck)
    (h : ChildrenConnected (restoredGraph g a rad) a (cs.filter fun c => c ∉ g.children a) g'
      error) :
    Restored env g a t rad ⟨g', added, [], error⟩ := by
  have hkeys := map_childKey_found hl hfound
  have hartifacts := found_isArtifact hl hfound
  have hartifact : ∀ n, ∃ scanner, g'.artifact n = { g.artifact n with
      timestamp := if n = a then rad.timeStamp else (g.artifact n).timestamp
      childrenAddedByScanner := scanner } := by
    intro n
    rcases h.artifact n with ⟨scanner, hn⟩
    exact ⟨scanner, by rw [hn, artifact_restoredGraph]⟩
  have hkey : ∀ c, childKey g' c = childKey g c := by
    intro c
    rcases hartifact c with ⟨scanner, hc⟩
    rw [childKey, childKey, hc, h.productOf]
    rfl
  have hchild : ∀ c, c ∈ g'.childArtifacts a ↔ c ∈ g'.children a ∧ g.isArtifact c = true := by
    intro c
    rw [BuildGraph.childArtifacts, BuildGraph.mem_filterArtifacts, BuildGraph.isArtifact,
      h.nodeType]
    rfl
  refine ⟨hcommands, ?_, ?_, ?_, ?_, ?_, herror⟩
  · rcases hartifact a with ⟨scanner, hEq⟩
    simp only [hEq, if_true]
  · intro c hc
    have hcs : c ∈ cs := by
      rcases h.added a c ((hchild c).mp hc).1 with hold | ⟨-, hnew⟩
      · exact hall c ((BuildGraph.mem_filterArtifacts g).mpr ⟨hold, ((hchild c).mp hc).2⟩)
      · exact (List.mem_filter.mp hnew).1
    have hmem : childKey g c ∈ rad.children.map recordedKey := by
      rw [← hkeys]
      exact List.mem_map_of_mem hcs
    rcases List.mem_map.mp hmem with ⟨cd, hcd, hEq⟩
    exact ⟨cd, hcd, by rw [hkey, hEq]⟩
  · intro herr cd hcd
    have hmem : recordedKey cd ∈ cs.map (childKey g) := by
      rw [hkeys]
      exact List.mem_map_of_mem hcd
    rcases List.mem_map.mp hmem with ⟨c, hc, hEq⟩
    refine ⟨c, by rw [hkey, hEq], ?_⟩
    by_cases hold : c ∈ g.children a
    · exact Or.inl ((hchild c).mpr ⟨h.kept a c hold, (hartifacts c hc).1⟩)
    · rcases h.connected herr c (List.mem_filter.mpr ⟨hc, by simpa using hold⟩) with hnew | hpath
      · exact Or.inl ((hchild c).mpr ⟨hnew, (hartifacts c hc).1⟩)
      · exact Or.inr hpath
  · intro f hf
    rcases hartifact a with ⟨scanner, hEq⟩
    rw [hEq, isFileDependency, h.lookupTable]
    exact hdeps f hf
  · intro hknown
    rw [h.transformer]
    simp [restoredGraph, BuildGraph.setTimestamp, BuildGraph.modifyArtifact,
      BuildGraph.setArtifact, BuildGraph.modifyTransformerOf, ht, restoreRecords, hknown]

/-- The children of an artifact were all recorded if they are no more than the recorded ones. -/
theorem mem_found_of_count {g : BuildGraph} {a : NodeId} {cds : List ChildData} {cs : List NodeId}
    (hl : LookupTableSound g)
    (hfound : List.Forall₂ (fun cd c => g.lookupArtifact cd.product cd.childFilePath = some c)
      cds cs)
    (hdistinct : (cds.map recordedKey).Nodup) :
    cds.length ≤ (cs.filter fun c => c ∉ g.children a).length + (g.childArtifacts a).size ∧
      ((cs.filter fun c => c ∉ g.children a).length + (g.childArtifacts a).size ≤ cds.length →
        ∀ c, c ∈ g.childArtifacts a → c ∈ cs) := by
  have hnodup : cs.Nodup := by
    apply List.Nodup.of_map (childKey g)
    rwa [map_childKey_found hl hfound]
  have hfilter : (cs.filter fun c => c ∉ g.children a) =
      cs.filter fun c => c ∉ g.childArtifacts a := by
    apply List.filter_congr
    intro c hc
    simp [BuildGraph.childArtifacts, (found_isArtifact hl hfound c hc).1]
  rw [hfilter, hfound.length_eq, Nat.add_comm]
  exact ⟨SortedSet.length_le_size_add_filter hnodup _,
    fun hcount c hc => SortedSet.mem_of_size_add_filter_le hnodup hcount hc⟩

theorem artifact_attachFileDependencies (g : BuildGraph) (a n : NodeId) (fs : List FilePath) :
    (attachFileDependencies g a fs).artifact n = { g.artifact n with
      fileDependencies := if n = a then (g.artifact n).fileDependencies.unite
        (SortedSet.ofList (fs.takeWhile (isFileDependency g))) else (g.artifact n).fileDependencies } := by
  simp only [attachFileDependencies, BuildGraph.modifyArtifact, BuildGraph.setArtifact]
  by_cases hn : n = a
  · subst hn
    simp
  · simp [hn]

theorem LookupTableSound.attachFileDependencies (h : LookupTableSound g) (a : NodeId)
    (fs : List FilePath) : LookupTableSound (attachFileDependencies g a fs) where
  isArtifact := h.isArtifact
  filePath f n hn := by
    rw [artifact_attachFileDependencies]
    exact h.filePath f n hn
  allocated := h.allocated

theorem notRestored_notRescued {g' : BuildGraph} (fs removed : List FilePath)
    (hartifact : g'.artifact = g.artifact) (htransformer : g'.transformer = g.transformer) :
    NotRestored g a (notRescued (attachFileDependencies g' a fs) a removed) := by
  refine ⟨?_, ?_, ?_, htransformer, ?_, rfl⟩ <;>
    simp [notRescued, artifact_attachFileDependencies, hartifact]

/-- An attempt restores the data of an artifact or tries to remove its file. -/
theorem attemptRescue_spec {env : BuildEnvironment} {rad : RescuableArtifactData}
    (hl : LookupTableSound g) (he : g.EdgesAllocated) (ha : a < g.nextNode)
    (ht : (g.artifact a).transformer = some t) (hdistinct : (rad.children.map recordedKey).Nodup) :
    Restored env g a t rad (attemptRescue env g a rad) ∨
      NotRestored g a (attemptRescue env g a rad) := by
  unfold attemptRescue
  rw [show ((g.transformerOf a).getD default).commands = (g.transformer t).commands by
    simp [BuildGraph.transformerOf, ht]]
  split <;> rename_i hcommands
  · exact Or.inr ⟨rfl, rfl, rfl, rfl, by simp [notRescued], rfl⟩
  dsimp only
  set found := findRecordedChildren g a rad.children with hfoundDef
  set g₁ := g.removeFromRescuableArtifactData (g.productOf a) found.vanished with hg₁
  split <;> rename_i hrescue
  · rw [Bool.and_eq_true, List.all_eq_true] at hrescue
    rcases findRecordedChildren_spec hrescue.1 with ⟨-, cs, hcs, hconnect⟩
    have hconnect' : found.childrenToConnect = cs.filter fun c => c ∉ g.children a := hconnect
    have hcount := mem_found_of_count (a := a) hl hcs hdistinct
    rw [hconnect']
    rw [show (attachFileDependencies g₁ a rad.fileDependencies).childArtifacts a =
      g.childArtifacts a from rfl]
    rw [if_neg (not_lt.mpr hcount.1)]
    split <;> rename_i hmore
    · exact Or.inr (notRestored_notRescued _ _ rfl rfl)
    · left
      have hl₁ : LookupTableSound g₁ := ⟨hl.isArtifact, hl.filePath, hl.allocated⟩
      have hdeps : ∀ f, f ∈ rad.fileDependencies →
          f ∈ ((attachFileDependencies g₁ a rad.fileDependencies).artifact a).fileDependencies ∧
            isFileDependency (attachFileDependencies g₁ a rad.fileDependencies) f = true := by
        intro f hf
        refine ⟨?_, hrescue.2 f hf⟩
        have hknown : rad.fileDependencies.takeWhile (isFileDependency g₁) =
            rad.fileDependencies := List.takeWhile_eq_self_iff.mpr hrescue.2
        rw [artifact_attachFileDependencies]
        simp [hknown, hf]
      have hsame : env.sameCommands (g.transformer t).commands rad.commands = true := by
        simpa using hcommands
      have hrestored := restored_of_connected true
        (hl₁.attachFileDependencies a rad.fileDependencies)
        (by rw [artifact_attachFileDependencies]; exact ht)
        hsame hcs (hcount.2 (not_lt.mp hmore)) hdeps
        (connectRescuedChildren_error_ne _ _ _)
        (connectRescuedChildren_spec ⟨he.parent_lt, he.child_lt⟩ ha fun c hc =>
          (found_isArtifact hl hcs c (List.mem_filter.mp hc).1).2)
      exact ⟨hrestored.commands, hrestored.timestamp, hrestored.children_recorded,
        hrestored.recorded_children, hrestored.fileDependencies, hrestored.markedForRerun,
        hrestored.error⟩
  · exact Or.inr (notRestored_notRescued _ _ rfl rfl)

/-! ## Soundness -/

/-- An artifact that a rule has just created, in build data that is well-formed. -/
structure NewArtifact (g : BuildGraph) (a : NodeId) (t : TransformerId) : Prop where
  oldDataPossiblyPresent : (g.artifact a).oldDataPossiblyPresent = true
  generated : (g.artifact a).artifactType = .generated
  noTimestamp : (g.artifact a).timestamp = 0
  transformer : (g.artifact a).transformer = some t
  output : a ∈ (g.transformer t).outputs
  allocated : a < g.nextNode
  edgesAllocated : g.EdgesAllocated
  lookupTableSound : LookupTableSound g

/-- The data of an artifact was rescued from an old artifact. Recorded children from which the
artifact can be reached do not become children. -/
structure Rescued (env : BuildEnvironment) (g : BuildGraph) (a : NodeId) (t : TransformerId)
    (gOld : BuildGraph) (old : NodeId) (told : TransformerId) (info : ChildrenInfo)
    (out : RescueOutcome) : Prop where
  commands :
    env.sameCommands (g.transformer t).commands (gOld.transformer told).commands = true
  timestamp : (out.graph.artifact a).timestamp = (gOld.artifact old).timestamp
  children_recorded : ∀ c, c ∈ out.graph.childArtifacts a →
    ∃ o, o ∈ info.children ∧ childKey out.graph c = childKey gOld o
  recorded_children : out.error = none → ∀ o, o ∈ info.children →
    ∃ c, childKey out.graph c = childKey gOld o ∧
      (c ∈ out.graph.childArtifacts a ∨ Relation.ReflTransGen out.graph.IsChild c a)
  fileDependencies : (∃ o, o ∈ info.children) → ∀ f, f ∈ (gOld.artifact old).fileDependencies →
    f ∈ (out.graph.artifact a).fileDependencies ∧ isFileDependency out.graph f = true
  markedForRerun : (gOld.transformer told).markedForRerun = true →
    (out.graph.transformer t).markedForRerun = true

/-- The artifact has no timestamp, and its transformer has to run if it is always updated. Where
timestamps are taken from disk, this needs that the old file could be removed. -/
structure Outdated (env : BuildEnvironment) (canRemove : FilePath → Bool) (g : BuildGraph)
    (a : NodeId) (t : TransformerId) (out : RescueOutcome) : Prop where
  noTimestamp : (out.graph.artifact a).timestamp = 0
  mustExecute : (g.artifact a).alwaysUpdated = true →
    (env.options.forceTimestampCheck = true →
      canRemove (g.artifact a).filePath = true ∨ env.timestamp (g.artifact a).filePath = 0) →
    ∀ mustExecute g',
      mustExecuteTransformer (env.withoutFiles (out.filesToRemove.filter canRemove)) out.graph t =
        .ok (mustExecute, g') → mustExecute = true

theorem Restored.rescued {env : BuildEnvironment} {gOld : BuildGraph} {old : NodeId}
    {told : TransformerId} {info : ChildrenInfo} {out : RescueOutcome}
    (h : Restored env g a t (gOld.rescuableData old told info) out) :
    Rescued env g a t gOld old told info out where
  commands := h.commands
  timestamp := h.timestamp
  children_recorded c hc := by
    rcases h.children_recorded c hc with ⟨cd, hcd, hEq⟩
    rcases List.mem_map.mp hcd with ⟨o, ho, rfl⟩
    exact ⟨o, ho, hEq⟩
  recorded_children herr o ho :=
    h.recorded_children herr _ (List.mem_map_of_mem ho)
  fileDependencies hchild f hf := by
    rcases hchild with ⟨o, ho⟩
    exact h.fileDependencies f (List.mem_flatMap.mpr ⟨o, ho, hf⟩)
  markedForRerun := h.markedForRerun

theorem NotRestored.outdated {out : RescueOutcome} (env : BuildEnvironment)
    (canRemove : FilePath → Bool) (h : NotRestored g a out) (hnone : (g.artifact a).timestamp = 0)
    (ha : a ∈ (g.transformer t).outputs) : Outdated env canRemove g a t out where
  noTimestamp := h.timestamp.trans hnone
  mustExecute halways hgone mustExecute g' hmust := by
    have hmissing :
        Missing (env.withoutFiles (out.filesToRemove.filter canRemove)) out.graph a := by
      refine ⟨h.alwaysUpdated.trans halways, h.timestamp.trans hnone, fun hforce => ?_⟩
      rw [h.filePath]
      unfold BuildEnvironment.timestamp BuildEnvironment.withoutFiles
      dsimp only
      split <;> rename_i hremoved
      · rfl
      · rcases hgone hforce with hcan | hnoFile
        · exact absurd (List.mem_filter.mpr ⟨h.removed, hcan⟩) hremoved
        · exact hnoFile
    exact mustExecuteTransformer_of_noTimestamp hmissing (by rwa [h.transformer]) hmust

/-- For a new artifact with data recorded from an old one, the old timestamp is only restored
together with the commands, children and file dependencies; in every other case the artifact
stays without a timestamp. The number of children never falls short. -/
theorem rescueOldBuildData_sound (env : BuildEnvironment) (canRemove : FilePath → Bool)
    (g gOld : BuildGraph) (a old : NodeId) (t told : TransformerId) (info : ChildrenInfo)
    (hnew : NewArtifact g a t)
    (hrad : g.rescuableArtifactData? (g.productOf a) (g.artifact a).filePath =
      some (gOld.rescuableData old told info))
    (hdistinct : (info.children.elems.map (childKey gOld)).Nodup) :
    (rescueOldBuildData env g a).error ≠ some childCountCheck ∧
      (Rescued env g a t gOld old told info (rescueOldBuildData env g a) ∨
        Outdated env canRemove g a t (rescueOldBuildData env g a)) := by
  set g₁ := (g.modifyArtifact a fun d =>
    { d with oldDataPossiblyPresent := false }).removeFromRescuableArtifactData (g.productOf a)
      [(g.artifact a).filePath] with hg₁
  have hartifact : ∀ n, ∃ b, g₁.artifact n = { g.artifact n with oldDataPossiblyPresent := b } := by
    intro n
    by_cases hn : n = a
    · subst hn
      exact ⟨false, by simp [hg₁, BuildGraph.removeFromRescuableArtifactData,
        BuildGraph.modifyProductData, BuildGraph.modifyArtifact, BuildGraph.setArtifact]⟩
    · exact ⟨(g.artifact n).oldDataPossiblyPresent, by
        simp [hg₁, BuildGraph.removeFromRescuableArtifactData, BuildGraph.modifyProductData,
          BuildGraph.modifyArtifact, BuildGraph.setArtifact, hn]⟩
  have hout : rescueOldBuildData env g a =
      attemptRescue env g₁ a (gOld.rescuableData old told info) := by
    rcases hartifact a with ⟨b, hb⟩
    have hpath : ((g.modifyArtifact a fun d =>
        { d with oldDataPossiblyPresent := false }).artifact a) =
        { g.artifact a with oldDataPossiblyPresent := false } := by
      simp [BuildGraph.modifyArtifact, BuildGraph.setArtifact]
    unfold rescueOldBuildData
    rw [hnew.oldDataPossiblyPresent]
    simp only [Bool.not_true, Bool.false_eq_true, if_false, hpath, hnew.generated, ne_eq,
      not_true_eq_false]
    rw [show (g.modifyArtifact a fun d =>
      { d with oldDataPossiblyPresent := false }).rescuableArtifactData? = g.rescuableArtifactData?
      from rfl]
    rw [show (g.modifyArtifact a fun d =>
      { d with oldDataPossiblyPresent := false }).productOf = g.productOf from rfl, hrad]
  rcases hartifact a with ⟨b, hb⟩
  have hl₁ : LookupTableSound g₁ := by
    refine ⟨hnew.lookupTableSound.isArtifact, ?_, hnew.lookupTableSound.allocated⟩
    intro f n hn
    rcases hartifact n with ⟨_, hEq⟩
    rw [hEq]
    exact hnew.lookupTableSound.filePath f n hn
  have hkeys : ((gOld.rescuableData old told info).children.map recordedKey).Nodup := by
    rw [BuildGraph.rescuableData, List.map_map]
    exact hdistinct
  rw [hout]
  rcases attemptRescue_spec hl₁ ⟨hnew.edgesAllocated.parent_lt, hnew.edgesAllocated.child_lt⟩
    hnew.allocated (by rw [hb]; exact hnew.transformer) hkeys with hrestored | hnot
  · exact ⟨hrestored.error, Or.inl ⟨hrestored.rescued.commands, hrestored.rescued.timestamp,
      hrestored.rescued.children_recorded, hrestored.rescued.recorded_children,
      hrestored.rescued.fileDependencies, hrestored.rescued.markedForRerun⟩⟩
  · refine ⟨by rw [hnot.error]; simp, Or.inr ?_⟩
    have houtdated := hnot.outdated (t := t) env canRemove (by rw [hb]; exact hnew.noTimestamp)
      hnew.output
    refine ⟨houtdated.noTimestamp, ?_⟩
    have hmust := houtdated.mustExecute
    rw [hb] at hmust
    exact hmust

/-! ## A header that is generated the other way round -/

/-- A generated file with a source file, and a generated header. The nodes 0 and 1 are the file
and the header, which have the transformers 0 and 1, and node 2 is the source file. -/
def fileAndHeader (timestamp : FileTime) (children : NodeId → NodeSet) : BuildGraph :=
  { BuildGraph.empty with
    productOf := fun _ => "p"
    artifact := fun n =>
      if n = 0 then { Artifact.create .generated "/b/a" with
        timestamp := timestamp, alwaysUpdated := true, transformer := some 0 }
      else if n = 1 then { Artifact.create .generated "/b/h" with transformer := some 1 }
      else Artifact.create .sourceFile "/s/s"
    transformer := fun t =>
      if t = 0 then { Transformer.create 0 with inputs := {2}, outputs := {0} }
      else { Transformer.create 1 with outputs := {1} }
    lookupTable := fun f => if f = "/b/a" then [.artifact 0] else if f = "/b/h" then [.artifact 1]
      else if f = "/s/s" then [.artifact 2] else []
    nextNode := 3 }.withChildren children

/-- In the earlier build, the scanner found that the file includes the header. -/
def earlierChildren : ChildrenInfo :=
  ⟨SortedSet.ofList [1, 2], {1}⟩

/-- The build graph of the earlier build. -/
def earlierGraph : BuildGraph :=
  fileAndHeader 5 fun n => if n = 0 then SortedSet.ofList [1, 2] else ∅

/-- The build graph of the later build, with the data recorded in between. -/
def laterGraph (children : NodeId → NodeSet) : BuildGraph :=
  { fileAndHeader 0 children with
    productData := fun q => if q = "p" then some { (default : ProductBuildData) with
      rescuableArtifactData :=
        AList.insert "/b/a" (earlierGraph.rescuableData 0 0 earlierChildren) ∅ } else none }

theorem newArtifact_laterGraph {children : NodeId → NodeSet}
    (hchildren : ∀ u v, v ∈ children u → v < 3) : NewArtifact (laterGraph children) 0 0 where
  oldDataPossiblyPresent := rfl
  generated := rfl
  noTimestamp := rfl
  transformer := rfl
  output := SortedSet.mem_insert_self _ _
  allocated := (by decide : 0 < 3)
  edgesAllocated := by
    constructor <;> intro u v hv
    · simp only [laterGraph, fileAndHeader, BuildGraph.withChildren] at hv ⊢
      split at hv
      · assumption
      · simp at hv
    · simp only [laterGraph, fileAndHeader, BuildGraph.withChildren] at hv ⊢
      split at hv
      · exact hchildren u v hv
      · simp at hv
  lookupTableSound := by
    constructor
    · intro f n _
      rfl
    · intro f n hn
      simp only [laterGraph, fileAndHeader, BuildGraph.withChildren] at hn ⊢
      split_ifs at hn <;> simp_all [Artifact.create]
    · intro f n hn
      simp only [laterGraph, fileAndHeader, BuildGraph.withChildren] at hn ⊢
      split_ifs at hn <;> simp_all

/-- An environment without any files. -/
def noFiles : BuildEnvironment where
  project := ⟨"top", [], fun _ => none, fun _ => default, List.Pairwise.nil⟩
  productsToBuild := []
  options := ⟨∅, [], false, false, false, 1⟩
  lastModified _ := none
  sameVariant v v' := v = v'
  sameCommands l l' := l = l'

/-- The header is now generated from the file. The timestamp of the file is restored, but the
header does not become its child again. -/
theorem recordedChild_not_connected :
    let g := laterGraph fun n => if n = 0 then {2} else if n = 1 then {0} else ∅
    NewArtifact g 0 0 ∧
      g.rescuableArtifactData? "p" "/b/a" =
        some (earlierGraph.rescuableData 0 0 earlierChildren) ∧
      (earlierChildren.children.elems.map (childKey earlierGraph)).Nodup ∧
      ((rescueOldBuildData noFiles g 0).graph.artifact 0).timestamp = 5 ∧
      ¬∀ o, o ∈ earlierChildren.children →
        ∃ c, c ∈ (rescueOldBuildData noFiles g 0).graph.childArtifacts 0 ∧
          childKey (rescueOldBuildData noFiles g 0).graph c = childKey earlierGraph o := by
  refine ⟨newArtifact_laterGraph ?_, rfl, by decide, by decide, ?_⟩
  · intro u v hv
    split_ifs at hv <;> simp_all
  · intro h
    rcases h 1 (by decide) with ⟨c, hc, hkey⟩
    have honly : c = 2 := by
      have hchildren : (rescueOldBuildData noFiles (laterGraph fun n => if n = 0 then {2}
        else if n = 1 then {0} else ∅) 0).graph.childArtifacts 0 = {2} := by decide
      rw [hchildren] at hc
      simpa using hc
    subst honly
    revert hkey
    decide

/-- The same rescue where the header is generated from nothing. -/
theorem rescueOldBuildData_sound_header :
    let g := laterGraph fun n => if n = 0 then {2} else ∅
    (rescueOldBuildData noFiles g 0).error ≠ some childCountCheck ∧
      (Rescued noFiles g 0 0 earlierGraph 0 0 earlierChildren (rescueOldBuildData noFiles g 0) ∨
        Outdated noFiles (fun _ => true) g 0 0 (rescueOldBuildData noFiles g 0)) := by
  refine rescueOldBuildData_sound noFiles _ _ earlierGraph 0 0 0 0 earlierChildren
    (newArtifact_laterGraph ?_) rfl (by decide)
  intro u v hv
  split_ifs at hv <;> simp_all

end Executor

end Qbs
