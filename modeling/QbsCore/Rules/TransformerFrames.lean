import QbsCore.Rules.RuleNode
import QbsCore.Executor.Rescue

/-!
# What becomes of the transformers in a build

The executor works with transformers while rules are applied, old data is rescued and
edges come and go.  A transformer that exists keeps its commands and gets no further
outputs.

Main results:

- Structure {lit}`BuildGraph.KeepsTransformers`: operations that leave the transformers
  alone.
- Theorem {lit}`Executor.rescueOldBuildData_keeps` and its companions: the operations of
  the executor are such operations.

Current gaps:

- None.
-/

namespace Qbs

namespace BuildGraph

theorem transformer_modifyTransformer_self (g : BuildGraph) (t : TransformerId)
    (f : Transformer → Transformer) :
    (g.modifyTransformer t f).transformer t = f (g.transformer t) :=
  Function.update_self _ _ _

theorem transformer_modifyTransformer_of_ne (g : BuildGraph) {t u : TransformerId} (h : u ≠ t)
    (f : Transformer → Transformer) :
    (g.modifyTransformer t f).transformer u = g.transformer u :=
  Function.update_of_ne h _ _

/-! ## Operations that leave the transformers alone -/

/-- No transformer gets other commands or a further output, no artifact gets another transformer,
and nothing moves to another product. -/
structure KeepsTransformers (g g' : BuildGraph) : Prop where
  productOf : g'.productOf = g.productOf
  nextNode : g'.nextNode = g.nextNode
  nextTransformer : g'.nextTransformer = g.nextTransformer
  owner : ∀ a t, (g'.artifact a).transformer = some t → (g.artifact a).transformer = some t
  commands : ∀ t, (g'.transformer t).commands = (g.transformer t).commands
  outputs : ∀ t a, a ∈ (g'.transformer t).outputs → a ∈ (g.transformer t).outputs
  lookupTable : ∀ f a, .artifact a ∈ g'.lookupTable f → .artifact a ∈ g.lookupTable f

namespace KeepsTransformers

variable {g g' g'' : BuildGraph}

theorem refl (g : BuildGraph) : KeepsTransformers g g :=
  ⟨rfl, rfl, rfl, fun _ _ h => h, fun _ => rfl, fun _ _ h => h, fun _ _ h => h⟩

theorem trans (h : KeepsTransformers g g') (h' : KeepsTransformers g' g'') :
    KeepsTransformers g g'' where
  productOf := h'.productOf.trans h.productOf
  nextNode := h'.nextNode.trans h.nextNode
  nextTransformer := h'.nextTransformer.trans h.nextTransformer
  owner a t ht := h.owner a t (h'.owner a t ht)
  commands t := (h'.commands t).trans (h.commands t)
  outputs t a ha := h.outputs t a (h'.outputs t a ha)
  lookupTable f a ha := h.lookupTable f a (h'.lookupTable f a ha)

/-- A loop whose iterations leave the transformers alone does so. -/
theorem foldl {ι : Type} {f : BuildGraph → ι → BuildGraph}
    (hf : ∀ g i, KeepsTransformers g (f g i)) (l : List ι) (g : BuildGraph) :
    KeepsTransformers g (l.foldl f g) := by
  induction l generalizing g with
  | nil => exact refl g
  | cons i l ih => exact (hf g i).trans (ih (f g i))

theorem foldlM {ι : Type} {f : BuildGraph → ι → Except ErrorInfo BuildGraph}
    (hf : ∀ g i g', f g i = .ok g' → KeepsTransformers g g') {l : List ι}
    (h : l.foldlM f g = .ok g') : KeepsTransformers g g' :=
  Fallible.foldlM_invariant (fun _ i _ _ hkeeps hok => hkeeps.trans (hf _ i _ hok)) (refl g) h

/-- An operation on other parts of the build data. -/
theorem of_eq (hproductOf : g'.productOf = g.productOf) (hartifact : g'.artifact = g.artifact)
    (htransformer : g'.transformer = g.transformer) (hnextNode : g'.nextNode = g.nextNode)
    (hnextTransformer : g'.nextTransformer = g.nextTransformer)
    (hlookupTable : g'.lookupTable = g.lookupTable) : KeepsTransformers g g' where
  productOf := hproductOf
  nextNode := hnextNode
  nextTransformer := hnextTransformer
  owner a t ht := by rwa [hartifact] at ht
  commands t := by rw [htransformer]
  outputs t a ha := by rwa [htransformer] at ha
  lookupTable f a ha := by rwa [hlookupTable] at ha

theorem modifyArtifact (g : BuildGraph) (n : NodeId) {f : Artifact → Artifact}
    (hf : ∀ d, (f d).transformer = d.transformer) :
    KeepsTransformers g (g.modifyArtifact n f) where
  productOf := rfl
  nextNode := rfl
  nextTransformer := rfl
  owner a t ht := by
    by_cases han : a = n
    · simpa [BuildGraph.modifyArtifact, setArtifact, han, hf] using ht
    · simpa [BuildGraph.modifyArtifact, setArtifact, han] using ht
  commands _ := rfl
  outputs _ _ ha := ha
  lookupTable _ _ ha := ha

variable {a u v : NodeId} {f : Transformer → Transformer}

/-- A change of some transformers that concerns neither commands nor outputs. -/
theorem of_transformers {p : TransformerId → Prop} [DecidablePred p]
    (hcommands : ∀ d, (f d).commands = d.commands)
    (houtputs : ∀ d a, a ∈ (f d).outputs → a ∈ d.outputs)
    (htransformer : ∀ t, g'.transformer t = if p t then f (g.transformer t) else g.transformer t)
    (hproductOf : g'.productOf = g.productOf) (hartifact : g'.artifact = g.artifact)
    (hnextNode : g'.nextNode = g.nextNode)
    (hnextTransformer : g'.nextTransformer = g.nextTransformer)
    (hlookupTable : g'.lookupTable = g.lookupTable) : KeepsTransformers g g' where
  productOf := hproductOf
  nextNode := hnextNode
  nextTransformer := hnextTransformer
  owner a t ht := by rwa [hartifact] at ht
  commands t := by
    rw [htransformer]
    split_ifs
    · exact hcommands _
    · rfl
  outputs t a ha := by
    rw [htransformer] at ha
    split_ifs at ha
    · exact houtputs _ a ha
    · exact ha
  lookupTable f a ha := by rwa [hlookupTable] at ha

theorem modifyTransformer (g : BuildGraph) (t : TransformerId)
    (hcommands : ∀ d, (f d).commands = d.commands)
    (houtputs : ∀ d a, a ∈ (f d).outputs → a ∈ d.outputs) :
    KeepsTransformers g (g.modifyTransformer t f) := by
  refine of_transformers (p := fun u => u = t) hcommands houtputs ?_ rfl rfl rfl rfl rfl
  intro u
  by_cases hu : u = t
  · simp [BuildGraph.modifyTransformer, hu]
  · simp [BuildGraph.modifyTransformer, hu]

theorem modifyTransformerOf (g : BuildGraph) (n : NodeId)
    (hcommands : ∀ d, (f d).commands = d.commands)
    (houtputs : ∀ d a, a ∈ (f d).outputs → a ∈ d.outputs) :
    KeepsTransformers g (g.modifyTransformerOf n f) :=
  of_transformers (p := fun u => (g.artifact n).transformer = some u) hcommands houtputs
    (fun _ => rfl) rfl rfl rfl rfl rfl

theorem setTimestamp (g : BuildGraph) (n : NodeId) (time : FileTime) :
    KeepsTransformers g (g.setTimestamp n time) :=
  modifyArtifact g n fun _ => rfl

/-! ### Edges -/

theorem connect (h : g.connect u v = .ok g') : KeepsTransformers g g' := by
  rcases (connect_cases h).2 with ⟨rfl, -⟩ | rfl
  · exact refl g'
  · exact of_eq rfl rfl rfl rfl rfl rfl

theorem safeConnect {connected : Bool} (h : g.safeConnect u v = .ok (g', connected)) :
    KeepsTransformers g g' := by
  rcases (safeConnect_cases h).2 with ⟨-, rfl, -⟩ | ⟨-, hconnect, -⟩
  · exact refl g'
  · exact connect hconnect

theorem disconnect (g : BuildGraph) (u v : NodeId) : KeepsTransformers g (g.disconnect u v) := by
  have hremove : KeepsTransformers g (g.removeEdge u v) := of_eq rfl rfl rfl rfl rfl rfl
  unfold BuildGraph.disconnect
  split_ifs
  · exact hremove.trans (modifyArtifact _ u fun _ => rfl)
  · exact hremove

theorem connectAll {vs : List NodeId} (h : RulesApplicator.connectAll g u vs = .ok g') :
    KeepsTransformers g g' :=
  foldlM (fun _ _ _ hconnect => connect hconnect) h

theorem connectAllTo {us : List NodeId} (h : RulesApplicator.connectAllTo g us v = .ok g') :
    KeepsTransformers g g' :=
  foldlM (fun _ _ _ hconnect => connect hconnect) h

/-! ### Data of artifacts -/

theorem addFileTag (g : BuildGraph) (product : ResolvedProduct) (a : NodeId) (t : FileTag) :
    KeepsTransformers g (g.addFileTag product a t) := by
  have hartifact := modifyArtifact g a (f := fun d => { d with fileTags := insert t d.fileTags })
    fun _ => rfl
  exact hartifact.trans (of_eq rfl rfl rfl rfl rfl rfl)

theorem removeFileTag (g : BuildGraph) (product : ResolvedProduct) (a : NodeId) (t : FileTag) :
    KeepsTransformers g (g.removeFileTag product a t) := by
  have hartifact := modifyArtifact g a (f := fun d => { d with fileTags := d.fileTags.remove t })
    fun _ => rfl
  exact hartifact.trans (of_eq rfl rfl rfl rfl rfl rfl)

theorem setFileTags (g : BuildGraph) (product : ResolvedProduct) (a : NodeId) (tags : FileTags) :
    KeepsTransformers g (g.setFileTags product a tags) :=
  (foldl (fun g t => addFileTag g product a t) _ g).trans
    (foldl (fun g t => removeFileTag g product a t) _ _)

theorem provideFullFileTagsAndProperties (g : BuildGraph) (product : ResolvedProduct)
    (a : NodeId) : KeepsTransformers g (g.provideFullFileTagsAndProperties product a) := by
  have htags := (modifyArtifact g a (f := fun d =>
    { d with properties := (product.fullFileTagsAndProperties (g.artifact a)).2 })
    fun _ => rfl).trans
      (setFileTags _ product a (product.fullFileTagsAndProperties (g.artifact a)).1)
  simp only [BuildGraph.provideFullFileTagsAndProperties]
  split_ifs
  · exact htags.trans (addFileTag _ product a _)
  · exact htags

theorem setPropertyValues (g : BuildGraph) (a : NodeId) (values : List (List String × Variant)) :
    KeepsTransformers g (g.setPropertyValues a values) :=
  modifyArtifact g a fun _ => rfl

/-! ### Removal -/

theorem cutParents (g : BuildGraph) (a : NodeId) : KeepsTransformers g (g.cutParents a) where
  productOf := rfl
  nextNode := rfl
  nextTransformer := rfl
  owner b t ht := by
    simp only [BuildGraph.cutParents] at ht
    split_ifs at ht <;> exact ht
  commands t := by
    simp only [BuildGraph.cutParents]
    split_ifs <;> rfl
  outputs t b hb := by
    simp only [BuildGraph.cutParents] at hb
    split_ifs at hb <;> exact hb
  lookupTable _ _ h := h

theorem disconnectArtifactChildren (g : BuildGraph) (a : NodeId) :
    KeepsTransformers g (g.disconnectArtifactChildren a) := by
  have hkeeps := modifyArtifact g a (f := fun d => { d with childrenAddedByScanner := ∅ })
    fun _ => rfl
  exact hkeeps.trans (of_eq rfl rfl rfl rfl rfl rfl)

theorem disconnectArtifact (h : g.disconnectArtifact a = .ok g') :
    KeepsTransformers g g' := by
  simp only [BuildGraph.disconnectArtifact, disconnectArtifactParents, Fallible.bind_eq_ok_iff,
    Fallible.pure_eq_ok_iff] at h
  rcases h with ⟨-, -, rfl⟩
  exact (disconnectArtifactChildren g a).trans (cutParents _ a)

theorem removeFromLookupTable (g : BuildGraph) (a : NodeId) :
    KeepsTransformers g (g.removeFromLookupTable a) where
  productOf := rfl
  nextNode := rfl
  nextTransformer := rfl
  owner _ _ h := h
  commands _ := rfl
  outputs _ _ h := h
  lookupTable f b hb := by
    simp only [BuildGraph.removeFromLookupTable] at hb
    by_cases hf : f = (g.artifact a).filePath
    · rw [hf, Function.update_self] at hb
      rw [hf]
      exact List.mem_of_mem_erase hb
    · rwa [Function.update_of_ne hf] at hb

theorem removeArtifact {removeFromProduct : Bool}
    (h : g.removeArtifact a removeFromProduct = .ok g') : KeepsTransformers g g' := by
  simp only [BuildGraph.removeArtifact, Fallible.bind_eq_ok_iff, Fallible.pure_eq_ok_iff] at h
  rcases h with ⟨g₁, hdisconnect, rfl⟩
  have hrules : KeepsTransformers (g.removeFromLookupTable a)
      ((g.removeFromLookupTable a).removeFromRuleNodes a) := of_eq rfl rfl rfl rfl rfl rfl
  have hcut := ((removeFromLookupTable g a).trans hrules).trans (disconnectArtifact hdisconnect)
  have hmodify := hcut.trans (modifyTransformerOf g₁ a
    (f := fun t => { t with outputs := t.outputs.remove a }) (fun _ => rfl)
    fun _ b hb => (SortedSet.mem_remove.mp hb).1)
  refine hmodify.trans ?_
  split_ifs
  · exact of_eq rfl rfl rfl rfl rfl rfl
  · exact of_eq rfl rfl rfl rfl rfl rfl

theorem detachFromParent (g : BuildGraph) (parent a : NodeId) :
    KeepsTransformers g (g.detachFromParent parent a) := by
  simp only [BuildGraph.detachFromParent]
  split_ifs
  · exact disconnect g parent a
  · exact (disconnect g parent a).trans
      (modifyTransformerOf _ parent (fun _ => rfl) fun _ _ h => h)

theorem detachFromParents {remove : NodeId → BuildGraph × ArtifactSet →
      Except ErrorInfo (BuildGraph × ArtifactSet)}
    (hremove : ∀ n s s', remove n s = .ok s' → KeepsTransformers s.1 s'.1) {a : NodeId}
    {parents : List NodeId} {s s' : BuildGraph × ArtifactSet}
    (h : BuildGraph.detachFromParents remove a parents s = .ok s') :
    KeepsTransformers s.1 s'.1 := by
  induction parents generalizing s with
  | nil =>
      cases h
      exact refl _
  | cons parent parents ih =>
      have hdetach := detachFromParent s.1 parent a
      simp only [BuildGraph.detachFromParents] at h
      split_ifs at h
      · rcases Fallible.bind_eq_ok_iff.mp h with ⟨s₁, hrec, hrest⟩
        exact (hdetach.trans (hremove parent _ s₁ hrec)).trans (ih hrest)
      · exact (hdetach.trans (setTimestamp _ parent 0)).trans (ih h)

theorem removeDependents {fuel : Nat} {s s' : BuildGraph × ArtifactSet}
    (h : BuildGraph.removeDependents fuel a s = .ok s') : KeepsTransformers s.1 s'.1 := by
  induction fuel generalizing a s s' with
  | zero => cases h
  | succ fuel ih =>
      simp only [BuildGraph.removeDependents, Fallible.bind_eq_ok_iff,
        Fallible.pure_eq_ok_iff] at h
      rcases h with ⟨s₁, hdetach, g₁, hremove, rfl⟩
      exact (detachFromParents (fun _ _ _ hrec => ih hrec) hdetach).trans (removeArtifact hremove)

theorem deleteArtifacts (g : BuildGraph) (removed : ArtifactSet) :
    KeepsTransformers g (g.deleteArtifacts removed) where
  productOf := rfl
  nextNode := rfl
  nextTransformer := rfl
  owner b t ht := by
    simp only [BuildGraph.deleteArtifacts] at ht
    split_ifs at ht
    · cases ht
    · exact ht
  commands _ := rfl
  outputs _ _ h := h
  lookupTable _ _ h := h

/-! ### Change tracking -/

theorem commandsNeedRerun (g : BuildGraph) (env : BuildEnvironment) (t : TransformerId) :
    KeepsTransformers g (g.commandsNeedRerun env t).2 := by
  unfold BuildGraph.commandsNeedRerun
  split
  · rename_i c _
    refine modifyTransformer g t (f := fun tr => (c.commandsNeedRerun tr).2) ?_ ?_
    · intro d
      unfold TrackingContext.commandsNeedRerun
      split_ifs <;> rfl
    · intro d a ha
      unfold TrackingContext.commandsNeedRerun at ha
      split_ifs at ha <;> exact ha
  · exact refl g

theorem prepareScriptNeedsRerun (g : BuildGraph) (env : BuildEnvironment) (t : TransformerId) :
    KeepsTransformers g (g.prepareScriptNeedsRerun env t).2 := by
  unfold BuildGraph.prepareScriptNeedsRerun
  split
  · rename_i c _
    refine modifyTransformer g t (f := fun tr => (c.prepareScriptNeedsRerun tr).2) ?_ ?_
    · intro d
      unfold TrackingContext.prepareScriptNeedsRerun
      split_ifs <;> rfl
    · intro d a ha
      unfold TrackingContext.prepareScriptNeedsRerun at ha
      split_ifs at ha <;> exact ha
  · exact refl g

end KeepsTransformers

end BuildGraph

/-! ## Rule applications -/

open BuildGraph

namespace RulesApplicator

variable {g g' : BuildGraph} {c : RuleContext} {s s' : RulesApplicator} {inputs : ArtifactSet}

theorem handleRemovedRuleOutputs_keeps {toRemove removed : ArtifactSet}
    (h : handleRemovedRuleOutputs g inputs toRemove = .ok (g', removed)) :
    KeepsTransformers g g' := by
  simp only [handleRemovedRuleOutputs, Fallible.bind_eq_ok_iff, Fallible.pure_eq_ok_iff] at h
  rcases h with ⟨s, hloop, -, -, heq⟩
  have hkeeps : KeepsTransformers g s.1 :=
    Fallible.foldlM_invariant (P := fun s : BuildGraph × ArtifactSet => KeepsTransformers g s.1)
      (fun _ _ _ _ hkeeps hok => hkeeps.trans (KeepsTransformers.removeDependents hok))
      (KeepsTransformers.refl g) hloop
  cases heq
  exact hkeeps.trans (KeepsTransformers.deleteArtifacts _ _)

theorem removeOldOutputs_keeps {newOutputs : List NodeId}
    (h : removeOldOutputs c s inputs newOutputs = .ok s') :
    KeepsTransformers s.graph s'.graph := by
  simp only [removeOldOutputs, Fallible.bind_eq_ok_iff, Fallible.pure_eq_ok_iff] at h
  rcases h with ⟨⟨g, removed⟩, hremove, rfl⟩
  exact handleRemovedRuleOutputs_keeps hremove

theorem connectInputs_keeps (h : connectInputs c g inputs = .ok g') :
    KeepsTransformers g g' := by
  refine KeepsTransformers.foldlM ?_ h
  intro g a g' hconnect
  simp only [connectInput, Fallible.bind_eq_ok_iff] at hconnect
  rcases hconnect with ⟨b, -, hconnect⟩
  cases b with
  | false =>
      simp only [Bool.false_eq_true, if_false, Fallible.bind_eq_ok_iff,
        Fallible.pure_eq_ok_iff] at hconnect
      rcases hconnect with ⟨-, -, rfl⟩
      exact KeepsTransformers.refl g
  | true => exact KeepsTransformers.connect hconnect

theorem connectExplicitlyDependsOn_keeps {outputs : List NodeId}
    (h : connectExplicitlyDependsOn c g outputs = .ok g') : KeepsTransformers g g' :=
  KeepsTransformers.foldlM (fun _ _ _ hconnect => KeepsTransformers.connectAll hconnect) h

theorem invalidateChanged_keeps (c : RuleContext) (s : RulesApplicator)
    (output : OutputArtifactInfo) :
    KeepsTransformers s.graph (invalidateChanged c s output).graph := by
  unfold invalidateChanged
  split_ifs
  · exact KeepsTransformers.of_eq rfl rfl rfl rfl rfl rfl
  · exact KeepsTransformers.refl _

theorem applyBindings_keeps (c : RuleContext) (scripts : RuleScripts) (inputs : ArtifactSet)
    (s : RulesApplicator) (outputs : List OutputArtifactInfo) :
    KeepsTransformers s.graph (applyBindings c scripts inputs s outputs).graph := by
  unfold applyBindings
  split_ifs
  · exact KeepsTransformers.refl _
  · generalize outputs.zipIdx.reverse = l
    induction l generalizing s with
    | nil => exact KeepsTransformers.refl _
    | cons output l ih =>
        rw [List.foldl_cons]
        refine KeepsTransformers.trans ?_ (ih _)
        split_ifs
        · exact KeepsTransformers.refl _
        · have hset := KeepsTransformers.setPropertyValues s.graph output.1.artifact
            (scripts.bindings inputs output.2)
          exact hset.trans (invalidateChanged_keeps c
            ⟨_, s.createdArtifacts, s.invalidatedArtifacts, s.removedArtifacts, s.oldTransformer⟩ _)

theorem outputsInvalid_keeps (env : BuildEnvironment) (s : RulesApplicator) (t : TransformerId) :
    KeepsTransformers s.graph (outputsInvalid env s t).2 := by
  unfold outputsInvalid
  split
  · exact KeepsTransformers.refl _
  · split_ifs
    · exact KeepsTransformers.refl _
    · exact KeepsTransformers.commandsNeedRerun s.graph env t

theorem invalidateOutputs_keeps (env : BuildEnvironment) (s : RulesApplicator)
    (t : TransformerId) (outputs : List NodeId) :
    KeepsTransformers s.graph (invalidateOutputs env s t outputs).graph := by
  have hinvalid := outputsInvalid_keeps env s t
  simp only [invalidateOutputs]
  refine KeepsTransformers.trans ?_
    (KeepsTransformers.modifyTransformer _ t (fun _ => rfl) fun _ _ h => h)
  split_ifs
  · exact hinvalid.trans
      (KeepsTransformers.foldl (fun g a => KeepsTransformers.setTimestamp g a 0) outputs _)
  · exact hinvalid

end RulesApplicator

namespace RuleNode

variable {g g' : BuildGraph}

theorem outputNeedsRerun_keeps (env : BuildEnvironment) (g : BuildGraph) (output : NodeId) :
    KeepsTransformers g (outputNeedsRerun env g output).2 := by
  unfold outputNeedsRerun
  split
  · exact KeepsTransformers.prepareScriptNeedsRerun g env _
  · exact KeepsTransformers.refl g

theorem checkInput_keeps (env : BuildEnvironment) (rule : RuleId) (d : Decision) (input : NodeId) :
    KeepsTransformers d.graph (checkInput env rule d input).graph := by
  unfold checkInput
  split
  · exact KeepsTransformers.refl _
  · rename_i output _
    have hkeeps := outputNeedsRerun_keeps env d.graph output
    simp only
    split_ifs <;> exact hkeeps

theorem checkInputs_keeps (env : BuildEnvironment) (rule : RuleId) (multiplex : Bool)
    (inputs : ArtifactSet) (d : Decision) :
    KeepsTransformers d.graph (checkInputs env rule multiplex inputs d).graph := by
  unfold checkInputs
  generalize (if multiplex then inputs.elems.take 1 else inputs.elems) = l
  induction l generalizing d with
  | nil => exact KeepsTransformers.refl _
  | cons input l ih => exact (checkInput_keeps env rule d input).trans (ih _)

theorem checkOutputs_keeps (env : BuildEnvironment) (multiplex : Bool) (outputs : List NodeId)
    (g : BuildGraph) : KeepsTransformers g (checkOutputs env multiplex outputs g).2 := by
  induction outputs generalizing g with
  | nil => exact KeepsTransformers.refl g
  | cons output outputs ih =>
      have hkeeps := outputNeedsRerun_keeps env g output
      simp only [checkOutputs]
      split_ifs
      · exact hkeeps
      · exact hkeeps
      · exact hkeeps.trans (ih _)

theorem checkWithoutInputs_keeps (env : BuildEnvironment) (n : NodeId) (rule : RuleId) (r : Rule)
    (d : Decision) : KeepsTransformers d.graph (checkWithoutInputs env n rule r d).graph := by
  unfold checkWithoutInputs
  split_ifs
  · exact checkOutputs_keeps env r.multiplex _ d.graph
  · exact KeepsTransformers.refl _

theorem decide_keeps (env : BuildEnvironment) (g : BuildGraph) (n : NodeId) (r : Rule)
    (sets : InputSets) : KeepsTransformers g (decide env g n r sets).graph := by
  unfold decide
  refine KeepsTransformers.trans ?_ (checkWithoutInputs_keeps env n _ r _)
  exact checkInputs_keeps env _ r.multiplex sets.allCompatibleInputs ⟨g, _, _⟩

theorem disconnectRemovedInputs_keeps {n : NodeId} {rule : RuleId} {inputs : List NodeId}
    {connections : List (NodeId × NodeId)}
    (h : disconnectRemovedInputs n rule inputs g = .ok (g', connections)) :
    KeepsTransformers g g' := by
  induction inputs generalizing g connections with
  | nil =>
      cases h
      exact KeepsTransformers.refl _
  | cons input inputs ih =>
      simp only [disconnectRemovedInputs, Fallible.bind_eq_ok_iff, Fallible.pure_eq_ok_iff] at h
      rcases h with ⟨outputs, -, ⟨g₁, rest⟩, hrest, heq⟩
      cases heq
      exact (KeepsTransformers.disconnect g n input).trans (ih hrest)

theorem handleRemovedInputs_keeps {n : NodeId} {rule : RuleId}
    {inputs removedInputs removed : ArtifactSet} {forcesOutputRemoval : Bool}
    (h : handleRemovedInputs n rule g inputs removedInputs forcesOutputRemoval =
      .ok (g', removed)) : KeepsTransformers g g' := by
  simp only [handleRemovedInputs, Fallible.bind_eq_ok_iff] at h
  rcases h with ⟨⟨g₁, connections⟩, hdisconnect, h⟩
  have hkeeps := disconnectRemovedInputs_keeps hdisconnect
  simp only at h
  split_ifs at h
  · cases h
    exact hkeeps
  · exact hkeeps.trans (RulesApplicator.handleRemovedRuleOutputs_keeps h)
  · cases h
    exact hkeeps.trans (KeepsTransformers.foldl
      (fun g connection => KeepsTransformers.disconnect g connection.1 connection.2) connections g₁)

end RuleNode

/-! ## The executor -/

namespace Executor

variable {g g' : BuildGraph}

theorem connectRescuedChildren_keeps (children : List NodeId) (g : BuildGraph) (a : NodeId) :
    KeepsTransformers g (connectRescuedChildren g a children).1 := by
  induction children generalizing g with
  | nil => exact KeepsTransformers.refl g
  | cons child children ih =>
      unfold connectRescuedChildren
      split
      · exact KeepsTransformers.refl g
      · rename_i g₁ hconnect
        have hmodify := KeepsTransformers.modifyArtifact g₁ a (f := fun d =>
          { d with childrenAddedByScanner := insert child d.childrenAddedByScanner }) fun _ => rfl
        exact ((KeepsTransformers.safeConnect hconnect).trans hmodify).trans (ih _)
      · rename_i g₁ hconnect
        exact (KeepsTransformers.safeConnect hconnect).trans (ih _)

theorem restore_keeps (g : BuildGraph) (a : NodeId) (rad : RescuableArtifactData)
    (children : List NodeId) : KeepsTransformers g (restore g a rad children).graph := by
  have hrecords := KeepsTransformers.modifyTransformerOf g a (f := restoreRecords rad)
    (fun _ => rfl) fun _ _ h => h
  exact (hrecords.trans (KeepsTransformers.setTimestamp _ a rad.timeStamp)).trans
    (connectRescuedChildren_keeps children _ a)

theorem attemptRescue_keeps (env : BuildEnvironment) (g : BuildGraph) (a : NodeId)
    (rad : RescuableArtifactData) : KeepsTransformers g (attemptRescue env g a rad).graph := by
  have hremove : ∀ fs, KeepsTransformers g
      (g.removeFromRescuableArtifactData (g.productOf a) fs) :=
    fun _ => KeepsTransformers.of_eq rfl rfl rfl rfl rfl rfl
  have hattach : ∀ g₁ : BuildGraph, KeepsTransformers g₁
      (attachFileDependencies g₁ a rad.fileDependencies) :=
    fun g₁ => KeepsTransformers.modifyArtifact g₁ a fun _ => rfl
  simp only [attemptRescue]
  split_ifs
  · exact KeepsTransformers.refl g
  · exact (hremove _).trans (hattach _)
  · exact (hremove _).trans (hattach _)
  · exact ((hremove _).trans (hattach _)).trans (restore_keeps _ a rad _)
  · exact (hremove _).trans (hattach _)

theorem rescueOldBuildData_keeps (env : BuildEnvironment) (g : BuildGraph) (a : NodeId) :
    KeepsTransformers g (rescueOldBuildData env g a).graph := by
  have hmark := KeepsTransformers.modifyArtifact g a
    (f := fun d => { d with oldDataPossiblyPresent := false }) fun _ => rfl
  simp only [rescueOldBuildData]
  split_ifs
  · exact KeepsTransformers.refl g
  · exact hmark
  · split
    · exact hmark
    · rename_i rad _
      have hremove : ∀ (g₁ : BuildGraph) (fs : List FilePath), KeepsTransformers g₁
          (g₁.removeFromRescuableArtifactData (g₁.productOf a) fs) :=
        fun _ _ => KeepsTransformers.of_eq rfl rfl rfl rfl rfl rfl
      exact (hmark.trans (hremove _ _)).trans (attemptRescue_keeps env _ a rad)

theorem checkTimestamp_keeps (env : BuildEnvironment) (g : BuildGraph) (a : NodeId) :
    KeepsTransformers g (checkTimestamp env g a) := by
  unfold checkTimestamp
  split_ifs
  · exact KeepsTransformers.setTimestamp g a _
  · exact KeepsTransformers.refl g

theorem checkOutputs_keeps {env : BuildEnvironment} {found found' : OutputCheck}
    {outputs : List NodeId} (h : checkOutputs env g found outputs = .ok (found', g')) :
    KeepsTransformers g g' := by
  induction outputs generalizing g found with
  | nil =>
      cases h
      exact KeepsTransformers.refl _
  | cons a outputs ih =>
      simp only [checkOutputs, Fallible.bind_eq_ok_iff] at h
      rcases h with ⟨⟨upToDate, g₁⟩, hcheck, h⟩
      have hg₁ : KeepsTransformers g g₁ := by
        rw [isUpToDate_graph hcheck]
        exact checkTimestamp_keeps env g a
      dsimp only at h
      split_ifs at h
      · exact hg₁.trans (ih h)
      · exact hg₁.trans (ih h)
      · cases h
        exact hg₁
      · exact hg₁.trans (ih h)

theorem mustExecuteTransformer_keeps {env : BuildEnvironment} {t : TransformerId}
    {mustExecute : Bool} (h : mustExecuteTransformer env g t = .ok (mustExecute, g')) :
    KeepsTransformers g g' := by
  unfold mustExecuteTransformer at h
  dsimp only at h
  split_ifs at h
  · cases h
    exact KeepsTransformers.refl _
  · cases h
    exact KeepsTransformers.refl _
  · rcases Fallible.bind_eq_ok_iff.mp h with ⟨⟨found, g₁⟩, hcheck, h⟩
    have hg₁ := checkOutputs_keeps hcheck
    dsimp only at h
    split_ifs at h
    · cases h
      exact hg₁
    · cases h
      exact hg₁.trans (KeepsTransformers.commandsNeedRerun g₁ env t)
    · cases h
      exact hg₁.trans (KeepsTransformers.commandsNeedRerun g₁ env t)

end Executor

end Qbs
