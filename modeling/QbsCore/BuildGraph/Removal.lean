import QbsCore.BuildGraph.ProjectBuildData
import Mathlib.Algebra.Order.BigOperators.Group.List

/-!
# What the removal of an artifact leaves behind

The effect of removing one artifact, and of detaching one from a parent, on each part
of the build data.

Main results:

- Theorem {lit}`BuildGraph.afterRemoval_spec`: the effect of a removal on edges,
  transformers, rule nodes, lookup table and product data.
- Theorem {lit}`BuildGraph.detached_spec`: the effect of detaching.
- Theorems {lit}`BuildGraph.ArtifactRemoved.shrinks` and
  {lit}`BuildGraph.Detached.shrinks`: both only make references disappear.

Current gaps:

- None.
-/

namespace Qbs

namespace BuildGraph

variable {g g' : BuildGraph}

/-! ## Disconnecting an artifact -/

variable {a u v : NodeId}

theorem disconnectArtifact_eq (h : g.disconnectArtifact a = .ok g') :
    g' = (g.disconnectArtifactChildren a).cutParents a := by
  unfold disconnectArtifact disconnectArtifactParents at h
  rcases Fallible.bind_eq_ok_iff.mp h with ⟨_, -, h⟩
  exact (Fallible.pure_eq_ok_iff.mp h).symm

/-- An artifact without parent artifacts can be disconnected. -/
theorem disconnectArtifact_of_no_parent (hpar : ∀ p, p ∈ g.parents a → g.isArtifact p = false) :
    g.disconnectArtifact a = .ok ((g.disconnectArtifactChildren a).cutParents a) := by
  unfold disconnectArtifact disconnectArtifactParents
  refine Fallible.bind_eq_ok_iff.mpr ⟨(), qbsCheck_eq_ok_iff.mpr ?_, rfl⟩
  rw [List.all_eq_true]
  intro p hp
  have hmem := (mem_filterArtifacts _).mp (SortedSet.mem_def.mpr hp)
  have hp : p ∈ g.parents a := by
    have hp := hmem.1
    simp only [disconnectArtifactChildren] at hp
    split at hp
    · exact (SortedSet.mem_remove.mp hp).1
    · exact hp
  have hart : g.isArtifact p = true := hmem.2
  rw [hpar p hp] at hart
  cases hart

theorem mem_parents_disconnectArtifactChildren (hm : g.Mirror) :
    u ∈ (g.disconnectArtifactChildren a).parents v ↔ u ∈ g.parents v ∧ u ≠ a := by
  simp only [disconnectArtifactChildren]
  split <;> rename_i hv
  · simp
  · constructor
    · intro hu
      refine ⟨hu, ?_⟩
      rintro rfl
      exact hv ((hm.mem_parents_iff _ _).mp hu)
    · exact fun hu => hu.1

theorem mem_children_disconnectArtifactChildren :
    v ∈ (g.disconnectArtifactChildren a).children u ↔ v ∈ g.children u ∧ u ≠ a := by
  simp only [disconnectArtifactChildren]
  by_cases hu : u = a
  · subst hu
    simp
  · simp [hu]

theorem mem_children_cutParents (hm : g.Mirror) :
    v ∈ (g.cutParents a).children u ↔ v ∈ g.children u ∧ v ≠ a := by
  simp only [cutParents]
  split <;> rename_i hu
  · simp
  · constructor
    · intro hv
      refine ⟨hv, ?_⟩
      rintro rfl
      exact hu ((hm.mem_parents_iff _ _).mpr hv)
    · exact fun hv => hv.1

theorem mem_parents_cutParents :
    u ∈ (g.cutParents a).parents v ↔ u ∈ g.parents v ∧ v ≠ a := by
  simp only [cutParents]
  by_cases hv : v = a
  · subst hv
    simp
  · simp [hv]

theorem Mirror.disconnectArtifactChildren (hm : g.Mirror) (a : NodeId) :
    (g.disconnectArtifactChildren a).Mirror := by
  constructor
  intro u v
  rw [mem_parents_disconnectArtifactChildren hm, mem_children_disconnectArtifactChildren,
    hm.mem_parents_iff]

/-- What disconnecting does to the data of an artifact. -/
theorem artifact_disconnectArtifact (hm : g.Mirror) (a n : NodeId) :
    ∃ scanner, ((g.disconnectArtifactChildren a).cutParents a).artifact n =
        { g.artifact n with childrenAddedByScanner := scanner } ∧
      ∀ v, v ∈ scanner → v ∈ (g.artifact n).childrenAddedByScanner ∧ n ≠ a ∧
        (v = a → n ∉ g.parentArtifacts a) := by
  have hparent : n ∈ (g.disconnectArtifactChildren a).parentArtifacts a ↔
      n ∈ g.parentArtifacts a ∧ n ≠ a := by
    simp only [parentArtifacts, mem_filterArtifacts, mem_parents_disconnectArtifactChildren hm]
    exact and_right_comm
  simp only [cutParents, hparent]
  by_cases hn : n = a
  · subst hn
    simp only [ne_eq, not_true_eq_false, and_false, if_false, disconnectArtifactChildren,
      Function.update_self]
    exact ⟨∅, rfl, by simp⟩
  · have hart : (g.disconnectArtifactChildren a).artifact n = g.artifact n := by
      simp [disconnectArtifactChildren, hn]
    simp only [hart, hn, ne_eq, not_false_eq_true, and_true]
    by_cases hp : n ∈ g.parentArtifacts a
    · rw [if_pos hp]
      refine ⟨_, rfl, ?_⟩
      intro v hv
      rw [SortedSet.mem_remove] at hv
      exact ⟨hv.1, trivial, fun hva => absurd hva hv.2⟩
    · rw [if_neg hp]
      exact ⟨_, rfl, fun v hv => ⟨hv, trivial, fun _ => hp⟩⟩

/-- Disconnecting an artifact without parent artifacts leaves all transformers alone. -/
theorem transformer_disconnectArtifact (hm : g.Mirror)
    (hpar : ∀ p, p ∈ g.parents a → g.isArtifact p = false) :
    ((g.disconnectArtifactChildren a).cutParents a).transformer = g.transformer := by
  funext t
  refine if_neg ?_
  simp only [isTransformerOfParent, List.any_eq_true, not_exists, not_and]
  intro p hp
  have hmem := (mem_filterArtifacts _).mp (SortedSet.mem_def.mpr hp)
  have hp := ((mem_parents_disconnectArtifactChildren hm).mp hmem.1).1
  have hart : g.isArtifact p = true := hmem.2
  rw [hpar p hp] at hart
  cases hart

theorem outputs_disconnectArtifact (a : NodeId) (t : TransformerId) :
    (((g.disconnectArtifactChildren a).cutParents a).transformer t).outputs =
      (g.transformer t).outputs := by
  simp only [cutParents]
  split <;> rfl

/-! ## Removing an artifact -/

/-- The effect of removing one artifact on each part of the build data. -/
structure ArtifactRemoved (g : BuildGraph) (a : NodeId) (fromProduct : Bool) (g' : BuildGraph) :
    Prop where
  nodeType : g'.nodeType = g.nodeType
  productOf : g'.productOf = g.productOf
  nextNode : g'.nextNode = g.nextNode
  children : ∀ u v, v ∈ g'.children u ↔ v ∈ g.children u ∧ u ≠ a ∧ v ≠ a
  parents : ∀ u v, u ∈ g'.parents v ↔ u ∈ g.parents v ∧ u ≠ a ∧ v ≠ a
  artifact : ∀ n, ∃ scanner, g'.artifact n = { g.artifact n with childrenAddedByScanner := scanner } ∧
    ∀ v, v ∈ scanner → v ∈ (g.artifact n).childrenAddedByScanner ∧ n ≠ a ∧
      (v = a → n ∉ g.parentArtifacts a)
  inputs : (∀ p, p ∈ g.parents a → g.isArtifact p = false) → ∀ t,
    (g'.transformer t).inputs = (g.transformer t).inputs ∧
      (g'.transformer t).explicitlyDependsOn = (g.transformer t).explicitlyDependsOn
  outputs : ∀ t o, o ∈ (g'.transformer t).outputs ↔
    o ∈ (g.transformer t).outputs ∧ ¬(o = a ∧ (g.artifact a).transformer = some t)
  ruleNode : ∀ n, g'.ruleNode n = if n ∈ g.filterRuleNodes (g.parents a) then
    removeOldInputArtifact a (g.ruleNode n) else g.ruleNode n
  lookupTable : ∀ f, g'.lookupTable f = if f = (g.artifact a).filePath then
    (g.lookupTable f).erase (.artifact a) else g.lookupTable f
  productData : ∀ q, g'.productData q = if fromProduct = true ∧ q = g.productOf a then
    (g.productData q).map (fun d => g.removeArtifactFromSet a
      { d with roots := d.roots.remove a, nodes := d.nodes.remove a }) else g.productData q
  isDirty : g'.isDirty = false

/-- The build data after the removal of an artifact, as one expression. -/
def afterRemoval (g : BuildGraph) (a : NodeId) (fromProduct : Bool) : BuildGraph :=
  let g := (g.removeFromLookupTable a).removeFromRuleNodes a
  let g := (g.disconnectArtifactChildren a).cutParents a
  let g := g.modifyTransformerOf a fun t => { t with outputs := t.outputs.remove a }
  (if fromProduct then g.removeArtifactFromProduct a else g).setClean

variable {fromProduct : Bool}

theorem removeArtifact_eq (h : g.removeArtifact a fromProduct = .ok g') :
    g' = g.afterRemoval a fromProduct := by
  unfold removeArtifact at h
  rcases Fallible.bind_eq_ok_iff.mp h with ⟨g₁, hg₁, h⟩
  rw [← Fallible.pure_eq_ok_iff.mp h, disconnectArtifact_eq hg₁]
  rfl

/-- An artifact without parent artifacts can be removed. -/
theorem removeArtifact_of_no_parent (hpar : ∀ p, p ∈ g.parents a → g.isArtifact p = false) :
    g.removeArtifact a fromProduct = .ok (g.afterRemoval a fromProduct) := by
  unfold removeArtifact
  exact Fallible.bind_eq_ok_iff.mpr ⟨_, disconnectArtifact_of_no_parent hpar, rfl⟩

theorem transformer_afterRemoval (hm : g.Mirror) (a : NodeId) (fromProduct : Bool)
    (t : TransformerId) :
    (g.afterRemoval a fromProduct).transformer t =
      let tr := ((((g.removeFromLookupTable a).removeFromRuleNodes a).disconnectArtifactChildren
        a).cutParents a).transformer t
      if (g.artifact a).transformer = some t then { tr with outputs := tr.outputs.remove a }
      else tr := by
  have hm₀ : ((g.removeFromLookupTable a).removeFromRuleNodes a).Mirror := ⟨hm.mem_parents_iff⟩
  rcases artifact_disconnectArtifact hm₀ a a with ⟨_, ha, -⟩
  have hown := congrArg Artifact.transformer ha
  have hunfold : (g.afterRemoval a fromProduct).transformer t =
      let g₁ := ((((g.removeFromLookupTable a).removeFromRuleNodes a).disconnectArtifactChildren
        a).cutParents a)
      if (g₁.artifact a).transformer = some t then
        { g₁.transformer t with outputs := (g₁.transformer t).outputs.remove a }
      else g₁.transformer t := by
    cases fromProduct <;> rfl
  rw [hunfold]
  simp only [hown]
  rfl

theorem frame_afterRemoval (g : BuildGraph) (a : NodeId) (fromProduct : Bool) :
    (g.afterRemoval a fromProduct).nodeType = g.nodeType ∧
      (g.afterRemoval a fromProduct).productOf = g.productOf ∧
      (g.afterRemoval a fromProduct).nextNode = g.nextNode := by
  cases fromProduct <;> simp only [afterRemoval, setClean, modifyTransformerOf, cutParents,
    disconnectArtifactChildren, removeFromRuleNodes, removeFromLookupTable,
    removeArtifactFromProduct, modifyProductData, if_true, if_false, Bool.false_eq_true, and_self]

/-- The effect of a removal. -/
theorem afterRemoval_spec (hm : g.Mirror) (a : NodeId) (fromProduct : Bool) :
    ArtifactRemoved g a fromProduct (g.afterRemoval a fromProduct) := by
  have hm₀ : ((g.removeFromLookupTable a).removeFromRuleNodes a).Mirror := ⟨hm.mem_parents_iff⟩
  have htr := transformer_afterRemoval hm a fromProduct
  have hframe := frame_afterRemoval g a fromProduct
  constructor
  case nodeType => exact hframe.1
  case productOf => exact hframe.2.1
  case nextNode => exact hframe.2.2
  case isDirty => rfl
  case children =>
    intro u v
    have h := (mem_children_cutParents (hm₀.disconnectArtifactChildren a) (a := a) (u := u)
      (v := v)).trans (and_congr_left fun _ => mem_children_disconnectArtifactChildren)
    cases fromProduct <;> exact h.trans and_assoc
  case parents =>
    intro u v
    have h := (mem_parents_cutParents (g := ((g.removeFromLookupTable a).removeFromRuleNodes
      a).disconnectArtifactChildren a) (a := a) (u := u) (v := v)).trans
      (and_congr_left fun _ => mem_parents_disconnectArtifactChildren hm₀)
    cases fromProduct <;> exact h.trans and_assoc
  case artifact =>
    intro n
    cases fromProduct <;> exact artifact_disconnectArtifact hm₀ a n
  case inputs =>
    intro hpar t
    have h := congrFun (transformer_disconnectArtifact hm₀ hpar) t
    rw [htr t]
    simp only [h]
    split <;> exact ⟨rfl, rfl⟩
  case outputs =>
    intro t o
    have h := outputs_disconnectArtifact (g := (g.removeFromLookupTable a).removeFromRuleNodes a)
      a t
    have h' : (((g.removeFromLookupTable a).removeFromRuleNodes a).transformer t).outputs =
      (g.transformer t).outputs := rfl
    rw [htr t]
    dsimp only
    split <;> rename_i ht
    · simp [h, h', ht]
    · simp [h, h', ht]
  case ruleNode =>
    intro n
    cases fromProduct <;> rfl
  case lookupTable =>
    intro f
    have h : (g.afterRemoval a fromProduct).lookupTable f =
        Function.update g.lookupTable (g.artifact a).filePath
          ((g.lookupTable (g.artifact a).filePath).erase (.artifact a)) f := by
      cases fromProduct <;> rfl
    rw [h]
    by_cases hf : f = (g.artifact a).filePath
    · subst hf
      simp
    · simp [hf]
  case productData =>
    intro q
    have htags := congrArg Artifact.fileTags (artifact_disconnectArtifact hm₀ a a).choose_spec.1
    cases fromProduct with
    | false => simp only [Bool.false_eq_true, false_and, if_false]; rfl
    | true =>
        simp only [true_and]
        have h : (g.afterRemoval a true).productData q =
            Function.update g.productData (g.productOf a) ((g.productData (g.productOf a)).map
              fun d => removeArtifactFromSet ((((g.removeFromLookupTable a).removeFromRuleNodes
                a).disconnectArtifactChildren a).cutParents a) a
                { d with roots := d.roots.remove a, nodes := d.nodes.remove a }) q := rfl
        rw [h]
        simp only [removeArtifactFromSet, htags]
        by_cases hq : q = g.productOf a
        · subst hq
          simp only [Function.update_self, if_true]
          rfl
        · simp [hq]

/-! ## Detaching an artifact from a parent -/

/-- What detaching an artifact from a parent does to each part of the build data. -/
structure Detached (g : BuildGraph) (parent a : NodeId) (g' : BuildGraph) : Prop where
  nodeType : g'.nodeType = g.nodeType
  productOf : g'.productOf = g.productOf
  nextNode : g'.nextNode = g.nextNode
  ruleNode : g'.ruleNode = g.ruleNode
  lookupTable : g'.lookupTable = g.lookupTable
  productData : g'.productData = g.productData
  children : ∀ u v, v ∈ g'.children u ↔ v ∈ g.children u ∧ ¬(u = parent ∧ v = a)
  parents : ∀ u v, u ∈ g'.parents v ↔ u ∈ g.parents v ∧ ¬(u = parent ∧ v = a)
  artifact : ∀ n, ∃ scanner, g'.artifact n =
      { g.artifact n with childrenAddedByScanner := scanner } ∧
    ∀ v, v ∈ scanner → v ∈ (g.artifact n).childrenAddedByScanner ∧
      ¬(n = parent ∧ v = a ∧ g.isArtifact parent = true ∧ g.isArtifact a = true)
  transformer : ∀ t, g'.transformer t =
    if (g'.children parent).isEmpty = false ∧ (g.artifact parent).transformer = some t then
      { g.transformer t with inputs := (g.transformer t).inputs.remove a }
    else g.transformer t

theorem artifact_disconnect (u v n : NodeId) :
    ∃ scanner, (g.disconnect u v).artifact n =
        { g.artifact n with childrenAddedByScanner := scanner } ∧
      ∀ w, w ∈ scanner → w ∈ (g.artifact n).childrenAddedByScanner ∧
        ¬(n = u ∧ w = v ∧ g.isArtifact u = true ∧ g.isArtifact v = true) := by
  unfold disconnect
  split <;> rename_i h
  · by_cases hn : n = u
    · subst hn
      refine ⟨(g.artifact n).childrenAddedByScanner.remove v, ?_, ?_⟩
      · simp [modifyArtifact, setArtifact, removeEdge]
      · intro w hw
        rw [SortedSet.mem_remove] at hw
        exact ⟨hw.1, fun hc => hw.2 hc.2.1⟩
    · refine ⟨(g.artifact n).childrenAddedByScanner, ?_, fun w hw => ⟨hw, fun hc => hn hc.1⟩⟩
      simp [modifyArtifact, setArtifact, removeEdge, hn]
  · refine ⟨(g.artifact n).childrenAddedByScanner, rfl, fun w hw => ⟨hw, ?_⟩⟩
    rintro ⟨-, -, hu, hv⟩
    exact h (by simp [hu, hv])

theorem transformer_disconnect (u v : NodeId) : (g.disconnect u v).transformer = g.transformer := by
  unfold disconnect
  split <;> rfl

/-- Detaching is disconnecting, apart from the transformers. -/
theorem detachFromParent_eq (parent a : NodeId) :
    g.detachFromParent parent a =
      { g.disconnect parent a with transformer := (g.detachFromParent parent a).transformer } := by
  unfold detachFromParent
  dsimp only
  split <;> rfl

theorem transformer_detachFromParent (parent a : NodeId) (t : TransformerId) :
    (g.detachFromParent parent a).transformer t =
      if ((g.disconnect parent a).children parent).isEmpty = false ∧
          (g.artifact parent).transformer = some t then
        { g.transformer t with inputs := (g.transformer t).inputs.remove a }
      else g.transformer t := by
  rcases artifact_disconnect (g := g) parent a parent with ⟨_, hart, -⟩
  have hown := congrArg Artifact.transformer hart
  unfold detachFromParent
  dsimp only
  split <;> rename_i h
  · rw [if_neg fun hc => Bool.false_ne_true (hc.1.symm.trans h), transformer_disconnect]
  · simp only [modifyTransformerOf, transformer_disconnect, hown, Bool.not_eq_true] at h ⊢
    simp only [h, true_and]

theorem artifact_clearTimestamp (parent n : NodeId) :
    ∃ time, (g.clearTimestamp parent).artifact n = { g.artifact n with timestamp := time } := by
  by_cases hn : n = parent
  · subst hn
    exact ⟨0, by simp [clearTimestamp, setTimestamp, modifyArtifact, setArtifact]⟩
  · exact ⟨(g.artifact n).timestamp,
      by simp [clearTimestamp, setTimestamp, modifyArtifact, setArtifact, hn]⟩

/-- The effect of detaching. -/
theorem detached_spec (parent a : NodeId) : Detached g parent a (g.detachFromParent parent a) := by
  have hEq := detachFromParent_eq (g := g) parent a
  have hrest := disconnect_eq (g := g) parent a
  have hart := fun n => artifact_disconnect (g := g) parent a n
  constructor
  case nodeType => rw [hEq, hrest]
  case productOf => rw [hEq, hrest]
  case nextNode => rw [hEq, hrest]
  case ruleNode => rw [hEq, hrest]
  case lookupTable => rw [hEq, hrest]
  case productData => rw [hEq, hrest]
  case children =>
    intro u v
    rw [hEq]
    simp
  case parents =>
    intro u v
    rw [hEq]
    simp
  case artifact =>
    intro n
    rw [hEq]
    exact hart n
  case transformer =>
    intro t
    rw [transformer_detachFromParent]
    rw [hEq]

/-! ## Build data that shrinks -/

/-- What removal steps do to a product's data. -/
structure ProductShrinks (d d' : ProductBuildData) : Prop where
  nodes : ∀ n, n ∈ d'.nodes → n ∈ d.nodes
  roots : ∀ n, n ∈ d'.roots → n ∈ d.roots
  tags : ∀ tag n, n ∈ d'.artifactsByFileTag.value tag → n ∈ d.artifactsByFileTag.value tag

theorem ProductShrinks.refl (d : ProductBuildData) : ProductShrinks d d :=
  ⟨fun _ h => h, fun _ h => h, fun _ _ h => h⟩

theorem ProductShrinks.trans {d₁ d₂ d₃ : ProductBuildData} (h : ProductShrinks d₁ d₂)
    (h' : ProductShrinks d₂ d₃) : ProductShrinks d₁ d₃ :=
  ⟨fun n hn => h.nodes n (h'.nodes n hn), fun n hn => h.roots n (h'.roots n hn),
    fun tag n hn => h.tags tag n (h'.tags tag n hn)⟩

/-- The old sets of a rule node only lose artifacts. -/
structure RuleNodeShrinks (r r' : RuleNode) : Prop where
  inputs : ∀ n, n ∈ r'.oldInputArtifacts.artifacts → n ∈ r.oldInputArtifacts.artifacts
  explicitlyDependsOn : ∀ n, n ∈ r'.oldExplicitlyDependsOn.artifacts →
    n ∈ r.oldExplicitlyDependsOn.artifacts
  auxiliary : ∀ n, n ∈ r'.oldAuxiliaryInputs.artifacts → n ∈ r.oldAuxiliaryInputs.artifacts

theorem RuleNodeShrinks.refl (r : RuleNode) : RuleNodeShrinks r r :=
  ⟨fun _ h => h, fun _ h => h, fun _ h => h⟩

theorem RuleNodeShrinks.trans {r₁ r₂ r₃ : RuleNode} (h : RuleNodeShrinks r₁ r₂)
    (h' : RuleNodeShrinks r₂ r₃) : RuleNodeShrinks r₁ r₃ :=
  ⟨fun n hn => h.inputs n (h'.inputs n hn),
    fun n hn => h.explicitlyDependsOn n (h'.explicitlyDependsOn n hn),
    fun n hn => h.auxiliary n (h'.auxiliary n hn)⟩

theorem removeOldInputArtifact_shrinks (a : NodeId) (r : RuleNode) :
    RuleNodeShrinks r (removeOldInputArtifact a r) :=
  ⟨fun _ hn => (OldArtifactSet.mem_forget.mp hn).1, fun _ hn => (OldArtifactSet.mem_forget.mp hn).1,
    fun _ hn => (OldArtifactSet.mem_forget.mp hn).1⟩

/-- Between two states of a removal, references only disappear. -/
structure Shrinks (g g' : BuildGraph) : Prop where
  nodeType : g'.nodeType = g.nodeType
  productOf : g'.productOf = g.productOf
  nextNode : g'.nextNode = g.nextNode
  artifact : ∀ n, ∃ scanner time, g'.artifact n =
      { g.artifact n with childrenAddedByScanner := scanner, timestamp := time } ∧
    ∀ v, v ∈ scanner → v ∈ (g.artifact n).childrenAddedByScanner
  children : ∀ u v, v ∈ g'.children u → v ∈ g.children u
  explicitlyDependsOn : ∀ t,
    (g'.transformer t).explicitlyDependsOn = (g.transformer t).explicitlyDependsOn
  inputs : ∀ t i, i ∈ (g'.transformer t).inputs → i ∈ (g.transformer t).inputs
  outputs : ∀ t o, o ∈ (g'.transformer t).outputs → o ∈ (g.transformer t).outputs
  ruleNode : ∀ n, RuleNodeShrinks (g.ruleNode n) (g'.ruleNode n)
  lookupTable : ∀ f, (g'.lookupTable f).Sublist (g.lookupTable f)
  productData : ∀ q d', g'.productData q = some d' →
    ∃ d, g.productData q = some d ∧ ProductShrinks d d'

namespace Shrinks

theorem refl (g : BuildGraph) : Shrinks g g where
  nodeType := rfl
  productOf := rfl
  nextNode := rfl
  artifact _ := ⟨_, _, rfl, fun _ h => h⟩
  children _ _ h := h
  explicitlyDependsOn _ := rfl
  inputs _ _ h := h
  outputs _ _ h := h
  ruleNode n := RuleNodeShrinks.refl (g.ruleNode n)
  lookupTable _ := List.Sublist.refl _
  productData _ d' h := ⟨d', h, ProductShrinks.refl d'⟩

theorem trans {g₁ g₂ g₃ : BuildGraph} (h : Shrinks g₁ g₂) (h' : Shrinks g₂ g₃) :
    Shrinks g₁ g₃ where
  nodeType := h'.nodeType.trans h.nodeType
  productOf := h'.productOf.trans h.productOf
  nextNode := h'.nextNode.trans h.nextNode
  artifact n := by
    rcases h.artifact n with ⟨_, _, hEq, hsub⟩
    rcases h'.artifact n with ⟨scanner, time, hEq', hsub'⟩
    refine ⟨scanner, time, ?_, ?_⟩
    · rw [hEq', hEq]
    · intro v hv
      have hv' := hsub' v hv
      rw [hEq] at hv'
      exact hsub v hv'
  children u v hv := h.children u v (h'.children u v hv)
  explicitlyDependsOn t := (h'.explicitlyDependsOn t).trans (h.explicitlyDependsOn t)
  inputs t i hi := h.inputs t i (h'.inputs t i hi)
  outputs t o ho := h.outputs t o (h'.outputs t o ho)
  ruleNode n := (h.ruleNode n).trans (h'.ruleNode n)
  lookupTable f := (h'.lookupTable f).trans (h.lookupTable f)
  productData q d₃ h₃ := by
    rcases h'.productData q d₃ h₃ with ⟨d₂, h₂, hd₂⟩
    rcases h.productData q d₂ h₂ with ⟨d₁, h₁, hd₁⟩
    exact ⟨d₁, h₁, hd₁.trans hd₂⟩

theorem isArtifact (h : Shrinks g g') (n : NodeId) : g'.isArtifact n = g.isArtifact n := by
  unfold BuildGraph.isArtifact
  rw [h.nodeType]

theorem isRuleNode (h : Shrinks g g') (n : NodeId) : g'.isRuleNode n = g.isRuleNode n := by
  unfold BuildGraph.isRuleNode
  rw [h.nodeType]

theorem filePath (h : Shrinks g g') (n : NodeId) :
    (g'.artifact n).filePath = (g.artifact n).filePath := by
  rcases h.artifact n with ⟨_, _, hEq, -⟩
  rw [hEq]

theorem fileTags (h : Shrinks g g') (n : NodeId) :
    (g'.artifact n).fileTags = (g.artifact n).fileTags := by
  rcases h.artifact n with ⟨_, _, hEq, -⟩
  rw [hEq]

theorem transformerOf (h : Shrinks g g') (n : NodeId) :
    (g'.artifact n).transformer = (g.artifact n).transformer := by
  rcases h.artifact n with ⟨_, _, hEq, -⟩
  rw [hEq]

/-- A lost edge is counted. -/
theorem edgeCount_lt (h : Shrinks g g') {u v : NodeId} (hu : u < g.nextNode)
    (hv : v ∈ g.children u) (hv' : v ∉ g'.children u) : g'.edgeCount < g.edgeCount := by
  unfold edgeCount
  rw [h.nextNode]
  refine List.sum_lt_sum _ _ (fun n _ => SortedSet.size_le_of_subset (h.children n)) ?_
  exact ⟨u, List.mem_range.mpr hu, SortedSet.size_lt_of_subset (h.children u) hv hv'⟩

end Shrinks

theorem mem_take_foldl {a : NodeId} {tags : List FileTag} {m : ArtifactSetByFileTag}
    {tag : FileTag} {n : NodeId} :
    n ∈ ArtifactSetByFileTag.value (tags.foldl (fun m tag => m.take tag a) m) tag ↔
      n ∈ m.value tag ∧ ¬(n = a ∧ tag ∈ tags) := by
  induction tags generalizing m with
  | nil => simp
  | cons t tags ih =>
      rw [List.foldl_cons, ih, ArtifactSetByFileTag.value_take]
      by_cases ht : tag = t
      · subst ht
        simp only [if_true, SortedSet.mem_remove, List.mem_cons, true_or, and_true]
        tauto
      · simp only [ht, if_false, List.mem_cons, false_or]

theorem removeArtifactFromSet_shrinks (a : NodeId) (d : ProductBuildData) :
    ProductShrinks d (g.removeArtifactFromSet a
      { d with roots := d.roots.remove a, nodes := d.nodes.remove a }) where
  nodes _ hn := (SortedSet.mem_remove.mp hn).1
  roots _ hn := (SortedSet.mem_remove.mp hn).1
  tags _ _ hn := (mem_take_foldl.mp hn).1

theorem Detached.shrinks {parent : NodeId} (h : Detached g parent a g') : Shrinks g g' where
  nodeType := h.nodeType
  productOf := h.productOf
  nextNode := h.nextNode
  artifact n := by
    rcases h.artifact n with ⟨scanner, hEq, hsub⟩
    exact ⟨scanner, _, hEq, fun v hv => (hsub v hv).1⟩
  children u v hv := ((h.children u v).mp hv).1
  explicitlyDependsOn t := by
    rw [h.transformer]
    split <;> rfl
  inputs t i hi := by
    rw [h.transformer] at hi
    split at hi
    · exact (SortedSet.mem_remove.mp hi).1
    · exact hi
  outputs t o ho := by
    rw [h.transformer] at ho
    split at ho <;> exact ho
  ruleNode n := by
    rw [h.ruleNode]
    exact RuleNodeShrinks.refl _
  lookupTable f := by
    rw [h.lookupTable]
  productData q d' hd' := by
    rw [h.productData] at hd'
    exact ⟨d', hd', ProductShrinks.refl d'⟩

theorem clearTimestamp_shrinks (g : BuildGraph) (n : NodeId) : Shrinks g (g.clearTimestamp n) where
  nodeType := rfl
  productOf := rfl
  nextNode := rfl
  artifact m := by
    rcases artifact_clearTimestamp (g := g) n m with ⟨time, hEq⟩
    exact ⟨_, time, hEq, fun _ hv => hv⟩
  children _ _ h := h
  explicitlyDependsOn _ := rfl
  inputs _ _ h := h
  outputs _ _ h := h
  ruleNode m := RuleNodeShrinks.refl (g.ruleNode m)
  lookupTable _ := List.Sublist.refl _
  productData _ d' h := ⟨d', h, ProductShrinks.refl d'⟩

theorem ArtifactRemoved.shrinks (h : ArtifactRemoved g a fromProduct g')
    (hpar : ∀ p, p ∈ g.parents a → g.isArtifact p = false) : Shrinks g g' where
  nodeType := h.nodeType
  productOf := h.productOf
  nextNode := h.nextNode
  artifact n := by
    rcases h.artifact n with ⟨scanner, hEq, hsub⟩
    exact ⟨scanner, _, hEq, fun v hv => (hsub v hv).1⟩
  children u v hv := ((h.children u v).mp hv).1
  explicitlyDependsOn t := (h.inputs hpar t).2
  inputs t i hi := by
    rw [(h.inputs hpar t).1] at hi
    exact hi
  outputs t o ho := ((h.outputs t o).mp ho).1
  ruleNode n := by
    rw [h.ruleNode]
    split
    · exact removeOldInputArtifact_shrinks a _
    · exact RuleNodeShrinks.refl _
  lookupTable f := by
    rw [h.lookupTable]
    split
    · exact List.erase_sublist
    · exact List.Sublist.refl _
  productData q d' hd' := by
    rw [h.productData] at hd'
    split at hd'
    · rcases Option.map_eq_some_iff.mp hd' with ⟨d, hd, rfl⟩
      exact ⟨d, hd, removeArtifactFromSet_shrinks a d⟩
    · exact ⟨d', hd', ProductShrinks.refl d'⟩

end BuildGraph

end Qbs
