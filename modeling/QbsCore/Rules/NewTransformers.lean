import QbsCore.Rules.TransformerFrames

/-!
# New transformers

The application of a rule node creates transformers.  A new transformer only gets outputs
in the product of its rule, and the existing ones stay as they are.

Main results:

- Structure {lit}`BuildGraph.TransformersSound`: each transformer has its outputs in one
  product.
- Structure {lit}`BuildGraph.ExtendsTransformers`: operations that create transformers.
- Theorem {lit}`RuleNode.apply_extends`: the application of a rule node is such an
  operation.

Current gaps:

- What a rule application that throws leaves behind.
-/

namespace Qbs

namespace BuildGraph

/-- The outputs of the transformer of an artifact belong to the product of the artifact, and nothing
refers to addresses that are not handed out. -/
structure TransformersSound (g : BuildGraph) : Prop where
  outputs_productOf : ∀ a t, (g.artifact a).transformer = some t →
    ∀ b, b ∈ (g.transformer t).outputs → g.productOf b = g.productOf a
  outputs_lt : ∀ t b, b ∈ (g.transformer t).outputs → b < g.nextNode
  owner_lt : ∀ a t, (g.artifact a).transformer = some t → a < g.nextNode ∧ t < g.nextTransformer
  lookupTable_lt : ∀ f a, .artifact a ∈ g.lookupTable f → a < g.nextNode

/-- The transformers of a build graph are sound, and those of an earlier state are still there, with
the same commands, no further outputs and their outputs in the same products. New nodes belong to
some known products. -/
structure ExtendsTransformers (products : ProductId → Prop) (g g' : BuildGraph) : Prop where
  sound : g'.TransformersSound
  nextNode_le : g.nextNode ≤ g'.nextNode
  nextTransformer_le : g.nextTransformer ≤ g'.nextTransformer
  productOf : ∀ n, n < g.nextNode → g'.productOf n = g.productOf n
  newNodes : ∀ n, g.nextNode ≤ n → n < g'.nextNode → products (g'.productOf n)
  commands : ∀ t, t < g.nextTransformer → (g'.transformer t).commands = (g.transformer t).commands
  outputs : ∀ t, t < g.nextTransformer → ∀ a, a ∈ (g'.transformer t).outputs →
    a ∈ (g.transformer t).outputs

/-- A transformer whose outputs, and the artifacts that belong to it, are all in one product. -/
structure TransformerOf (g : BuildGraph) (t : TransformerId) (p : ProductId) : Prop where
  lt : t < g.nextTransformer
  outputs : ∀ b, b ∈ (g.transformer t).outputs → g.productOf b = p
  owner : ∀ a, (g.artifact a).transformer = some t → g.productOf a = p

variable {products : ProductId → Prop} {g g' g'' : BuildGraph}

theorem TransformersSound.keeps (h : g.TransformersSound) (hkeeps : KeepsTransformers g g') :
    g'.TransformersSound where
  outputs_productOf a t ht b hb := by
    rw [hkeeps.productOf]
    exact h.outputs_productOf a t (hkeeps.owner a t ht) b (hkeeps.outputs t b hb)
  outputs_lt t b hb := by
    rw [hkeeps.nextNode]
    exact h.outputs_lt t b (hkeeps.outputs t b hb)
  owner_lt a t ht := by
    rw [hkeeps.nextNode, hkeeps.nextTransformer]
    exact h.owner_lt a t (hkeeps.owner a t ht)
  lookupTable_lt f a ha := by
    rw [hkeeps.nextNode]
    exact h.lookupTable_lt f a (hkeeps.lookupTable f a ha)

theorem ExtendsTransformers.refl (h : g.TransformersSound) : ExtendsTransformers products g g :=
  ⟨h, le_rfl, le_rfl, fun _ _ => rfl, fun _ hge hlt => absurd hlt (Nat.not_lt.mpr hge),
    fun _ _ => rfl, fun _ _ _ ha => ha⟩

theorem ExtendsTransformers.trans (h : ExtendsTransformers products g g')
    (h' : ExtendsTransformers products g' g'') : ExtendsTransformers products g g'' where
  sound := h'.sound
  nextNode_le := h.nextNode_le.trans h'.nextNode_le
  nextTransformer_le := h.nextTransformer_le.trans h'.nextTransformer_le
  productOf n hn := (h'.productOf n (hn.trans_le h.nextNode_le)).trans (h.productOf n hn)
  newNodes n hge hlt := by
    by_cases hn : n < g'.nextNode
    · rw [h'.productOf n hn]
      exact h.newNodes n hge hn
    · exact h'.newNodes n (Nat.le_of_not_lt hn) hlt
  commands t ht := (h'.commands t (ht.trans_le h.nextTransformer_le)).trans (h.commands t ht)
  outputs t ht a ha := h.outputs t ht a (h'.outputs t (ht.trans_le h.nextTransformer_le) a ha)

theorem KeepsTransformers.extendsTransformers (h : KeepsTransformers g g')
    (hsound : g.TransformersSound) : ExtendsTransformers products g g' where
  sound := hsound.keeps h
  nextNode_le := h.nextNode.ge
  nextTransformer_le := h.nextTransformer.ge
  productOf n _ := by rw [h.productOf]
  newNodes n hge hlt := absurd hlt (by rw [h.nextNode]; exact Nat.not_lt.mpr hge)
  commands t _ := h.commands t
  outputs t _ := h.outputs t

theorem ExtendsTransformers.keeps (h : ExtendsTransformers products g g')
    (hkeeps : KeepsTransformers g' g'') : ExtendsTransformers products g g'' :=
  h.trans (hkeeps.extendsTransformers h.sound)

theorem TransformerOf.keeps {t : TransformerId} {p : ProductId} (h : TransformerOf g t p)
    (hkeeps : KeepsTransformers g g') : TransformerOf g' t p where
  lt := by
    rw [hkeeps.nextTransformer]
    exact h.lt
  outputs b hb := by
    rw [hkeeps.productOf]
    exact h.outputs b (hkeeps.outputs t b hb)
  owner a ha := by
    rw [hkeeps.productOf]
    exact h.owner a (hkeeps.owner a t ha)

/-- A new transformer without outputs. -/
theorem ExtendsTransformers.newTransformer (h : ExtendsTransformers products g g')
    {d : Transformer} (houtputs : d.outputs = ∅) (p : ProductId) :
    ExtendsTransformers products g (g'.newTransformer d).1 ∧
      TransformerOf (g'.newTransformer d).1 (g'.newTransformer d).2 p ∧
      g.nextTransformer ≤ (g'.newTransformer d).2 := by
  have hnone : ∀ a, (g'.artifact a).transformer ≠ some g'.nextTransformer := by
    intro a ha
    exact absurd (h.sound.owner_lt a _ ha).2 (Nat.lt_irrefl _)
  have hsub : ∀ t b, b ∈ ((g'.newTransformer d).1.transformer t).outputs →
      b ∈ (g'.transformer t).outputs := by
    intro t b hb
    by_cases ht : t = g'.nextTransformer
    · simp [BuildGraph.newTransformer, ht, houtputs] at hb
    · simpa [BuildGraph.newTransformer, ht] using hb
  have hold : ∀ t, t < g.nextTransformer →
      (g'.newTransformer d).1.transformer t = g'.transformer t := by
    intro t ht
    have hne : t ≠ g'.nextTransformer := Nat.ne_of_lt (ht.trans_le h.nextTransformer_le)
    simp [BuildGraph.newTransformer, hne]
  refine ⟨⟨⟨?_, ?_, ?_, h.sound.lookupTable_lt⟩, h.nextNode_le, ?_, h.productOf, h.newNodes,
    ?_, ?_⟩, ⟨Nat.lt_succ_self _, ?_, ?_⟩, h.nextTransformer_le⟩
  · intro a t ht b hb
    exact h.sound.outputs_productOf a t ht b (hsub t b hb)
  · intro t b hb
    exact h.sound.outputs_lt t b (hsub t b hb)
  · intro a t ht
    have hlt := h.sound.owner_lt a t ht
    exact ⟨hlt.1, Nat.lt_succ_of_lt hlt.2⟩
  · exact h.nextTransformer_le.trans (Nat.le_succ _)
  · intro t ht
    rw [hold t ht]
    exact h.commands t ht
  · intro t ht a ha
    rw [hold t ht] at ha
    exact h.outputs t ht a ha
  · intro b hb
    simp [BuildGraph.newTransformer, houtputs] at hb
  · intro a ha
    exact absurd ha (hnone a)

/-- What inserting a new artifact changes. -/
structure InsertedArtifact (g g' : BuildGraph) (p : ProductId) (d : Artifact) : Prop where
  productOf : g'.productOf = Function.update g.productOf g.nextNode p
  artifact : g'.artifact = Function.update g.artifact g.nextNode d
  transformer : g'.transformer = g.transformer
  nextNode : g'.nextNode = g.nextNode + 1
  nextTransformer : g'.nextTransformer = g.nextTransformer
  lookupTable : ∀ f a, .artifact a ∈ g'.lookupTable f →
    .artifact a ∈ g.lookupTable f ∨ a = g.nextNode

theorem insertedArtifact {d : Artifact} {p : ProductId}
    (h : (g.newArtifact d).1.insertArtifact p (g.newArtifact d).2 = .ok g') :
    InsertedArtifact g g' p d := by
  simp only [insertArtifact, Fallible.bind_eq_ok_iff] at h
  rcases h with ⟨-, -, g₁, hlookup, hproduct⟩
  rcases insertIntoLookupTable_cases hlookup with ⟨-, rfl⟩
  rcases addArtifactToProduct_cases hproduct with ⟨-, -, -, rfl⟩
  refine ⟨rfl, rfl, rfl, rfl, rfl, ?_⟩
  intro f a ha
  simp only [modifyProductData] at ha
  by_cases hf : f = ((g.newArtifact d).1.artifact (g.newArtifact d).2).filePath
  · rw [hf, Function.update_self] at ha
    rw [hf]
    rcases List.mem_append.mp ha with ha | ha
    · exact Or.inl ha
    · simp only [List.mem_singleton, FileResource.artifact.injEq] at ha
      exact Or.inr ha
  · rw [Function.update_of_ne hf] at ha
    exact Or.inl ha

namespace InsertedArtifact

variable {p q : ProductId} {d : Artifact} {t : TransformerId}

theorem productOf_of_lt (h : InsertedArtifact g g' p d) {n : NodeId} (hn : n < g.nextNode) :
    g'.productOf n = g.productOf n := by
  rw [h.productOf, Function.update_of_ne (Nat.ne_of_lt hn)]

theorem owner (h : InsertedArtifact g g' p d) (hd : d.transformer = none) {a : NodeId}
    (ha : (g'.artifact a).transformer = some t) : (g.artifact a).transformer = some t := by
  by_cases hnew : a = g.nextNode
  · simp [h.artifact, hnew, hd] at ha
  · rwa [h.artifact, Function.update_of_ne hnew] at ha

theorem sound (h : InsertedArtifact g g' p d) (hd : d.transformer = none)
    (hsound : g.TransformersSound) : g'.TransformersSound where
  outputs_productOf a t ht b hb := by
    rw [h.transformer] at hb
    have howner := h.owner hd ht
    rw [h.productOf_of_lt (hsound.outputs_lt t b hb),
      h.productOf_of_lt (hsound.owner_lt a t howner).1]
    exact hsound.outputs_productOf a t howner b hb
  outputs_lt t b hb := by
    rw [h.transformer] at hb
    rw [h.nextNode]
    exact Nat.lt_succ_of_lt (hsound.outputs_lt t b hb)
  owner_lt a t ht := by
    rw [h.nextNode, h.nextTransformer]
    have hlt := hsound.owner_lt a t (h.owner hd ht)
    exact ⟨Nat.lt_succ_of_lt hlt.1, hlt.2⟩
  lookupTable_lt f a ha := by
    rw [h.nextNode]
    rcases h.lookupTable f a ha with ha | rfl
    · exact Nat.lt_succ_of_lt (hsound.lookupTable_lt f a ha)
    · exact Nat.lt_succ_self _

theorem extendsTransformers (h : InsertedArtifact g g' p d) (hd : d.transformer = none)
    (hp : products p) (hsound : g.TransformersSound) : ExtendsTransformers products g g' where
  sound := h.sound hd hsound
  nextNode_le := by
    rw [h.nextNode]
    exact Nat.le_succ _
  nextTransformer_le := h.nextTransformer.ge
  productOf _ hn := h.productOf_of_lt hn
  newNodes n hge hlt := by
    rw [h.nextNode] at hlt
    have hn : n = g.nextNode := Nat.le_antisymm (Nat.le_of_lt_succ hlt) hge
    rw [hn, h.productOf, Function.update_self]
    exact hp
  commands t _ := by rw [h.transformer]
  outputs t _ a ha := by rwa [h.transformer] at ha

theorem transformerOf (h : InsertedArtifact g g' p d) (hd : d.transformer = none)
    (hsound : g.TransformersSound) (ht : TransformerOf g t q) : TransformerOf g' t q where
  lt := by
    rw [h.nextTransformer]
    exact ht.lt
  outputs b hb := by
    rw [h.transformer] at hb
    rw [h.productOf_of_lt (hsound.outputs_lt t b hb)]
    exact ht.outputs b hb
  owner a ha := by
    have howner := h.owner hd ha
    rw [h.productOf_of_lt (hsound.owner_lt a t howner).1]
    exact ht.owner a howner

end InsertedArtifact

/-- An artifact becomes an output of a new transformer of its product. -/
theorem ExtendsTransformers.addOutput {a : NodeId} {t : TransformerId} {p : ProductId}
    (h : ExtendsTransformers products g g') (ht : TransformerOf g' t p)
    (hnew : g.nextTransformer ≤ t)
    (ha : a < g'.nextNode) (hp : g'.productOf a = p)
    (hartifact : ∀ b, (g''.artifact b).transformer =
      if b = a then some t else (g'.artifact b).transformer)
    (htransformer : ∀ u, (g''.transformer u).commands = (g'.transformer u).commands ∧
      (g''.transformer u).outputs =
        if u = t then insert a (g'.transformer t).outputs else (g'.transformer u).outputs)
    (hproductOf : g''.productOf = g'.productOf) (hnextNode : g''.nextNode = g'.nextNode)
    (hnextTransformer : g''.nextTransformer = g'.nextTransformer)
    (hlookupTable : g''.lookupTable = g'.lookupTable) :
    ExtendsTransformers products g g'' ∧ TransformerOf g'' t p := by
  have houtputs : ∀ b, b ∈ (g''.transformer t).outputs → g''.productOf b = p := by
    intro b hb
    rw [(htransformer t).2, if_pos rfl, SortedSet.mem_insert] at hb
    rw [hproductOf]
    rcases hb with rfl | hb
    · exact hp
    · exact ht.outputs b hb
  have howner : ∀ b, (g''.artifact b).transformer = some t → g''.productOf b = p := by
    intro b hb
    rw [hartifact] at hb
    rw [hproductOf]
    split_ifs at hb with hba
    · rw [hba]
      exact hp
    · exact ht.owner b hb
  refine ⟨⟨⟨?_, ?_, ?_, ?_⟩, hnextNode ▸ h.nextNode_le, hnextTransformer ▸ h.nextTransformer_le,
    hproductOf ▸ h.productOf, ?_, ?_, ?_⟩, ⟨hnextTransformer ▸ ht.lt, houtputs, howner⟩⟩
  · intro b u hb c hc
    by_cases hu : u = t
    · rw [hu] at hb hc
      rw [houtputs c hc, howner b hb]
    · rw [hartifact] at hb
      split_ifs at hb with hba
      · exact absurd (Option.some.inj hb).symm hu
      · rw [(htransformer u).2, if_neg hu] at hc
        rw [hproductOf]
        exact h.sound.outputs_productOf b u hb c hc
  · intro u b hb
    rw [hnextNode]
    rw [(htransformer u).2] at hb
    split_ifs at hb with hu
    · rcases SortedSet.mem_insert.mp hb with rfl | hb
      · exact ha
      · exact h.sound.outputs_lt t b hb
    · exact h.sound.outputs_lt u b hb
  · intro b u hb
    rw [hnextNode, hnextTransformer]
    rw [hartifact] at hb
    split_ifs at hb with hba
    · rw [hba, ← Option.some.inj hb]
      exact ⟨ha, ht.lt⟩
    · exact h.sound.owner_lt b u hb
  · intro f b hb
    rw [hnextNode]
    rw [hlookupTable] at hb
    exact h.sound.lookupTable_lt f b hb
  · intro n hge hlt
    rw [hnextNode] at hlt
    rw [hproductOf]
    exact h.newNodes n hge hlt
  · intro u hu
    rw [(htransformer u).1]
    exact h.commands u hu
  · intro u hu b hb
    have hne : u ≠ t := Nat.ne_of_lt (hu.trans_le hnew)
    rw [(htransformer u).2, if_neg hne] at hb
    exact h.outputs u hu b hb

end BuildGraph

open BuildGraph

/-- A rule application is creating the outputs of a new transformer. -/
structure CreatesOutputs (products : ProductId → Prop) (g : BuildGraph) (t : TransformerId)
    (p : ProductId) (g' : BuildGraph) : Prop where
  extended : ExtendsTransformers products g g'
  transformer : TransformerOf g' t p
  isNew : g.nextTransformer ≤ t
  known : products p

theorem CreatesOutputs.keeps {products : ProductId → Prop} {g g' g'' : BuildGraph}
    {t : TransformerId} {p : ProductId} (h : CreatesOutputs products g t p g')
    (hkeeps : KeepsTransformers g' g'') : CreatesOutputs products g t p g'' :=
  ⟨h.extended.keeps hkeeps, h.transformer.keeps hkeeps, h.isNew, h.known⟩

namespace RulesApplicator

variable {products : ProductId → Prop} {g : BuildGraph} {c : RuleContext}
  {s s' : RulesApplicator} {t : TransformerId} {output : OutputArtifactInfo}

/-- The first half of the creation of an output artifact: look it up or create it. -/
def provideOutputArtifact (c : RuleContext) (s : RulesApplicator) (t : TransformerId)
    (inputs : ArtifactSet) (filePath : FilePath) :
    Except ErrorInfo (RulesApplicator × OutputArtifactInfo) :=
  match s.graph.lookupArtifact c.product.uniqueName filePath with
  | some a => reuseOutputArtifact c s t inputs a
  | none => newOutputArtifact c s filePath

/-- The second half: connect it and make it an output of the transformer. -/
def attachOutputArtifact (c : RuleContext) (t : TransformerId) (inputs : ArtifactSet)
    (info : OutputInfo) (s : RulesApplicator) (output : OutputArtifactInfo) :
    Except ErrorInfo (RulesApplicator × OutputArtifactInfo) := do
  let a := output.artifact
  let g := (s.graph.modifyArtifact a fun d =>
    { d with alwaysUpdated := info.alwaysUpdated, pureFileTags := info.fileTags })
  let g := g.provideFullFileTagsAndProperties c.product a
  let g ← if output.newlyCreated || output.oldFileTags ≠ (g.artifact a).fileTags then
      connectAllTo g (g.filterRuleNodes (g.parents c.ruleNode)).elems a
    else pure g
  let g ← connectAll g a inputs.elems
  let g := g.modifyArtifact a fun d => { d with transformer := some t }
  let g := g.modifyTransformer t fun d => { d with outputs := insert a d.outputs }
  qbsCheck (c.rule.multiplex || (g.transformer t).inputs.size = 1)
    "m_rule->multiplex || m_transformer->inputs.size() == 1"
  return ({ s with graph := g }, output)

variable {inputs : ArtifactSet} {info : OutputInfo}

theorem createOutputArtifact_ok (h : createOutputArtifact c s t inputs info = .ok (s', output)) :
    ∃ s₁ output₁, provideOutputArtifact c s t inputs info.filePath = .ok (s₁, output₁) ∧
      attachOutputArtifact c t inputs info s₁ output₁ = .ok (s', output) := by
  unfold createOutputArtifact at h
  dsimp only at h
  split_ifs at h
  · cases h
  · unfold provideOutputArtifact
    cases hlookup : s.graph.lookupArtifact c.product.uniqueName info.filePath with
    | some a =>
        rw [hlookup] at h
        rcases Fallible.bind_eq_ok_iff.mp h with ⟨⟨s₁, output₁⟩, hprovide, hattach⟩
        exact ⟨s₁, output₁, hprovide, hattach⟩
    | none =>
        rw [hlookup] at h
        rcases Fallible.bind_eq_ok_iff.mp h with ⟨⟨s₁, output₁⟩, hprovide, hattach⟩
        exact ⟨s₁, output₁, hprovide, hattach⟩

theorem provideOutputArtifact_creates {filePath : FilePath}
    (hs : CreatesOutputs products g t c.product.uniqueName s.graph)
    (h : provideOutputArtifact c s t inputs filePath = .ok (s', output)) :
    CreatesOutputs products g t c.product.uniqueName s'.graph ∧
      output.artifact < s'.graph.nextNode ∧
      s'.graph.productOf output.artifact = c.product.uniqueName := by
  unfold provideOutputArtifact at h
  split at h
  · rename_i a hlookup
    rcases lookupArtifact_eq_some hlookup with ⟨hmem, hproduct⟩
    simp only [reuseOutputArtifact, Fallible.bind_eq_ok_iff, Fallible.pure_eq_ok_iff,
      Prod.mk.injEq] at h
    rcases h with ⟨-, -, rfl, rfl⟩
    have hlt := hs.extended.sound.lookupTable_lt _ _ hmem
    simp only
    split
    · rename_i old _
      have hkeeps := KeepsTransformers.modifyTransformer s.graph t
        (f := fun d => d.rescueChangeTrackingData old) (fun _ => rfl) fun _ _ h => h
      exact ⟨hs.keeps hkeeps, hlt, hproduct⟩
    · exact ⟨hs, hlt, hproduct⟩
  · simp only [newOutputArtifact, Fallible.bind_eq_ok_iff, Fallible.pure_eq_ok_iff,
      Prod.mk.injEq] at h
    rcases h with ⟨g₁, hinsert, g₂, hconnect, rfl, rfl⟩
    have hinserted := insertedArtifact hinsert
    have hkeeps := KeepsTransformers.connect hconnect
    have hsound := hs.extended.sound
    refine ⟨⟨hs.extended.trans ((hinserted.extendsTransformers rfl hs.known hsound).keeps hkeeps),
      (hinserted.transformerOf rfl hsound hs.transformer).keeps hkeeps, hs.isNew, hs.known⟩,
      ?_, ?_⟩
    · show s.graph.nextNode < g₂.nextNode
      rw [hkeeps.nextNode, hinserted.nextNode]
      exact Nat.lt_succ_self _
    · show g₂.productOf s.graph.nextNode = _
      rw [hkeeps.productOf, hinserted.productOf, Function.update_self]

theorem attachOutputArtifact_creates {output₁ : OutputArtifactInfo}
    (hs : CreatesOutputs products g t c.product.uniqueName s.graph)
    (hlt : output₁.artifact < s.graph.nextNode)
    (hproduct : s.graph.productOf output₁.artifact = c.product.uniqueName)
    (h : attachOutputArtifact c t inputs info s output₁ = .ok (s', output)) :
    CreatesOutputs products g t c.product.uniqueName s'.graph := by
  have hdata := (KeepsTransformers.modifyArtifact s.graph output₁.artifact
    (f := fun d => { d with alwaysUpdated := info.alwaysUpdated, pureFileTags := info.fileTags })
    fun _ => rfl).trans (KeepsTransformers.provideFullFileTagsAndProperties _ c.product
      output₁.artifact)
  have hattach : ∀ g₁ g₂, KeepsTransformers s.graph g₁ →
      connectAll g₁ output₁.artifact inputs.elems = .ok g₂ → CreatesOutputs products g t
        c.product.uniqueName ((g₂.modifyArtifact output₁.artifact fun d =>
          { d with transformer := some t }).modifyTransformer t fun d =>
            { d with outputs := insert output₁.artifact d.outputs }) := by
    intro g₁ g₂ hkeeps hconnect
    have hall := hkeeps.trans (KeepsTransformers.connectAll hconnect)
    have hs₂ := hs.keeps hall
    have hlt₂ : output₁.artifact < g₂.nextNode := by
      rw [hall.nextNode]
      exact hlt
    have hproduct₂ : g₂.productOf output₁.artifact = c.product.uniqueName := by
      rw [hall.productOf]
      exact hproduct
    have hartifact : ∀ b, (((g₂.modifyArtifact output₁.artifact fun d =>
        { d with transformer := some t }).modifyTransformer t fun d =>
          { d with outputs := insert output₁.artifact d.outputs }).artifact b).transformer =
        if b = output₁.artifact then some t else (g₂.artifact b).transformer := by
      intro b
      by_cases hb : b = output₁.artifact <;>
        simp [modifyTransformer, modifyArtifact, setArtifact, hb]
    have hadded := hs₂.extended.addOutput hs₂.transformer hs.isNew hlt₂ hproduct₂ hartifact ?_
      rfl rfl rfl rfl
    · exact ⟨hadded.1, hadded.2, hs.isNew, hs.known⟩
    · intro u
      by_cases hu : u = t <;> simp [modifyTransformer, modifyArtifact, setArtifact, hu]
  unfold attachOutputArtifact at h
  simp only at h
  split at h
  · simp only [Fallible.bind_eq_ok_iff, Fallible.pure_eq_ok_iff, Prod.mk.injEq] at h
    rcases h with ⟨g₁, hto, g₂, hconnect, -, -, rfl, -⟩
    exact hattach g₁ g₂ (hdata.trans (KeepsTransformers.connectAllTo hto)) hconnect
  · simp only [Fallible.bind_eq_ok_iff, Fallible.pure_eq_ok_iff, Prod.mk.injEq] at h
    rcases h with ⟨g₁, rfl, g₂, hconnect, -, -, rfl, -⟩
    exact hattach _ g₂ hdata hconnect

theorem createOutputArtifact_creates (hs : CreatesOutputs products g t c.product.uniqueName s.graph)
    (h : createOutputArtifact c s t inputs info = .ok (s', output)) :
    CreatesOutputs products g t c.product.uniqueName s'.graph := by
  rcases createOutputArtifact_ok h with ⟨s₁, output₁, hprovide, hattach⟩
  rcases provideOutputArtifact_creates hs hprovide with ⟨hs₁, hlt, hproduct⟩
  exact attachOutputArtifact_creates hs₁ hlt hproduct hattach

theorem createOutputArtifactFromScriptValue_creates
    (hs : CreatesOutputs products g t c.product.uniqueName s.graph)
    (h : createOutputArtifactFromScriptValue c s t inputs info = .ok (s', output)) :
    CreatesOutputs products g t c.product.uniqueName s'.graph := by
  unfold createOutputArtifactFromScriptValue at h
  dsimp only at h
  split_ifs at h
  · cases h
  · rcases Fallible.bind_eq_ok_iff.mp h with ⟨⟨s₁, output₁⟩, hcreate, h⟩
    have hs₁ := createOutputArtifact_creates hs hcreate
    dsimp only at h
    split_ifs at h
    · cases h
    · simp only [Fallible.bind_eq_ok_iff, Fallible.pure_eq_ok_iff, Prod.mk.injEq] at h
      rcases h with ⟨g₁, hconnect, rfl, -⟩
      have hconnected : KeepsTransformers s₁.graph g₁ :=
        KeepsTransformers.foldlM (fun _ _ _ hok => KeepsTransformers.connectAll hok) hconnect
      have hset := hconnected.trans
        (KeepsTransformers.setPropertyValues g₁ output₁.artifact info.propertyValues)
      exact (hs₁.keeps hset).keeps (invalidateChanged_keeps c
        ⟨_, s₁.createdArtifacts, s₁.invalidatedArtifacts, s₁.removedArtifacts, s₁.oldTransformer⟩ _)

theorem createOutputs_creates {infos : List OutputInfo} {outputs outputs' : List OutputArtifactInfo}
    (hs : CreatesOutputs products g t c.product.uniqueName s.graph)
    (h : infos.foldlM (createOutput c t inputs) (s, outputs) = .ok (s', outputs')) :
    CreatesOutputs products g t c.product.uniqueName s'.graph := by
  refine Fallible.foldlM_invariant
    (P := fun x : RulesApplicator × List OutputArtifactInfo =>
      CreatesOutputs products g t c.product.uniqueName x.1.graph) ?_ hs h
  rintro ⟨s₁, outputs₁⟩ info ⟨s₂, outputs₂⟩ - hs₁ hok
  unfold createOutput at hok
  dsimp only at hok
  split_ifs at hok
  · simp only [Fallible.bind_eq_ok_iff, Fallible.pure_eq_ok_iff, Prod.mk.injEq] at hok
    rcases hok with ⟨⟨s₃, output₃⟩, hcreate, rfl, -⟩
    exact createOutputArtifactFromScriptValue_creates hs₁ hcreate
  · simp only [Fallible.bind_eq_ok_iff, Fallible.pure_eq_ok_iff, Prod.mk.injEq] at hok
    rcases hok with ⟨⟨s₃, output₃⟩, hcreate, rfl, -⟩
    exact createOutputArtifact_creates hs₁ hcreate

/-- The new transformer gets its commands. -/
theorem createCommands_creates {g₁ g₂ : BuildGraph} {p : ProductId} {run : ScriptRun}
    (hs : CreatesOutputs products g t p g₁) (h : createCommands run g₁ t = .ok g₂) :
    CreatesOutputs products g t p g₂ := by
  simp only [createCommands, Fallible.bind_eq_ok_iff, Fallible.pure_eq_ok_iff] at h
  rcases h with ⟨e, -, -, -, rfl⟩
  have houtputs : ∀ u, ((g₁.modifyTransformer t fun _ =>
      ((g₁.transformer t).createCommands run e).1).transformer u).outputs =
        (g₁.transformer u).outputs := by
    intro u
    by_cases hu : u = t
    · rw [hu, transformer_modifyTransformer_self]
      unfold Transformer.createCommands
      cases run.result <;> rfl
    · rw [transformer_modifyTransformer_of_ne g₁ hu]
  have hold : ∀ u, u < g.nextTransformer → (g₁.modifyTransformer t fun _ =>
      ((g₁.transformer t).createCommands run e).1).transformer u = g₁.transformer u := by
    intro u hu
    have hne : u ≠ t := Nat.ne_of_lt (hu.trans_le hs.isNew)
    rw [transformer_modifyTransformer_of_ne g₁ hne]
  have hsound := hs.extended.sound
  refine ⟨⟨⟨?_, ?_, hsound.owner_lt, hsound.lookupTable_lt⟩, hs.extended.nextNode_le,
    hs.extended.nextTransformer_le, hs.extended.productOf, hs.extended.newNodes, ?_, ?_⟩,
    ⟨hs.transformer.lt, ?_, hs.transformer.owner⟩, hs.isNew, hs.known⟩
  · intro a u ha b hb
    rw [houtputs] at hb
    exact hsound.outputs_productOf a u ha b hb
  · intro u b hb
    rw [houtputs] at hb
    exact hsound.outputs_lt u b hb
  · intro u hu
    rw [hold u hu]
    exact hs.extended.commands u hu
  · intro u hu a ha
    rw [hold u hu] at ha
    exact hs.extended.outputs u hu a ha
  · intro b hb
    rw [houtputs] at hb
    exact hs.transformer.outputs b hb

variable {env : BuildEnvironment} {scripts : RuleScripts}

theorem setupTransformer_creates {p : ProductId} {outputs : List OutputArtifactInfo}
    (hs : CreatesOutputs products g t p s.graph)
    (h : setupTransformer env c scripts s t inputs outputs = .ok s') :
    CreatesOutputs products g t p s'.graph := by
  simp only [setupTransformer, Fallible.bind_eq_ok_iff] at h
  rcases h with ⟨g₁, hconnect, g₂, hcommands, h⟩
  have hs₁ := (hs.keeps (connectExplicitlyDependsOn_keeps hconnect)).keeps
    (applyBindings_keeps c scripts inputs { s with graph := g₁ } outputs)
  have hs₂ := createCommands_creates hs₁ hcommands
  split_ifs at h
  · cases h
  · rw [Fallible.pure_eq_ok_iff] at h
    rw [← h]
    exact hs₂.keeps (invalidateOutputs_keeps env ⟨g₂, _, _, _, _⟩ t _)

theorem doApply_extends (hs : ExtendsTransformers products g s.graph)
    (hc : products c.product.uniqueName) (h : doApply env c scripts s inputs = .ok s') :
    ExtendsTransformers products g s'.graph := by
  simp only [doApply, Fallible.bind_eq_ok_iff] at h
  rcases h with ⟨-, -, infos, -, ⟨s₁, outputs⟩, hcreate, s₂, hremove, g₁, hconnect, h⟩
  have hnew := hs.newTransformer (d := initialTransformer c inputs) rfl c.product.uniqueName
  have hs₁ : CreatesOutputs products g (s.graph.newTransformer (initialTransformer c inputs)).2
      c.product.uniqueName s₁.graph :=
    createOutputs_creates (s := { s with
      graph := (s.graph.newTransformer (initialTransformer c inputs)).1
      oldTransformer := none }) ⟨hnew.1, hnew.2.1, hnew.2.2, hc⟩ hcreate
  have hs₂ := (hs₁.keeps (removeOldOutputs_keeps hremove)).keeps (connectInputs_keeps hconnect)
  split_ifs at h
  · rw [Fallible.pure_eq_ok_iff] at h
    rw [← h]
    exact hs₂.extended
  · exact (setupTransformer_creates (s := { s₂ with graph := g₁ }) hs₂ h).extended

theorem applyRule_extends {g₁ : BuildGraph} (hg : ExtendsTransformers products g g₁)
    (hc : products c.product.uniqueName) (h : applyRule env c scripts g₁ = .ok s) :
    ExtendsTransformers products g s.graph := by
  simp only [applyRule, Fallible.bind_eq_ok_iff] at h
  rcases h with ⟨-, -, h⟩
  have hdirty : ExtendsTransformers products g g₁.setDirty :=
    hg.keeps (KeepsTransformers.of_eq rfl rfl rfl rfl rfl rfl)
  split_ifs at h
  · exact doApply_extends (s := ⟨g₁.setDirty, ∅, ∅, [], none⟩) hdirty hc h
  · exact Fallible.foldlM_invariant
      (P := fun s : RulesApplicator => ExtendsTransformers products g s.graph)
      (fun _ _ _ _ hs hok => doApply_extends hs hc hok) hdirty h

end RulesApplicator

namespace RuleNode

variable {products : ProductId → Prop} {env : BuildEnvironment} {product : ResolvedProduct} {scripts : RuleScripts}
  {g : BuildGraph} {n : NodeId} {result : ApplicationResult}

theorem reapply_extends {r : Rule} {sets : InputSets} {d : Decision}
    (hd : ExtendsTransformers products g d.graph) (hp : products product.uniqueName)
    (h : reapply env product scripts n r sets d = .ok result) :
    ExtendsTransformers products g result.graph := by
  simp only [reapply, Fallible.bind_eq_ok_iff] at h
  rcases h with ⟨⟨g₁, removed⟩, hremove, h⟩
  have hg₁ := hd.keeps (handleRemovedInputs_keeps hremove)
  dsimp only at h
  split_ifs at h
  · simp only [Fallible.bind_eq_ok_iff, Fallible.pure_eq_ok_iff] at h
    rcases h with ⟨s, happly, rfl⟩
    exact (RulesApplicator.applyRule_extends hg₁ hp happly).keeps
      (KeepsTransformers.of_eq rfl rfl rfl rfl rfl rfl)
  · rw [Fallible.pure_eq_ok_iff] at h
    rw [← h]
    exact hg₁.keeps (KeepsTransformers.of_eq rfl rfl rfl rfl rfl rfl)

/-- The application of a rule node creates new transformers and leaves the existing ones alone. -/
theorem apply_extends (hg : g.TransformersSound) (hp : products product.uniqueName)
    (h : apply env product scripts g n = .ok result) :
    ExtendsTransformers products g result.graph := by
  have hrefl : ExtendsTransformers products g g := ExtendsTransformers.refl hg
  have hdecide := hrefl.keeps
    (decide_keeps env g n (env.project.rule (g.ruleNode n).rule)
      (inputSets g product (g.ruleNode n).rule (env.project.rule (g.ruleNode n).rule)))
  simp only [apply] at h
  split_ifs at h
  · cases h
    exact hdecide
  · exact reapply_extends hdecide hp h

end RuleNode

end Qbs
