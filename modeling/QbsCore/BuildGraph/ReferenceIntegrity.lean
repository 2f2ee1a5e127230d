import QbsCore.BuildGraph.ExclusiveDependents

/-!
# Reference integrity after a removal

Which references to removed artifacts survive the removal of an artifact with its
exclusive dependents.

Main results:

- Theorem {lit}`BuildGraph.mem_removed_iff`: the removed artifacts are exactly the
  ones that depend exclusively on the given artifact.
- Theorem {lit}`BuildGraph.noReferenceTo_removed_iff`: no surviving object refers to a
  removed artifact exactly when no surviving transformer lists one among its explicit
  dependencies, or another transformer's artifact among its outputs, and the old sets of
  rule nodes list only children of the rule node.

Current gaps:

- None.
-/

namespace Qbs

namespace BuildGraph

/-! ## Well-formed build data -/

/-- A node is in the build data of its product. -/
def Contains (g : BuildGraph) (n : NodeId) : Prop :=
  ∃ d, g.productData (g.productOf n) = some d ∧ n ∈ d.nodes

/-- Build data as the rest of the code keeps it, also while a rule is applied and between two
removals: the scanner has only added children, artifacts with children have a transformer and
the rule node of their rule as child, and the tables list each artifact in its own place. What
an earlier removal has taken out has no children. -/
structure WellFormed (g : BuildGraph) : Prop extends Removable g where
  scanner_subset : ∀ p v, g.isArtifact p = true →
    v ∈ (g.artifact p).childrenAddedByScanner → v ∈ g.children p
  parent_generated : ∀ p c, g.isArtifact p = true → c ∈ g.children p →
    ∃ t, (g.artifact p).transformer = some t
  producer : ∀ p c, g.isArtifact p = true → c ∈ g.children p →
    ∃ r, r ∈ g.children p ∧ g.isRuleNode r = true
  lookup_own : ∀ f n, FileResource.artifact n ∈ g.lookupTable f → (g.artifact n).filePath = f
  nodes_own : ∀ q d n, g.productData q = some d → n ∈ d.nodes → g.productOf n = q
  roots_own : ∀ q d n, g.productData q = some d → n ∈ d.roots → g.productOf n = q
  tags_own : ∀ q d tag n, g.productData q = some d → n ∈ d.artifactsByFileTag.value tag →
    g.productOf n = q ∧ tag ∈ (g.artifact n).fileTags

/-- The artifacts that depend exclusively on an artifact: itself, and each artifact with a
child among them if all inputs of its transformer are among them, too. -/
inductive DependsExclusively (g : BuildGraph) (a : NodeId) : NodeId → Prop
  | self : DependsExclusively g a a
  | parent {p c : NodeId} {t : TransformerId} (hartifact : g.isArtifact p = true)
      (hchild : c ∈ g.children p) (hc : DependsExclusively g a c)
      (ht : (g.artifact p).transformer = some t)
      (hinputs : ∀ i, i ∈ (g.transformer t).inputs → DependsExclusively g a i) :
      DependsExclusively g a p

/-- In the build data of its product, or at least with children. -/
def InUse (g : BuildGraph) (p : NodeId) : Prop :=
  g.Contains p ∨ ∃ c, c ∈ g.children p

/-- The inputs of a transformer are children of its outputs, at least those that depend
exclusively on an artifact. A rule node that is applied again has broken the edges to its
removed inputs, but these are no outputs of its own rule. -/
def InputsConnected (g : BuildGraph) (a : NodeId) : Prop :=
  ∀ p t, g.isArtifact p = true → g.InUse p → (g.artifact p).transformer = some t →
    ∀ i, i ∈ (g.transformer t).inputs → DependsExclusively g a i → i ∈ g.children p

variable {a n p r : NodeId} {s : RemovalState} {g : BuildGraph}

theorem DependsExclusively.isArtifact (ha : g.isArtifact a = true) (h : DependsExclusively g a r) :
    g.isArtifact r = true := by
  cases h with
  | self => exact ha
  | parent hartifact hchild hc ht hinputs => exact hartifact

/-- Whether an artifact is in one of the old sets of a rule node. -/
def inOldSets (r : RuleNode) (n : NodeId) : Prop :=
  n ∈ r.oldInputArtifacts.artifacts ∨ n ∈ r.oldExplicitlyDependsOn.artifacts ∨
    n ∈ r.oldAuxiliaryInputs.artifacts

theorem inOldSets_removeOldInputArtifact {r : RuleNode} :
    inOldSets (removeOldInputArtifact a r) n ↔ inOldSets r n ∧ n ≠ a := by
  simp only [inOldSets, removeOldInputArtifact, OldArtifactSet.mem_forget]
  tauto

/-! ## The invariant of a removal -/

/-- What holds in every state of a removal of the exclusive dependents of an artifact. -/
structure ExclusiveInvariant (g₀ : BuildGraph) (a₀ : NodeId) (s : RemovalState) : Prop where
  sound : ∀ r, r ∈ s.2 → DependsExclusively g₀ a₀ r
  inputs_kept : ∀ t i, i ∈ (g₀.transformer t).inputs → i ∉ s.2 → i ∈ (s.1.transformer t).inputs
  inputs_children : ∀ p t, g₀.isArtifact p = true → g₀.InUse p → p ∉ s.2 →
    (g₀.artifact p).transformer = some t → ∀ i, i ∈ (s.1.transformer t).inputs →
    DependsExclusively g₀ a₀ i → i ∈ s.1.children p
  outputs_kept : ∀ t o, o ∈ (g₀.transformer t).outputs → (g₀.artifact o).transformer ≠ some t →
    o ∈ (s.1.transformer t).outputs
  producer_kept : ∀ p r, g₀.isArtifact p = true → p ∉ s.2 → g₀.isRuleNode r = true →
    r ∈ g₀.children p → r ∈ s.1.children p
  scanner_children : ∀ p v, g₀.isArtifact p = true →
    v ∈ (s.1.artifact p).childrenAddedByScanner → v ∈ s.1.children p
  starved : ∀ p t, g₀.isArtifact p = true → g₀.InUse p → p ∉ s.2 →
    (g₀.artifact p).transformer = some t → (∀ i, i ∉ (s.1.transformer t).inputs) →
    (∀ c, g₀.isArtifact c = true → c ∈ g₀.children p → c ∈ s.1.children p) ∨
      ∃ y, y ∈ (g₀.transformer t).inputs ∧ y ∈ s.1.children p
  forgotten : ∀ n r, g₀.isRuleNode n = true → r ∈ g₀.children n →
    r ∈ s.1.children n ∨ ¬inOldSets (s.1.ruleNode n) r
  old_kept : ∀ n r, g₀.isRuleNode n = true → r ∉ g₀.children n → inOldSets (g₀.ruleNode n) r →
    inOldSets (s.1.ruleNode n) r
  nodes_kept : ∀ q d, g₀.productData q = some d → ∃ d', s.1.productData q = some d' ∧
    ∀ n, n ∈ d.nodes → n ∉ s.2 → n ∈ d'.nodes

variable {g₀ : BuildGraph} {a₀ : NodeId} {s : RemovalState}

theorem ExclusiveInvariant.init (hwf : g₀.WellFormed) (hin : g₀.InputsConnected a₀) :
    ExclusiveInvariant g₀ a₀ (g₀, {a₀}) where
  sound r hr := by
    rw [SortedSet.mem_singleton.mp hr]
    exact DependsExclusively.self
  inputs_kept _ _ hi _ := hi
  inputs_children p t hp huse _ ht i hi hdep := hin p t hp huse ht i hi hdep
  outputs_kept _ _ ho _ := ho
  producer_kept _ _ _ _ _ hr := hr
  scanner_children p v hp hv := hwf.scanner_subset p v hp hv
  starved _ _ _ _ _ _ _ := Or.inl fun _ _ hc => hc
  forgotten _ _ _ hr := Or.inl hr
  old_kept _ _ _ _ ho := ho
  nodes_kept _ d hd := ⟨d, hd, fun _ hn _ => hn⟩

/-! ## Detaching keeps the invariant -/

theorem transformer_afterDetach (s : RemovalState) (p a : NodeId) (t : TransformerId) :
    (afterDetach s p a).1.transformer t =
      if ((afterDetach s p a).1.children p).isEmpty = false ∧
          (s.1.artifact p).transformer = some t then
        { s.1.transformer t with inputs := (s.1.transformer t).inputs.remove a }
      else s.1.transformer t := by
  have h := (detached_spec (g := s.1) p a).transformer t
  rcases afterDetach_cases s p a with ⟨hEq, -⟩ | ⟨hEq, -⟩ <;> rw [hEq] <;> exact h

theorem mem_inputs_afterDetach {i : NodeId} {t : TransformerId}
    (hi : i ∈ (s.1.transformer t).inputs) (hia : i ≠ a) :
    i ∈ ((afterDetach s p a).1.transformer t).inputs := by
  rw [transformer_afterDetach]
  split
  · exact SortedSet.mem_remove.mpr ⟨hi, hia⟩
  · exact hi

theorem ruleNode_afterDetach (s : RemovalState) (p a : NodeId) :
    (afterDetach s p a).1.ruleNode = s.1.ruleNode := by
  have h := (detached_spec (g := s.1) p a).ruleNode
  rcases afterDetach_cases s p a with ⟨hEq, -⟩ | ⟨hEq, -⟩ <;> rw [hEq] <;> exact h

theorem productData_afterDetach (s : RemovalState) (p a : NodeId) :
    (afterDetach s p a).1.productData = s.1.productData := by
  have h := (detached_spec (g := s.1) p a).productData
  rcases afterDetach_cases s p a with ⟨hEq, -⟩ | ⟨hEq, -⟩ <;> rw [hEq] <;> exact h

theorem scanner_afterDetach {v : NodeId}
    (hv : v ∈ ((afterDetach s p a).1.artifact n).childrenAddedByScanner) :
    v ∈ (s.1.artifact n).childrenAddedByScanner ∧
      ¬(n = p ∧ v = a ∧ s.1.isArtifact p = true ∧ s.1.isArtifact a = true) := by
  rcases (detached_spec (g := s.1) p a).artifact n with ⟨scanner, hart, hsub⟩
  rcases afterDetach_cases s p a with ⟨hEq, -⟩ | ⟨hEq, -⟩
  · rw [hEq, hart] at hv
    exact hsub v hv
  · rcases artifact_clearTimestamp (g := s.1.detachFromParent p a) p n with ⟨_, htime⟩
    rw [hEq] at hv
    simp only [htime, hart] at hv
    exact hsub v hv

/-- A parent that is kept still has children, and its transformer still has inputs. -/
theorem kept_of_not_removed (hp : p ∉ (afterDetach s p a).2) :
    ((afterDetach s p a).1.children p).isEmpty = false ∧
      ∀ t, (s.1.artifact p).transformer = some t →
        ∃ i, i ∈ ((afterDetach s p a).1.transformer t).inputs := by
  rcases afterDetach_cases s p a with ⟨hEq, -⟩ | ⟨hEq, hkeep⟩
  · rw [hEq] at hp
    exact absurd (SortedSet.mem_insert_self p s.2) hp
  · rcases (detached_spec (g := s.1) p a).artifact p with ⟨_, hart, -⟩
    simp only [removeParent, Bool.or_eq_false_iff, hart] at hkeep
    rw [hEq]
    refine ⟨hkeep.1, ?_⟩
    intro t ht
    simp only [ht] at hkeep
    exact SortedSet.isEmpty_eq_false_iff.mp hkeep.2

/-- A parent that is newly removed depends exclusively on the artifact. -/
theorem dependsExclusively_of_removed (hwf : g₀.WellFormed) (ha₀ : g₀.isArtifact a₀ = true)
    (hf : RemovalFrame g₀ s) (hinv : ExclusiveInvariant g₀ a₀ s) (ha : a ∈ s.2)
    (hp : g₀.isArtifact p = true) (hchild : a ∈ g₀.children p) (hps : p ∉ s.2)
    (hremoved : (s.1.detachFromParent p a).removeParent p = true)
    (hEq : (afterDetach s p a).1 = s.1.detachFromParent p a) : DependsExclusively g₀ a₀ p := by
  rcases hwf.parent_generated p a hp hchild with ⟨t, ht⟩
  have hts : (s.1.artifact p).transformer = some t := by rw [hf.shrinks.transformerOf, ht]
  -- the rule node of the parent is still its child
  have hnonempty : ((s.1.detachFromParent p a).children p).isEmpty = false := by
    rcases hwf.producer p a hp hchild with ⟨r, hr, hrule⟩
    refine SortedSet.isEmpty_eq_false_iff.mpr ⟨r, ?_⟩
    refine ((detached_spec (g := s.1) p a).children p r).mpr
      ⟨hinv.producer_kept p r hp hps hrule hr, ?_⟩
    rintro ⟨-, rfl⟩
    have hart := (hinv.sound r ha).isArtifact ha₀
    rw [isRuleNode_eq_not, hart] at hrule
    cases hrule
  rcases (detached_spec (g := s.1) p a).artifact p with ⟨_, hart, -⟩
  simp only [removeParent, hnonempty, Bool.false_or, hart, hts] at hremoved
  refine DependsExclusively.parent hp hchild (hinv.sound a ha) ht ?_
  intro i hi
  by_contra hne
  have his : i ∉ s.2 := fun hc => hne (hinv.sound i hc)
  have hia : i ≠ a := by
    rintro rfl
    exact his ha
  have hmem := mem_inputs_afterDetach (p := p) (hinv.inputs_kept t i hi his) hia
  rw [hEq] at hmem
  exact SortedSet.isEmpty_iff_forall.mp hremoved i hmem

theorem ExclusiveInvariant.afterDetach (hwf : g₀.WellFormed) (ha₀ : g₀.isArtifact a₀ = true)
    (hf : RemovalFrame g₀ s) (hinv : ExclusiveInvariant g₀ a₀ s) (ha : a ∈ s.2)
    (hp : g₀.isArtifact p = true) (hchild : a ∈ g₀.children p) :
    ExclusiveInvariant g₀ a₀ (afterDetach s p a) := by
  have haArt := (hinv.sound a ha).isArtifact ha₀
  have hold : ∀ n, n ∉ (BuildGraph.afterDetach s p a).2 → n ∉ s.2 :=
    fun n hn hc => hn (mem_afterDetach_removed hc)
  have hnotRule : ∀ r, g₀.isRuleNode r = true → r ≠ a := by
    rintro r hr rfl
    rw [isRuleNode_eq_not, haArt] at hr
    cases hr
  constructor
  case sound =>
    intro r hr
    rcases afterDetach_cases s p a with ⟨hEq, hremoved⟩ | ⟨hEq, -⟩
    · rw [hEq] at hr
      rcases SortedSet.mem_insert.mp hr with rfl | hr
      · by_cases hrs : r ∈ s.2
        · exact hinv.sound r hrs
        · exact dependsExclusively_of_removed hwf ha₀ hf hinv ha hp hchild hrs hremoved
            (congrArg Prod.fst hEq)
      · exact hinv.sound r hr
    · rw [hEq] at hr
      exact hinv.sound r hr
  case inputs_kept =>
    intro t i hi his
    refine mem_inputs_afterDetach (hinv.inputs_kept t i hi (hold i his)) ?_
    rintro rfl
    exact hold i his ha
  case inputs_children =>
    intro q t hq huse hqs ht i hi hdep
    rw [mem_children_afterDetach]
    have hts : (s.1.artifact q).transformer = some t := by rw [hf.shrinks.transformerOf, ht]
    have hshrink := afterDetach_shrinks s p a
    refine ⟨hinv.inputs_children q t hq huse (hold q hqs) ht i (hshrink.inputs t i hi) hdep, ?_⟩
    rintro ⟨rfl, rfl⟩
    rw [transformer_afterDetach, if_pos ⟨(kept_of_not_removed hqs).1, hts⟩] at hi
    exact (SortedSet.mem_remove.mp hi).2 rfl
  case outputs_kept =>
    intro t o ho hne
    rw [transformer_afterDetach]
    split_ifs <;> exact hinv.outputs_kept t o ho hne
  case producer_kept =>
    intro q r hq hqs hr hrq
    rw [mem_children_afterDetach]
    exact ⟨hinv.producer_kept q r hq (hold q hqs) hr hrq, fun hc => hnotRule r hr hc.2⟩
  case scanner_children =>
    intro q v hq hv
    rw [mem_children_afterDetach]
    have hv := scanner_afterDetach hv
    refine ⟨hinv.scanner_children q v hq hv.1, ?_⟩
    rintro ⟨rfl, rfl⟩
    refine hv.2 ⟨rfl, rfl, ?_, ?_⟩
    · rw [hf.shrinks.isArtifact, hp]
    · rw [hf.shrinks.isArtifact, haArt]
  case starved =>
    intro q t hq huse hqs ht hempty
    have hts : (s.1.artifact q).transformer = some t := by rw [hf.shrinks.transformerOf, ht]
    have hqp : q ≠ p := by
      rintro rfl
      rcases (kept_of_not_removed hqs).2 t hts with ⟨i, hi⟩
      exact hempty i hi
    have hsame : ∀ v, v ∈ s.1.children q → v ∈ (BuildGraph.afterDetach s p a).1.children q := by
      intro v hv
      rw [mem_children_afterDetach]
      exact ⟨hv, fun hc => hqp hc.1⟩
    by_cases hbefore : ∃ i, i ∈ (s.1.transformer t).inputs
    · -- the last input has just been taken away; it is still a child of this output
      rcases hbefore with ⟨i, hi⟩
      have hia : i = a := by
        by_contra hne
        exact hempty i (mem_inputs_afterDetach hi hne)
      have hchild := hinv.inputs_children q t hq huse (hold q hqs) ht i hi (hia ▸ hinv.sound a ha)
      exact Or.inr ⟨i, hf.shrinks.inputs t i hi, hsame i hchild⟩
    · rcases hinv.starved q t hq huse (hold q hqs) ht (not_exists.mp hbefore) with
        hall | ⟨y, hy, hyc⟩
      · exact Or.inl fun c hc hcq => hsame c (hall c hc hcq)
      · exact Or.inr ⟨y, hy, hsame y hyc⟩
  case forgotten =>
    intro n r hn hrn
    rw [ruleNode_afterDetach, mem_children_afterDetach]
    refine (hinv.forgotten n r hn hrn).imp_left fun hr => ⟨hr, ?_⟩
    rintro ⟨rfl, -⟩
    rw [isRuleNode_eq_not, hp] at hn
    cases hn
  case old_kept =>
    intro n r hn hrn ho
    rw [ruleNode_afterDetach]
    exact hinv.old_kept n r hn hrn ho
  case nodes_kept =>
    intro q d hd
    rw [productData_afterDetach]
    rcases hinv.nodes_kept q d hd with ⟨d', hd', hsub⟩
    exact ⟨d', hd', fun n hn hns => hsub n hn (hold n hns)⟩

/-! ## Finishing keeps the invariant -/

theorem ExclusiveInvariant.afterRemoval (ha₀ : g₀.isArtifact a₀ = true) (hf : RemovalFrame g₀ s)
    (hinv : ExclusiveInvariant g₀ a₀ s) (ha : a ∈ s.2)
    (hpar : ∀ p, p ∈ s.1.parents a → g₀.isArtifact p = false) :
    ExclusiveInvariant g₀ a₀ (s.1.afterRemoval a true, s.2) := by
  have hspec := afterRemoval_spec hf.mirror a true
  have haArt := (hinv.sound a ha).isArtifact ha₀
  have hparS : ∀ p, p ∈ s.1.parents a → s.1.isArtifact p = false := by
    intro p hp
    rw [hf.shrinks.isArtifact]
    exact hpar p hp
  have hnoEdge : ∀ p, g₀.isArtifact p = true → a ∉ s.1.children p := by
    intro p hp hc
    rw [hpar p ((hf.mirror.mem_parents_iff p a).mpr hc)] at hp
    cases hp
  have hkeep : ∀ p v, g₀.isArtifact p = true → p ∉ s.2 → v ∈ s.1.children p →
      v ∈ (s.1.afterRemoval a true).children p := by
    intro p v hp hps hv
    refine (hspec.children p v).mpr ⟨hv, ?_, ?_⟩
    · rintro rfl
      exact hps ha
    · rintro rfl
      exact hnoEdge p hp hv
  constructor
  case sound => exact hinv.sound
  case inputs_kept =>
    intro t i hi his
    rw [(hspec.inputs hparS t).1]
    exact hinv.inputs_kept t i hi his
  case inputs_children =>
    intro p t hp huse hps ht i hi hdep
    rw [(hspec.inputs hparS t).1] at hi
    exact hkeep p i hp hps (hinv.inputs_children p t hp huse hps ht i hi hdep)
  case outputs_kept =>
    intro t o ho hne
    refine (hspec.outputs t o).mpr ⟨hinv.outputs_kept t o ho hne, ?_⟩
    rintro ⟨rfl, ht⟩
    rw [hf.shrinks.transformerOf] at ht
    exact hne ht
  case producer_kept =>
    intro p r hp hps hr hrp
    exact hkeep p r hp hps (hinv.producer_kept p r hp hps hr hrp)
  case scanner_children =>
    intro p v hp hv
    rcases hspec.artifact p with ⟨scanner, hEq, hsub⟩
    rw [hEq] at hv
    have hv := hsub v hv
    have hc := hinv.scanner_children p v hp hv.1
    refine (hspec.children p v).mpr ⟨hc, hv.2.1, ?_⟩
    rintro rfl
    exact hnoEdge p hp hc
  case starved =>
    intro p t hp huse hps ht hempty
    simp only [(hspec.inputs hparS t).1] at hempty
    rcases hinv.starved p t hp huse hps ht hempty with hall | ⟨y, hy, hyc⟩
    · exact Or.inl fun c hc hcp => hkeep p c hp hps (hall c hc hcp)
    · exact Or.inr ⟨y, hy, hkeep p y hp hps hyc⟩
  case forgotten =>
    intro n r hn hrn
    have hna : n ≠ a := by
      rintro rfl
      rw [isRuleNode_eq_not, haArt] at hn
      cases hn
    rw [hspec.children, hspec.ruleNode]
    rcases hinv.forgotten n r hn hrn with hr | hr
    · by_cases hra : r = a
      · subst hra
        right
        have hparent : n ∈ s.1.filterRuleNodes (s.1.parents r) := by
          rw [mem_filterRuleNodes, hf.shrinks.isRuleNode]
          exact ⟨(hf.mirror.mem_parents_iff n r).mpr hr, hn⟩
        rw [if_pos hparent, inOldSets_removeOldInputArtifact]
        exact fun hc => hc.2 rfl
      · exact Or.inl ⟨hr, hna, hra⟩
    · right
      split
      · rw [inOldSets_removeOldInputArtifact]
        exact fun hc => hr hc.1
      · exact hr
  case old_kept =>
    intro n r hn hrn ho
    rw [hspec.ruleNode]
    have ho := hinv.old_kept n r hn hrn ho
    split <;> rename_i hparent
    · rw [inOldSets_removeOldInputArtifact]
      refine ⟨ho, ?_⟩
      rintro rfl
      have hc := (hf.mirror.mem_parents_iff n r).mp ((mem_filterRuleNodes s.1).mp hparent).1
      exact hrn (hf.shrinks.children n r hc)
    · exact ho
  case nodes_kept =>
    intro q d hd
    rcases hinv.nodes_kept q d hd with ⟨d', hd', hsub⟩
    rw [hspec.productData]
    split
    · refine ⟨_, by rw [hd']; rfl, ?_⟩
      intro n hn hns
      refine SortedSet.mem_remove.mpr ⟨hsub n hn hns, ?_⟩
      rintro rfl
      exact hns ha
    · exact ⟨d', hd', hsub⟩

/-- The invariant holds at the end of a removal. -/
theorem ExclusiveInvariant.run (hwf : g₀.WellFormed) (hin : g₀.InputsConnected a₀)
    (ha₀ : g₀.isArtifact a₀ = true) {s' : RemovalState} (h : RemovalRun g₀ (g₀, {a₀}) s') :
    ExclusiveInvariant g₀ a₀ s' ∧ RemovalFrame g₀ s' := by
  refine RemovalRun.invariant ?_ (hwf.toRemovable.frame _) (ExclusiveInvariant.init hwf hin) h
  intro s s' hf hinv hstep
  cases hstep with
  | detach hremoved hartifact hchild => exact hinv.afterDetach hwf ha₀ hf hremoved hartifact hchild
  | finish hremoved hpar => exact hinv.afterRemoval ha₀ hf hremoved hpar

/-! ## The removed artifacts -/

/-- At the end of a removal, everything that depends exclusively on the artifact is removed. -/
theorem removed_of_dependsExclusively (ha₀ : g₀.isArtifact a₀ = true) (hf : RemovalFrame g₀ s)
    (hinv : ExclusiveInvariant g₀ a₀ s) (ha : a₀ ∈ s.2) (hgone : ∀ r, r ∈ s.2 → Gone s.1 r)
    (hr : DependsExclusively g₀ a₀ r) : r ∈ s.2 := by
  induction hr with
  | self => exact ha
  | @parent p c t hartifact hchild hc ht hinputs ihc ihinputs =>
      by_contra hp
      have hempty : ∀ i, i ∉ (s.1.transformer t).inputs := by
        intro i hi
        have his : i ∈ s.2 := ihinputs i (hf.shrinks.inputs t i hi)
        exact (hgone i his).parents p (hinv.inputs_children p t hartifact (Or.inr ⟨c, hchild⟩) hp ht
          i hi (hinv.sound i his))
      rcases hinv.starved p t hartifact (Or.inr ⟨c, hchild⟩) hp ht hempty with hall | ⟨y, hy, hyc⟩
      · exact (hgone c ihc).parents p (hall c (hc.isArtifact ha₀) hchild)
      · exact (hgone y (ihinputs y hy)).parents p hyc

/-- The outcome of a removal: the removed artifacts are gone, and they are the ones that depend
exclusively on the given artifact. -/
theorem removeArtifactAndExclusiveDependents_spec (hwf : g.WellFormed) (hin : g.InputsConnected a)
    (ha : g.isArtifact a = true) :
    ∃ s, g.removeArtifactAndExclusiveDependents a = .ok s ∧ ExclusiveInvariant g a s ∧
      RemovalFrame g s ∧ (∀ r, r ∈ s.2 → Gone s.1 r) ∧
      ∀ r, r ∈ s.2 ↔ DependsExclusively g a r := by
  rcases removeArtifactAndExclusiveDependents_run hwf.toRemovable a with ⟨s, hs, hrun, has, hgone⟩
  rcases ExclusiveInvariant.run hwf hin ha hrun with ⟨hinv, hf⟩
  exact ⟨s, hs, hinv, hf, hgone, fun r =>
    ⟨hinv.sound r, removed_of_dependsExclusively ha hf hinv has hgone⟩⟩

/-! ## References to removed artifacts -/

/-- No object of the build data refers to one of the given artifacts. -/
structure NoReferenceTo (g : BuildGraph) (removed : ArtifactSet) : Prop where
  edges : ∀ n, g.Contains n → ∀ r, r ∈ removed → r ∉ g.children n ∧ r ∉ g.parents n
  scanner : ∀ n, g.Contains n → g.isArtifact n = true → ∀ r, r ∈ removed →
    r ∉ (g.artifact n).childrenAddedByScanner
  transformer : ∀ n t, g.Contains n → g.isArtifact n = true →
    (g.artifact n).transformer = some t → ∀ r, r ∈ removed →
    r ∉ (g.transformer t).inputs ∧ r ∉ (g.transformer t).outputs ∧
      r ∉ (g.transformer t).explicitlyDependsOn
  ruleNode : ∀ n, g.Contains n → g.isRuleNode n = true → ∀ r, r ∈ removed →
    ¬inOldSets (g.ruleNode n) r
  lookupTable : ∀ f r, r ∈ removed → FileResource.artifact r ∉ g.lookupTable f
  productData : ∀ q d, g.productData q = some d → ∀ r, r ∈ removed →
    r ∉ d.nodes ∧ r ∉ d.roots ∧ ∀ tag, r ∉ d.artifactsByFileTag.value tag

/-- The references that a removal does not find through the edges of the build graph: the
explicit dependencies of surviving transformers, outputs that another transformer has taken
over, and what the old sets of rule nodes contain beyond the children of the rule node. -/
structure NoHiddenReference (g : BuildGraph) (a : NodeId) : Prop where
  explicitlyDependsOn : ∀ n t, g.Contains n → g.isArtifact n = true →
    ¬DependsExclusively g a n → (g.artifact n).transformer = some t →
    ∀ r, r ∈ (g.transformer t).explicitlyDependsOn → ¬DependsExclusively g a r
  outputs : ∀ n t, g.Contains n → g.isArtifact n = true → ¬DependsExclusively g a n →
    (g.artifact n).transformer = some t → ∀ r, r ∈ (g.transformer t).outputs →
    DependsExclusively g a r → (g.artifact r).transformer = some t
  oldSets : ∀ n, g.Contains n → g.isRuleNode n = true → ∀ r, DependsExclusively g a r →
    inOldSets (g.ruleNode n) r → r ∈ g.children n

/-- Survivors are the nodes of the build data that were not removed. -/
theorem contains_deleteArtifacts_iff (hinv : ExclusiveInvariant g a s) (hf : RemovalFrame g s)
    (hgone : ∀ r, r ∈ s.2 → Gone s.1 r) :
    (s.1.deleteArtifacts s.2).Contains n ↔ g.Contains n ∧ n ∉ s.2 := by
  constructor
  · rintro ⟨d', hd', hn⟩
    have hd' : s.1.productData (s.1.productOf n) = some d' := hd'
    refine ⟨?_, fun hns => ((hgone n hns).nodes d' hd').1 hn⟩
    rw [hf.shrinks.productOf] at hd'
    rcases hf.shrinks.productData _ d' hd' with ⟨d, hd, hsub⟩
    exact ⟨d, hd, hsub.nodes n hn⟩
  · rintro ⟨⟨d, hd, hn⟩, hns⟩
    rcases hinv.nodes_kept _ d hd with ⟨d', hd', hsub⟩
    refine ⟨d', ?_, hsub n hn hns⟩
    change s.1.productData (s.1.productOf n) = some d'
    rw [hf.shrinks.productOf]
    exact hd'

/-- A removed artifact is nowhere in the product data. -/
theorem not_mem_productData_of_removed (hwf : g.WellFormed) (hf : RemovalFrame g s)
    (hgone : ∀ r, r ∈ s.2 → Gone s.1 r) {q : ProductId} {d' : ProductBuildData}
    (hd' : s.1.productData q = some d') (hr : r ∈ s.2) :
    r ∉ d'.nodes ∧ r ∉ d'.roots ∧ ∀ tag, r ∉ d'.artifactsByFileTag.value tag := by
  rcases hf.shrinks.productData q d' hd' with ⟨d, hd, hsub⟩
  have hown : g.productOf r = q → s.1.productData (s.1.productOf r) = some d' := by
    rintro rfl
    rw [hf.shrinks.productOf]
    exact hd'
  refine ⟨?_, ?_, ?_⟩
  · intro hn
    exact ((hgone r hr).nodes d' (hown (hwf.nodes_own q d r hd (hsub.nodes r hn)))).1 hn
  · intro hn
    exact ((hgone r hr).nodes d' (hown (hwf.roots_own q d r hd (hsub.roots r hn)))).2 hn
  · intro tag hn
    have htag := hwf.tags_own q d tag r hd (hsub.tags tag r hn)
    refine (hgone r hr).tags d' (hown htag.1) tag ?_ hn
    rw [hf.shrinks.fileTags]
    exact htag.2

/-- After the removal of an artifact and the deletion of what was removed, no surviving object
refers to a removed artifact exactly when there was no hidden reference. -/
theorem noReferenceTo_removed_iff (g : BuildGraph) (a : NodeId) (hwf : g.WellFormed)
    (hin : g.InputsConnected a) (ha : g.isArtifact a = true) :
    ∃ g' removed, g.removeArtifactAndExclusiveDependents a = .ok (g', removed) ∧
      (∀ r, r ∈ removed ↔ DependsExclusively g a r) ∧
      (NoReferenceTo (g'.deleteArtifacts removed) removed ↔ NoHiddenReference g a) := by
  rcases removeArtifactAndExclusiveDependents_spec hwf hin ha with
    ⟨⟨g', removed⟩, hs, hinv, hf, hgone, hmem⟩
  have hcontains := fun n => contains_deleteArtifacts_iff (n := n) hinv hf hgone
  have hrule : ∀ n, g.isRuleNode n = true → n ∉ removed := by
    intro n hn hns
    rw [isRuleNode_eq_not, (hinv.sound n hns).isArtifact ha] at hn
    cases hn
  have hart : ∀ n, n ∉ removed → ((g'.deleteArtifacts removed).artifact n).transformer =
      (g.artifact n).transformer := by
    intro n hns
    simp only [deleteArtifacts, hns, if_false]
    exact hf.shrinks.transformerOf n
  have htype : ∀ n, (g'.deleteArtifacts removed).isArtifact n = g.isArtifact n :=
    fun n => hf.shrinks.isArtifact n
  have hruleType : ∀ n, (g'.deleteArtifacts removed).isRuleNode n = g.isRuleNode n :=
    fun n => hf.shrinks.isRuleNode n
  refine ⟨g', removed, hs, hmem, ?_⟩
  constructor
  · intro hno
    constructor
    · intro n t hn hartn hkept ht r hr hrED
      have hns : n ∉ removed := fun hc => hkept ((hmem n).mp hc)
      have h := hno.transformer n t ((hcontains n).mpr ⟨hn, hns⟩) ((htype n).trans hartn)
        ((hart n hns).trans ht) r ((hmem r).mpr hrED)
      refine h.2.2 ?_
      change r ∈ (g'.transformer t).explicitlyDependsOn
      rw [hf.shrinks.explicitlyDependsOn]
      exact hr
    · intro n t hn hartn hkept ht r hr hrED
      by_contra hother
      have hns : n ∉ removed := fun hc => hkept ((hmem n).mp hc)
      have h := hno.transformer n t ((hcontains n).mpr ⟨hn, hns⟩) ((htype n).trans hartn)
        ((hart n hns).trans ht) r ((hmem r).mpr hrED)
      exact h.2.1 (hinv.outputs_kept t r hr hother)
    · intro n hn hrn r hr hold
      by_contra hchild
      exact hno.ruleNode n ((hcontains n).mpr ⟨hn, hrule n hrn⟩) ((hruleType n).trans hrn) r
        ((hmem r).mpr hr) (hinv.old_kept n r hrn hchild hold)
  · intro hhidden
    constructor
    case edges =>
      intro n hn r hr
      have hns := ((hcontains n).mp hn).2
      simp only [deleteArtifacts, hns, if_false]
      refine ⟨(hgone r hr).parents n, fun hp => (hgone r hr).children n ?_⟩
      exact (hf.mirror.mem_parents_iff r n).mp hp
    case scanner =>
      intro n hn hartn r hr hsc
      have hns := ((hcontains n).mp hn).2
      simp only [deleteArtifacts, hns, if_false, SortedSet.mem_filter] at hsc
      exact (hgone r hr).parents n
        (hinv.scanner_children n r ((htype n).symm.trans hartn) hsc.1)
    case transformer =>
      intro n t hn hartn ht r hr
      have hn := (hcontains n).mp hn
      have hartn := (htype n).symm.trans hartn
      have ht := (hart n hn.2).symm.trans ht
      have hkept : ¬DependsExclusively g a n := fun hED => hn.2 ((hmem n).mpr hED)
      refine ⟨fun hi => ?_, fun ho => ?_, ?_⟩
      · exact (hgone r hr).parents n (hinv.inputs_children n t hartn (Or.inl hn.1) hn.2 ht r hi
          ((hmem r).mp hr))
      · refine (hgone r hr).outputs t ?_ ho
        rw [hf.shrinks.transformerOf]
        exact hhidden.outputs n t hn.1 hartn hkept ht r (hf.shrinks.outputs t r ho) ((hmem r).mp hr)
      change r ∉ (g'.transformer t).explicitlyDependsOn
      rw [hf.shrinks.explicitlyDependsOn]
      exact fun hc => hhidden.explicitlyDependsOn n t hn.1 hartn hkept ht r hc ((hmem r).mp hr)
    case ruleNode =>
      intro n hn hrn r hr hold
      have hn := (hcontains n).mp hn
      have hrn := (hruleType n).symm.trans hrn
      have hold₀ : inOldSets (g.ruleNode n) r := by
        have hshrink := hf.shrinks.ruleNode n
        exact hold.imp (hshrink.inputs r)
          (Or.imp (hshrink.explicitlyDependsOn r) (hshrink.auxiliary r))
      have hchild := hhidden.oldSets n hn.1 hrn r ((hmem r).mp hr) hold₀
      rcases hinv.forgotten n r hrn hchild with hc | hc
      · exact (hgone r hr).parents n hc
      · exact hc hold
    case lookupTable =>
      intro f r hr hl
      have hl : FileResource.artifact r ∈ g'.lookupTable f := hl
      have hown := hwf.lookup_own f r ((hf.shrinks.lookupTable f).subset hl)
      refine (hgone r hr).lookupTable ?_
      rw [hf.shrinks.filePath, hown]
      exact hl
    case productData =>
      intro q d hd r hr
      exact not_mem_productData_of_removed hwf hf hgone hd hr

/-! ## An explicit dependency that is removed -/

/-- Two rules with one source file and one output each; the output of the first rule depends
explicitly on the given artifacts. The first rule has just been applied again and has dropped an
output, which still has the old transformer. The nodes 0 and 1 are the rule nodes, 2 and 3 the
source files, 4 and 5 the outputs, which have the transformers 0 and 1, and node 6 is the dropped
output with the transformer 2. -/
def twoRules (explicitlyDependsOn : ArtifactSet) : BuildGraph :=
  { BuildGraph.empty with
    nodeType := fun n => if n < 2 then .ruleNode else .artifactNode
    productOf := fun _ => "p"
    artifact := fun n =>
      if n = 4 then { Artifact.create .generated "/b/x" with transformer := some 0 }
      else if n = 5 then { Artifact.create .generated "/b/y" with transformer := some 1 }
      else if n = 6 then { Artifact.create .generated "/b/z" with transformer := some 2 }
      else if n = 2 then Artifact.create .sourceFile "/s/x"
      else Artifact.create .sourceFile "/s/y"
    transformer := fun t =>
      if t = 0 then { Transformer.create 0 with
        inputs := {2}, outputs := {4}, explicitlyDependsOn := explicitlyDependsOn }
      else if t = 1 then { Transformer.create 1 with inputs := {3}, outputs := {5} }
      else if t = 2 then { Transformer.create 0 with
        inputs := {2}, outputs := SortedSet.ofList [4, 6] }
      else Transformer.create 3
    productData := fun q => if q = "p" then
      some { (default : ProductBuildData) with nodes := SortedSet.range 7 } else none
    lookupTable := fun f => if f = "/s/x" then [.artifact 2] else if f = "/s/y" then [.artifact 3]
      else if f = "/b/x" then [.artifact 4] else if f = "/b/y" then [.artifact 5]
      else if f = "/b/z" then [.artifact 6] else []
    nextNode := 7 }.withChildren fun n =>
      if n = 0 then {2} else if n = 1 then {3}
      else if n = 4 then (SortedSet.ofList [0, 2]).unite explicitlyDependsOn
      else if n = 5 then SortedSet.ofList [1, 3] else if n = 6 then SortedSet.ofList [0, 2] else ∅

theorem twoRules_outputs {e : ArtifactSet} {c : NodeId} (hp : (twoRules e).isArtifact p = true)
    (hc : c ∈ (twoRules e).children p) : p = 4 ∨ p = 5 ∨ p = 6 := by
  by_contra hne
  simp only [not_or] at hne
  have h0 : p ≠ 0 := by
    rintro rfl
    cases hp
  have h1 : p ≠ 1 := by
    rintro rfl
    cases hp
  simp [twoRules, withChildren, hne, h0, h1] at hc

theorem twoRules_wellFormed (e : ArtifactSet) : (twoRules e).WellFormed where
  mirror := mirror_withChildren _ _
  parent_lt u v hv := by
    simp only [twoRules, withChildren] at hv ⊢
    split at hv
    · assumption
    · simp at hv
  lookup_nodup f := by
    simp only [twoRules, withChildren]
    split_ifs <;> simp
  scanner_subset p v _ hv := by
    simp only [twoRules, withChildren] at hv
    split_ifs at hv <;> simp [Artifact.create] at hv
  parent_generated p c hp hc := by
    rcases twoRules_outputs hp hc with rfl | rfl | rfl
    · exact ⟨0, rfl⟩
    · exact ⟨1, rfl⟩
    · exact ⟨2, rfl⟩
  producer p c hp hc := by
    rcases twoRules_outputs hp hc with rfl | rfl | rfl
    · exact ⟨0, by simp [twoRules, withChildren], rfl⟩
    · exact ⟨1, by simp [twoRules, withChildren], rfl⟩
    · exact ⟨0, by simp [twoRules, withChildren], rfl⟩
  lookup_own f n h := by
    simp only [twoRules, withChildren] at h ⊢
    split_ifs at h <;> simp_all [Artifact.create]
  nodes_own q d n hd _ := by
    simp only [twoRules, withChildren] at hd ⊢
    split_ifs at hd with hq
    exact hq.symm
  roots_own q d n hd _ := by
    simp only [twoRules, withChildren] at hd ⊢
    split_ifs at hd with hq
    exact hq.symm
  tags_own q d tag n hd h := by
    simp only [twoRules, withChildren] at hd
    split_ifs at hd with hq
    cases hd
    simp [default] at h

/-- The removal of the second output, on which the first one depends explicitly: the first
output survives, and its transformer still refers to the second one. -/
theorem explicitDependency_dangles :
    (twoRules {5}).WellFormed ∧ (twoRules {5}).isArtifact 5 = true ∧
      ∃ g' removed, (twoRules {5}).removeArtifactAndExclusiveDependents 5 = .ok (g', removed) ∧
        ¬NoReferenceTo (g'.deleteArtifacts removed) removed := by
  refine ⟨twoRules_wellFormed {5}, rfl, ?_⟩
  obtain ⟨s, hs⟩ : ∃ s, (twoRules {5}).removeArtifactAndExclusiveDependents 5 = .ok s :=
    ⟨_, rfl⟩
  refine ⟨s.1, s.2, hs, ?_⟩
  intro hno
  cases hs
  refine (hno.transformer 4 0 ⟨_, rfl, ?_⟩ rfl rfl 5 ?_).2.2 ?_ <;> decide

/-- Nothing depends on the dropped output. -/
theorem twoRules_dependsExclusively (h : DependsExclusively (twoRules ∅) 6 r) :
    r = 6 := by
  induction h with
  | self => rfl
  | parent _ hchild _ _ _ hc _ =>
      subst hc
      simp only [twoRules, withChildren] at hchild
      split_ifs at hchild <;> simp_all

/-- The removal of the dropped output leaves no reference to it. -/
theorem noReferenceTo_removed_iff_twoRules :
    ∃ g' removed, (twoRules ∅).removeArtifactAndExclusiveDependents 6 = .ok (g', removed) ∧
      (∀ r, r ∈ removed ↔ DependsExclusively (twoRules ∅) 6 r) ∧
      NoReferenceTo (g'.deleteArtifacts removed) removed := by
  rcases noReferenceTo_removed_iff (twoRules ∅) 6 (twoRules_wellFormed ∅) (fun p t _ _ _ i hi hdep => by
    cases twoRules_dependsExclusively hdep
    simp only [twoRules, withChildren] at hi
    split_ifs at hi <;> simp_all [Transformer.create]) rfl with ⟨g', removed, hs, hmem, hiff⟩
  refine ⟨g', removed, hs, hmem, hiff.mpr ⟨?_, ?_, ?_⟩⟩
  · intro n t _ _ _ _ r hr hdep
    cases twoRules_dependsExclusively hdep
    simp only [twoRules, withChildren] at hr
    split_ifs at hr <;> simp_all [Transformer.create]
  · intro n t _ _ _ _ r hr hdep
    cases twoRules_dependsExclusively hdep
    simp only [twoRules, withChildren] at hr ⊢
    split_ifs at hr <;> simp_all [Transformer.create]
  · intro n _ _ r _ hold
    simp [twoRules, withChildren, inOldSets, BuildGraph.empty, default, RuleNode.create] at hold

end BuildGraph

end Qbs
