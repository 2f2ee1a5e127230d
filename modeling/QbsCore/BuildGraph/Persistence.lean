import QbsCore.BuildGraph.ExclusiveDependents
import QbsCore.Library.TransitionSystem

/-!
# Saving the build graph

When the build graph is saved: storing a project skips the build graph unless it is
marked as modified, so every change of what is saved has to leave the mark.

Main results:

- Theorem {lit}`Persistence.persisted_step`: the effect of each operation on the mark
  and on what is saved.
- Theorem {lit}`Persistence.reportsChanges_step_iff`: when a step keeps changes reported.
- Theorem {lit}`Persistence.changes_reported_iff`: along a run all changes are
  reported exactly when each removal leads back to what was saved last.

Current gaps:

- Of the data in the file only nodes, edges and the lookup table are considered.
-/

namespace Qbs

namespace Persistence

open BuildGraph

/-! ## What is saved -/

/-- The nodes of each product, the edges and the content of the lookup table. -/
@[ext]
structure Persisted where
  nodes : ProductId → NodeSet
  children : NodeId → NodeSet
  lookupTable : FilePath → List FileResource

/-- The nodes of a product. -/
def nodesOf (g : BuildGraph) (q : ProductId) : NodeSet :=
  match g.productData q with
  | some d => d.nodes
  | none => ∅

def persisted (g : BuildGraph) : Persisted :=
  ⟨nodesOf g, g.children, g.lookupTable⟩

/-- Whether an entry of the lookup table is not one of the given artifacts. -/
def notAmong (removed : NodeSet) : FileResource → Bool
  | .artifact n => n ∉ removed
  | .fileDependency => true

/-- What is saved, without some nodes and all edges and entries of theirs. -/
def Persisted.without (p : Persisted) (removed : NodeSet) : Persisted where
  nodes q := (p.nodes q).subtract removed
  children u := if u ∈ removed then ∅ else (p.children u).subtract removed
  lookupTable f := (p.lookupTable f).filter (notAmong removed)

/-- Two versions of what is saved that agree except for some nodes. -/
def AgreeOutside (removed : NodeSet) (p q : Persisted) : Prop :=
  p.without removed = q.without removed

/-! ## Operations -/

/-- Take a rule node of a product that has disappeared out of the build graph. -/
def disconnectRuleNode (g : BuildGraph) (n : NodeId) : BuildGraph :=
  { g with
    children := fun u => if u = n then ∅ else
      if u ∈ g.parents n then (g.children u).remove n else g.children u
    parents := fun v => if v = n then ∅ else
      if v ∈ g.children n then (g.parents v).remove n else g.parents v }

/-- One node of a product that has disappeared. -/
def onNodeRemoved (g : BuildGraph) (n : NodeId) : Except ErrorInfo BuildGraph :=
  if g.isArtifact n then g.removeArtifact n false else .ok (disconnectRuleNode g n)

/-- A product has disappeared from the project. -/
def onProductRemoved (g : BuildGraph) (product : ProductId) : Except ErrorInfo BuildGraph := do
  let g ← (nodesOf g product).elems.foldlM onNodeRemoved g
  return { g with productData := Function.update g.productData product none }

/-- An operation on the build data of a project. The last one is what change tracking does
about products that have disappeared, beginning with marking the build graph as modified. -/
inductive Operation where
  | insertArtifact (product : ProductId) (a : Artifact)
  | connect (p c : NodeId)
  | removeArtifact (a : NodeId)
  | removeArtifactAndExclusiveDependents (a : NodeId)
  | setDirty
  | store
  | trackRemovedProducts (products : List ProductId)

/-- The build data of a project and what was saved last. -/
structure State where
  graph : BuildGraph
  saved : Persisted

/-- The build data as it was just loaded. -/
def loaded (g : BuildGraph) : State :=
  ⟨g.setClean, persisted g⟩

/-- Storing skips a build graph that is not marked as modified. -/
def store (s : State) : State :=
  if s.graph.isDirty then ⟨s.graph.setClean, persisted s.graph⟩ else s

/-- The effect of an operation; only existing nodes are connected. -/
def apply (s : State) : Operation → Except ErrorInfo State
  | .insertArtifact product a => do
      let (g, n) := s.graph.newArtifact a
      let g ← g.insertArtifact product n
      return { s with graph := g }
  | .connect p c => do
      qbsCheck (p < s.graph.nextNode && c < s.graph.nextNode) "nodes exist"
      let g ← s.graph.connect p c
      return { s with graph := g }
  | .removeArtifact a => do
      let g ← s.graph.removeArtifact a true
      return { s with graph := g }
  | .removeArtifactAndExclusiveDependents a => do
      let r ← s.graph.removeArtifactAndExclusiveDependents a
      return { s with graph := r.1 }
  | .setDirty => .ok { s with graph := s.graph.setDirty }
  | .store => .ok (store s)
  | .trackRemovedProducts products => do
      let g ← products.foldlM onProductRemoved s.graph.setDirty
      return { s with graph := g }

/-- A step: an operation that succeeds. -/
def Step (s : State) (op : Operation) (s' : State) : Prop :=
  apply s op = .ok s'

/-- Every change of what is saved is reported: the build graph is marked as modified. -/
def ReportsChanges (s : State) : Prop :=
  persisted s.graph ≠ s.saved → s.graph.isDirty = true

/-- The nodes of some products. -/
def nodesOfAll (g : BuildGraph) (products : List ProductId) : NodeSet :=
  SortedSet.ofList (products.flatMap fun p => (nodesOf g p).elems)

/-- The nodes that an operation removes. -/
def removedBy (g : BuildGraph) : Operation → NodeSet
  | .removeArtifact a => {a}
  | .removeArtifactAndExclusiveDependents a =>
      match g.removeArtifactAndExclusiveDependents a with
      | .ok (_, removed) => removed
      | .error _ => ∅
  | .trackRemovedProducts products => nodesOfAll g products
  | _ => ∅

/-- Whether an operation removes artifacts. -/
def removesArtifacts (g : BuildGraph) : Operation → Bool
  | .removeArtifact _ => true
  | .removeArtifactAndExclusiveDependents _ => true
  | .trackRemovedProducts products => (nodesOfAll g products).elems.any g.isArtifact
  | _ => false

/-- An operation that removes artifacts takes the build data back to what was saved last. -/
def LeadsBack (s : State) (op : Operation) : Prop :=
  removesArtifacts s.graph op = true →
    (persisted s.graph).without (removedBy s.graph op) = s.saved

/-! ## Build data with tidy tables -/

/-- The lookup table and the node sets list existing nodes in their own places, and children
and parents mirror each other. -/
structure Tidy (g : BuildGraph) : Prop extends Removable g where
  lookup_lt : ∀ f n, FileResource.artifact n ∈ g.lookupTable f → n < g.nextNode
  lookup_own : ∀ f n, FileResource.artifact n ∈ g.lookupTable f → (g.artifact n).filePath = f
  lookup_artifact : ∀ f n, FileResource.artifact n ∈ g.lookupTable f → g.isArtifact n = true
  nodes_lt : ∀ q n, n ∈ nodesOf g q → n < g.nextNode
  nodes_own : ∀ q n, n ∈ nodesOf g q → g.productOf n = q

theorem Tidy.setDirty {g : BuildGraph} (ht : Tidy g) : Tidy g.setDirty where
  mirror := ⟨ht.mirror.mem_parents_iff⟩
  parent_lt := ht.parent_lt
  lookup_nodup := ht.lookup_nodup
  lookup_lt := ht.lookup_lt
  lookup_own := ht.lookup_own
  lookup_artifact := ht.lookup_artifact
  nodes_lt := ht.nodes_lt
  nodes_own := ht.nodes_own

theorem Tidy.setClean {g : BuildGraph} (ht : Tidy g) : Tidy g.setClean where
  mirror := ⟨ht.mirror.mem_parents_iff⟩
  parent_lt := ht.parent_lt
  lookup_nodup := ht.lookup_nodup
  lookup_lt := ht.lookup_lt
  lookup_own := ht.lookup_own
  lookup_artifact := ht.lookup_artifact
  nodes_lt := ht.nodes_lt
  nodes_own := ht.nodes_own

/-! ## Agreement outside a set of nodes -/

variable {removed : NodeSet} {p q : Persisted} {product : ProductId}

theorem agreeOutside_iff :
    AgreeOutside removed p q ↔
      (∀ r n, n ∉ removed → (n ∈ p.nodes r ↔ n ∈ q.nodes r)) ∧
      (∀ u v, u ∉ removed → v ∉ removed → (v ∈ p.children u ↔ v ∈ q.children u)) ∧
      ∀ f, (p.lookupTable f).filter (notAmong removed) =
        (q.lookupTable f).filter (notAmong removed) := by
  unfold AgreeOutside Persisted.without
  constructor
  · intro h
    simp only [Persisted.mk.injEq] at h
    refine ⟨?_, ?_, fun f => congrFun h.2.2 f⟩
    · intro r n hn
      have hr := congrFun h.1 r
      have : n ∈ (p.nodes r).subtract removed ↔ n ∈ (q.nodes r).subtract removed := by rw [hr]
      simpa [hn] using this
    · intro u v hu hv
      have hr := congrFun h.2.1 u
      simp only [hu, if_false] at hr
      have : v ∈ (p.children u).subtract removed ↔ v ∈ (q.children u).subtract removed := by
        rw [hr]
      simpa [hv] using this
  · rintro ⟨hn, hc, hl⟩
    simp only [Persisted.mk.injEq]
    refine ⟨?_, ?_, funext hl⟩
    · funext r
      ext n
      simp only [SortedSet.mem_subtract]
      exact and_congr_left fun h => hn r n h
    · funext u
      split <;> rename_i hu
      · rfl
      · ext v
        simp only [SortedSet.mem_subtract]
        exact and_congr_left fun h => hc u v hu h

theorem AgreeOutside.trans {r : Persisted} (h : AgreeOutside removed p q)
    (h' : AgreeOutside removed q r) : AgreeOutside removed p r :=
  Eq.trans h h'

/-- Agreement outside fewer nodes is stronger. -/
theorem AgreeOutside.mono {removed' : NodeSet} (h : AgreeOutside removed p q)
    (hsub : ∀ n, n ∈ removed → n ∈ removed') :
    AgreeOutside removed' p q := by
  rw [agreeOutside_iff] at h ⊢
  refine ⟨fun r n hn => h.1 r n (mt (hsub n) hn),
    fun u v hu hv => h.2.1 u v (mt (hsub u) hu) (mt (hsub v) hv), ?_⟩
  intro f
  have hfilter : ∀ l : List FileResource, l.filter (notAmong removed') =
      (l.filter (notAmong removed)).filter (notAmong removed') := by
    intro l
    rw [List.filter_filter]
    refine List.filter_congr fun r _ => ?_
    cases r with
    | fileDependency => rfl
    | artifact n =>
        simp only [notAmong]
        by_cases hn : n ∈ removed
        · simp [hn, hsub n hn]
        · simp [hn]
  rw [hfilter, h.2.2 f, ← hfilter]

/-- Nothing that is saved mentions a node. -/
structure Unmentioned (p : Persisted) (n : NodeId) : Prop where
  nodes : ∀ q, n ∉ p.nodes q
  children : ∀ v, v ∉ p.children n
  parents : ∀ u, n ∉ p.children u
  lookupTable : ∀ f, FileResource.artifact n ∉ p.lookupTable f

/-- Without nodes that are not mentioned, what is saved is the same. -/
theorem without_eq_self (h : ∀ n, n ∈ removed → Unmentioned p n) : p.without removed = p := by
  refine Persisted.ext ?_ ?_ ?_
  · funext q
    ext n
    simp only [Persisted.without, SortedSet.mem_subtract, and_iff_left_iff_imp]
    exact fun hn hr => (h n hr).nodes q hn
  · funext u
    simp only [Persisted.without]
    split <;> rename_i hu
    · ext v
      simp only [SortedSet.not_mem_empty, false_iff]
      exact (h u hu).children v
    · ext v
      simp only [SortedSet.mem_subtract, and_iff_left_iff_imp]
      exact fun hv hr => (h v hr).parents u hv
  · funext f
    simp only [Persisted.without]
    refine List.filter_eq_self.mpr fun r hr => ?_
    cases r with
    | fileDependency => rfl
    | artifact n =>
        simp only [notAmong, decide_eq_true_eq]
        exact fun hn => (h n hn).lookupTable f hr

/-! ## Build data that loses nodes -/

/-- From one state to another, nodes, edges and entries only disappear, and only those of the
given nodes do. -/
structure Loses (removed : NodeSet) (g g' : BuildGraph) : Prop where
  nextNode : g'.nextNode = g.nextNode
  productOf : g'.productOf = g.productOf
  nodeType : g'.nodeType = g.nodeType
  filePath : ∀ n, (g'.artifact n).filePath = (g.artifact n).filePath
  children : ∀ u v, v ∈ g'.children u → v ∈ g.children u
  lookupTable : ∀ f, (g'.lookupTable f).Sublist (g.lookupTable f)
  nodes : ∀ q n, n ∈ nodesOf g' q → n ∈ nodesOf g q
  agree : AgreeOutside removed (persisted g') (persisted g)
  mirror : g'.Mirror

variable {g g' : BuildGraph} {removed : NodeSet}

theorem Loses.refl (hm : g.Mirror) : Loses removed g g :=
  ⟨rfl, rfl, rfl, fun _ => rfl, fun _ _ h => h, fun _ => List.Sublist.refl _, fun _ _ h => h, rfl, hm⟩

theorem Loses.trans {g₁ g₂ g₃ : BuildGraph} (h : Loses removed g₁ g₂)
    (h' : Loses removed g₂ g₃) : Loses removed g₁ g₃ where
  nextNode := h'.nextNode.trans h.nextNode
  productOf := h'.productOf.trans h.productOf
  nodeType := h'.nodeType.trans h.nodeType
  filePath n := (h'.filePath n).trans (h.filePath n)
  children u v hv := h.children u v (h'.children u v hv)
  lookupTable f := (h'.lookupTable f).trans (h.lookupTable f)
  nodes q n hn := h.nodes q n (h'.nodes q n hn)
  agree := h'.agree.trans h.agree
  mirror := h'.mirror

theorem Loses.mono {removed' : NodeSet} (h : Loses removed g g')
    (hsub : ∀ n, n ∈ removed → n ∈ removed') : Loses removed' g g' :=
  { h with agree := h.agree.mono hsub }

/-- Build data that only loses nodes stays tidy. -/
theorem Tidy.loses (ht : Tidy g) (h : Loses removed g g') : Tidy g' where
  mirror := h.mirror
  parent_lt u v hv := by
    rw [h.nextNode]
    exact ht.parent_lt u v (h.children u v hv)
  lookup_nodup f := (h.lookupTable f).nodup (ht.lookup_nodup f)
  lookup_lt f n hn := by
    rw [h.nextNode]
    exact ht.lookup_lt f n ((h.lookupTable f).subset hn)
  lookup_own f n hn := by
    rw [h.filePath]
    exact ht.lookup_own f n ((h.lookupTable f).subset hn)
  lookup_artifact f n hn := by
    unfold isArtifact
    rw [h.nodeType]
    exact ht.lookup_artifact f n ((h.lookupTable f).subset hn)
  nodes_lt q n hn := by
    rw [h.nextNode]
    exact ht.nodes_lt q n (h.nodes q n hn)
  nodes_own q n hn := by
    rw [h.productOf]
    exact ht.nodes_own q n (h.nodes q n hn)

/-! ## Removal of artifacts -/

theorem nodesOf_afterRemoval (hm : g.Mirror) (a : NodeId) (fromProduct : Bool) (q : ProductId)
    (n : NodeId) : n ∈ nodesOf (g.afterRemoval a fromProduct) q ↔
      n ∈ nodesOf g q ∧ ¬(fromProduct = true ∧ q = g.productOf a ∧ n = a) := by
  have h := (afterRemoval_spec hm a fromProduct).productData q
  simp only [nodesOf, h]
  split_ifs with hq
  · cases hd : g.productData q with
    | none => simp
    | some d =>
        simp only [Option.map_some, removeArtifactFromSet, SortedSet.mem_remove, hq, true_and]
  · cases hd : g.productData q with
    | none => simp
    | some d =>
        simp only [iff_self_and]
        intro _ hc
        exact hq ⟨hc.1, hc.2.1⟩

/-- Removing an artifact loses that artifact. -/
theorem loses_afterRemoval (ht : Tidy g) (a : NodeId) (fromProduct : Bool) :
    Loses {a} g (g.afterRemoval a fromProduct) := by
  have h := afterRemoval_spec ht.mirror a fromProduct
  have hnodes := nodesOf_afterRemoval ht.mirror a fromProduct
  constructor
  case nextNode => exact h.nextNode
  case productOf => exact h.productOf
  case nodeType => exact h.nodeType
  case filePath =>
    intro n
    rcases h.artifact n with ⟨_, hEq, -⟩
    rw [hEq]
  case children => exact fun u v hv => ((h.children u v).mp hv).1
  case lookupTable =>
    intro f
    rw [h.lookupTable]
    split
    · exact List.erase_sublist
    · exact List.Sublist.refl _
  case nodes => exact fun q n hn => ((hnodes q n).mp hn).1
  case agree =>
    rw [agreeOutside_iff]
    refine ⟨?_, ?_, ?_⟩
    · intro q n hn
      change n ∈ nodesOf _ q ↔ _
      rw [hnodes]
      exact and_iff_left fun hc => hn (SortedSet.mem_singleton.mpr hc.2.2)
    · intro u v hu hv
      change v ∈ (g.afterRemoval a fromProduct).children u ↔ _
      rw [h.children]
      rw [SortedSet.mem_singleton] at hu hv
      exact and_iff_left ⟨hu, hv⟩
    · intro f
      change ((g.afterRemoval a fromProduct).lookupTable f).filter _ = (g.lookupTable f).filter _
      rw [h.lookupTable]
      split
      · rw [(ht.lookup_nodup f).erase_eq_filter, List.filter_filter]
        refine List.filter_congr fun r _ => ?_
        cases r with
        | fileDependency => rfl
        | artifact n => by_cases hn : n = a <;> simp [notAmong, hn]
      · rfl
  case mirror => exact ht.mirror.afterRemoval a fromProduct

/-- A removed artifact is mentioned nowhere, except in the product that it is kept in. -/
theorem unmentioned_afterRemoval (ht : Tidy g) (a : NodeId) :
    Unmentioned (persisted (g.afterRemoval a true)) a := by
  have h := afterRemoval_spec ht.mirror a true
  constructor
  case nodes =>
    intro q hn
    have hn := (nodesOf_afterRemoval ht.mirror a true q a).mp hn
    exact hn.2 ⟨rfl, (ht.nodes_own q a hn.1).symm, rfl⟩
  case children => exact fun v hv => ((h.children a v).mp hv).2.1 rfl
  case parents => exact fun u hu => ((h.children u a).mp hu).2.2 rfl
  case lookupTable =>
    intro f hf
    change FileResource.artifact a ∈ (g.afterRemoval a true).lookupTable f at hf
    rw [h.lookupTable] at hf
    split_ifs at hf with hEq
    · exact (ht.lookup_nodup f).not_mem_erase hf
    · exact hEq (ht.lookup_own f a hf).symm

/-- What is saved after losing nodes that it mentions no longer. -/
theorem Loses.persisted_eq (h : Loses removed g g')
    (hgone : ∀ n, n ∈ removed → Unmentioned (persisted g') n) :
    persisted g' = (persisted g).without removed := by
  rw [← without_eq_self hgone]
  exact h.agree

/-! ## Removal with exclusive dependents -/

theorem nodesOf_afterDetach (s : RemovalState) (p a : NodeId) (q : ProductId) :
    nodesOf (afterDetach s p a).1 q = nodesOf s.1 q := by
  have h := (detached_spec (g := s.1) p a).productData
  rcases afterDetach_cases s p a with ⟨hEq, -⟩ | ⟨hEq, -⟩ <;> rw [hEq] <;>
    exact congrArg (fun f : ProductId → Option ProductBuildData =>
      match f q with | some d => d.nodes | none => ∅) h

theorem lookupTable_afterDetach (s : RemovalState) (p a : NodeId) :
    (afterDetach s p a).1.lookupTable = s.1.lookupTable := by
  have h := (detached_spec (g := s.1) p a).lookupTable
  rcases afterDetach_cases s p a with ⟨hEq, -⟩ | ⟨hEq, -⟩ <;> rw [hEq] <;> exact h

/-- A removal step loses removed artifacts only. -/
theorem loses_removalStep {g₀ : BuildGraph} (ht : Tidy g₀) {s s' : RemovalState}
    (hf : RemovalFrame g₀ s) (h : Loses s.2 g₀ s.1) (hstep : RemovalStep g₀ s s') :
    Loses s'.2 g₀ s'.1 := by
  have hsub : ∀ n, n ∈ s.2 → n ∈ s'.2 := fun n hn => hstep.removed hn
  cases hstep with
  | @detach p a hremoved hartifact hchild =>
      refine (h.mono hsub).trans ?_
      have hshrink := afterDetach_shrinks s p a
      constructor
      case nextNode => exact hshrink.nextNode
      case productOf => exact hshrink.productOf
      case nodeType => exact hshrink.nodeType
      case filePath => exact hshrink.filePath
      case children => exact hshrink.children
      case lookupTable => exact hshrink.lookupTable
      case nodes =>
        intro q n hn
        rw [nodesOf_afterDetach] at hn
        exact hn
      case agree =>
        rw [agreeOutside_iff]
        refine ⟨?_, ?_, ?_⟩
        · intro q n _
          change n ∈ nodesOf _ q ↔ _
          rw [nodesOf_afterDetach]
          rfl
        · intro u v _ hv
          change v ∈ (afterDetach s p a).1.children u ↔ _
          rw [mem_children_afterDetach]
          refine and_iff_left ?_
          rintro ⟨-, rfl⟩
          exact hv (hsub v hremoved)
        · intro f
          change ((afterDetach s p a).1.lookupTable f).filter _ = _
          rw [lookupTable_afterDetach]
          rfl
      case mirror => exact hf.mirror.afterDetach p a
  | @finish a hremoved hpar =>
      refine h.trans ((loses_afterRemoval (ht.loses h) a true).mono ?_)
      intro n hn
      rw [SortedSet.mem_singleton.mp hn]
      exact hremoved

/-- After the removal of an artifact with its exclusive dependents, what is saved is what was
saved before without the removed artifacts. -/
theorem persisted_removeArtifactAndExclusiveDependents (ht : Tidy g) (a : NodeId) :
    ∃ s, g.removeArtifactAndExclusiveDependents a = .ok s ∧ Loses s.2 g s.1 ∧
      persisted s.1 = (persisted g).without s.2 ∧ s.1.isDirty = false := by
  rcases removeArtifactAndExclusiveDependents_run ht.toRemovable a with ⟨s, hs, hrun, -, hgone⟩
  have hloses : Loses s.2 g s.1 :=
    (RemovalRun.invariant (P := fun s => Loses s.2 g s.1)
      (fun _ _ hf h hstep => loses_removalStep ht hf h hstep) (ht.toRemovable.frame _)
      (Loses.refl ht.mirror) hrun).1
  refine ⟨s, hs, hloses, hloses.persisted_eq ?_, ?_⟩
  · intro n hn
    refine ⟨?_, (hgone n hn).children, (hgone n hn).parents, ?_⟩
    · intro q hq
      have hown := (ht.loses hloses).nodes_own q n hq
      simp only [persisted, nodesOf] at hq
      subst hown
      split at hq <;> rename_i hd
      · exact ((hgone n hn).nodes _ hd).1 hq
      · exact SortedSet.not_mem_empty n hq
    · intro f hf
      have hown := (ht.loses hloses).lookup_own f n hf
      subst hown
      exact (hgone n hn).lookupTable hf
  · simp only [removeArtifactAndExclusiveDependents, removeDependents,
      Fallible.bind_eq_ok_iff] at hs
    rcases hs with ⟨s₁, -, g₁, hg₁, hs⟩
    rw [← Fallible.pure_eq_ok_iff.mp hs, removeArtifact_eq hg₁]
    rfl

/-! ## Products that disappear -/

theorem mem_children_disconnectRuleNode (hm : g.Mirror) (n u v : NodeId) :
    v ∈ (disconnectRuleNode g n).children u ↔ v ∈ g.children u ∧ u ≠ n ∧ v ≠ n := by
  have hp := hm.mem_parents_iff u n
  simp only [disconnectRuleNode]
  split_ifs with hu hup
  · simp [hu]
  · simp [hu]
  · constructor
    · intro hv
      refine ⟨hv, hu, ?_⟩
      rintro rfl
      exact hup (hp.mpr hv)
    · exact fun h => h.1

theorem mem_parents_disconnectRuleNode (hm : g.Mirror) (n u v : NodeId) :
    u ∈ (disconnectRuleNode g n).parents v ↔ u ∈ g.parents v ∧ u ≠ n ∧ v ≠ n := by
  have hp := hm.mem_parents_iff n v
  simp only [disconnectRuleNode]
  split_ifs with hv hvp
  · simp [hv]
  · simp [hv]
  · constructor
    · intro hu
      refine ⟨hu, ?_, hv⟩
      rintro rfl
      exact hvp (hp.mp hu)
    · exact fun h => h.1

/-- Disconnecting a rule node loses that rule node. -/
theorem loses_disconnectRuleNode (ht : Tidy g) (n : NodeId) :
    Loses {n} g (disconnectRuleNode g n) where
  nextNode := rfl
  productOf := rfl
  nodeType := rfl
  filePath _ := rfl
  children u v hv := ((mem_children_disconnectRuleNode ht.mirror n u v).mp hv).1
  lookupTable _ := List.Sublist.refl _
  nodes _ _ hn := hn
  agree := by
    rw [agreeOutside_iff]
    refine ⟨fun _ _ _ => Iff.rfl, ?_, fun _ => rfl⟩
    intro u v hu hv
    rw [SortedSet.mem_singleton] at hu hv
    exact (mem_children_disconnectRuleNode ht.mirror n u v).trans (and_iff_left ⟨hu, hv⟩)
  mirror := by
    constructor
    intro u v
    rw [mem_parents_disconnectRuleNode ht.mirror, mem_children_disconnectRuleNode ht.mirror,
      ht.mirror.mem_parents_iff]

/-- A node without edges and without an entry in the lookup table. -/
structure Isolated (g : BuildGraph) (n : NodeId) : Prop where
  children : ∀ v, v ∉ g.children n
  parents : ∀ u, n ∉ g.children u
  lookupTable : ∀ f, FileResource.artifact n ∉ g.lookupTable f

theorem Isolated.loses (h : Loses removed g g') {n : NodeId} (hn : Isolated g n) :
    Isolated g' n :=
  ⟨fun v hv => hn.children v (h.children n v hv), fun u hu => hn.parents u (h.children u n hu),
    fun f hf => hn.lookupTable f ((h.lookupTable f).subset hf)⟩

/-- One node of a product that has disappeared is isolated; an artifact clears the mark. -/
theorem onNodeRemoved_spec (ht : Tidy g) {n : NodeId} (h : onNodeRemoved g n = .ok g') :
    Loses {n} g g' ∧ nodesOf g' = nodesOf g ∧ Isolated g' n ∧
      g'.isDirty = (g.isDirty && !g.isArtifact n) := by
  unfold onNodeRemoved at h
  split at h <;> rename_i hart
  · rw [removeArtifact_eq h]
    have hspec := afterRemoval_spec ht.mirror n false
    refine ⟨loses_afterRemoval ht n false, ?_, ⟨?_, ?_, ?_⟩, ?_⟩
    · funext q
      ext m
      rw [nodesOf_afterRemoval ht.mirror]
      simp
    · exact fun v hv => ((hspec.children n v).mp hv).2.1 rfl
    · exact fun u hu => ((hspec.children u n).mp hu).2.2 rfl
    · exact (unmentioned_afterRemoval ht n).lookupTable
    · rw [hspec.isDirty, hart]
      simp
  · cases h
    have hart : g.isArtifact n = false := by simpa using hart
    refine ⟨loses_disconnectRuleNode ht n, rfl, ⟨?_, ?_, ?_⟩, ?_⟩
    · exact fun v hv => ((mem_children_disconnectRuleNode ht.mirror n n v).mp hv).2.1 rfl
    · exact fun u hu => ((mem_children_disconnectRuleNode ht.mirror n u n).mp hu).2.2 rfl
    · intro f hf
      rw [ht.lookup_artifact f n hf] at hart
      cases hart
    · simp [disconnectRuleNode, hart]

/-- The loop over the nodes of a product that has disappeared. -/
theorem onNodesRemoved_spec {l : List NodeId} (ht : Tidy g)
    (h : l.foldlM onNodeRemoved g = .ok g') (hl : ∀ n, n ∈ l → n ∈ removed) :
    Loses removed g g' ∧ nodesOf g' = nodesOf g ∧ (∀ n, n ∈ l → Isolated g' n) ∧
      g'.isDirty = (g.isDirty && !l.any g.isArtifact) := by
  induction l generalizing g with
  | nil =>
      cases h
      exact ⟨Loses.refl ht.mirror, rfl, by simp, by simp⟩
  | cons n l ih =>
      simp only [List.foldlM_cons, Fallible.bind_eq_ok_iff] at h
      rcases h with ⟨g₁, hg₁, hrest⟩
      rcases onNodeRemoved_spec ht hg₁ with ⟨hloses, hnodes, hiso, hdirty⟩
      have hn : ∀ m, m ∈ ({n} : NodeSet) → m ∈ removed := by
        intro m hm
        rw [SortedSet.mem_singleton.mp hm]
        exact hl n (by simp)
      rcases ih (ht.loses hloses) hrest fun m hm => hl m (List.mem_cons_of_mem n hm) with
        ⟨hloses', hnodes', hiso', hdirty'⟩
      refine ⟨(hloses.mono hn).trans hloses', hnodes'.trans hnodes, ?_, ?_⟩
      · intro m hm
        rcases List.mem_cons.mp hm with rfl | hm
        · exact hiso.loses hloses'
        · exact hiso' m hm
      · have htype : g₁.isArtifact = g.isArtifact := by
          funext m
          unfold isArtifact
          rw [hloses.nodeType]
        rw [hdirty', hdirty, htype]
        simp [Bool.and_assoc]

/-- After a product has disappeared, it has no nodes, and its former nodes are mentioned
nowhere; the mark is gone if an artifact was among them. -/
theorem onProductRemoved_spec (ht : Tidy g) (h : onProductRemoved g product = .ok g') :
    Loses (nodesOf g product) g g' ∧
      (∀ q, nodesOf g' q = if q = product then ∅ else nodesOf g q) ∧
      (∀ n, n ∈ nodesOf g product → Unmentioned (persisted g') n) ∧
      g'.isDirty = (g.isDirty && !(nodesOf g product).elems.any g.isArtifact) := by
  unfold onProductRemoved at h
  rcases Fallible.bind_eq_ok_iff.mp h with ⟨g₁, hg₁, h⟩
  rw [← Fallible.pure_eq_ok_iff.mp h]
  rcases onNodesRemoved_spec ht hg₁ (fun n (hn : n ∈ nodesOf g product) => hn) with
    ⟨hloses, hnodes, hiso, hdirty⟩
  have hnodes' : ∀ q, nodesOf { g₁ with
      productData := Function.update g₁.productData product none } q =
      if q = product then ∅ else nodesOf g q := by
    intro q
    by_cases hq : q = product
    · subst hq
      simp [nodesOf]
    · rw [← hnodes]
      simp [nodesOf, hq]
  refine ⟨?_, hnodes', ?_, hdirty⟩
  · refine ⟨hloses.nextNode, hloses.productOf, hloses.nodeType, hloses.filePath, hloses.children,
      hloses.lookupTable, ?_, ?_, ⟨hloses.mirror.mem_parents_iff⟩⟩
    · intro q n hn
      rw [hnodes'] at hn
      split at hn
      · exact absurd hn (SortedSet.not_mem_empty n)
      · exact hn
    · have hagree := agreeOutside_iff.mp hloses.agree
      refine agreeOutside_iff.mpr ⟨?_, hagree.2⟩
      intro q n hn
      change n ∈ nodesOf _ q ↔ n ∈ nodesOf g q
      rw [hnodes']
      split <;> rename_i hq
      · subst hq
        simp [hn]
      · rfl
  · intro n hn
    refine ⟨?_, (hiso n hn).children, (hiso n hn).parents, (hiso n hn).lookupTable⟩
    intro q hq
    change n ∈ nodesOf _ q at hq
    rw [hnodes'] at hq
    split at hq <;> rename_i hne
    · exact SortedSet.not_mem_empty n hq
    · exact hne ((ht.nodes_own q n hq).symm.trans (ht.nodes_own product n hn))

theorem mem_nodesOfAll {products : List ProductId} {n : NodeId} :
    n ∈ nodesOfAll g products ↔ ∃ p, p ∈ products ∧ n ∈ nodesOf g p := by
  rw [nodesOfAll, SortedSet.mem_ofList, List.mem_flatMap]
  rfl

theorem Unmentioned.loses (h : Loses removed g g') {n : NodeId}
    (hn : Unmentioned (persisted g) n) : Unmentioned (persisted g') n :=
  ⟨fun q hq => hn.nodes q (h.nodes q n hq), fun v hv => hn.children v (h.children n v hv),
    fun u hu => hn.parents u (h.children u n hu),
    fun f hf => hn.lookupTable f ((h.lookupTable f).subset hf)⟩

/-- After some products have disappeared, what is saved is what was saved before without their
nodes; the mark is gone if an artifact was among them. -/
theorem onProductsRemoved_spec {products : List ProductId} (ht : Tidy g)
    (h : products.foldlM onProductRemoved g = .ok g') :
    Loses (nodesOfAll g products) g g' ∧
      (∀ n, n ∈ nodesOfAll g products → Unmentioned (persisted g') n) ∧
      g'.isDirty = (g.isDirty && !(nodesOfAll g products).elems.any g.isArtifact) := by
  induction products generalizing g with
  | nil =>
      cases h
      refine ⟨Loses.refl ht.mirror, fun n hn => ?_, by simp [nodesOfAll, SortedSet.ofList]⟩
      simp [mem_nodesOfAll] at hn
  | cons product products ih =>
      simp only [List.foldlM_cons, Fallible.bind_eq_ok_iff] at h
      rcases h with ⟨g₁, hg₁, hrest⟩
      rcases onProductRemoved_spec ht hg₁ with ⟨hloses, hnodes, hgone, hdirty⟩
      rcases ih (ht.loses hloses) hrest with ⟨hloses', hgone', hdirty'⟩
      -- the nodes of all products are those of the first one and what the others then have
      have hmem : ∀ n, n ∈ nodesOfAll g (product :: products) ↔
          n ∈ nodesOf g product ∨ n ∈ nodesOfAll g₁ products := by
        intro n
        simp only [mem_nodesOfAll, List.mem_cons, hnodes]
        constructor
        · rintro ⟨q, hq, hn⟩
          by_cases hqp : q = product
          · subst hqp
            exact Or.inl hn
          · exact Or.inr ⟨q, hq.resolve_left hqp, by rwa [if_neg hqp]⟩
        · rintro (hn | ⟨q, hq, hn⟩)
          · exact ⟨product, Or.inl rfl, hn⟩
          · split at hn
            · exact absurd hn (SortedSet.not_mem_empty n)
            · exact ⟨q, Or.inr hq, hn⟩
      refine ⟨(hloses.mono fun n hn => (hmem n).mpr (Or.inl hn)).trans
        (hloses'.mono fun n hn => (hmem n).mpr (Or.inr hn)), ?_, ?_⟩
      · intro n hn
        rcases (hmem n).mp hn with hn | hn
        · exact (hgone n hn).loses hloses'
        · exact hgone' n hn
      · have htype : g₁.isArtifact = g.isArtifact := by
          funext m
          unfold isArtifact
          rw [hloses.nodeType]
        have hany : (nodesOfAll g (product :: products)).elems.any g.isArtifact =
            ((nodesOf g product).elems.any g.isArtifact ||
              (nodesOfAll g₁ products).elems.any g.isArtifact) := by
          rw [Bool.eq_iff_iff, Bool.or_eq_true]
          simp only [List.any_eq_true, ← SortedSet.mem_def, hmem]
          constructor
          · rintro ⟨n, hn | hn, hart⟩
            · exact Or.inl ⟨n, hn, hart⟩
            · exact Or.inr ⟨n, hn, hart⟩
          · rintro (⟨n, hn, hart⟩ | ⟨n, hn, hart⟩)
            · exact ⟨n, Or.inl hn, hart⟩
            · exact ⟨n, Or.inr hn, hart⟩
        rw [hdirty', hdirty, htype, hany]
        simp [Bool.and_assoc]

/-! ## Insertion and connection -/

theorem Tidy.connect (ht : Tidy g) {p c : NodeId} (hp : p < g.nextNode)
    (h : g.connect p c = .ok g') : Tidy g' := by
  have hm := ht.mirror.connect h
  rcases (connect_cases h).2 with ⟨rfl, -⟩ | rfl
  · exact ht
  · refine ⟨⟨hm, ?_, ht.lookup_nodup⟩, ht.lookup_lt, ht.lookup_own, ht.lookup_artifact,
      ht.nodes_lt, ht.nodes_own⟩
    intro u v hv
    rcases mem_children_insertEdge.mp hv with hv | ⟨rfl, -⟩
    · exact ht.parent_lt u v hv
    · exact hp

/-- What the insertion of a new artifact does to the parts that are saved. -/
structure Inserted (g : BuildGraph) (product : ProductId) (a : Artifact) (g' : BuildGraph) :
    Prop where
  nextNode : g'.nextNode = g.nextNode + 1
  nodeType : g'.nodeType = Function.update g.nodeType g.nextNode .artifactNode
  productOf : g'.productOf = Function.update g.productOf g.nextNode product
  artifact : g'.artifact = Function.update g.artifact g.nextNode a
  children : g'.children = g.children
  parents : g'.parents = g.parents
  lookup_new : FileResource.artifact g.nextNode ∉ g.lookupTable a.filePath
  lookupTable : g'.lookupTable = Function.update g.lookupTable a.filePath
    (g.lookupTable a.filePath ++ [.artifact g.nextNode])
  nodes : ∀ q n, n ∈ nodesOf g' q → n ∈ nodesOf g q ∨ n = g.nextNode ∧ q = product
  isDirty : g'.isDirty = true

theorem inserted_spec {a : Artifact}
    (h : (g.newArtifact a).1.insertArtifact product (g.newArtifact a).2 = .ok g') :
    Inserted g product a g' := by
  simp only [insertArtifact, Fallible.bind_eq_ok_iff] at h
  rcases h with ⟨_, -, g₁, hlookup, hadd⟩
  rcases insertIntoLookupTable_cases hlookup with ⟨hnew, rfl⟩
  rcases addArtifactToProduct_cases hadd with ⟨d, hd, -, rfl⟩
  simp only [newArtifact, Function.update_self] at hnew hd
  refine ⟨rfl, rfl, rfl, rfl, rfl, rfl, hnew, ?_, ?_, rfl⟩
  · simp [newArtifact, modifyProductData]
  · intro q n hn
    simp only [nodesOf, newArtifact, modifyProductData, Function.update_self] at hn
    by_cases hq : q = product
    · subst hq
      simp only [Function.update_self, hd, Option.map_some, addArtifactToSet,
        SortedSet.mem_insert] at hn
      simp only [nodesOf, hd, and_true]
      exact hn.symm
    · rw [Function.update_of_ne hq] at hn
      exact Or.inl hn

/-- The insertion of a new artifact keeps the tables tidy. -/
theorem Tidy.inserted (ht : Tidy g) {a : Artifact} (h : Inserted g product a g') : Tidy g' := by
  have hmem : ∀ f n, FileResource.artifact n ∈ g'.lookupTable f →
      FileResource.artifact n ∈ g.lookupTable f ∨ n = g.nextNode ∧ f = a.filePath := by
    intro f n hn
    rw [h.lookupTable] at hn
    by_cases hf : f = a.filePath
    · subst hf
      simpa using hn
    · rw [Function.update_of_ne hf] at hn
      exact Or.inl hn
  have hold : ∀ f n, FileResource.artifact n ∈ g.lookupTable f → n ≠ g.nextNode :=
    fun f n hn => Nat.ne_of_lt (ht.lookup_lt f n hn)
  constructor
  case toRemovable =>
    refine ⟨⟨?_⟩, ?_, ?_⟩
    · intro u v
      rw [h.parents, h.children]
      exact ht.mirror.mem_parents_iff u v
    · intro u v hv
      rw [h.children] at hv
      rw [h.nextNode]
      exact Nat.lt_succ_of_lt (ht.parent_lt u v hv)
    · intro f
      rw [h.lookupTable]
      by_cases hf : f = a.filePath
      · subst hf
        rw [Function.update_self, List.nodup_append]
        refine ⟨ht.lookup_nodup _, List.nodup_singleton _, ?_⟩
        intro r hr r' hr'
        rw [List.mem_singleton.mp hr']
        rintro rfl
        exact h.lookup_new hr
      · rw [Function.update_of_ne hf]
        exact ht.lookup_nodup f
  case lookup_lt =>
    intro f n hn
    rw [h.nextNode]
    rcases hmem f n hn with hn | ⟨rfl, -⟩
    · exact Nat.lt_succ_of_lt (ht.lookup_lt f n hn)
    · exact Nat.lt_succ_self _
  case lookup_own =>
    intro f n hn
    rw [h.artifact]
    rcases hmem f n hn with hn | ⟨rfl, rfl⟩
    · rw [Function.update_of_ne (hold f n hn)]
      exact ht.lookup_own f n hn
    · rw [Function.update_self]
  case lookup_artifact =>
    intro f n hn
    unfold isArtifact
    rw [h.nodeType]
    rcases hmem f n hn with hn | ⟨rfl, -⟩
    · rw [Function.update_of_ne (hold f n hn)]
      exact ht.lookup_artifact f n hn
    · rw [Function.update_self]
      rfl
  case nodes_lt =>
    intro q n hn
    rw [h.nextNode]
    rcases h.nodes q n hn with hn | ⟨rfl, -⟩
    · exact Nat.lt_succ_of_lt (ht.nodes_lt q n hn)
    · exact Nat.lt_succ_self _
  case nodes_own =>
    intro q n hn
    rw [h.productOf]
    rcases h.nodes q n hn with hn | ⟨rfl, rfl⟩
    · rw [Function.update_of_ne (Nat.ne_of_lt (ht.nodes_lt q n hn))]
      exact ht.nodes_own q n hn
    · rw [Function.update_self]

/-! ## Steps and runs -/

/-- What a step does: it keeps the tables tidy; an operation that removes artifacts takes their
nodes from what is saved and clears the mark; any other operation reports its changes if the
changes before it were reported. -/
theorem persisted_step {s s' : State} {op : Operation} (ht : Tidy s.graph) (h : Step s op s') :
    Tidy s'.graph ∧
      (removesArtifacts s.graph op = true → s'.saved = s.saved ∧ s'.graph.isDirty = false ∧
        persisted s'.graph = (persisted s.graph).without (removedBy s.graph op)) ∧
      (removesArtifacts s.graph op = false → ReportsChanges s → ReportsChanges s') := by
  cases op with
  | insertArtifact product a =>
      simp only [Step, apply, Fallible.bind_eq_ok_iff] at h
      rcases h with ⟨g', hg', h⟩
      cases h
      have hins := inserted_spec hg'
      exact ⟨ht.inserted hins, fun hr => (by cases hr), fun _ _ _ => hins.isDirty⟩
  | connect p c =>
      simp only [Step, apply, Fallible.bind_eq_ok_iff, qbsCheck_eq_ok_iff] at h
      rcases h with ⟨-, hlt, g', hg', h⟩
      cases h
      simp only [Bool.and_eq_true, decide_eq_true_eq] at hlt
      refine ⟨ht.connect hlt.1 hg', fun hr => (by cases hr), ?_⟩
      intro _ hrep
      rcases (connect_cases hg').2 with ⟨rfl, -⟩ | rfl
      · exact hrep
      · exact fun _ => rfl
  | removeArtifact a =>
      simp only [Step, apply, Fallible.bind_eq_ok_iff] at h
      rcases h with ⟨g', hg', h⟩
      cases h
      rw [removeArtifact_eq hg']
      have hloses := loses_afterRemoval ht a true
      refine ⟨ht.loses hloses, fun _ => ⟨rfl, rfl, hloses.persisted_eq ?_⟩, fun hr => (by cases hr)⟩
      intro n hn
      rw [SortedSet.mem_singleton.mp hn]
      exact unmentioned_afterRemoval ht a
  | removeArtifactAndExclusiveDependents a =>
      simp only [Step, apply, Fallible.bind_eq_ok_iff] at h
      rcases h with ⟨r, hr, h⟩
      cases h
      rcases persisted_removeArtifactAndExclusiveDependents ht a with ⟨r', hr', hloses, heq, hclean⟩
      cases hr.symm.trans hr'
      refine ⟨ht.loses hloses, fun _ => ⟨rfl, hclean, ?_⟩, fun hr => (by cases hr)⟩
      simp only [removedBy, hr]
      exact heq
  | setDirty =>
      cases h
      exact ⟨ht.setDirty, fun hr => (by cases hr), fun _ _ _ => rfl⟩
  | store =>
      cases h
      unfold store
      split
      · exact ⟨ht.setClean, fun hr => (by cases hr), fun _ _ hne => absurd rfl hne⟩
      · exact ⟨ht, fun hr => (by cases hr), fun _ hrep => hrep⟩
  | trackRemovedProducts products =>
      simp only [Step, apply, Fallible.bind_eq_ok_iff] at h
      rcases h with ⟨g', hg', h⟩
      cases h
      rcases onProductsRemoved_spec ht.setDirty hg' with ⟨hloses, hgone, hdirty⟩
      have hdirty : g'.isDirty =
          (true && !removesArtifacts s.graph (.trackRemovedProducts products)) := hdirty
      refine ⟨ht.setDirty.loses hloses, ?_, ?_⟩
      · intro hr
        rw [hr] at hdirty
        exact ⟨rfl, hdirty, hloses.persisted_eq hgone⟩
      · intro hr _ _
        rw [hr] at hdirty
        exact hdirty

/-- A step whose predecessor reports its changes reports its own exactly when a removal leads
back to what was saved last. -/
theorem reportsChanges_step_iff {s s' : State} {op : Operation} (ht : Tidy s.graph)
    (hs : ReportsChanges s) (h : Step s op s') : ReportsChanges s' ↔ LeadsBack s op := by
  rcases persisted_step ht h with ⟨-, hremove, hkeep⟩
  cases hr : removesArtifacts s.graph op with
  | false => exact ⟨fun _ hc => absurd (hr.symm.trans hc) Bool.false_ne_true, fun _ => hkeep hr hs⟩
  | true =>
      rcases hremove hr with ⟨hsaved, hclean, heq⟩
      unfold ReportsChanges LeadsBack
      rw [hclean, hsaved, heq]
      simp [hr]

theorem tidy_run {s s' : State} (ht : Tidy s.graph) {trace : List (State × Operation)}
    (hrun : TransitionSystem.Run Step s trace s') : Tidy s'.graph :=
  hrun.invariant (P := fun s => Tidy s.graph) (fun _ _ => True)
    (fun _ _ _ ht _ h => (persisted_step ht h).1) ht fun _ _ => trivial

/-- Build data that was just loaded has no changes to report. -/
theorem reportsChanges_loaded (g : BuildGraph) : ReportsChanges (loaded g) :=
  fun hne => absurd rfl hne

/-- In a run from build data whose changes are reported, such as build data that was just loaded
or is new, all changes are reported in every state exactly when each operation that removes
artifacts leads back to what was saved last. -/
theorem changes_reported_iff (s : State) (ht : Tidy s.graph) (hs : ReportsChanges s)
    (trace : List (State × Operation)) (s' : State)
    (hrun : TransitionSystem.Run Step s trace s') :
    ((∀ e, e ∈ trace → ReportsChanges e.1) ∧ ReportsChanges s') ↔
      ∀ e, e ∈ trace → LeadsBack e.1 e.2 := by
  induction hrun with
  | nil => exact ⟨by simp, fun _ => ⟨by simp, hs⟩⟩
  | @snoc trace t u op hrun hstep ih =>
      have htidy := tidy_run ht hrun
      constructor
      · rintro ⟨hbefore, hu⟩
        have ht' : ReportsChanges t :=
          hbefore (t, op) (List.mem_append_right _ (List.mem_singleton_self _))
        have hlead := ih.mp ⟨fun e he => hbefore e (List.mem_append_left _ he), ht'⟩
        intro e he
        rcases List.mem_append.mp he with he | he
        · exact hlead e he
        · rw [List.mem_singleton.mp he]
          exact (reportsChanges_step_iff htidy ht' hstep).mp hu
      · intro hlead
        rcases ih.mpr fun e he => hlead e (List.mem_append_left _ he) with ⟨hbefore, ht'⟩
        refine ⟨?_, ?_⟩
        · intro e he
          rcases List.mem_append.mp he with he | he
          · exact hbefore e he
          · rw [List.mem_singleton.mp he]
            exact ht'
        · exact (reportsChanges_step_iff htidy ht' hstep).mpr
            (hlead (t, op) (List.mem_append_right _ (List.mem_singleton_self _)))

/-! ## A product that disappears -/

/-- Build data of a project with one product that has one source file. -/
def oneSource : BuildGraph :=
  { BuildGraph.empty with
    productOf := fun _ => "p"
    artifact := fun _ => Artifact.create .sourceFile "/s/x"
    productData := fun q => if q = "p" then some { (default : ProductBuildData) with nodes := {0} }
      else none
    lookupTable := fun f => if f = "/s/x" then [.artifact 0] else []
    nextNode := 1 }

theorem tidy_oneSource : Tidy oneSource where
  mirror := ⟨fun _ _ => by simp [oneSource, BuildGraph.empty]⟩
  parent_lt u v hv := by simp [oneSource, BuildGraph.empty] at hv
  lookup_nodup f := by
    simp only [oneSource]
    split_ifs <;> simp
  lookup_lt f n hn := by
    simp only [oneSource] at hn ⊢
    split_ifs at hn <;> simp_all
  lookup_own f n hn := by
    simp only [oneSource] at hn ⊢
    split_ifs at hn <;> simp_all [Artifact.create]
  lookup_artifact _ _ _ := rfl
  nodes_lt q n hn := by
    simp only [nodesOf, oneSource] at hn ⊢
    split_ifs at hn <;> simp_all
  nodes_own q n hn := by
    simp only [nodesOf, oneSource] at hn ⊢
    split_ifs at hn <;> simp_all

/-- Change tracking after the product has disappeared: the build graph was marked as modified
before its artifact was removed, yet it is not marked afterwards. -/
theorem removed_product_not_reported :
    Tidy oneSource ∧
      ∃ s', TransitionSystem.Run Step (loaded oneSource)
        [(loaded oneSource, .trackRemovedProducts ["p"])] s' ∧ ¬ReportsChanges s' := by
  have hstep : Step (loaded oneSource) (.trackRemovedProducts ["p"]) ⟨_, persisted oneSource⟩ := rfl
  refine ⟨tidy_oneSource, _, TransitionSystem.Run.nil.snoc hstep, ?_⟩
  intro hrep
  refine Bool.false_ne_true (hrep fun hEq => ?_)
  have hnodes := congrFun (congrArg Persisted.nodes hEq) "p"
  have hmem : (0 : NodeId) ∈ (persisted oneSource).nodes "p" := by decide
  rw [← hnodes] at hmem
  revert hmem
  decide

/-- A run that only inserts an artifact. -/
theorem changes_reported_iff_insert :
    ∃ trace s', TransitionSystem.Run Step (loaded oneSource) trace s' ∧
      trace.map Prod.snd = [.insertArtifact "p" (Artifact.create .generated "/b/x")] ∧
      (((∀ e, e ∈ trace → ReportsChanges e.1) ∧ ReportsChanges s') ↔
        ∀ e, e ∈ trace → LeadsBack e.1 e.2) := by
  obtain ⟨s', hstep⟩ : ∃ s', Step (loaded oneSource)
      (.insertArtifact "p" (Artifact.create .generated "/b/x")) s' := ⟨_, rfl⟩
  have hrun := TransitionSystem.Run.nil.snoc hstep
  exact ⟨_, s', hrun, rfl, changes_reported_iff (loaded oneSource) tidy_oneSource.setClean
    (reportsChanges_loaded oneSource) _ _ hrun⟩

end Persistence

end Qbs
