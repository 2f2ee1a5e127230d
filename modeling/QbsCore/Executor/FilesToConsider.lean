import QbsCore.BuildGraph.CycleDetector
import QbsCore.Library.Walk

/-!
# Building selected files

A build can be restricted to some files.  While the reachable nodes are prepared, the
executor collects the file tags of the artifacts that the rules for these files need
from other rules.

Main results:

- Theorem {lit}`FilesToConsider.mem_tagsNeeded_iff`: the tags that are collected are
  those needed by a chain of rule nodes that the walk arrives at in this order.
- Theorem {lit}`FilesToConsider.leastTags_iff`: when the collected tags are all that
  are needed.

Current gaps:

- The preparation of the artifacts and the later checks of the collected tags.
-/

namespace Qbs

namespace FilesToConsider

/-- The files to consider, their tags, and their products. -/
structure SelectedFiles where
  filesToConsider : List FilePath
  tagsOfFilesToConsider : FileTags
  productsOfFilesToConsider : List ProductId

/-- Add the tags and the product of a file in the build graph; file dependencies are skipped. -/
def addFile (g : BuildGraph) (productsToBuild : List ProductId) (s : SelectedFiles) :
    FileResource → SelectedFiles
  | .fileDependency => s
  | .artifact a =>
      if g.productOf a ∈ productsToBuild then
        { s with
          tagsOfFilesToConsider := s.tagsOfFilesToConsider.unite (g.artifact a).fileTags
          productsOfFilesToConsider := s.productsOfFilesToConsider ++ [g.productOf a] }
      else s

/-- What a build needs to know of the files to consider. -/
def selectFiles (g : BuildGraph) (productsToBuild : List ProductId)
    (filesToConsider : List FilePath) : SelectedFiles :=
  (filesToConsider.flatMap g.lookupTable).foldl (addFile g productsToBuild)
    ⟨filesToConsider, ∅, []⟩

variable (project : Project) (g : BuildGraph) (s : SelectedFiles)

/-- The rule of a rule node. -/
def ruleOf (n : NodeId) : Rule :=
  project.rule (g.ruleNode n).rule

/-- The output tags of the rule of a rule node. -/
def collectedOutputFileTags (n : NodeId) : FileTags :=
  ((project.product? (g.productOf n)).map fun p =>
    (ruleOf project g n).collectedOutputFileTags p).getD ∅

/-- The tags that a rule needs apart from its inputs. -/
def otherInputs (n : NodeId) : FileTags :=
  ((ruleOf project g n).auxiliaryInputs.unite (ruleOf project g n).explicitlyDependsOn).subtract
    (ruleOf project g n).excludedInputs

/-- All tags that a rule needs. -/
def allInputs (n : NodeId) : FileTags :=
  (((ruleOf project g n).inputs.unite (ruleOf project g n).auxiliaryInputs).unite
    (ruleOf project g n).explicitlyDependsOn).subtract (ruleOf project g n).excludedInputs

/-- Collect the tags that a node needs. -/
def setupForBuildingSelectedFiles (node : NodeId) (tagsNeeded : FileTags) : FileTags :=
  if !g.isRuleNode node then tagsNeeded
  else if s.filesToConsider.isEmpty then tagsNeeded
  else if g.productOf node ∉ s.productsOfFilesToConsider then tagsNeeded
  else if (ruleOf project g node).inputs.intersects s.tagsOfFilesToConsider then
    tagsNeeded.unite (otherInputs project g node)
  else if (collectedOutputFileTags project g node).intersects tagsNeeded then
    tagsNeeded.unite (allInputs project g node)
  else tagsNeeded

/-- The build states and the tags needed for the files to consider. -/
structure PrepareState where
  buildState : NodeId → BuildState
  tagsNeeded : FileTags

/-- The root nodes of the products to build. -/
def setupRootNodes (productsToBuild : List ProductId) : NodeSet :=
  SortedSet.ofList (CycleDetector.rootNodes g productsToBuild)

/-- The orders in which the root nodes and the children of the nodes are iterated; they depend on
where the nodes are in memory. -/
structure IterationOrder (g : BuildGraph) (productsToBuild : List ProductId) where
  roots : List NodeId
  children : NodeId → List NodeId
  mem_roots : ∀ r, r ∈ roots ↔ r ∈ setupRootNodes g productsToBuild
  mem_children : ∀ n c, c ∈ children n ↔ c ∈ g.children n

/-- Prepare the nodes that can be reached from a node. There is no result if the fuel does not
suffice. -/
def prepareReachableNodesImpl (children : NodeId → List NodeId) :
    Nat → NodeId → PrepareState → Option PrepareState
  | 0, _, _ => none
  | fuel + 1, node, t =>
      let t := { t with tagsNeeded := setupForBuildingSelectedFiles project g s node t.tagsNeeded }
      if t.buildState node ≠ .untouched then some t
      else
        (children node).foldlM (fun t child => prepareReachableNodesImpl children fuel child t)
          { t with buildState := Function.update t.buildState node .buildable }

/-- Prepare the nodes that can be reached from the root nodes. -/
def prepareReachableNodes {productsToBuild : List ProductId}
    (order : IterationOrder g productsToBuild) (fuel : Nat) : Option PrepareState :=
  order.roots.foldlM
    (fun t root => prepareReachableNodesImpl project g s order.children fuel root t)
    ⟨g.buildState, ∅⟩

/-- The tags needed for the files to consider when a build is prepared. -/
def tagsNeededForFilesToConsider (productsToBuild : List ProductId)
    (filesToConsider : List FilePath) (order : IterationOrder g productsToBuild) (fuel : Nat) :
    Option FileTags :=
  (prepareReachableNodes project g (selectFiles g productsToBuild filesToConsider) order fuel).map
    PrepareState.tagsNeeded

/-! ## The tags that are needed -/

/-- A rule node of a product with files to consider. -/
def Considered (n : NodeId) : Prop :=
  g.isRuleNode n = true ∧ s.filesToConsider ≠ [] ∧ g.productOf n ∈ s.productsOfFilesToConsider

/-- A considered rule node that may take the files to consider as inputs. -/
def TakesFiles (n : NodeId) : Prop :=
  Considered g s n ∧ (ruleOf project g n).inputs.intersects s.tagsOfFilesToConsider = true

/-- A considered rule node that does not take the files to consider, but makes artifacts with a
tag. -/
def Makes (n : NodeId) (t : FileTag) : Prop :=
  Considered g s n ∧ ¬(ruleOf project g n).inputs.intersects s.tagsOfFilesToConsider = true ∧
    t ∈ collectedOutputFileTags project g n

/-- A node that is reachable from the root nodes. -/
inductive Reachable (productsToBuild : List ProductId) : NodeId → Prop where
  | root {r : NodeId} (hr : r ∈ setupRootNodes g productsToBuild) : Reachable productsToBuild r
  | child {n c : NodeId} (hn : Reachable productsToBuild n) (hnew : g.buildState n = .untouched)
      (hc : c ∈ g.children n) : Reachable productsToBuild c

/-- A set of tags has what the reachable rule nodes need. -/
def ClosedTags (productsToBuild : List ProductId) (tags : FileTag → Prop) : Prop :=
  ∀ n, Reachable g productsToBuild n →
    (TakesFiles project g s n → ∀ t, t ∈ otherInputs project g n → tags t) ∧
      ∀ t', tags t' → Makes project g s n t' → ∀ t, t ∈ allInputs project g n → tags t

/-- The least set of tags that has what the reachable rule nodes need. -/
structure LeastTags (productsToBuild : List ProductId) (tags : FileTags) : Prop where
  closed : ClosedTags project g s productsToBuild fun t => t ∈ tags
  least : ∀ tags', ClosedTags project g s productsToBuild tags' → ∀ t, t ∈ tags → tags' t

/-- Rule nodes that need a tag one for the other: the first takes the files to consider, and each
further one makes artifacts that the one before needs. -/
inductive NeedChain : List NodeId → FileTag → Prop where
  | start {n : NodeId} {t : FileTag} (htakes : TakesFiles project g s n)
      (ht : t ∈ otherInputs project g n) : NeedChain [n] t
  | snoc {chain : List NodeId} {n : NodeId} {t' t : FileTag} (hchain : NeedChain chain t')
      (hmakes : Makes project g s n t') (ht : t ∈ allInputs project g n) :
      NeedChain (chain ++ [n]) t

/-- The nodes that are not untouched. -/
def touched (nodes : NodeSet) : NodeSet :=
  nodes.filter fun n => g.buildState n ≠ .untouched

/-- The nodes that a walk from the root nodes arrives at, in the order in which it does. -/
def arrivalsAt {productsToBuild : List ProductId} (order : IterationOrder g productsToBuild)
    (nodes : NodeSet) (fuel : Nat) : List NodeId :=
  (Walk.arrivals order.children fuel order.roots (touched g nodes)).getD []

/-- For each tag that is needed by a chain of reachable nodes, a walk arrives at the nodes of such a
chain one after the other. -/
def ArrivesInOrder (productsToBuild : List ProductId) (visits : List NodeId) : Prop :=
  ∀ chain t, (∀ n, n ∈ chain → Reachable g productsToBuild n) → NeedChain project g s chain t →
    ∃ chain', chain'.Sublist visits ∧ NeedChain project g s chain' t

section Collected

variable {project g s}

/-- The tags that a node adds. -/
theorem mem_setup_iff {node : NodeId} {tags : FileTags} {t : FileTag} :
    t ∈ setupForBuildingSelectedFiles project g s node tags ↔
      t ∈ tags ∨ TakesFiles project g s node ∧ t ∈ otherInputs project g node ∨
        (∃ t', t' ∈ tags ∧ Makes project g s node t') ∧ t ∈ allInputs project g node := by
  unfold setupForBuildingSelectedFiles TakesFiles Makes Considered
  have hempty : s.filesToConsider.isEmpty = true ↔ s.filesToConsider = [] := List.isEmpty_iff
  split_ifs with hrule hfiles hproduct hinputs houtputs
  · have hfalse : ¬g.isRuleNode node = true := by simpa using hrule
    simp [hfalse]
  · simp [hempty.mp hfiles]
  · have hrule' : g.isRuleNode node = true := by simpa using hrule
    rw [hempty] at hfiles
    simp [SortedSet.mem_unite, hrule', hfiles, hproduct, hinputs]
  · have hrule' : g.isRuleNode node = true := by simpa using hrule
    rw [hempty] at hfiles
    rcases SortedSet.intersects_iff.mp houtputs with ⟨t', ht', htags⟩
    have hmakes : ∃ t', t' ∈ tags ∧ t' ∈ collectedOutputFileTags project g node := ⟨t', htags, ht'⟩
    simp [SortedSet.mem_unite, hrule', hfiles, hproduct, hinputs, hmakes]
  · have hnone : ¬∃ t', t' ∈ tags ∧ t' ∈ collectedOutputFileTags project g node := by
      rintro ⟨t', htags, ht'⟩
      exact houtputs (SortedSet.intersects_iff.mpr ⟨t', ht', htags⟩)
    constructor
    · exact Or.inl
    · rintro (ht | ⟨⟨-, hmeets⟩, -⟩ | ⟨⟨t', htags, -, -, ht'⟩, -⟩)
      · exact ht
      · exact absurd hmeets hinputs
      · exact absurd ⟨t', htags, ht'⟩ hnone
  · simp [hproduct]

theorem NeedChain.inv {chain : List NodeId} {n : NodeId} {t : FileTag}
    (h : NeedChain project g s (chain ++ [n]) t) :
    chain = [] ∧ TakesFiles project g s n ∧ t ∈ otherInputs project g n ∨
      ∃ t', NeedChain project g s chain t' ∧ Makes project g s n t' ∧ t ∈ allInputs project g n := by
  generalize hl : chain ++ [n] = l at h
  cases h with
  | start htakes ht =>
      rcases List.append_singleton_inj.mp (hl.trans (List.nil_append _).symm) with ⟨rfl, rfl⟩
      exact Or.inl ⟨rfl, htakes, ht⟩
  | snoc hchain hmakes ht =>
      rcases List.append_singleton_inj.mp hl with ⟨rfl, rfl⟩
      exact Or.inr ⟨_, hchain, hmakes, ht⟩

/-- The tags that are collected along a list of nodes are those needed by a chain of nodes that are
in the list in this order. -/
theorem mem_tagsNeeded_iff {visits : List NodeId} {t : FileTag} :
    t ∈ visits.foldl (fun tags n => setupForBuildingSelectedFiles project g s n tags) ∅ ↔
      ∃ chain, chain.Sublist visits ∧ NeedChain project g s chain t := by
  induction visits using List.reverseRecOn generalizing t with
  | nil =>
      constructor
      · intro ht
        exact absurd ht (SortedSet.not_mem_empty t)
      · rintro ⟨chain, hsub, hchain⟩
        rw [List.sublist_nil.mp hsub] at hchain
        generalize hl : ([] : List NodeId) = l at hchain
        cases hchain <;> simp at hl
  | append_singleton visits n ih =>
      rw [List.foldl_append, List.foldl_cons, List.foldl_nil, mem_setup_iff]
      constructor
      · rintro (ht | ⟨htakes, ht⟩ | ⟨⟨t', ht', hmakes⟩, ht⟩)
        · rcases ih.mp ht with ⟨chain, hsub, hchain⟩
          exact ⟨chain, hsub.trans (List.sublist_append_left visits [n]), hchain⟩
        · exact ⟨[n], List.sublist_append_right visits [n], NeedChain.start htakes ht⟩
        · rcases ih.mp ht' with ⟨chain, hsub, hchain⟩
          exact ⟨chain ++ [n], hsub.append (List.Sublist.refl [n]), NeedChain.snoc hchain hmakes ht⟩
      · rintro ⟨chain, hsub, hchain⟩
        rcases List.sublist_append_iff.mp hsub with ⟨l, last, rfl, hl, hlast⟩
        rcases List.sublist_singleton.mp hlast with rfl | rfl
        · rw [List.append_nil] at hchain
          exact Or.inl (ih.mpr ⟨l, hl, hchain⟩)
        · rcases hchain.inv with ⟨-, htakes, ht⟩ | ⟨t', hchain', hmakes, ht⟩
          · exact Or.inr (Or.inl ⟨htakes, ht⟩)
          · exact Or.inr (Or.inr ⟨⟨t', ih.mpr ⟨l, hl, hchain'⟩, hmakes⟩, ht⟩)

/-! ## The walk -/

/-- A state of the preparation corresponds to a state of a walk: the nodes that were seen are those
that are not untouched any more. -/
structure Corresponds (nodes : NodeSet) (t : PrepareState) (w : NodeSet × FileTags) : Prop where
  tagsNeeded : t.tagsNeeded = w.2
  seen : ∀ n, n ∈ nodes → (n ∈ w.1 ↔ t.buildState n ≠ .untouched)

theorem foldlM_corresponds {nodes : NodeSet} {us : List NodeId}
    {f : PrepareState → NodeId → Option PrepareState}
    {f' : NodeSet × FileTags → NodeId → Option (NodeSet × FileTags)}
    (hstep : ∀ u, u ∈ us → ∀ t w w', Corresponds nodes t w → f' w u = some w' →
      ∃ t', f t u = some t' ∧ Corresponds nodes t' w')
    {t : PrepareState} {w w' : NodeSet × FileTags} (h : Corresponds nodes t w)
    (hwalk : us.foldlM f' w = some w') :
    ∃ t', us.foldlM f t = some t' ∧ Corresponds nodes t' w' := by
  induction us generalizing t w with
  | nil =>
      cases hwalk
      exact ⟨t, rfl, h⟩
  | cons u us ih =>
      rw [List.foldlM_cons] at hwalk
      rcases Option.bind_eq_some_iff.mp hwalk with ⟨w₁, hfirst, hrest⟩
      rcases hstep u (by simp) t w w₁ h hfirst with ⟨t₁, heq, h₁⟩
      have hstep' : ∀ v, v ∈ us → ∀ t w w', Corresponds nodes t w → f' w v = some w' →
          ∃ t', f t v = some t' ∧ Corresponds nodes t' w' :=
        fun v hv => hstep v (List.mem_cons_of_mem u hv)
      rcases ih hstep' h₁ hrest with ⟨t', heq', h'⟩
      refine ⟨t', ?_, h'⟩
      rw [List.foldlM_cons, heq]
      exact heq'

theorem prepareReachableNodesImpl_corresponds {nodes : NodeSet} {children : NodeId → List NodeId}
    (hnodes : ∀ a, a ∈ nodes → ∀ b, b ∈ children a → b ∈ nodes) {fuel : Nat} {u : NodeId}
    (hu : u ∈ nodes) {t : PrepareState} {w w' : NodeSet × FileTags} (h : Corresponds nodes t w)
    (hwalk : Walk.walk children (setupForBuildingSelectedFiles project g s) fuel u w = some w') :
    ∃ t', prepareReachableNodesImpl project g s children fuel u t = some t' ∧
      Corresponds nodes t' w' := by
  induction fuel generalizing u t w w' with
  | zero => cases hwalk
  | succ fuel ih =>
      simp only [Walk.walk] at hwalk
      simp only [prepareReachableNodesImpl, h.tagsNeeded]
      by_cases hseen : u ∈ w.1
      · rw [if_pos hseen, Option.some.injEq] at hwalk
        rw [if_pos ((h.seen u hu).mp hseen)]
        exact ⟨_, rfl, by rw [← hwalk], by rw [← hwalk]; exact h.seen⟩
      · rw [if_neg hseen] at hwalk
        rw [if_neg fun hstate => hseen ((h.seen u hu).mpr hstate)]
        refine foldlM_corresponds ?_ ?_ hwalk
        · exact fun v hv _ _ _ => ih (hnodes u hu v hv)
        · refine ⟨rfl, ?_⟩
          intro n hn
          rw [SortedSet.mem_insert, h.seen n hn]
          by_cases hnu : n = u
          · simp [hnu]
          · simp [hnu]

variable {productsToBuild : List ProductId} {order : IterationOrder g productsToBuild}
  {nodes : NodeSet} (hg : CycleDetector.NodesOf g nodes)

include hg

theorem IterationOrder.children_mem :
    ∀ a, a ∈ nodes → ∀ b, b ∈ order.children a → b ∈ nodes :=
  fun a ha b hb => hg.closed a ha b ((order.mem_children a b).mp hb)

theorem setupRootNodes_mem {r : NodeId} (hr : r ∈ setupRootNodes g productsToBuild) : r ∈ nodes :=
  hg.rootNodes_mem r (SortedSet.mem_ofList.mp hr)

theorem IterationOrder.roots_mem : ∀ r, r ∈ order.roots → r ∈ nodes :=
  fun r hr => setupRootNodes_mem hg ((order.mem_roots r).mp hr)

theorem Reachable.mem {n : NodeId} (h : Reachable g productsToBuild n) : n ∈ nodes := by
  induction h with
  | root hr => exact setupRootNodes_mem hg hr
  | child _ _ hc ih => exact hg.closed _ ih _ hc

/-- What the walk can reach are the reachable nodes of the build graph. -/
theorem reaches_iff_reachable {n : NodeId} :
    Walk.Reaches order.children (touched g nodes) order.roots n ↔ Reachable g productsToBuild n := by
  constructor
  · intro h
    induction h with
    | root hr => exact Reachable.root ((order.mem_roots _).mp hr)
    | next _ hnew hc ih =>
        refine Reachable.child ih ?_ ((order.mem_children _ _).mp hc)
        by_contra hstate
        exact hnew (SortedSet.mem_filter.mpr ⟨ih.mem hg, by simpa using hstate⟩)
  · intro h
    induction h with
    | root hr => exact Walk.Reaches.root ((order.mem_roots _).mpr hr)
    | child _ hnew hc ih =>
        refine Walk.Reaches.next ih ?_ ((order.mem_children _ _).mpr hc)
        intro hmem
        have hstate := (SortedSet.mem_filter.mp hmem).2
        simp [hnew] at hstate

variable (project order) in
/-- The preparation ends; it collects tags along the nodes that it arrives at, and these are the
reachable nodes. -/
theorem tagsNeeded_spec (filesToConsider : List FilePath) {fuel : Nat} (hfuel : nodes.size < fuel) :
    tagsNeededForFilesToConsider project g productsToBuild filesToConsider order fuel =
        some ((arrivalsAt g order nodes fuel).foldl
          (fun tags n => setupForBuildingSelectedFiles project g
            (selectFiles g productsToBuild filesToConsider) n tags) ∅) ∧
      ∀ n, n ∈ arrivalsAt g order nodes fuel ↔ Reachable g productsToBuild n := by
  rcases Walk.arrivals_spec (IterationOrder.children_mem hg) hfuel (order.roots_mem hg)
    (touched g nodes) with ⟨visits, harrivals, hvisits⟩
  have heq : arrivalsAt g order nodes fuel = visits := by rw [arrivalsAt, harrivals]; rfl
  rw [heq]
  refine ⟨?_, fun n => (hvisits n).trans (reaches_iff_reachable hg)⟩
  rcases Walk.walkAll_eq_foldl (setupForBuildingSelectedFiles project g
    (selectFiles g productsToBuild filesToConsider)) harrivals ∅ with ⟨seen', hwalk⟩
  have hstart : Corresponds nodes ⟨g.buildState, ∅⟩ (touched g nodes, ∅) := by
    refine ⟨rfl, ?_⟩
    intro n hn
    simp [touched, hn]
  have hstep : ∀ u, u ∈ order.roots → ∀ t w w', Corresponds nodes t w →
      Walk.walk order.children (setupForBuildingSelectedFiles project g
        (selectFiles g productsToBuild filesToConsider)) fuel u w = some w' →
      ∃ t', prepareReachableNodesImpl project g (selectFiles g productsToBuild filesToConsider)
        order.children fuel u t = some t' ∧ Corresponds nodes t' w' :=
    fun u hu _ _ _ => prepareReachableNodesImpl_corresponds (IterationOrder.children_mem hg)
      (order.roots_mem hg u hu)
  rcases foldlM_corresponds hstep hstart hwalk with ⟨t', hprepare, h'⟩
  rw [tagsNeededForFilesToConsider, prepareReachableNodes, hprepare, Option.map_some, h'.tagsNeeded]

end Collected

/-! ## When the collected tags are the least ones -/

variable {project g s} in
/-- A set of tags that has what the reachable rule nodes need has the tags needed by chains. -/
theorem NeedChain.mem_closedTags {productsToBuild : List ProductId} {tags : FileTag → Prop}
    (hclosed : ClosedTags project g s productsToBuild tags) {chain : List NodeId} {t : FileTag}
    (h : NeedChain project g s chain t) (hchain : ∀ n, n ∈ chain → Reachable g productsToBuild n) :
    tags t := by
  induction h with
  | start htakes ht => exact (hclosed _ (hchain _ (by simp))).1 htakes _ ht
  | snoc _ hmakes ht ih =>
      have hbefore := ih fun n hn => hchain n (List.mem_append_left _ hn)
      exact (hclosed _ (hchain _ (by simp))).2 _ hbefore hmakes _ ht

/-- The preparation collects the least set of tags that has what the reachable rule nodes need
exactly if it arrives at the nodes that need a tag in an order in which they need it. -/
theorem leastTags_iff (project : Project) (g : BuildGraph) (nodes : NodeSet)
    (hg : CycleDetector.NodesOf g nodes) (productsToBuild : List ProductId)
    (filesToConsider : List FilePath) (order : IterationOrder g productsToBuild) (fuel : Nat)
    (hfuel : nodes.size < fuel) :
    (∃ tags, tagsNeededForFilesToConsider project g productsToBuild filesToConsider order fuel =
        some tags ∧
      LeastTags project g (selectFiles g productsToBuild filesToConsider) productsToBuild tags) ↔
      ArrivesInOrder project g (selectFiles g productsToBuild filesToConsider) productsToBuild
        (arrivalsAt g order nodes fuel) := by
  rcases tagsNeeded_spec project order hg filesToConsider hfuel with
    ⟨heq, hvisits⟩
  constructor
  · rintro ⟨tags, htags, hleast⟩ chain t hreachable hchain
    rw [heq, Option.some.injEq] at htags
    have hmem : t ∈ tags := hchain.mem_closedTags hleast.closed hreachable
    rw [← htags] at hmem
    exact mem_tagsNeeded_iff.mp hmem
  · intro horder
    refine ⟨_, heq, ?_, ?_⟩
    · intro n hn
      constructor
      · intro htakes t ht
        refine mem_tagsNeeded_iff.mpr (horder [n] t ?_ (NeedChain.start htakes ht))
        intro m hm
        rwa [List.mem_singleton.mp hm]
      · intro t' ht' hmakes t ht
        rcases mem_tagsNeeded_iff.mp ht' with ⟨chain, hsub, hchain⟩
        refine mem_tagsNeeded_iff.mpr (horder (chain ++ [n]) t ?_ (hchain.snoc hmakes ht))
        intro m hm
        rcases List.mem_append.mp hm with hm | hm
        · exact (hvisits m).mp (hsub.subset hm)
        · rwa [List.mem_singleton.mp hm]
    · intro tags' hclosed t ht
      rcases mem_tagsNeeded_iff.mp ht with ⟨chain, hsub, hchain⟩
      exact hchain.mem_closedTags hclosed fun n hn => (hvisits n).mp (hsub.subset hn)

/-! ## Two orders of the root nodes -/

def sampleProduct : ResolvedProduct :=
  { ResolvedProduct.create "app" ∅ with projectName := "top" }

/-- A rule with inputs, auxiliary inputs and outputs. -/
def sampleRule (inputs auxiliaryInputs outputFileTags : FileTags) : Rule :=
  { (default : Rule) with
    inputs := inputs
    auxiliaryInputs := auxiliaryInputs
    outputFileTags := outputFileTags }

/-- A tool is made in two steps, and two rules use it, one of them on the source file. -/
def sampleProject : Project where
  name := "top"
  allProducts := [sampleProduct]
  projectProperties _ := none
  rule r :=
    if r = 0 then sampleRule {"tool.in"} ∅ {"tool.cpp"}
    else if r = 1 then sampleRule {"tool.cpp"} ∅ {"tool"}
    else if r = 2 then sampleRule {"in"} {"tool"} {"out"}
    else sampleRule {"tool"} ∅ {"doc"}
  uniqueNames := List.pairwise_singleton _ _

def sampleGraph : BuildGraph :=
  { BuildGraph.empty with
    nodeType := fun n => if n = 4 then .artifactNode else .ruleNode
    productOf := fun _ => "app"
    children := fun n => if n = 1 then {0} else if n = 2 then {1, 4} else if n = 3 then {1} else ∅
    ruleNode := fun n => RuleNode.create n
    artifact := fun _ => { Artifact.create .sourceFile "/src/app.in" with fileTags := {"in"} }
    productData := fun p => if p = "app" then some ⟨{0, 1, 2, 3, 4}, {2, 3}, ∅, ∅⟩ else none
    lookupTable := fun file => if file = "/src/app.in" then [.artifact 4] else []
    nextNode := 5 }

theorem sampleGraph_nodes : CycleDetector.NodesOf sampleGraph {0, 1, 2, 3, 4} := by
  constructor
  · show ∀ a ∈ ({0, 1, 2, 3, 4} : NodeSet).elems, ∀ b ∈ (sampleGraph.children a).elems,
      b ∈ ({0, 1, 2, 3, 4} : NodeSet).elems
    decide
  · intro p d hd r hr
    simp only [sampleGraph, Option.ite_none_right_eq_some, Option.some.injEq] at hd
    rcases hd with ⟨-, rfl⟩
    have hroots : ∀ r ∈ ({2, 3} : NodeSet).elems, r ∈ ({0, 1, 2, 3, 4} : NodeSet) := by decide
    exact hroots r hr

/-- The rule for the source file comes first. -/
def sourceFirst : IterationOrder sampleGraph ["app"] where
  roots := [2, 3]
  children n := (sampleGraph.children n).elems
  mem_roots _ := Iff.rfl
  mem_children _ _ := Iff.rfl

/-- The rule for the source file comes last. -/
def sourceLast : IterationOrder sampleGraph ["app"] where
  roots := [3, 2]
  children n := (sampleGraph.children n).elems
  mem_roots r := by
    show r ∈ [3, 2] ↔ r ∈ [2, 3]
    simp [or_comm]
  mem_children _ _ := Iff.rfl

theorem leastTags_iff_sampleGraph :
    (∃ tags, tagsNeededForFilesToConsider sampleProject sampleGraph ["app"] ["/src/app.in"]
        sourceFirst 6 = some tags ∧
      LeastTags sampleProject sampleGraph (selectFiles sampleGraph ["app"] ["/src/app.in"]) ["app"]
        tags) ↔
      ArrivesInOrder sampleProject sampleGraph (selectFiles sampleGraph ["app"] ["/src/app.in"])
        ["app"] (arrivalsAt sampleGraph sourceFirst {0, 1, 2, 3, 4} 6) :=
  leastTags_iff sampleProject sampleGraph {0, 1, 2, 3, 4} sampleGraph_nodes ["app"]
    ["/src/app.in"] sourceFirst 6 (by decide)

/-- If the rule for the source file comes last, the first step of making the tool is left out. -/
theorem tagsNeeded_sourceLast :
    tagsNeededForFilesToConsider sampleProject sampleGraph ["app"] ["/src/app.in"] sourceFirst 6 =
        some {"tool", "tool.cpp", "tool.in"} ∧
      tagsNeededForFilesToConsider sampleProject sampleGraph ["app"] ["/src/app.in"] sourceLast 6 =
        some {"tool", "tool.cpp"} ∧
      ¬∃ tags, tagsNeededForFilesToConsider sampleProject sampleGraph ["app"] ["/src/app.in"]
          sourceLast 6 = some tags ∧
        LeastTags sampleProject sampleGraph (selectFiles sampleGraph ["app"] ["/src/app.in"])
          ["app"] tags := by
  have hlast : tagsNeededForFilesToConsider sampleProject sampleGraph ["app"] ["/src/app.in"]
      sourceLast 6 = some {"tool", "tool.cpp"} := by decide
  refine ⟨by decide, hlast, ?_⟩
  rintro ⟨tags, htags, hleast⟩
  rw [hlast, Option.some.injEq] at htags
  have hroot : Reachable sampleGraph ["app"] 2 := Reachable.root (by decide)
  have hstep : Reachable sampleGraph ["app"] 0 :=
    (hroot.child rfl (c := 1) (by decide)).child rfl (by decide)
  have hmakes : Makes sampleProject sampleGraph
      (selectFiles sampleGraph ["app"] ["/src/app.in"]) 0 "tool.cpp" :=
    ⟨⟨rfl, by decide, by decide⟩, by decide, by decide⟩
  have hneeded : "tool.in" ∈ tags := by
    refine (hleast.closed 0 hstep).2 "tool.cpp" ?_ hmakes "tool.in" (by decide)
    rw [← htags]
    decide
  rw [← htags] at hneeded
  exact absurd hneeded (by decide)

end FilesToConsider

end Qbs
