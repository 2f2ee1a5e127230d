import QbsCore.BuildGraph.Edges
import QbsCore.Language.Project
import QbsCore.Library.PathVisitor

/-!
# The rule graph of a product

The rules of a product are connected by the file tags of their inputs and outputs.  From the
rules for the target tags of the product, the graph is followed along all paths, and a rule node
is created for each rule on the way.

Main results:

- Definitions {lit}`RuleGraph.build` and {lit}`CreateRuleNodes.createRuleNodes`: the rule graph
  and what is made of it.
- Theorem {lit}`CreateRuleNodes.createRuleNodes_spec`: a cycle is reported exactly if there is
  one behind a root rule, and otherwise the rule nodes mirror the rule graph.

Current gaps:

- The locations in the text for a cycle are given.
-/

namespace Qbs

/-- The rules of a product, which of them come before which, and those for the target tags. A rule
stands for its number. -/
structure RuleGraph where
  rules : List RuleId
  children : RuleId → List RuleId
  rootRules : List RuleId

namespace RuleGraph

variable (ruleOf : RuleId → Rule) (product : ResolvedProduct) (rules : List RuleId)

/-- The file tags that the outputs of a rule can have. -/
def outputTags (r : RuleId) : FileTags :=
  (ruleOf r).collectedOutputFileTags product

/-- The rules with a file tag among those of their outputs. -/
def outputFileTagToRule (tag : FileTag) : List RuleId :=
  rules.filter fun r => tag ∈ outputTags ruleOf product r

/-- The file tags of everything that a rule takes from its own product. -/
def inFileTags (r : Rule) : FileTags :=
  (r.inputs.unite r.auxiliaryInputs).unite r.explicitlyDependsOn

/-- The rules that are connected to a rule, once for each tag. -/
def producingRules (r : RuleId) : List RuleId :=
  (inFileTags (ruleOf r)).elems.flatMap fun tag =>
    (outputFileTagToRule ruleOf product rules tag).filter fun producingRule =>
      !(outputTags ruleOf product producingRule).intersects (ruleOf r).excludedInputs

/-- Build the rule graph. -/
def build (productFileTags : FileTags) : RuleGraph where
  rules := rules
  children := fun r => if r ∈ rules then producingRules ruleOf product rules r else []
  rootRules :=
    let productRules := productFileTags.elems.flatMap (outputFileTagToRule ruleOf product rules)
    rules.filter fun r => r ∈ productRules

/-- A rule produces what another one takes, and nothing that it excludes. -/
def IsProducer (r c : RuleId) : Prop :=
  r ∈ rules ∧ c ∈ rules ∧
    (∃ tag, tag ∈ inFileTags (ruleOf r) ∧ tag ∈ outputTags ruleOf product c) ∧
      (outputTags ruleOf product c).intersects (ruleOf r).excludedInputs = false

/-- A rule produces one of the target tags. -/
def IsRoot (productFileTags : FileTags) (r : RuleId) : Prop :=
  r ∈ rules ∧ ∃ tag, tag ∈ productFileTags ∧ tag ∈ outputTags ruleOf product r

variable {ruleOf product rules}

theorem mem_outputFileTagToRule {tag : FileTag} {r : RuleId} :
    r ∈ outputFileTagToRule ruleOf product rules tag ↔
      r ∈ rules ∧ tag ∈ outputTags ruleOf product r := by
  simp [outputFileTagToRule]

variable {productFileTags : FileTags}

theorem mem_children_build {r c : RuleId} :
    c ∈ (build ruleOf product rules productFileTags).children r ↔
      IsProducer ruleOf product rules r c := by
  have hchildren : (build ruleOf product rules productFileTags).children r =
      if r ∈ rules then producingRules ruleOf product rules r else [] := rfl
  rw [hchildren]
  unfold IsProducer producingRules
  split_ifs with hr
  · simp only [List.mem_flatMap, List.mem_filter, mem_outputFileTagToRule, Bool.not_eq_true',
      SortedSet.mem_def]
    grind
  · simp [hr]

theorem mem_rootRules_build {r : RuleId} :
    r ∈ (build ruleOf product rules productFileTags).rootRules ↔
      IsRoot ruleOf product rules productFileTags r := by
  have hroots : (build ruleOf product rules productFileTags).rootRules =
      rules.filter fun r => r ∈ productFileTags.elems.flatMap
        (outputFileTagToRule ruleOf product rules) := rfl
  rw [hroots, List.mem_filter, decide_eq_true_eq, List.mem_flatMap]
  simp only [mem_outputFileTagToRule]
  unfold IsRoot
  grind [SortedSet.mem_def]

/-- A rule can be reached from one of the root rules. -/
def Reached (ruleOf : RuleId → Rule) (product : ResolvedProduct) (rules : List RuleId)
    (productFileTags : FileTags) (r : RuleId) : Prop :=
  ∃ root, IsRoot ruleOf product rules productFileTags root ∧
    Relation.ReflTransGen (IsProducer ruleOf product rules) root r

/-- An edge of the rule graph says that a rule is a producer. -/
theorem edge_build :
    CycleSearch.Edge (build ruleOf product rules productFileTags).children =
      IsProducer ruleOf product rules := by
  funext r c
  exact propext mem_children_build

end RuleGraph

/-! ## Creating rule nodes -/

/-- Create a rule node of a product. -/
def BuildGraph.newRuleNode (g : BuildGraph) (product : ProductId) (rule : RuleId) :
    BuildGraph × NodeId :=
  (BuildGraph.modifyProductData
    { g with
      nodeType := Function.update g.nodeType g.nextNode .ruleNode
      productOf := Function.update g.productOf g.nextNode product
      ruleNode := Function.update g.ruleNode g.nextNode (RuleNode.create rule)
      nextNode := g.nextNode + 1 }
    product fun d => { d with nodes := insert g.nextNode d.nodes }, g.nextNode)

/-- Add a node to the roots of a product. -/
def BuildGraph.addRootNode (g : BuildGraph) (product : ProductId) (n : NodeId) : BuildGraph :=
  g.modifyProductData product fun d => { d with roots := insert n d.roots }

/-- The state while rule nodes are created: the node of each rule, and the rules on the current
path. -/
structure CreateRuleNodes where
  graph : BuildGraph
  nodePerRule : AssocMap RuleId NodeId
  rulesOnPath : SortedSet RuleId
  rulePath : List RuleId

namespace CreateRuleNodes

variable (describe : RuleId → String) (product : ProductId)

/-- The error for a path that has come back to one of its rules. -/
def cycleError (rulePath : List RuleId) : ErrorInfo :=
  .message ("Cycle detected in rule dependencies: " ++
    rulePath.foldl (fun pathstr r => pathstr ++ "\n" ++ describe r) "")

/-- Enter a rule. -/
def enter (s : CreateRuleNodes) (rule : RuleId) : CreateRuleNodes :=
  { s with rulesOnPath := insert rule s.rulesOnPath, rulePath := s.rulePath ++ [rule] }

/-- The node of a rule, which is created if there is none. -/
def provideNode (s : CreateRuleNodes) (rule : RuleId) : CreateRuleNodes × NodeId :=
  match s.nodePerRule.lookup rule with
  | some node => (s, node)
  | none =>
      let (g, node) := s.graph.newRuleNode product rule
      ({ s with graph := g, nodePerRule := AList.insert rule node s.nodePerRule }, node)

/-- Connect a node to the one of the parent rule; without a parent it is a root. -/
def attach (s : CreateRuleNodes) (parentRule : Option RuleId) (node : NodeId) :
    Except ErrorInfo CreateRuleNodes :=
  match parentRule with
  | some parentRule =>
      match s.nodePerRule.lookup parentRule with
      | some parent => (s.graph.connect parent node).map fun g => { s with graph := g }
      | none => .error (.check "parent")
  | none => .ok { s with graph := s.graph.addRootNode product node }

def visit (parentRule : Option RuleId) (rule : RuleId) (s : CreateRuleNodes) :
    Except ErrorInfo CreateRuleNodes :=
  if rule ∈ s.rulesOnPath then .error (cycleError describe s.rulePath)
  else
    let (s, node) := (s.enter rule).provideNode product rule
    s.attach product parentRule node

def endVisit (rule : RuleId) (s : CreateRuleNodes) : CreateRuleNodes :=
  { s with rulesOnPath := s.rulesOnPath.remove rule, rulePath := s.rulePath.dropLast }

def visitor : PathVisitor RuleId CreateRuleNodes ErrorInfo where
  visit := visit describe product
  endVisit := endVisit
  outOfFuel := .outOfFuel

/-- Create the rule nodes for a rule graph. -/
def createRuleNodes (ruleGraph : RuleGraph) (g : BuildGraph) : Except ErrorInfo CreateRuleNodes :=
  (visitor describe product).traverseAll ruleGraph.children (ruleGraph.rules.length + 1)
    ruleGraph.rootRules ⟨g, ∅, ∅, []⟩

/-! ## What the rule nodes have to do with the visits -/

/-- The build data of a product before its rule nodes are created: all nodes have been allocated,
and none of the product is a rule node. -/
structure Prepared (g : BuildGraph) (product : ProductId) (d : ProductBuildData) : Prop where
  data : g.productData product = some d
  nodes : ∀ n, n ∈ d.nodes → n < g.nextNode ∧ g.isRuleNode n = false
  roots : ∀ n, n ∈ d.roots → n < g.nextNode
  children : ∀ n, g.nextNode ≤ n → g.children n = ∅

/-- The rules with a node are those in a list, and the edges between their nodes and the roots are
those of some visits. -/
structure Built (g₀ : BuildGraph) (product : ProductId) (d₀ : ProductBuildData)
    (rules : List RuleId) (visits : List (PathVisitor.Visit RuleId)) (s : CreateRuleNodes) :
    Prop where
  isSome : ∀ r, (∃ n, s.nodePerRule.lookup r = some n) ↔ r ∈ rules
  sources : ∀ a b, (some a, b) ∈ visits → a ∈ rules
  targets : ∀ a b, (a, b) ∈ visits → b ∈ rules
  node : ∀ r n, s.nodePerRule.lookup r = some n → g₀.nextNode ≤ n ∧ n < s.graph.nextNode ∧
    s.graph.isRuleNode n = true ∧ s.graph.productOf n = product ∧
      s.graph.ruleNode n = RuleNode.create r
  nextNode : g₀.nextNode ≤ s.graph.nextNode
  nodeType : ∀ n, n < g₀.nextNode → s.graph.nodeType n = g₀.nodeType n
  data : ∃ d, s.graph.productData product = some d ∧
    (∀ n, n ∈ d.nodes ↔ n ∈ d₀.nodes ∨ ∃ r, s.nodePerRule.lookup r = some n) ∧
      ∀ n, n ∈ d.roots ↔
        n ∈ d₀.roots ∨ ∃ r, (none, r) ∈ visits ∧ s.nodePerRule.lookup r = some n
  children : ∀ a p, s.nodePerRule.lookup a = some p → ∀ c, c ∈ s.graph.children p ↔
    ∃ b, (some a, b) ∈ visits ∧ s.nodePerRule.lookup b = some c
  fresh : ∀ n, s.graph.nextNode ≤ n → s.graph.children n = ∅

variable {g₀ : BuildGraph} {product : ProductId} {d₀ : ProductBuildData} {rules : List RuleId}
  {visits : List (PathVisitor.Visit RuleId)} {s : CreateRuleNodes}
variable {describe : RuleId → String} {r rule : RuleId}

/-- Different rules have different nodes. -/
theorem Built.lookup_inj (h : Built g₀ product d₀ rules visits s) {r' : RuleId} {n : NodeId}
    (hr : s.nodePerRule.lookup r = some n) (hr' : s.nodePerRule.lookup r' = some n) : r = r' := by
  have hrule := (h.node r n hr).2.2.2.2
  rw [(h.node r' n hr').2.2.2.2] at hrule
  exact (congrArg RuleNode.rule hrule).symm

theorem built_start (hprepared : Prepared g₀ product d₀) :
    Built g₀ product d₀ [] [] ⟨g₀, ∅, ∅, []⟩ := by
  have hnone : ∀ r n, ¬(∅ : AssocMap RuleId NodeId).lookup r = some n := by
    intro r n hn
    rw [AList.lookup_empty] at hn
    cases hn
  constructor
  · simp
  · simp
  · simp
  · exact fun r n hn => absurd hn (hnone r n)
  · exact Nat.le_refl _
  · exact fun _ _ => rfl
  · exact ⟨d₀, hprepared.data, by simp, by simp⟩
  · exact fun a p hp => absurd hp (hnone a p)
  · exact hprepared.children

/-- The order and repetitions of rules with a node do not matter. -/
theorem Built.congr (h : Built g₀ product d₀ rules visits s) {rules' : List RuleId}
    (hrules : ∀ r, r ∈ rules' ↔ r ∈ rules) : Built g₀ product d₀ rules' visits s :=
  { h with
    isSome := fun r => (h.isSome r).trans (hrules r).symm
    sources := fun a b hab => (hrules a).mpr (h.sources a b hab)
    targets := fun a b hab => (hrules b).mpr (h.targets a b hab) }

/-- The rules on the path have nothing to do with the nodes. -/
theorem Built.enter (h : Built g₀ product d₀ rules visits s) (rule : RuleId) :
    Built g₀ product d₀ rules visits (s.enter rule) :=
  { h with }

theorem Built.endVisit (h : Built g₀ product d₀ rules visits s) (rule : RuleId) :
    Built g₀ product d₀ rules visits (s.endVisit rule) :=
  { h with }

/-- A new rule node of a rule without one. -/
theorem Built.newRuleNode (h : Built g₀ product d₀ rules visits s)
    (hnone : s.nodePerRule.lookup rule = none) :
    Built g₀ product d₀ (rule :: rules) visits { s with
      graph := (s.graph.newRuleNode product rule).1
      nodePerRule := AList.insert rule s.graph.nextNode s.nodePerRule } := by
  have hnot : rule ∉ rules := by
    intro hmem
    rcases (h.isSome rule).mpr hmem with ⟨n, hn⟩
    rw [hnone] at hn
    cases hn
  have hlookup : ∀ r n, (AList.insert rule s.graph.nextNode s.nodePerRule).lookup r = some n ↔
      r = rule ∧ n = s.graph.nextNode ∨ s.nodePerRule.lookup r = some n := by
    intro r n
    by_cases hr : r = rule
    · rw [hr, AList.lookup_insert, hnone]
      simp [eq_comm]
    · rw [AList.lookup_insert_ne hr]
      simp [hr]
  have hold : ∀ r n, s.nodePerRule.lookup r = some n → n ≠ s.graph.nextNode := by
    intro r n hn
    exact Nat.ne_of_lt (h.node r n hn).2.1
  constructor
  · intro r
    simp only [hlookup, List.mem_cons, exists_or, h.isSome r]
    constructor
    · rintro (⟨n, hr, -⟩ | hr)
      · exact Or.inl hr
      · exact Or.inr hr
    · rintro (hr | hr)
      · exact Or.inl ⟨_, hr, rfl⟩
      · exact Or.inr hr
  · exact fun a b hab => List.mem_cons_of_mem rule (h.sources a b hab)
  · exact fun a b hab => List.mem_cons_of_mem rule (h.targets a b hab)
  · intro r n hn
    show g₀.nextNode ≤ n ∧ n < s.graph.nextNode + 1 ∧ _
    rcases (hlookup r n).mp hn with ⟨rfl, rfl⟩ | hn
    · refine ⟨h.nextNode, Nat.lt_succ_self _, ?_, ?_, ?_⟩
      · simp [BuildGraph.isRuleNode, BuildGraph.newRuleNode, BuildGraph.modifyProductData]
      · simp [BuildGraph.newRuleNode, BuildGraph.modifyProductData]
      · simp [BuildGraph.newRuleNode, BuildGraph.modifyProductData]
    · rcases h.node r n hn with ⟨hge, hlt, htype, hproduct, hrule⟩
      have hne := hold r n hn
      refine ⟨hge, Nat.lt_succ_of_lt hlt, ?_, ?_, ?_⟩
      · simpa [BuildGraph.isRuleNode, BuildGraph.newRuleNode, BuildGraph.modifyProductData, hne]
          using htype
      · simpa [BuildGraph.newRuleNode, BuildGraph.modifyProductData, hne] using hproduct
      · simpa [BuildGraph.newRuleNode, BuildGraph.modifyProductData, hne] using hrule
  · exact Nat.le_succ_of_le h.nextNode
  · intro n hn
    have hne : n ≠ s.graph.nextNode := Nat.ne_of_lt (Nat.lt_of_lt_of_le hn h.nextNode)
    simpa [BuildGraph.newRuleNode, BuildGraph.modifyProductData, hne] using h.nodeType n hn
  · rcases h.data with ⟨d, hd, hnodes, hroots⟩
    refine ⟨{ d with nodes := insert s.graph.nextNode d.nodes }, ?_, ?_, ?_⟩
    · simp [BuildGraph.newRuleNode, BuildGraph.modifyProductData, hd]
    · intro n
      rw [SortedSet.mem_insert, hnodes]
      simp only [hlookup, exists_or]
      constructor
      · rintro (rfl | hn | hn)
        · exact Or.inr (Or.inl ⟨rule, rfl, rfl⟩)
        · exact Or.inl hn
        · exact Or.inr (Or.inr hn)
      · rintro (hn | ⟨r, -, rfl⟩ | hn)
        · exact Or.inr (Or.inl hn)
        · exact Or.inl rfl
        · exact Or.inr (Or.inr hn)
    · intro n
      rw [hroots]
      simp only [hlookup]
      constructor
      · rintro (hn | ⟨r, hr, hn⟩)
        · exact Or.inl hn
        · exact Or.inr ⟨r, hr, Or.inr hn⟩
      · rintro (hn | ⟨r, hr, ⟨rfl, -⟩ | hn⟩)
        · exact Or.inl hn
        · exact absurd (h.targets none r hr) hnot
        · exact Or.inr ⟨r, hr, hn⟩
  · intro a p hp c
    show c ∈ s.graph.children p ↔ _
    simp only [hlookup]
    rcases (hlookup a p).mp hp with ⟨rfl, rfl⟩ | hp
    · rw [h.fresh _ (Nat.le_refl _)]
      constructor
      · exact fun hc => absurd hc (SortedSet.not_mem_empty c)
      · rintro ⟨b, hb, -⟩
        exact absurd (h.sources a b hb) hnot
    · rw [h.children a p hp]
      constructor
      · rintro ⟨b, hb, hc⟩
        exact ⟨b, hb, Or.inr hc⟩
      · rintro ⟨b, hb, ⟨rfl, -⟩ | hc⟩
        · exact absurd (h.targets _ b hb) hnot
        · exact ⟨b, hb, hc⟩
  · exact fun n hn => h.fresh n (Nat.le_of_succ_le hn)

/-- Every rule has a node after it was provided. -/
theorem Built.provideNode (h : Built g₀ product d₀ rules visits s) (rule : RuleId) :
    Built g₀ product d₀ (rule :: rules) visits (s.provideNode product rule).1 ∧
      (s.provideNode product rule).1.nodePerRule.lookup rule =
        some (s.provideNode product rule).2 ∧
      (s.provideNode product rule).1.rulesOnPath = s.rulesOnPath ∧
      (s.provideNode product rule).1.rulePath = s.rulePath := by
  unfold CreateRuleNodes.provideNode
  cases hlookup : s.nodePerRule.lookup rule with
  | some node =>
      refine ⟨h.congr fun r => ?_, hlookup, rfl, rfl⟩
      have hmem : rule ∈ rules := (h.isSome rule).mp ⟨node, hlookup⟩
      rw [List.mem_cons, or_iff_right_of_imp]
      rintro rfl
      exact hmem
  | none => exact ⟨h.newRuleNode hlookup, AList.lookup_insert _, rfl, rfl⟩

/-- The edge to a rule from its parent. -/
theorem Built.connect (h : Built g₀ product d₀ rules visits s) {a : RuleId} {p c : NodeId}
    (hp : s.nodePerRule.lookup a = some p) (hc : s.nodePerRule.lookup r = some c) (hne : a ≠ r) :
    ∃ g, s.graph.connect p c = .ok g ∧
      Built g₀ product d₀ rules (visits ++ [(some a, r)]) { s with graph := g } := by
  have hpc : p ≠ c := by
    rintro rfl
    exact hne (h.lookup_inj hp hc)
  have hfind : s.graph.findChild p c = .ok false := by
    have hartifact : s.graph.isArtifact c = false := by
      have hrule := (h.node r c hc).2.2.1
      rw [BuildGraph.isRuleNode_eq_not, Bool.not_eq_true'] at hrule
      exact hrule
    unfold BuildGraph.findChild
    rw [hartifact]
    rfl
  refine ⟨(s.graph.insertEdge p c).setDirty, ?_, ?_⟩
  · unfold BuildGraph.connect
    rw [hfind]
    simp [qbsCheck, hpc, bind, Except.bind, pure, Except.pure]
  · have ha : a ∈ rules := (h.isSome a).mp ⟨p, hp⟩
    have hr : r ∈ rules := (h.isSome r).mp ⟨c, hc⟩
    refine { h with sources := ?_, targets := ?_, data := ?_, children := ?_, fresh := ?_ }
    · intro a' b hab
      rcases List.mem_append.mp hab with hab | hab
      · exact h.sources a' b hab
      · cases List.mem_singleton.mp hab
        exact ha
    · intro a' b hab
      rcases List.mem_append.mp hab with hab | hab
      · exact h.targets a' b hab
      · cases List.mem_singleton.mp hab
        exact hr
    · rcases h.data with ⟨d, hd, hnodes, hroots⟩
      refine ⟨d, hd, hnodes, fun n => ?_⟩
      rw [hroots]
      simp
    · intro a' p' hp' c'
      show c' ∈ (s.graph.insertEdge p c).children p' ↔ _
      rw [BuildGraph.mem_children_insertEdge, h.children a' p' hp']
      constructor
      · rintro (⟨b, hb, hc'⟩ | ⟨rfl, rfl⟩)
        · exact ⟨b, List.mem_append_left _ hb, hc'⟩
        · rw [h.lookup_inj hp' hp]
          exact ⟨r, List.mem_append_right _ (List.mem_singleton.mpr rfl), hc⟩
      · rintro ⟨b, hb, hc'⟩
        rcases List.mem_append.mp hb with hb | hb
        · exact Or.inl ⟨b, hb, hc'⟩
        · cases List.mem_singleton.mp hb
          exact Or.inr ⟨Option.some.inj (hp'.symm.trans hp), Option.some.inj (hc'.symm.trans hc)⟩
    · intro n hn
      have hp' : n ≠ p := (Nat.ne_of_lt (Nat.lt_of_lt_of_le (h.node a p hp).2.1 hn)).symm
      simpa [BuildGraph.setDirty, BuildGraph.insertEdge, hp'] using h.fresh n hn

/-- A rule without a parent is a root. -/
theorem Built.addRootNode (h : Built g₀ product d₀ rules visits s) {c : NodeId}
    (hc : s.nodePerRule.lookup r = some c) :
    Built g₀ product d₀ rules (visits ++ [(none, r)])
      { s with graph := s.graph.addRootNode product c } := by
  have hr : r ∈ rules := (h.isSome r).mp ⟨c, hc⟩
  refine { h with sources := ?_, targets := ?_, data := ?_, children := ?_ }
  · intro a b hab
    rcases List.mem_append.mp hab with hab | hab
    · exact h.sources a b hab
    · cases List.mem_singleton.mp hab
  · intro a b hab
    rcases List.mem_append.mp hab with hab | hab
    · exact h.targets a b hab
    · cases List.mem_singleton.mp hab
      exact hr
  · rcases h.data with ⟨d, hd, hnodes, hroots⟩
    refine ⟨{ d with roots := insert c d.roots }, ?_, hnodes, fun n => ?_⟩
    · simp [BuildGraph.addRootNode, BuildGraph.modifyProductData, hd]
    · rw [SortedSet.mem_insert, hroots]
      constructor
      · rintro (rfl | hn | ⟨b, hb, hn⟩)
        · exact Or.inr ⟨r, List.mem_append_right _ (List.mem_singleton.mpr rfl), hc⟩
        · exact Or.inl hn
        · exact Or.inr ⟨b, List.mem_append_left _ hb, hn⟩
      · rintro (hn | ⟨b, hb, hn⟩)
        · exact Or.inr (Or.inl hn)
        · rcases List.mem_append.mp hb with hb | hb
          · exact Or.inr (Or.inr ⟨b, hb, hn⟩)
          · cases List.mem_singleton.mp hb
            exact Or.inl (Option.some.inj (hn.symm.trans hc))
  · intro a p hp c'
    refine (h.children a p hp c').trans ⟨?_, ?_⟩
    · rintro ⟨b, hb, hc'⟩
      exact ⟨b, List.mem_append_left _ hb, hc'⟩
    · rintro ⟨b, hb, hc'⟩
      rcases List.mem_append.mp hb with hb | hb
      · exact ⟨b, hb, hc'⟩
      · cases List.mem_singleton.mp hb

/-! ## Visiting the rule graph -/

/-- The rules that were visited have nodes, and the rules on the path are known. -/
structure Following (g₀ : BuildGraph) (product : ProductId) (d₀ : ProductBuildData)
    (path : List RuleId) (visits : List (PathVisitor.Visit RuleId)) (s : CreateRuleNodes) :
    Prop where
  built : Built g₀ product d₀ (visits.map Prod.snd) visits s
  rulePath : s.rulePath = path.reverse
  rulesOnPath : ∀ r, r ∈ s.rulesOnPath ↔ r ∈ path
  nodup : path.Nodup
  visited : ∀ r, r ∈ path → r ∈ visits.map Prod.snd

/-- The error for some cycle. -/
def IsCycleError (describe : RuleId → String) (e : ErrorInfo) : Prop :=
  ∃ rulePath, e = cycleError describe rulePath

theorem following_visit {path : List RuleId} {parentRule : Option RuleId}
    (h : Following g₀ product d₀ path visits s) (hnew : rule ∉ path)
    (hparent : ∀ a, parentRule = some a → a ∈ path) :
    ∃ s', visit describe product parentRule rule s = .ok s' ∧
      Following g₀ product d₀ (rule :: path) (visits ++ [(parentRule, rule)]) s' := by
  rcases (h.built.enter rule).provideNode rule with ⟨hbuilt, hlookup, honPath, hpath⟩
  have hvisit : visit describe product parentRule rule s =
      ((s.enter rule).provideNode product rule).1.attach product parentRule
        ((s.enter rule).provideNode product rule).2 := by
    unfold visit
    rw [if_neg fun hmem => hnew ((h.rulesOnPath rule).mp hmem)]
  have hrules : ∀ r, r ∈ (visits ++ [(parentRule, rule)]).map Prod.snd ↔
      r ∈ rule :: visits.map Prod.snd := by
    intro r
    simp [or_comm]
  rw [hvisit]
  generalize (s.enter rule).provideNode product rule = provided at hbuilt hlookup honPath hpath ⊢
  rcases provided with ⟨s₁, node⟩
  dsimp only at hbuilt hlookup honPath hpath ⊢
  have hfollowing : ∀ g, Built g₀ product d₀ (rule :: visits.map Prod.snd)
      (visits ++ [(parentRule, rule)]) { s₁ with graph := g } →
      Following g₀ product d₀ (rule :: path) (visits ++ [(parentRule, rule)])
        { s₁ with graph := g } := by
    intro g hg
    refine ⟨hg.congr hrules, ?_, fun r => ?_, List.nodup_cons.mpr ⟨hnew, h.nodup⟩, ?_⟩
    · show s₁.rulePath = _
      rw [hpath, List.reverse_cons, ← h.rulePath]
      rfl
    · show r ∈ s₁.rulesOnPath ↔ _
      rw [honPath, List.mem_cons, ← h.rulesOnPath]
      exact SortedSet.mem_insert
    · intro r hr
      rw [hrules]
      rcases List.mem_cons.mp hr with rfl | hr
      · exact List.mem_cons_self
      · exact List.mem_cons_of_mem _ (h.visited r hr)
  unfold attach
  cases parentRule with
  | none => exact ⟨_, rfl, hfollowing _ (hbuilt.addRootNode hlookup)⟩
  | some a =>
      have ha := hparent a rfl
      have hne : a ≠ rule := by
        rintro rfl
        exact hnew ha
      rcases (hbuilt.isSome a).mpr (List.mem_cons_of_mem _ (h.visited a ha)) with ⟨p, hp⟩
      rcases hbuilt.connect hp hlookup hne with ⟨g, hg, hconnected⟩
      refine ⟨{ s₁ with graph := g }, ?_, hfollowing g hconnected⟩
      dsimp only
      rw [hp]
      dsimp only
      rw [hg]
      rfl

/-- The visitor creates the nodes of the rules on its way. -/
theorem visitor_keeps (next : RuleId → List RuleId) :
    (visitor describe product).Keeps next (IsCycleError describe)
      (Following g₀ product d₀) where
  visit := fun _ _ _ _ _ h hnew hparent => following_visit h hnew fun a ha => (hparent a ha).2
  refuse := by
    intro path visits s parent u h hmem
    refine ⟨cycleError describe s.rulePath, ?_, s.rulePath, rfl⟩
    show visit describe product parent u s = _
    unfold visit
    rw [if_pos ((h.rulesOnPath u).mpr hmem)]
  endVisit := by
    intro path visits s u h
    rcases List.nodup_cons.mp h.nodup with ⟨hu, hnodup⟩
    refine ⟨h.built.endVisit u, ?_, fun r => ?_, hnodup, ?_⟩
    · show s.rulePath.dropLast = _
      rw [h.rulePath, List.reverse_cons, List.dropLast_concat]
    · show r ∈ s.rulesOnPath.remove u ↔ _
      rw [SortedSet.mem_remove, h.rulesOnPath, List.mem_cons]
      constructor
      · rintro ⟨rfl | hr, hne⟩
        · exact absurd rfl hne
        · exact hr
      · intro hr
        refine ⟨Or.inr hr, ?_⟩
        rintro rfl
        exact hu hr
    · exact fun r hr => h.visited r (List.mem_cons_of_mem u hr)

/-! ## The rule nodes of a product -/

/-- Create the rule nodes for the target tags of a product. -/
def createForProduct (describe : RuleId → String) (ruleOf : RuleId → Rule)
    (product : ResolvedProduct) (rules : List RuleId) (g : BuildGraph) :
    Except ErrorInfo CreateRuleNodes :=
  createRuleNodes describe product.uniqueName
    (RuleGraph.build ruleOf product rules product.fileTags) g

/-- A cycle of rules can be reached from a root rule. -/
def HasCycle (ruleOf : RuleId → Rule) (product : ResolvedProduct) (rules : List RuleId) : Prop :=
  ∃ r, RuleGraph.Reached ruleOf product rules product.fileTags r ∧
    Relation.TransGen (RuleGraph.IsProducer ruleOf product rules) r r

/-- The rule nodes of a product mirror its rule graph: there is one for each rule that can be
reached, those of root rules are roots, and the children are the nodes of producers. -/
structure RuleNodesMirror (ruleOf : RuleId → Rule) (product : ResolvedProduct)
    (rules : List RuleId) (d₀ : ProductBuildData) (g : BuildGraph) (d : ProductBuildData) :
    Prop where
  unique : ∀ r, RuleGraph.Reached ruleOf product rules product.fileTags r →
    ∃! n, n ∈ g.filterRuleNodes d.nodes ∧ (g.ruleNode n).rule = r
  reached : ∀ n, n ∈ g.filterRuleNodes d.nodes →
    RuleGraph.Reached ruleOf product rules product.fileTags (g.ruleNode n).rule
  roots : ∀ n, n ∈ d.roots ↔ n ∈ d₀.roots ∨ n ∈ g.filterRuleNodes d.nodes ∧
    RuleGraph.IsRoot ruleOf product rules product.fileTags (g.ruleNode n).rule
  children : ∀ p, p ∈ g.filterRuleNodes d.nodes → ∀ c, c ∈ g.children p ↔
    c ∈ g.filterRuleNodes d.nodes ∧
      RuleGraph.IsProducer ruleOf product rules (g.ruleNode p).rule (g.ruleNode c).rule

section Product

variable {ruleOf : RuleId → Rule} {resolved : ResolvedProduct}

/-- The visits of a traversal from the root rules. -/
def MadeVisit (ruleOf : RuleId → Rule) (resolved : ResolvedProduct) (rules : List RuleId)
    (x : PathVisitor.Visit RuleId) : Prop :=
  ∃ u, u ∈ (RuleGraph.build ruleOf resolved rules resolved.fileTags).rootRules ∧
    (x = (none, u) ∨
      PathVisitor.Behind (RuleGraph.build ruleOf resolved rules resolved.fileTags).children u x)

theorem madeVisit_none_iff {r : RuleId} :
    MadeVisit ruleOf resolved rules (none, r) ↔
      RuleGraph.IsRoot ruleOf resolved rules resolved.fileTags r := by
  rw [← RuleGraph.mem_rootRules_build]
  constructor
  · rintro ⟨u, hu, heq | ⟨a, hparent, -⟩⟩
    · cases heq
      exact hu
    · cases hparent
  · exact fun hr => ⟨r, hr, Or.inl rfl⟩

theorem madeVisit_some_iff {a b : RuleId} :
    MadeVisit ruleOf resolved rules (some a, b) ↔
      RuleGraph.Reached ruleOf resolved rules resolved.fileTags a ∧
        RuleGraph.IsProducer ruleOf resolved rules a b := by
  unfold MadeVisit PathVisitor.Behind RuleGraph.Reached
  simp only [RuleGraph.mem_rootRules_build, RuleGraph.mem_children_build, RuleGraph.edge_build]
  constructor
  · rintro ⟨u, hu, heq | ⟨a', hparent, hpath, hmem⟩⟩
    · cases heq
    · cases hparent
      exact ⟨⟨u, hu, hpath⟩, hmem⟩
  · rintro ⟨⟨u, hu, hpath⟩, hmem⟩
    exact ⟨u, hu, Or.inr ⟨a, rfl, hpath, hmem⟩⟩

theorem exists_madeVisit_iff {r : RuleId} :
    (∃ a, MadeVisit ruleOf resolved rules (a, r)) ↔
      RuleGraph.Reached ruleOf resolved rules resolved.fileTags r := by
  constructor
  · rintro ⟨a, ha⟩
    cases a with
    | none => exact ⟨r, madeVisit_none_iff.mp ha, Relation.ReflTransGen.refl⟩
    | some a =>
        rcases madeVisit_some_iff.mp ha with ⟨⟨root, hroot, hpath⟩, hmem⟩
        exact ⟨root, hroot, hpath.tail hmem⟩
  · rintro ⟨root, hroot, hpath⟩
    rcases Relation.ReflTransGen.cases_tail hpath with rfl | ⟨a, ha, hmem⟩
    · exact ⟨none, madeVisit_none_iff.mpr hroot⟩
    · exact ⟨some a, madeVisit_some_iff.mpr ⟨⟨root, hroot, ha⟩, hmem⟩⟩

/-- What the nodes mirror after all visits of the traversal. -/
theorem Built.mirror {s : CreateRuleNodes}
    (hprepared : Prepared g₀ resolved.uniqueName d₀)
    (h : Built g₀ resolved.uniqueName d₀ (visits.map Prod.snd) visits s)
    (hvisits : ∀ x, x ∈ visits ↔ MadeVisit ruleOf resolved rules x) :
    ∃ d, s.graph.productData resolved.uniqueName = some d ∧
      RuleNodesMirror ruleOf resolved rules d₀ s.graph d := by
  rcases h.data with ⟨d, hd, hnodes, hroots⟩
  have hvisited : ∀ r, (∃ n, s.nodePerRule.lookup r = some n) ↔
      RuleGraph.Reached ruleOf resolved rules resolved.fileTags r := by
    intro r
    rw [h.isSome, ← exists_madeVisit_iff, List.mem_map]
    constructor
    · rintro ⟨⟨a, b⟩, hab, rfl⟩
      exact ⟨a, (hvisits _).mp hab⟩
    · rintro ⟨a, ha⟩
      exact ⟨(a, r), (hvisits _).mpr ha, rfl⟩
  have hruleNodes : ∀ n, n ∈ s.graph.filterRuleNodes d.nodes ↔
      ∃ r, s.nodePerRule.lookup r = some n := by
    intro n
    rw [BuildGraph.mem_filterRuleNodes, hnodes]
    constructor
    · rintro ⟨hn | hn, htype⟩
      · rcases hprepared.nodes n hn with ⟨hlt, hnot⟩
        have hsame : s.graph.isRuleNode n = g₀.isRuleNode n := by
          unfold BuildGraph.isRuleNode
          rw [h.nodeType n hlt]
        rw [hsame, hnot] at htype
        cases htype
      · exact hn
    · rintro ⟨r, hr⟩
      exact ⟨Or.inr ⟨r, hr⟩, (h.node r n hr).2.2.1⟩
  have hrule : ∀ r n, s.nodePerRule.lookup r = some n → (s.graph.ruleNode n).rule = r :=
    fun r n hr => congrArg RuleNode.rule (h.node r n hr).2.2.2.2
  refine ⟨d, hd, fun r hr => ?_, fun n hn => ?_, fun n => ?_, fun p hp c => ?_⟩
  · rcases (hvisited r).mpr hr with ⟨n, hn⟩
    refine ⟨n, ⟨(hruleNodes n).mpr ⟨r, hn⟩, hrule r n hn⟩, ?_⟩
    rintro n' ⟨hn', hr'⟩
    rcases (hruleNodes n').mp hn' with ⟨r', hlookup⟩
    rw [hrule r' n' hlookup] at hr'
    rw [hr', hn] at hlookup
    exact (Option.some.inj hlookup).symm
  · rcases (hruleNodes n).mp hn with ⟨r, hr⟩
    rw [hrule r n hr]
    exact (hvisited r).mp ⟨n, hr⟩
  · rw [hroots, hruleNodes]
    refine or_congr_right ⟨?_, ?_⟩
    · rintro ⟨r, hr, hn⟩
      refine ⟨⟨r, hn⟩, ?_⟩
      rw [hrule r n hn]
      exact madeVisit_none_iff.mp ((hvisits _).mp hr)
    · rintro ⟨⟨r, hn⟩, hroot⟩
      rw [hrule r n hn] at hroot
      exact ⟨r, (hvisits _).mpr (madeVisit_none_iff.mpr hroot), hn⟩
  · rcases (hruleNodes p).mp hp with ⟨a, ha⟩
    rw [h.children a p ha, hruleNodes, hrule a p ha]
    constructor
    · rintro ⟨b, hb, hc⟩
      rw [hrule b c hc]
      exact ⟨⟨b, hc⟩, (madeVisit_some_iff.mp ((hvisits _).mp hb)).2⟩
    · rintro ⟨⟨b, hc⟩, hproducer⟩
      rw [hrule b c hc] at hproducer
      have hreached := (hvisited a).mp ⟨p, ha⟩
      exact ⟨b, (hvisits _).mpr (madeVisit_some_iff.mpr ⟨hreached, hproducer⟩), hc⟩

theorem exists_leadsToCycle_iff :
    (∃ u, u ∈ (RuleGraph.build ruleOf resolved rules resolved.fileTags).rootRules ∧
      CycleSearch.LeadsToCycle
        (RuleGraph.build ruleOf resolved rules resolved.fileTags).children u) ↔
      HasCycle ruleOf resolved rules := by
  unfold CycleSearch.LeadsToCycle HasCycle RuleGraph.Reached
  simp only [RuleGraph.mem_rootRules_build, RuleGraph.edge_build]
  constructor
  · rintro ⟨u, hu, r, hpath, hcycle⟩
    exact ⟨r, ⟨u, hu, hpath⟩, hcycle⟩
  · rintro ⟨r, ⟨u, hu, hpath⟩, hcycle⟩
    exact ⟨u, hu, r, hpath, hcycle⟩

/-- Creating rule nodes fails exactly if a cycle can be reached, and then reports it; otherwise the
rule nodes mirror the rule graph. -/
theorem createRuleNodes_spec (describe : RuleId → String) (ruleOf : RuleId → Rule)
    (product : ResolvedProduct) (rules : List RuleId) {g : BuildGraph} {d₀ : ProductBuildData}
    (hprepared : Prepared g product.uniqueName d₀) :
    ((∃ e, createForProduct describe ruleOf product rules g = .error e) ↔
        HasCycle ruleOf product rules) ∧
      (∀ e, createForProduct describe ruleOf product rules g = .error e →
        IsCycleError describe e) ∧
      ∀ s, createForProduct describe ruleOf product rules g = .ok s →
        ∃ d, s.graph.productData product.uniqueName = some d ∧
          RuleNodesMirror ruleOf product rules d₀ s.graph d := by
  have hclosed : ∀ a, a ∈ rules →
      ∀ b, b ∈ (RuleGraph.build ruleOf product rules product.fileTags).children a → b ∈ rules :=
    fun a _ b hb => (RuleGraph.mem_children_build.mp hb).2.1
  have hroots : ∀ u, u ∈ (RuleGraph.build ruleOf product rules product.fileTags).rootRules →
      u ∈ rules := fun u hu => (RuleGraph.mem_rootRules_build.mp hu).1
  have hstart : Following g product.uniqueName d₀ [] [] ⟨g, ∅, ∅, []⟩ :=
    ⟨built_start hprepared, rfl, fun r => iff_of_false (SortedSet.not_mem_empty r) List.not_mem_nil,
      List.nodup_nil, fun r hr => absurd hr List.not_mem_nil⟩
  have hkeeps : (visitor describe product.uniqueName).Keeps
      (RuleGraph.build ruleOf product rules product.fileTags).children (IsCycleError describe)
      (Following g product.uniqueName d₀) := visitor_keeps _
  have houtcome := PathVisitor.traverseAll_spec hclosed hkeeps hroots (Nat.lt_succ_self _) hstart
  rw [exists_leadsToCycle_iff] at houtcome
  have heq : createForProduct describe ruleOf product rules g =
      (visitor describe product.uniqueName).traverseAll
        (RuleGraph.build ruleOf product rules product.fileTags).children (rules.length + 1)
        (RuleGraph.build ruleOf product rules product.fileTags).rootRules ⟨g, ∅, ∅, []⟩ := rfl
  rw [heq]
  generalize (visitor describe product.uniqueName).traverseAll _ _ _ _ = o at houtcome
  cases houtcome with
  | @done s' new hnot hnew hinv =>
      refine ⟨iff_of_false (by simp) hnot, by simp, ?_⟩
      intro s hs
      cases hs
      exact hinv.built.mirror hprepared hnew
  | @refused e hleads herror =>
      refine ⟨iff_of_true ⟨e, rfl⟩ hleads, ?_, by simp⟩
      intro e' he
      cases he
      exact herror

end Product

/-! ## An application -/

/-- Rules that link objects into an application and compile sources into objects. -/
def linkAndCompile (r : RuleId) : Rule :=
  if r = 0 then { (default : Rule) with inputs := {"obj"}, outputFileTags := {"application"} }
  else { (default : Rule) with inputs := {"cpp"}, outputFileTags := {"obj"} }

/-- A project with an application that has no nodes yet. -/
def emptyApp : BuildGraph :=
  { BuildGraph.empty with
    productData := fun p => if p = "app" then some default else none }

theorem createRuleNodes_spec_app :
    ((∃ e, createForProduct toString linkAndCompile (.create "app" {"application"}) [0, 1]
          emptyApp = .error e) ↔
        HasCycle linkAndCompile (.create "app" {"application"}) [0, 1]) ∧
      (∀ e, createForProduct toString linkAndCompile (.create "app" {"application"}) [0, 1]
          emptyApp = .error e → IsCycleError toString e) ∧
      ∀ s, createForProduct toString linkAndCompile (.create "app" {"application"}) [0, 1]
          emptyApp = .ok s →
        ∃ d, s.graph.productData "app" = some d ∧
          RuleNodesMirror linkAndCompile (.create "app" {"application"}) [0, 1] default s.graph d :=
  createRuleNodes_spec toString linkAndCompile (.create "app" {"application"}) [0, 1]
    ⟨rfl, fun _ hn => absurd hn (SortedSet.not_mem_empty _),
      fun _ hn => absurd hn (SortedSet.not_mem_empty _), fun _ _ => rfl⟩

example : (createForProduct toString linkAndCompile (.create "app" {"application"}) [0, 1]
    emptyApp).toOption.map (fun s => (s.nodePerRule.entries.map (·.1), s.graph.children 0,
      (s.graph.productData "app").map (·.roots))) =
      some ([1, 0], {1}, some {0}) := by
  decide +kernel

end CreateRuleNodes

end Qbs
