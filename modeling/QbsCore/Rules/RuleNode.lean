import QbsCore.Rules.RulesApplicator

/-!
# Rule nodes

A rule node compares the artifacts that its rule can be applied to with those of the
last application, finds out what has changed otherwise, removes outputs whose inputs
are gone, and applies the rule again where necessary.

Main results:

- Definitions {lit}`RuleNode.currentInputArtifacts`, {lit}`RuleNode.changedInputArtifacts`
  and {lit}`RuleNode.apply`.

Current gaps:

- None.
-/

namespace Qbs

namespace BuildGraph

/-- Whether the prepare script of a transformer needs to run again; asking takes the request to
check back. -/
def prepareScriptNeedsRerun (g : BuildGraph) (env : BuildEnvironment) (t : TransformerId) :
    Bool × BuildGraph :=
  match (g.transformerProduct t).bind (env.trackingContext g) with
  | some c =>
      ((c.prepareScriptNeedsRerun (g.transformer t)).1,
        g.modifyTransformer t fun tr => (c.prepareScriptNeedsRerun tr).2)
  | none => (false, g)

end BuildGraph

namespace RuleNode

/-! ## Inputs -/

/-- Whether an artifact of the product of a rule is compatible with the rule: it is the target of
a module or not, as asked, and was not created by the rule. -/
def isCompatibleInput (g : BuildGraph) (rule : RuleId) (r : Rule) (targetOfModule : Bool)
    (a : NodeId) : Bool :=
  (g.artifact a).isTargetOfModule = targetOfModule && !g.isProducedBy rule a &&
    !(g.artifact a).fileTags.intersects r.excludedInputs

/-- The artifacts of a product that a rule can use as inputs from a dependency. -/
def inputsFromDependency (g : BuildGraph) (r : Rule) (dep : ProductId) : List NodeId :=
  match g.productData dep with
  | some d => (g.filterArtifacts d.nodes).elems.filter fun a =>
      (g.artifact a).fileTags.intersects r.inputsFromDependencies &&
        !(g.artifact a).fileTags.intersects r.excludedInputs
  | none => []

/-- All artifacts that a rule can be applied to. -/
def currentInputArtifacts (g : BuildGraph) (product : ResolvedProduct) (rule : RuleId) (r : Rule) :
    ArtifactSet :=
  let own := r.inputs.elems.flatMap fun t =>
    (g.lookupArtifactsByFileTag product.uniqueName t).elems.filter
      (isCompatibleInput g rule r false)
  if r.inputsFromDependencies.isEmpty then SortedSet.ofList own
  else
    let targets := r.inputsFromDependencies.elems.flatMap fun t =>
      (g.lookupArtifactsByFileTag product.uniqueName t).elems.filter
        (isCompatibleInput g rule r true)
    SortedSet.ofList
      (own ++ targets ++ product.dependencies.flatMap (inputsFromDependency g r))

/-- Whether a set is the one of the last application. -/
def OldArtifactSet.isSame (old : OldArtifactSet) (s : ArtifactSet) : Bool :=
  old.artifacts = s && !old.dummy

/-- The inputs that count as changed. A change of another set makes all inputs count. -/
def changedInputArtifacts (g : BuildGraph) (n : RuleNode)
    (allCompatibleInputs explicitlyDependsOn auxiliaryInputs : ArtifactSet) : ArtifactSet :=
  let isNewer := fun a => n.lastApplicationTime < (g.artifact a).timestamp
  if !OldArtifactSet.isSame n.oldExplicitlyDependsOn explicitlyDependsOn then allCompatibleInputs
  else if !n.needsToConsiderChangedInputs then ∅
  else if explicitlyDependsOn.elems.any isNewer then allCompatibleInputs
  else if !OldArtifactSet.isSame n.oldAuxiliaryInputs auxiliaryInputs then allCompatibleInputs
  else if auxiliaryInputs.elems.any isNewer then allCompatibleInputs
  else allCompatibleInputs.filter isNewer

/-! ## Change tracking -/

/-- What a rule node has found out so far. -/
structure Decision where
  graph : BuildGraph
  upToDate : Bool
  inputs : ArtifactSet

/-- The first output of a rule among the parents of an input. -/
def firstOutput (g : BuildGraph) (rule : RuleId) (input : NodeId) : Option NodeId :=
  (g.parentArtifacts input).elems.find? (g.isProducedBy rule)

/-- Check the prepare script of the transformer of an output. -/
def outputNeedsRerun (env : BuildEnvironment) (g : BuildGraph) (output : NodeId) :
    Bool × BuildGraph :=
  match (g.artifact output).transformer with
  | some t => g.prepareScriptNeedsRerun env t
  | none => (false, g)

/-- Check the prepare script of the transformer of an input. -/
def checkInput (env : BuildEnvironment) (rule : RuleId) (d : Decision) (input : NodeId) : Decision :=
  match firstOutput d.graph rule input with
  | none => d
  | some output =>
      let (rerun, g) := outputNeedsRerun env d.graph output
      if rerun then ⟨g, false, insert input d.inputs⟩ else { d with graph := g }

/-- Check the prepare scripts of the transformers of all inputs. The first input stands for all
inputs of a multiplex rule. -/
def checkInputs (env : BuildEnvironment) (rule : RuleId) (multiplex : Bool)
    (allCompatibleInputs : ArtifactSet) (d : Decision) : Decision :=
  (if multiplex then allCompatibleInputs.elems.take 1 else allCompatibleInputs.elems).foldl
    (checkInput env rule) d

/-- Check the prepare scripts of outputs until one has to run again; the first output stands for
all outputs of a multiplex rule. Returns whether none has to. -/
def checkOutputs (env : BuildEnvironment) (multiplex : Bool) :
    List NodeId → BuildGraph → Bool × BuildGraph
  | [], g => (true, g)
  | output :: outputs, g =>
      let (rerun, g) := outputNeedsRerun env g output
      if rerun then (false, g)
      else if multiplex then (true, g)
      else checkOutputs env multiplex outputs g

/-- A rule without inputs is up to date if it has outputs and its prepare scripts need not run
again. -/
def checkWithoutInputs (env : BuildEnvironment) (n : NodeId) (rule : RuleId) (r : Rule)
    (d : Decision) : Decision :=
  if d.upToDate && (!r.declaresInputs || !r.requiresInputs) && d.inputs.isEmpty then
    let outputs := (d.graph.parentArtifacts n).elems.filter (d.graph.isProducedBy rule)
    let (upToDate, g) := checkOutputs env r.multiplex outputs d.graph
    { d with graph := g, upToDate := upToDate && !outputs.isEmpty }
  else d

/-! ## Removed inputs -/

/-- The outputs of a rule above a former input; all of them have it as input. -/
def outputsOfRemovedInput (g : BuildGraph) (rule : RuleId) (input : NodeId) :
    Except ErrorInfo (List NodeId) := do
  let outputs := (g.parentArtifacts input).elems.filter (g.isProducedBy rule)
  qbsCheck (outputs.all fun p => match g.transformerOf p with
    | some t => input ∈ t.inputs
    | none => false) "parent->transformer->inputs.contains(artifact)"
  return outputs

/-- The outputs above each removed input. The removed inputs are cut off from the rule node. -/
def disconnectRemovedInputs (n : NodeId) (rule : RuleId) :
    List NodeId → BuildGraph → Except ErrorInfo (BuildGraph × List (NodeId × NodeId))
  | [], g => return (g, [])
  | input :: inputs, g => do
      let outputs ← outputsOfRemovedInput g rule input
      let (g, rest) ← disconnectRemovedInputs n rule inputs (g.disconnect n input)
      return (g, (outputs.map fun p => (p, input)) ++ rest)

/-- Handle the removed inputs: either all outputs above them are removed, or the outputs are only
cut off from them. -/
def handleRemovedInputs (n : NodeId) (rule : RuleId) (g : BuildGraph)
    (inputs removedInputs : ArtifactSet) (forcesOutputRemoval : Bool) :
    Except ErrorInfo (BuildGraph × ArtifactSet) := do
  let (g, connections) ← disconnectRemovedInputs n rule removedInputs.elems g
  if forcesOutputRemoval then
    if connections.isEmpty then return (g, ∅)
    RulesApplicator.handleRemovedRuleOutputs g inputs
      (SortedSet.ofList (connections.map fun connection => connection.1))
  else
    return (connections.foldl (fun g connection => g.disconnect connection.1 connection.2) g, ∅)

/-! ## Application -/

/-- What the application of a rule node has led to. -/
structure ApplicationResult where
  graph : BuildGraph
  upToDate : Bool
  createdArtifacts : ArtifactSet
  invalidatedArtifacts : ArtifactSet
  removedArtifacts : List FilePath

/-- The sets that a rule node compares with those of the last application. -/
structure InputSets where
  allCompatibleInputs : ArtifactSet
  explicitlyDependsOn : ArtifactSet
  auxiliaryInputs : ArtifactSet

def inputSets (g : BuildGraph) (product : ResolvedProduct) (rule : RuleId) (r : Rule) : InputSets :=
  ⟨currentInputArtifacts g product rule r,
    RulesApplicator.collectExplicitlyDependsOn g product r,
    RulesApplicator.collectAuxiliaryInputs g product r⟩

/-- Compare the sets with those of the last application and check the prepare scripts. -/
def decide (env : BuildEnvironment) (g : BuildGraph) (n : NodeId) (r : Rule) (sets : InputSets) :
    Decision :=
  let node := g.ruleNode n
  let changed := changedInputArtifacts g node sets.allCompatibleInputs sets.explicitlyDependsOn
    sets.auxiliaryInputs
  let added := sets.allCompatibleInputs.subtract node.oldInputArtifacts.artifacts
  let removed := node.oldInputArtifacts.artifacts.subtract sets.allCompatibleInputs
  let upToDate := changed.isEmpty && added.isEmpty && removed.isEmpty &&
    !node.oldInputArtifacts.dummy
  let inputs := if r.multiplex then sets.allCompatibleInputs else changed.unite added
  checkWithoutInputs env n node.rule r
    (checkInputs env node.rule r.multiplex sets.allCompatibleInputs ⟨g, upToDate, inputs⟩)

/-- Whether the rule has to be applied when it is not up to date. -/
def mustApplyRule (r : Rule) (inputs : ArtifactSet) : Bool :=
  !inputs.isEmpty || !r.declaresInputs || !r.requiresInputs

/-- Remember what the rule was applied to. -/
def remember (sets : InputSets) (node : RuleNode) : RuleNode :=
  { node with
    oldInputArtifacts := ⟨sets.allCompatibleInputs, false⟩
    oldExplicitlyDependsOn := ⟨sets.explicitlyDependsOn, false⟩
    oldAuxiliaryInputs := ⟨sets.auxiliaryInputs, false⟩ }

/-- Remember the time of the application, and whether files were read. -/
def rememberApplication (scripts : RuleScripts) (node : RuleNode) : RuleNode :=
  { node with
    lastApplicationTime := scripts.currentTime
    needsToConsiderChangedInputs := node.needsToConsiderChangedInputs || scripts.usesIo }

/-- Remove outputs whose inputs are gone, and apply the rule if necessary. -/
def reapply (env : BuildEnvironment) (product : ResolvedProduct) (scripts : RuleScripts)
    (n : NodeId) (r : Rule) (sets : InputSets) (d : Decision) :
    Except ErrorInfo ApplicationResult := do
  let node := d.graph.ruleNode n
  let mustApply := mustApplyRule r d.inputs
  let removedInputs := node.oldInputArtifacts.artifacts.subtract sets.allCompatibleInputs
  let (g, removed) ← handleRemovedInputs n node.rule d.graph d.inputs removedInputs
    (!r.multiplex || !mustApply)
  let removedFiles := removed.elems.map fun a => (d.graph.artifact a).filePath
  if mustApply then
    let s ← RulesApplicator.applyRule env
      ⟨env.project, product, n, node.rule, sets.explicitlyDependsOn, d.inputs⟩ scripts g
    return ⟨((s.graph.modifyRuleNode n (rememberApplication scripts)).modifyRuleNode n
      (remember sets)).setDirty, false, s.createdArtifacts, s.invalidatedArtifacts, removedFiles⟩
  else return ⟨(g.modifyRuleNode n (remember sets)).setDirty, false, ∅, ∅, removedFiles⟩

/-- Apply the rule of a rule node, unless it is up to date. -/
def apply (env : BuildEnvironment) (product : ResolvedProduct) (scripts : RuleScripts)
    (g : BuildGraph) (n : NodeId) : Except ErrorInfo ApplicationResult :=
  let r := env.project.rule (g.ruleNode n).rule
  let sets := inputSets g product (g.ruleNode n).rule r
  let d := decide env g n r sets
  if d.upToDate then return ⟨d.graph, true, ∅, ∅, []⟩
  else reapply env product scripts n r sets d

end RuleNode

end Qbs
