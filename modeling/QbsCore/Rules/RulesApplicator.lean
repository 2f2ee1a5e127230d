import QbsCore.Rules.OutputArtifacts

/-!
# Applying a rule

A rule is applied to a set of inputs: a new transformer gets the outputs that the
scripts of the rule name, old outputs that are no longer named are removed, and the
prepare script sets up the commands.  A multiplex rule is applied once to all inputs,
any other rule once to each input.

Main results:

- Definitions {lit}`RulesApplicator.doApply` and {lit}`RulesApplicator.applyRule`.
- Definition {lit}`RulesApplicator.collectExplicitlyDependsOn`: the artifacts that all
  outputs of a rule depend on.

Current gaps:

- Cancelation while a script runs shows as an error of the script.
-/

namespace Qbs

/-- What the scripts of a rule give for each set of inputs: the outputs of a dynamic rule, the
resolved paths of the declared outputs, the path of the output of a rule that declares none, the
values of the bindings of each declared output, and the run of the prepare script. -/
structure RuleScripts where
  outputArtifacts : ArtifactSet → Except ErrorInfo (List OutputInfo)
  filePaths : ArtifactSet → Except ErrorInfo (List FilePath)
  dummyFilePath : ArtifactSet → FilePath
  bindings : ArtifactSet → Nat → List (List String × Variant)
  prepare : ArtifactSet → ScriptRun
  usesIo : Bool
  currentTime : FileTime

namespace RulesApplicator

/-! ## Additional inputs -/

/-- Whether an artifact of the product of a rule counts as additional input. Targets of modules
count as artifacts of dependencies. -/
def isAdditionalInput (g : BuildGraph) (r : Rule) (currentProduct dependencies : Bool)
    (a : NodeId) : Bool :=
  !(g.artifact a).fileTags.intersects r.excludedInputs &&
    (currentProduct && !(g.artifact a).isTargetOfModule ||
      dependencies && (g.artifact a).isTargetOfModule)

/-- The artifacts among the root nodes of a product. -/
def targetArtifacts (g : BuildGraph) (product : ProductId) : ArtifactSet :=
  match g.productData product with
  | some d => g.filterArtifacts d.roots
  | none => ∅

/-- The artifacts with certain tags in the product of a rule, in the products that it depends
on, or in both. -/
def collectAdditionalInputs (g : BuildGraph) (product : ResolvedProduct) (tags : FileTags)
    (r : Rule) (currentProduct dependencies : Bool) : ArtifactSet :=
  SortedSet.ofList (tags.elems.flatMap fun tag =>
    (g.lookupArtifactsByFileTag product.uniqueName tag).elems.filter
        (isAdditionalInput g r currentProduct dependencies) ++
      if dependencies then
        product.dependencies.flatMap fun dep =>
          (targetArtifacts g dep).elems.filter fun ta =>
            tag ∈ (g.artifact ta).fileTags && !(g.artifact ta).fileTags.intersects r.excludedInputs
      else [])

def collectAuxiliaryInputs (g : BuildGraph) (product : ResolvedProduct) (r : Rule) : ArtifactSet :=
  collectAdditionalInputs g product r.auxiliaryInputs r true true

/-- The artifacts that the outputs of a rule explicitly depend on. -/
def collectExplicitlyDependsOn (g : BuildGraph) (product : ResolvedProduct) (r : Rule) :
    ArtifactSet :=
  (collectAdditionalInputs g product r.explicitlyDependsOn r true false).unite
    (collectAdditionalInputs g product r.explicitlyDependsOnFromDependencies r false true)

/-! ## Old outputs -/

/-- The outputs of earlier applications to one of the inputs, found through the edges to it. -/
def collectOldOutputArtifacts (g : BuildGraph) (rule : RuleId) (inputs : ArtifactSet) :
    ArtifactSet :=
  SortedSet.ofList (inputs.elems.flatMap fun a =>
    (g.parentArtifacts a).elems.filter fun p =>
      match (g.artifact p).transformer with
      | some t => (g.transformer t).rule = rule && a ∈ (g.transformer t).inputs
      | none => false)

/-- Remove artifacts with what exclusively depends on them, and delete all of it. No input may be
among the removed artifacts. -/
def handleRemovedRuleOutputs (g : BuildGraph) (inputs outputsToRemove : ArtifactSet) :
    Except ErrorInfo (BuildGraph × ArtifactSet) := do
  let s ← outputsToRemove.elems.foldlM
    (fun s a => BuildGraph.removeDependents (s.1.edgeCount + 1) a s) (g, ∅)
  qbsCheck (!s.2.intersects inputs) "!inputArtifacts.contains(artifact)"
  return (s.1.deleteArtifacts s.2, s.2)

/-! ## One application -/

/-- The declared outputs of a static rule with their paths, each path once. -/
def declaredOutputs (c : RuleContext) (paths : List FilePath) : Except ErrorInfo (List OutputInfo) :=
  if paths.Nodup then
    return (c.rule.artifacts.zip paths).map fun ra =>
      ⟨ra.2, ra.1.fileTags, ra.1.alwaysUpdated, ∅, []⟩
  else throw (.message "Rule already created a file with this path.")

/-- What the scripts say about the outputs of an application. A static rule without declared
outputs has a dummy output. -/
def outputInfos (c : RuleContext) (scripts : RuleScripts) (inputs : ArtifactSet) :
    Except ErrorInfo (List OutputInfo) :=
  if c.rule.isDynamic then scripts.outputArtifacts inputs
  else if c.rule.artifacts.isEmpty then
    return [⟨scripts.dummyFilePath inputs, c.rule.outputFileTags, false, ∅, []⟩]
  else do
    let paths ← scripts.filePaths inputs
    declaredOutputs c paths

/-- Create the artifact of one output. -/
def createOutput (c : RuleContext) (t : TransformerId) (inputs : ArtifactSet)
    (s : RulesApplicator × List OutputArtifactInfo) (info : OutputInfo) :
    Except ErrorInfo (RulesApplicator × List OutputArtifactInfo) := do
  let (app, output) ←
    if c.rule.isDynamic then createOutputArtifactFromScriptValue c s.1 t inputs info
    else createOutputArtifact c s.1 t inputs info
  return (app, s.2 ++ [output])

/-- The rule node that a generated artifact stems from. -/
def producer (g : BuildGraph) (a : NodeId) : Except ErrorInfo NodeId :=
  match (g.filterRuleNodes (g.children a)).elems.head? with
  | some n => return n
  | none => throw (.check "ruleNodes.begin() != ruleNodes.end()")

/-- Whether an input has to be connected to the rule node. Other inputs are connected already,
because outputs become children of the rule nodes above the rule node that creates them. -/
def mustConnectInput (c : RuleContext) (g : BuildGraph) (a : NodeId) : Except ErrorInfo Bool := do
  if (g.artifact a).artifactType = .sourceFile || g.productOf a ≠ g.productOf c.ruleNode then
    return true
  let n ← producer g a
  let tags := (c.project.rule (g.ruleNode n).rule).collectedOutputFileTags c.product
  return tags.intersects c.rule.excludedInputs

/-- Connect an input to the rule node. -/
def connectInput (c : RuleContext) (g : BuildGraph) (a : NodeId) : Except ErrorInfo BuildGraph := do
  if ← mustConnectInput c g a then g.connect c.ruleNode a
  else do
    qbsCheck (a ∈ g.children c.ruleNode) "m_ruleNode->children.contains(input)"
    return g

/-- Connect the inputs to the rule node. -/
def connectInputs (c : RuleContext) (g : BuildGraph) (inputs : ArtifactSet) :
    Except ErrorInfo BuildGraph :=
  inputs.elems.foldlM (connectInput c) g

/-- Connect the outputs to what all outputs explicitly depend on. -/
def connectExplicitlyDependsOn (c : RuleContext) (g : BuildGraph) (outputs : List NodeId) :
    Except ErrorInfo BuildGraph :=
  outputs.foldlM (fun g a => connectAll g a c.explicitlyDependsOn.elems) g

/-- Apply the bindings of the declared outputs of a static rule, the last output first. -/
def applyBindings (c : RuleContext) (scripts : RuleScripts) (inputs : ArtifactSet)
    (s : RulesApplicator) (outputs : List OutputArtifactInfo) : RulesApplicator :=
  if c.rule.isDynamic || c.rule.artifacts.isEmpty then s
  else outputs.zipIdx.reverse.foldl (fun s output =>
    if (scripts.bindings inputs output.2).isEmpty then s
    else
      let g := s.graph.setPropertyValues output.1.artifact (scripts.bindings inputs output.2)
      invalidateChanged c { s with graph := g } output.1) s

/-- Run the prepare script for a transformer. -/
def createCommands (run : ScriptRun) (g : BuildGraph) (t : TransformerId) :
    Except ErrorInfo BuildGraph := do
  let e ← run.accesses.foldlM ScriptEngine.observe .cleared
  let (tr, result) := (g.transformer t).createCommands run e
  result
  return g.modifyTransformer t fun _ => tr

/-- Whether the outputs of an application must be built again: there was no application before,
or it had other outputs, inputs, explicit dependencies or commands, or the commands have to run
again anyway. -/
def outputsInvalid (env : BuildEnvironment) (s : RulesApplicator) (t : TransformerId) :
    Bool × BuildGraph :=
  match s.oldTransformer.map s.graph.transformer with
  | none => (true, s.graph)
  | some old =>
      if old.outputs ≠ (s.graph.transformer t).outputs ||
          old.inputs ≠ (s.graph.transformer t).inputs ||
          old.explicitlyDependsOn ≠ (s.graph.transformer t).explicitlyDependsOn ||
          !env.sameCommands old.commands (s.graph.transformer t).commands then (true, s.graph)
      else s.graph.commandsNeedRerun env t

/-- Clear the timestamps of the outputs of an application if they must be built again. -/
def invalidateOutputs (env : BuildEnvironment) (s : RulesApplicator) (t : TransformerId)
    (outputs : List NodeId) : RulesApplicator :=
  let (invalid, g) := outputsInvalid env s t
  let s := { s with
    graph := if invalid then outputs.foldl (fun g a => g.clearTimestamp a) g else g
    invalidatedArtifacts := if invalid then s.invalidatedArtifacts.unite (SortedSet.ofList outputs)
      else s.invalidatedArtifacts }
  { s with graph := s.graph.modifyTransformer t fun d =>
      { d with commandsNeedChangeTracking := false } }

/-- The transformer of an application before its outputs are known. -/
def initialTransformer (c : RuleContext) (inputs : ArtifactSet) : Transformer :=
  { Transformer.create c.ruleId with
    inputs := inputs
    explicitlyDependsOn := c.explicitlyDependsOn
    alwaysRun := c.rule.alwaysRun }

/-- Remove the old outputs of the inputs that are not among the new ones. -/
def removeOldOutputs (c : RuleContext) (s : RulesApplicator) (inputs : ArtifactSet)
    (newOutputs : List NodeId) : Except ErrorInfo RulesApplicator := do
  let oldOutputs := collectOldOutputArtifacts s.graph c.ruleId inputs
  let toRemove := oldOutputs.subtract (SortedSet.ofList newOutputs)
  let (g, removed) ← handleRemovedRuleOutputs s.graph c.completeInputSet toRemove
  return { s with
    graph := g
    removedArtifacts := s.removedArtifacts ++
      removed.elems.map fun a => (s.graph.artifact a).filePath }

/-- The part of an application that follows when there are outputs. -/
def setupTransformer (env : BuildEnvironment) (c : RuleContext) (scripts : RuleScripts)
    (s : RulesApplicator) (t : TransformerId) (inputs : ArtifactSet)
    (outputs : List OutputArtifactInfo) : Except ErrorInfo RulesApplicator := do
  let nodes := outputs.map fun output => output.artifact
  let g ← connectExplicitlyDependsOn c s.graph nodes
  let s := applyBindings c scripts inputs { s with graph := g } outputs
  let g ← createCommands (scripts.prepare inputs) s.graph t
  if (g.transformer t).commands.isEmpty then
    throw (.message "There is a rule without commands.")
  return invalidateOutputs env { s with graph := g } t nodes

/-- Apply the rule to a set of inputs. -/
def doApply (env : BuildEnvironment) (c : RuleContext) (scripts : RuleScripts)
    (s : RulesApplicator) (inputs : ArtifactSet) : Except ErrorInfo RulesApplicator := do
  qbsCheck (inputs.elems.all fun a =>
      !(s.graph.artifact a).fileTags.intersects c.rule.excludedInputs)
    "!inputArtifact->fileTags().intersects(m_rule->excludedInputs)"
  let (g, t) := s.graph.newTransformer (initialTransformer c inputs)
  let infos ← outputInfos c scripts inputs
  let (s, outputs) ← infos.foldlM (createOutput c t inputs)
    ({ s with graph := g, oldTransformer := none }, [])
  let s ← removeOldOutputs c s inputs (outputs.map fun output => output.artifact)
  let g ← connectInputs c s.graph inputs
  let s := { s with graph := g }
  if outputs.isEmpty then return s
  setupTransformer env c scripts s t inputs outputs

/-- Apply the rule to all inputs: at once for a multiplex rule, otherwise one by one. -/
def applyRule (env : BuildEnvironment) (c : RuleContext) (scripts : RuleScripts) (g : BuildGraph) :
    Except ErrorInfo RulesApplicator := do
  qbsCheck (!c.completeInputSet.isEmpty || !c.rule.declaresInputs || !c.rule.requiresInputs)
    "!inputArtifacts.empty() || !m_rule->declaresInputs() || !m_rule->requiresInputs"
  let s : RulesApplicator := ⟨g.setDirty, ∅, ∅, [], none⟩
  if c.rule.multiplex then doApply env c scripts s c.completeInputSet
  else c.completeInputSet.elems.foldlM (fun s a => doApply env c scripts s {a}) s

end RulesApplicator

end Qbs
