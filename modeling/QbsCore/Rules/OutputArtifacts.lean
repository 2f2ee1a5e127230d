import QbsCore.ChangeTracking.ScriptRun
import QbsCore.ChangeTracking.Tracker
import QbsCore.Executor.UpToDate

/-!
# Output artifacts of a rule

When a rule is applied, its scripts name the outputs.  The artifact of an output is
looked up or created, gets its file tags and properties, and is connected to the
inputs of the application.

Main results:

- Definition {lit}`BuildGraph.provideFullFileTagsAndProperties`: the file tags and
  properties of an artifact of a product.
- Definition {lit}`RulesApplicator.createOutputArtifact`: the artifact of one output.

Current gaps:

- The expressions and scripts of a rule are given by what they evaluate to.
-/

namespace Qbs

/-! ## File tags and properties -/

/-- The part of a path after the last slash. -/
def FilePath.fileName (f : FilePath) : String :=
  (f.splitOn "/").getLast?.getD ""

/-- The file tags of an artifact apart from those implied by its properties, and its properties:
those of the first group whose filter the tags pass, otherwise those of the product. -/
def ResolvedProduct.fullFileTagsAndProperties (p : ResolvedProduct) (a : Artifact) :
    FileTags × VariantMap :=
  let allTags :=
    if a.pureFileTags.isEmpty then p.fileTagsForFileName (FilePath.fileName a.filePath)
    else a.pureFileTags
  match p.artifactProperties.find? fun props => allTags.intersects props.fileTagsFilter with
  | some props => (allTags.unite props.extraFileTags, props.propertyMap)
  | none => (allTags, p.moduleProperties)

namespace BuildGraph

variable (g : BuildGraph)

/-- Give an artifact one more file tag; with a tag of its product it becomes a root node. -/
def addFileTag (product : ResolvedProduct) (a : NodeId) (t : FileTag) : BuildGraph :=
  (g.modifyArtifact a fun d => { d with fileTags := insert t d.fileTags }).modifyProductData
    (g.productOf a) fun d =>
      { d with
        artifactsByFileTag := d.artifactsByFileTag.add t a
        roots := if t ∈ product.fileTags then insert a d.roots else d.roots }

/-- Take a file tag from an artifact; without any tag of its product it is no root node. -/
def removeFileTag (product : ResolvedProduct) (a : NodeId) (t : FileTag) : BuildGraph :=
  (g.modifyArtifact a fun d => { d with fileTags := d.fileTags.remove t }).modifyProductData
    (g.productOf a) fun d =>
      { d with
        artifactsByFileTag := d.artifactsByFileTag.take t a
        roots :=
          if t ∈ product.fileTags &&
              !product.fileTags.intersects ((g.artifact a).fileTags.remove t) then
            d.roots.remove a
          else d.roots }

/-- Replace the file tags of an artifact: first the new tags are added, then the old ones are
removed. -/
def setFileTags (product : ResolvedProduct) (a : NodeId) (newFileTags : FileTags) : BuildGraph :=
  let oldFileTags := (g.artifact a).fileTags
  let g := (newFileTags.subtract oldFileTags).elems.foldl
    (fun g t => g.addFileTag product a t) g
  (oldFileTags.subtract newFileTags).elems.foldl (fun g t => g.removeFileTag product a t) g

/-- Give an artifact its file tags and properties. A file to be installed is tagged as such. -/
def provideFullFileTagsAndProperties (product : ResolvedProduct) (a : NodeId) : BuildGraph :=
  let full := product.fullFileTagsAndProperties (g.artifact a)
  let g := (g.modifyArtifact a fun d => { d with properties := full.2 }).setFileTags product a full.1
  if (VariantMap.moduleProperty full.2 "qbs" "install").toBool then
    g.addFileTag product a "installable"
  else g

/-- Set property values of an artifact on top of those it has. -/
def setPropertyValues (a : NodeId) (values : List (List String × Variant)) : BuildGraph :=
  g.modifyArtifact a fun d =>
    { d with
      properties := values.foldl (fun m v => VariantMap.setConfigProperty m v.1 v.2) d.properties
      pureProperties := d.pureProperties ++ values }

/-- Whether some artifact that a rule node has created depends on an artifact for another reason
than a scanner's. -/
def hasOutputDependingOn (ruleNode a : NodeId) : Bool :=
  (g.parentArtifacts ruleNode).elems.any fun output =>
    a ∈ g.children output && a ∉ (g.artifact output).childrenAddedByScanner

/-- Make the dynamic rules above an artifact forget it where they have no output that change
tracking could compare. -/
def invalidateArtifactAsRuleInputIfNecessary (project : Project) (a : NodeId) : BuildGraph :=
  { g with
    ruleNode := fun n =>
      if n ∈ g.filterRuleNodes (g.parents a) && (project.rule (g.ruleNode n).rule).isDynamic &&
          !g.hasOutputDependingOn n a then
        removeOldInputArtifact a (g.ruleNode n)
      else g.ruleNode n }

/-- Whether an artifact was created by a rule. -/
def isProducedBy (rule : RuleId) (a : NodeId) : Bool :=
  match (g.artifact a).transformer with
  | some t => (g.transformer t).rule = rule
  | none => false

/-- Allocate a transformer. -/
def newTransformer (t : Transformer) : BuildGraph × TransformerId :=
  ({ g with
      transformer := Function.update g.transformer g.nextTransformer t
      nextTransformer := g.nextTransformer + 1 }, g.nextTransformer)

end BuildGraph

/-! ## Creating output artifacts -/

/-- What the scripts of a rule say about one output; the path is resolved. -/
structure OutputInfo where
  filePath : FilePath
  fileTags : FileTags
  alwaysUpdated : Bool
  explicitlyDependsOn : FileTags
  propertyValues : List (List String × Variant)

/-- What a rule is applied to: the project, the product and node of the rule, the artifacts that
all outputs explicitly depend on, and the inputs of all applications that belong together. -/
structure RuleContext where
  project : Project
  product : ResolvedProduct
  ruleNode : NodeId
  ruleId : RuleId
  explicitlyDependsOn : ArtifactSet
  completeInputSet : ArtifactSet

/-- The rule that is applied. -/
def RuleContext.rule (c : RuleContext) : Rule :=
  c.project.rule c.ruleId

/-- The state of an applicator: what it has created and invalidated so far, and the files whose
artifacts it has removed. -/
structure RulesApplicator where
  graph : BuildGraph
  createdArtifacts : ArtifactSet
  invalidatedArtifacts : ArtifactSet
  removedArtifacts : List FilePath
  oldTransformer : Option TransformerId

namespace RulesApplicator

/-- What is kept of an output until the rule application ends. -/
structure OutputArtifactInfo where
  artifact : NodeId
  newlyCreated : Bool
  oldFileTags : FileTags
  oldProperties : VariantMap

/-- An output must not be produced by another rule, and for a rule that is no multiplex rule not
from another input. -/
def checkConflicts (c : RuleContext) (g : BuildGraph) (inputs : ArtifactSet) (a : NodeId) :
    Except ErrorInfo Unit :=
  match (g.artifact a).transformer with
  | none => return
  | some t =>
      if (g.transformer t).rule ≠ c.ruleId then
        throw (.message s!"Conflicting rules for producing {(g.artifact a).filePath}")
      else if !c.rule.multiplex && (g.transformer t).inputs ≠ inputs then do
        qbsCheck (inputs.size = 1) "inputArtifacts.size() == 1"
        qbsCheck ((g.transformer t).inputs.size = 1) "transformer->inputs.size() == 1"
        throw (.message s!"Conflicting instances of rule for {(g.artifact a).filePath}")
      else return

/-- Take over an existing artifact as output of a new transformer, with the change tracking data
of the old one. -/
def reuseOutputArtifact (c : RuleContext) (s : RulesApplicator) (t : TransformerId)
    (inputs : ArtifactSet) (a : NodeId) : Except ErrorInfo (RulesApplicator × OutputArtifactInfo) := do
  checkConflicts c s.graph inputs a
  let graph := match s.graph.transformerOf a with
    | some old => s.graph.modifyTransformer t fun d => d.rescueChangeTrackingData old
    | none => s.graph
  return ({ s with graph := graph, oldTransformer := (s.graph.artifact a).transformer },
    ⟨a, false, (s.graph.artifact a).fileTags, (s.graph.artifact a).properties⟩)

/-- Create an artifact for an output and connect it to the rule node. -/
def newOutputArtifact (c : RuleContext) (s : RulesApplicator) (filePath : FilePath) :
    Except ErrorInfo (RulesApplicator × OutputArtifactInfo) := do
  let (g, a) := s.graph.newArtifact (.create .generated filePath)
  let g ← g.insertArtifact c.product.uniqueName a
  let g ← g.connect a c.ruleNode
  return ({ s with graph := g, createdArtifacts := insert a s.createdArtifacts },
    ⟨a, true, ∅, []⟩)

/-- Connect one node to several others. -/
def connectAll (g : BuildGraph) (u : NodeId) (vs : List NodeId) : Except ErrorInfo BuildGraph :=
  vs.foldlM (fun g v => g.connect u v) g

/-- Connect several nodes to one other. -/
def connectAllTo (g : BuildGraph) (us : List NodeId) (v : NodeId) : Except ErrorInfo BuildGraph :=
  us.foldlM (fun g u => g.connect u v) g

/-- Look an output artifact up or create it, and connect it to the inputs and to the rules that
it may be an input of. -/
def createOutputArtifact (c : RuleContext) (s : RulesApplicator) (t : TransformerId)
    (inputs : ArtifactSet) (info : OutputInfo) :
    Except ErrorInfo (RulesApplicator × OutputArtifactInfo) := do
  if c.rule.isDynamic &&
      !(info.fileTags.subtract (c.rule.collectedOutputFileTags c.product)).isEmpty then
    throw (.message s!"Artifact '{info.filePath}' has undeclared file tags.")
  let (s, output) ← match s.graph.lookupArtifact c.product.uniqueName info.filePath with
    | some a => reuseOutputArtifact c s t inputs a
    | none => newOutputArtifact c s info.filePath
  let a := output.artifact
  let g := (s.graph.modifyArtifact a fun d =>
    { d with alwaysUpdated := info.alwaysUpdated, pureFileTags := info.fileTags })
  let g := g.provideFullFileTagsAndProperties c.product a
  let g ← if output.newlyCreated || output.oldFileTags ≠ (g.artifact a).fileTags then
      connectAllTo g (g.filterRuleNodes (g.parents c.ruleNode)).elems a
    else pure g
  let g ← connectAll g a inputs.elems
  let g := g.modifyArtifact a fun d => { d with transformer := some t }
  let g := g.modifyTransformer t fun d => { d with outputs := insert a d.outputs }
  qbsCheck (c.rule.multiplex || (g.transformer t).inputs.size = 1)
    "m_rule->multiplex || m_transformer->inputs.size() == 1"
  return ({ s with graph := g }, output)

/-- An existing artifact whose file tags or properties have changed is invalidated as input of
other rules. -/
def invalidateChanged (c : RuleContext) (s : RulesApplicator) (output : OutputArtifactInfo) :
    RulesApplicator :=
  if !output.newlyCreated &&
      ((s.graph.artifact output.artifact).fileTags ≠ output.oldFileTags ||
        (s.graph.artifact output.artifact).properties ≠ output.oldProperties) then
    { s with graph :=
        s.graph.invalidateArtifactAsRuleInputIfNecessary c.project output.artifact }
  else s

/-- Create the artifact of an output of a dynamic rule: it may depend explicitly on artifacts
with certain tags and have property values of its own. -/
def createOutputArtifactFromScriptValue (c : RuleContext) (s : RulesApplicator) (t : TransformerId)
    (inputs : ArtifactSet) (info : OutputInfo) :
    Except ErrorInfo (RulesApplicator × OutputArtifactInfo) := do
  if info.filePath = "" then
    throw (.message "Property filePath must be a non-empty string.")
  let (s, output) ← createOutputArtifact c s t inputs info
  if (s.graph.artifact output.artifact).fileTags.isEmpty then
    throw (.message s!"Property fileTags for artifact '{info.filePath}' must be a non-empty string list. Alternatively, a FileTagger can be provided.")
  let g ← info.explicitlyDependsOn.elems.foldlM (fun g tag =>
    connectAll g output.artifact (g.lookupArtifactsByFileTag c.product.uniqueName tag).elems) s.graph
  let g := g.setPropertyValues output.artifact info.propertyValues
  return (invalidateChanged c { s with graph := g } output, output)

end RulesApplicator

end Qbs
