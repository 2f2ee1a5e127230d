import QbsCore.BuildGraph.Edges
import Mathlib.Algebra.GroupWithZero.Nat

/-!
# Project build data

Insertion of artifacts into the build data of a project and their removal: the
lookup table by file path, the node set, root set and file tag map of each product,
and the references that other nodes, transformers and rule nodes hold.

Main results:

- Definitions {lit}`BuildGraph.insertArtifact`, {lit}`BuildGraph.removeArtifact` and
  {lit}`BuildGraph.removeArtifactAndExclusiveDependents`.
- Theorem {lit}`BuildGraph.lookupArtifact_eq_some`: what a lookup by path returns.

Current gaps:

- Files on disk are not part of the state.
-/

namespace Qbs

namespace BuildGraph

/-! ## The lookup table -/

/-- The path of an entry of the lookup table of a path. -/
def isArtifactResource : FileResource → Bool
  | .artifact _ => true
  | .fileDependency => false

/-- Whether an entry is a generated artifact. -/
def isGeneratedResource (g : BuildGraph) : FileResource → Bool
  | .artifact n => (g.artifact n).artifactType = .generated
  | .fileDependency => false

/-- Insert an entry for a path; a generated artifact tolerates no other artifact there. -/
def insertIntoLookupTable (g : BuildGraph) (fileres : FileResource) (filePath : FilePath) :
    Except ErrorInfo BuildGraph := do
  if g.isGeneratedResource fileres && (g.lookupTable filePath).any isArtifactResource then
    throw (.message s!"Conflicting artifacts for file path '{filePath}'.")
  qbsCheck (fileres ∉ g.lookupTable filePath) "!contains(lst, fileres)"
  return { g with
    lookupTable := Function.update g.lookupTable filePath (g.lookupTable filePath ++ [fileres])
    isDirty := true }

theorem insertIntoLookupTable_cases {g g' : BuildGraph} {fileres : FileResource}
    {filePath : FilePath} (h : g.insertIntoLookupTable fileres filePath = .ok g') :
    fileres ∉ g.lookupTable filePath ∧ g' = { g with
      lookupTable := Function.update g.lookupTable filePath (g.lookupTable filePath ++ [fileres])
      isDirty := true } := by
  unfold insertIntoLookupTable at h
  split at h
  · cases h
  · simp only [Fallible.bind_eq_ok_iff, qbsCheck_eq_ok_iff] at h
    rcases h with ⟨-, hnew, h⟩
    exact ⟨by simpa using hnew, (Fallible.pure_eq_ok_iff.mp h).symm⟩

/-- Remove the first entry that is an artifact from the list of its path. -/
def removeFromLookupTable (g : BuildGraph) (a : NodeId) : BuildGraph :=
  let filePath := (g.artifact a).filePath
  { g with
    lookupTable := Function.update g.lookupTable filePath
      ((g.lookupTable filePath).erase (.artifact a)) }

/-- Insert a file dependency. -/
def insertFileDependency (g : BuildGraph) (filePath : FilePath) : Except ErrorInfo BuildGraph :=
  { g with fileDependencies := insert filePath g.fileDependencies }.insertIntoLookupTable
    .fileDependency filePath

/-- The artifact of a product among the entries of a path. -/
def artifactOfProduct (g : BuildGraph) (product : ProductId) : FileResource → Option NodeId
  | .artifact n => if g.productOf n = product then some n else none
  | .fileDependency => none

/-- The first artifact of a product with a path. -/
def lookupArtifact (g : BuildGraph) (product : ProductId) (filePath : FilePath) : Option NodeId :=
  (g.lookupTable filePath).findSome? (g.artifactOfProduct product)

/-- A lookup returns an artifact of the product that is listed under the path. -/
theorem lookupArtifact_eq_some {g : BuildGraph} {product : ProductId} {filePath : FilePath}
    {n : NodeId} (h : g.lookupArtifact product filePath = some n) :
    FileResource.artifact n ∈ g.lookupTable filePath ∧ g.productOf n = product := by
  rcases List.exists_of_findSome?_eq_some h with ⟨r, hr, hn⟩
  cases r with
  | artifact m =>
      simp only [artifactOfProduct] at hn
      split at hn <;> rename_i hp
      · cases hn
        exact ⟨hr, hp⟩
      · cases hn
  | fileDependency => cases hn

/-! ## Product data -/

/-- Add an artifact to the sets of its file tags. -/
def addArtifactToSet (g : BuildGraph) (a : NodeId) (d : ProductBuildData) : ProductBuildData :=
  { d with
    artifactsByFileTag :=
      (g.artifact a).fileTags.elems.foldl (fun m tag => m.add tag a) d.artifactsByFileTag }

/-- Take an artifact out of the sets of its file tags. -/
def removeArtifactFromSet (g : BuildGraph) (a : NodeId) (d : ProductBuildData) :
    ProductBuildData :=
  { d with
    artifactsByFileTag :=
      (g.artifact a).fileTags.elems.foldl (fun m tag => m.take tag a) d.artifactsByFileTag }

/-- Add an artifact to the build data of its product. -/
def addArtifactToProduct (g : BuildGraph) (a : NodeId) : Except ErrorInfo BuildGraph :=
  match g.productData (g.productOf a) with
  | none => .error (.check "buildData")
  | some d => do
      qbsCheck (a ∉ d.nodes) "m_nodes.insert(artifact).second"
      return g.modifyProductData (g.productOf a) fun d =>
        g.addArtifactToSet a { d with nodes := insert a d.nodes }

theorem addArtifactToProduct_cases {g g' : BuildGraph} {a : NodeId}
    (h : g.addArtifactToProduct a = .ok g') :
    ∃ d, g.productData (g.productOf a) = some d ∧ a ∉ d.nodes ∧
      g' = g.modifyProductData (g.productOf a) fun d =>
        g.addArtifactToSet a { d with nodes := insert a d.nodes } := by
  unfold addArtifactToProduct at h
  split at h
  · cases h
  · rename_i d hd
    simp only [Fallible.bind_eq_ok_iff, qbsCheck_eq_ok_iff] at h
    rcases h with ⟨-, hnew, h⟩
    exact ⟨d, hd, by simpa using hnew, (Fallible.pure_eq_ok_iff.mp h).symm⟩

/-- Remove an artifact from the build data of its product. -/
def removeArtifactFromProduct (g : BuildGraph) (a : NodeId) : BuildGraph :=
  g.modifyProductData (g.productOf a) fun d =>
    g.removeArtifactFromSet a { d with roots := d.roots.remove a, nodes := d.nodes.remove a }

/-- Allocate an artifact. -/
def newArtifact (g : BuildGraph) (a : Artifact) : BuildGraph × NodeId :=
  ({ g with
      nodeType := Function.update g.nodeType g.nextNode .artifactNode
      artifact := Function.update g.artifact g.nextNode a
      nextNode := g.nextNode + 1 }, g.nextNode)

/-- Insert a new artifact into the build data of a product. -/
def insertArtifact (g : BuildGraph) (product : ProductId) (a : NodeId) :
    Except ErrorInfo BuildGraph := do
  qbsCheck ((g.artifact a).filePath ≠ "") "!artifact->filePath().isEmpty()"
  let g := { g with productOf := Function.update g.productOf a product }
  let g ← g.insertIntoLookupTable (.artifact a) (g.artifact a).filePath
  g.addArtifactToProduct a

/-! ## Removal -/

/-- Cut the edges from an artifact to its children. -/
def disconnectArtifactChildren (g : BuildGraph) (a : NodeId) : BuildGraph :=
  { g with
    parents := fun n => if n ∈ g.children a then (g.parents n).remove a else g.parents n
    children := Function.update g.children a ∅
    artifact := Function.update g.artifact a { g.artifact a with childrenAddedByScanner := ∅ } }

/-- Whether a transformer belongs to an artifact that is a parent of a node. -/
def isTransformerOfParent (g : BuildGraph) (a : NodeId) (t : TransformerId) : Bool :=
  (g.parentArtifacts a).elems.any fun p => (g.artifact p).transformer = some t

/-- Cut the edges from its parents to an artifact; parent artifacts also forget that the
scanner has added it, and their transformers lose it as input. -/
def cutParents (g : BuildGraph) (a : NodeId) : BuildGraph :=
  { g with
    children := fun n => if n ∈ g.parents a then (g.children n).remove a else g.children n
    artifact := fun n =>
      if n ∈ g.parentArtifacts a then
        { g.artifact n with
          childrenAddedByScanner := (g.artifact n).childrenAddedByScanner.remove a }
      else g.artifact n
    transformer := fun t =>
      if g.isTransformerOfParent a t then
        { g.transformer t with
          inputs := (g.transformer t).inputs.remove a
          explicitlyDependsOn := (g.transformer t).explicitlyDependsOn.remove a }
      else g.transformer t
    parents := Function.update g.parents a ∅ }

/-- Parent artifacts must have a transformer. -/
def disconnectArtifactParents (g : BuildGraph) (a : NodeId) : Except ErrorInfo BuildGraph := do
  qbsCheck ((g.parentArtifacts a).elems.all fun p => (g.artifact p).transformer.isSome)
    "parentArtifact->transformer"
  return g.cutParents a

def disconnectArtifact (g : BuildGraph) (a : NodeId) : Except ErrorInfo BuildGraph :=
  (g.disconnectArtifactChildren a).disconnectArtifactParents a

/-- Replace an artifact in the old sets by the dummy. -/
def removeOldInputArtifact (a : NodeId) (r : RuleNode) : RuleNode :=
  { r with
    oldInputArtifacts := r.oldInputArtifacts.forget a
    oldExplicitlyDependsOn := r.oldExplicitlyDependsOn.forget a
    oldAuxiliaryInputs := r.oldAuxiliaryInputs.forget a }

/-- Make the rule nodes above an artifact forget it. -/
def removeFromRuleNodes (g : BuildGraph) (a : NodeId) : BuildGraph :=
  { g with
    ruleNode := fun n =>
      if n ∈ g.filterRuleNodes (g.parents a) then removeOldInputArtifact a (g.ruleNode n)
      else g.ruleNode n }

/-- Remove an artifact from the build data. The last statement marks the build graph as
saved. -/
def removeArtifact (g : BuildGraph) (a : NodeId) (removeFromProduct : Bool) :
    Except ErrorInfo BuildGraph := do
  let g := (g.removeFromLookupTable a).removeFromRuleNodes a
  let g ← g.disconnectArtifact a
  let g := g.modifyTransformerOf a fun t => { t with outputs := t.outputs.remove a }
  let g := if removeFromProduct then g.removeArtifactFromProduct a else g
  return g.setClean

/-- Disconnect an artifact from one of its parents; if the parent still has children, its
transformer loses the artifact as input. -/
def detachFromParent (g : BuildGraph) (parent a : NodeId) : BuildGraph :=
  let g := g.disconnect parent a
  if (g.children parent).isEmpty then g
  else g.modifyTransformerOf parent fun t => { t with inputs := t.inputs.remove a }

/-- Whether a parent goes, too: it has no children any more, or its transformer has no inputs
any more. -/
def removeParent (g : BuildGraph) (parent : NodeId) : Bool :=
  (g.children parent).isEmpty ||
    match (g.artifact parent).transformer with
    | some t => (g.transformer t).inputs.isEmpty
    | none => false

/-- The loop over a copy of the parents of an artifact. The state is the build data with the
artifacts removed so far; the first argument is the recursive call. -/
def detachFromParents
    (removeDependents : NodeId → BuildGraph × ArtifactSet →
      Except ErrorInfo (BuildGraph × ArtifactSet)) (a : NodeId) :
    List NodeId → BuildGraph × ArtifactSet → Except ErrorInfo (BuildGraph × ArtifactSet)
  | [], s => .ok s
  | parent :: parents, s => do
      let g := s.1.detachFromParent parent a
      if g.removeParent parent then
        let s ← removeDependents parent (g, s.2)
        detachFromParents removeDependents a parents s
      else detachFromParents removeDependents a parents (g.clearTimestamp parent, s.2)

/-- Remove an artifact after the artifacts that depend exclusively on it. -/
def removeDependents : Nat → NodeId → BuildGraph × ArtifactSet →
    Except ErrorInfo (BuildGraph × ArtifactSet)
  | 0, _, _ => .error .outOfFuel
  | fuel + 1, a, s => do
      let s ← detachFromParents (removeDependents fuel) a (s.1.parentArtifacts a).elems
        (s.1, insert a s.2)
      let g ← s.1.removeArtifact a true
      return (g, s.2)

/-- The number of edges, which bounds the depth of the recursion. -/
def edgeCount (g : BuildGraph) : Nat :=
  ((List.range g.nextNode).map fun n => (g.children n).size).sum

/-- Remove an artifact and all the artifacts that depend exclusively on it; returns the
build data and the removed artifacts. -/
def removeArtifactAndExclusiveDependents (g : BuildGraph) (a : NodeId) :
    Except ErrorInfo (BuildGraph × ArtifactSet) :=
  removeDependents (g.edgeCount + 1) a (g, ∅)

/-- Delete removed artifacts: an address then refers to nothing. The parents that an
artifact still has forget that the scanner has added it. -/
def deleteArtifacts (g : BuildGraph) (removed : ArtifactSet) : BuildGraph :=
  { g with
    artifact := fun n =>
      if n ∈ removed then default
      else
        { g.artifact n with
          childrenAddedByScanner := (g.artifact n).childrenAddedByScanner.filter fun a =>
            !(a ∈ removed && n ∈ g.parents a) }
    children := fun n => if n ∈ removed then ∅ else g.children n
    parents := fun n => if n ∈ removed then ∅ else g.parents n }

end BuildGraph

end Qbs
