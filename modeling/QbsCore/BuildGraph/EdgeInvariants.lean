import QbsCore.BuildGraph.Edges
import QbsCore.Library.PathSearch
import QbsCore.Library.StateOp
import QbsCore.Library.TransitionSystem

/-!
# Sequences of edge operations

Connecting and disconnecting nodes as operations on a graph that keeps what was
changed before an exception, and the invariants of the edges over any sequence of
such operations.  A safe connection that is refused looks for the path back once more,
for a message, and this search does not come to an end on some graphs with cycles.

Main results:

- Theorem {lit}`GraphOp.outcome_connect`: a connection that throws has not changed
  anything.
- Theorem {lit}`BuildGraph.safeConnectSpec_iff`: a safe connection returns, and is refused
  exactly when there is a path back, if and only if the search for this path tries no edges
  that lead to a cycle.
- Theorem {lit}`BuildGraph.edgeInvariants_of_calls`: the invariants hold after every
  sequence of calls that return.

Current gaps:

- None.
-/

namespace Qbs

/-! ## Operations that may throw -/

/-- An operation on the build graph. -/
abbrev GraphOp (α : Type) :=
  StateOp BuildGraph ErrorInfo α

namespace GraphOp

variable {g : BuildGraph}

/-- Insert a node into the children of another. -/
def insertChild (p c : NodeId) : GraphOp Unit :=
  StateOp.update fun g => { g with children := Function.update g.children p (insert c (g.children p)) }

/-- Insert a node into the parents of another. -/
def insertParent (c p : NodeId) : GraphOp Unit :=
  StateOp.update fun g => { g with parents := Function.update g.parents c (insert p (g.parents c)) }

/-- Create the edge {lit}`p -> c`, statement by statement. -/
def connect (p c : NodeId) : GraphOp Unit := do
  StateOp.query fun _ => qbsCheck (p ≠ c) "p != c"
  let found ← StateOp.query fun g => g.findChild p c
  if found then return
  insertChild p c
  insertParent c p
  StateOp.update BuildGraph.setDirty

/-- Search for a path from {lit}`u` to {lit}`v`, without a record of the nodes seen. -/
def findPath (g : BuildGraph) (v : NodeId) (fuel : Nat) (u : NodeId) :
    Option (Option (List NodeId)) :=
  PathSearch.find (fun n => (g.children n).elems) v fuel u

/-- Create the edge {lit}`u -> v` unless it would close a cycle. The circle that was found is for a
message. -/
def safeConnect (fuel : Nat) (u v : NodeId) : GraphOp Bool := do
  StateOp.query fun _ => qbsCheck (u ≠ v) "u != v"
  if ← StateOp.query fun g => .ok (g.existsPath v u) then
    let _circle ← StateOp.query fun g =>
      match findPath g u fuel v with
      | some path => .ok path
      | none => .error .outOfFuel
    return false
  connect u v
  return true

/-- Remove the edge {lit}`u -> v`. -/
def disconnect (u v : NodeId) : GraphOp Unit :=
  StateOp.update fun g => g.disconnect u v

/-- A connection that throws has not changed the graph, and otherwise it is the connection
of {lit}`BuildGraph.connect`. -/
theorem outcome_connect (p c : NodeId) :
    (connect p c).outcome g =
      match g.connect p c with
      | .ok g' => (.ok (), g')
      | .error e => (.error e, g) := by
  simp only [connect, BuildGraph.connect, StateOp.outcome_bind, StateOp.outcome_query]
  cases qbsCheck (p ≠ c) "p != c" with
  | error e => rfl
  | ok u =>
      cases hfound : g.findChild p c with
      | error e => simp [hfound, bind, Except.bind]
      | ok found =>
          cases found with
          | true =>
              simp only [hfound]
              rfl
          | false =>
              simp only [hfound]
              rfl

theorem outcome_safeConnect (fuel : Nat) (u v : NodeId) :
    (safeConnect fuel u v).outcome g =
      match g.safeConnect u v with
      | .ok (g', true) => (.ok true, g')
      | .ok (g', false) =>
          if (findPath g u fuel v).isSome then (.ok false, g') else (.error .outOfFuel, g')
      | .error e => (.error e, g) := by
  simp only [safeConnect, BuildGraph.safeConnect, StateOp.outcome_bind, StateOp.outcome_query]
  cases qbsCheck (u ≠ v) "u != v" with
  | error e => rfl
  | ok _ =>
      cases hpath : g.existsPath v u with
      | true =>
          simp only [hpath, if_true, StateOp.outcome_bind, StateOp.outcome_query]
          cases findPath g u fuel v <;> rfl
      | false =>
          simp only [hpath, Bool.false_eq_true, if_false, StateOp.outcome_bind, outcome_connect]
          cases hconnect : g.connect u v with
          | error e => rfl
          | ok g' => rfl

end GraphOp

namespace BuildGraph

variable {g g' : BuildGraph}

/-! ## The invariants of the edges -/

/-- Distinct child artifacts of one node that need different paths have them. -/
def ChildPathsDistinct (g : BuildGraph) : Prop :=
  ∀ p a b, a ∈ g.children p → b ∈ g.children p → g.isArtifact a = true → g.isArtifact b = true →
    a ≠ b → g.filePathsMustBeDifferent a b = true →
    (g.artifact a).filePath ≠ (g.artifact b).filePath

/-- What every sequence of edge operations keeps. -/
structure EdgeInvariants (g : BuildGraph) : Prop where
  mirror : g.Mirror
  allocated : g.EdgesAllocated
  childPaths : g.ChildPathsDistinct

/-- The checks on the edges of a node among the sanity checks for a product. -/
def checkEdgesOfNode (g : BuildGraph) (node : NodeId) : Except ErrorInfo Unit := do
  (g.parents node).elems.forM fun parent =>
    qbsCheck (node ∈ g.children parent) "parent->children.contains(node)"
  (g.children node).elems.forM fun child =>
    qbsCheck (node ∈ g.parents child) "child->parents.contains(node)"

/-- The sanity checks on the edges of all nodes of a product. -/
def doSanityChecksForEdges (g : BuildGraph) (d : ProductBuildData) : Except ErrorInfo Unit :=
  d.nodes.elems.forM g.checkEdgesOfNode

/-- Mirrored edges pass the sanity checks of every product. -/
theorem Mirror.sanityChecks (hm : g.Mirror) (d : ProductBuildData) :
    g.doSanityChecksForEdges d = .ok () := by
  apply Fallible.forM_eq_ok_iff.mpr
  intro node _
  apply Fallible.bind_eq_ok_iff.mpr
  refine ⟨(), Fallible.forM_eq_ok_iff.mpr ?_, Fallible.forM_eq_ok_iff.mpr ?_⟩
  · intro parent hparent
    simpa using (hm.mem_parents_iff parent node).mp hparent
  · intro child hchild
    simpa using (hm.mem_parents_iff node child).mpr hchild

/-- No node is built before itself. -/
def Acyclic (g : BuildGraph) : Prop :=
  GraphSearch.Acyclic g.IsChild

/-- What the operations on edges leave alone. -/
structure SameNodes (g g' : BuildGraph) : Prop where
  nextNode_eq : g'.nextNode = g.nextNode
  isArtifact_eq : ∀ n, g'.isArtifact n = g.isArtifact n
  filePath_eq : ∀ n, (g'.artifact n).filePath = (g.artifact n).filePath
  mustDiffer_eq : ∀ a b, g'.filePathsMustBeDifferent a b = g.filePathsMustBeDifferent a b

theorem SameNodes.refl (g : BuildGraph) : SameNodes g g :=
  ⟨rfl, fun _ => rfl, fun _ => rfl, fun _ _ => rfl⟩

variable {c p u v : NodeId}

theorem sameNodes_connect (h : g.connect p c = .ok g') : SameNodes g g' := by
  rcases (connect_cases h).2 with ⟨rfl, -⟩ | rfl
  · exact SameNodes.refl _
  · exact ⟨rfl, fun _ => rfl, fun _ => rfl, fun _ _ => rfl⟩

theorem disconnect_artifact (u v n : NodeId) :
    ∃ s, (g.disconnect u v).artifact n = { g.artifact n with childrenAddedByScanner := s } := by
  unfold disconnect
  split
  · by_cases hn : n = u
    · subst hn
      exact ⟨_, by simp [modifyArtifact, setArtifact, removeEdge]; rfl⟩
    · exact ⟨(g.artifact n).childrenAddedByScanner, by
        simp [modifyArtifact, setArtifact, removeEdge, hn]⟩
  · exact ⟨(g.artifact n).childrenAddedByScanner, rfl⟩

theorem sameNodes_disconnect (u v : NodeId) : SameNodes g (g.disconnect u v) := by
  have hartifact := disconnect_artifact (g := g) u v
  refine ⟨by rw [disconnect_eq], fun n => by rw [disconnect_eq]; rfl, ?_, ?_⟩
  · intro n
    rcases hartifact n with ⟨s, hs⟩
    rw [hs]
  · intro a b
    rcases hartifact a with ⟨s, hs⟩
    rcases hartifact b with ⟨t, ht⟩
    have hproduct : (g.disconnect u v).productOf = g.productOf := by rw [disconnect_eq]
    simp only [filePathsMustBeDifferent, hs, ht, hproduct]

theorem filePathsMustBeDifferent_comm (a b : NodeId) :
    g.filePathsMustBeDifferent a b = g.filePathsMustBeDifferent b a := by
  unfold filePathsMustBeDifferent
  cases (g.artifact a).artifactType <;> cases (g.artifact b).artifactType <;>
    simp [eq_comm]

/-! ## One operation keeps the invariants -/

/-- A scan that comes to its end has found no child in the way. -/
theorem findChildArtifact_eq_false {ac : NodeId} {l : List NodeId}
    (h : g.findChildArtifact ac l = .ok false) :
    ∀ a, a ∈ l → g.filePathsMustBeDifferent a ac = true →
      (g.artifact a).filePath ≠ (g.artifact ac).filePath := by
  induction l with
  | nil => simp
  | cons child l ih =>
      simp only [findChildArtifact] at h
      split at h
      · cases h
      · split at h <;> rename_i hconflict
        · cases h
        · intro a ha hdiffer
          rcases List.mem_cons.mp ha with rfl | ha
          · simpa [hdiffer] using hconflict
          · exact ih h a ha hdiffer

/-- A connection that inserts an edge has scanned all child artifacts. -/
theorem connect_scanned (h : g.connect p c = .ok g') :
    g' = g ∨ g' = (g.insertEdge p c).setDirty ∧ g.findChild p c = .ok false := by
  simp only [connect, Fallible.bind_eq_ok_iff, qbsCheck_eq_ok_iff, Fallible.pure_eq_ok_iff] at h
  rcases h with ⟨-, -, found, hfound, hg⟩
  cases found with
  | false => exact Or.inr ⟨by simpa using hg.symm, hfound⟩
  | true => exact Or.inl (by simpa using hg.symm)

theorem childPaths_insertEdge (hg : g.ChildPathsDistinct) (hfound : g.findChild p c = .ok false) :
    (g.insertEdge p c).ChildPathsDistinct := by
  -- a new child artifact was compared with all old ones
  have hnew : ∀ a, a ∈ g.children p → g.isArtifact a = true → g.isArtifact c = true →
      g.filePathsMustBeDifferent a c = true →
      (g.artifact a).filePath ≠ (g.artifact c).filePath := by
    intro a ha haa hca
    simp only [findChild, if_pos hca] at hfound
    exact findChildArtifact_eq_false hfound a ((mem_filterArtifacts g).mpr ⟨ha, haa⟩)
  intro q a b hga hgb haa hba hne hdiffer
  change g.isArtifact a = true at haa
  change g.isArtifact b = true at hba
  change g.filePathsMustBeDifferent a b = true at hdiffer
  change (g.artifact a).filePath ≠ (g.artifact b).filePath
  rcases mem_children_insertEdge.mp hga with ha | ⟨rfl, rfl⟩
  · rcases mem_children_insertEdge.mp hgb with hb | ⟨rfl, rfl⟩
    · exact hg q a b ha hb haa hba hne hdiffer
    · exact hnew a ha haa hba hdiffer
  · rcases mem_children_insertEdge.mp hgb with hb | ⟨-, rfl⟩
    · rw [filePathsMustBeDifferent_comm] at hdiffer
      exact fun hEq => hnew b hb hba haa hdiffer hEq.symm
    · exact absurd rfl hne

/-- Connecting two nodes keeps the invariants. -/
theorem EdgeInvariants.connect (hg : g.EdgeInvariants) (hp : p < g.nextNode) (hc : c < g.nextNode)
    (h : g.connect p c = .ok g') : g'.EdgeInvariants := by
  have hsame := sameNodes_connect h
  have hmem := fun u v => mem_children_connect (u := u) (v := v) h
  refine ⟨hg.mirror.connect h, ⟨?_, ?_⟩, ?_⟩
  · intro u v hv
    rw [hsame.nextNode_eq]
    rcases (hmem u v).mp hv with hv | ⟨rfl, -⟩
    · exact hg.allocated.parent_lt u v hv
    · exact hp
  · intro u v hv
    rw [hsame.nextNode_eq]
    rcases (hmem u v).mp hv with hv | ⟨-, rfl⟩
    · exact hg.allocated.child_lt u v hv
    · exact hc
  · rcases connect_scanned h with rfl | ⟨rfl, hfound⟩
    · exact hg.childPaths
    · exact childPaths_insertEdge hg.childPaths hfound

/-- Disconnecting two nodes keeps the invariants. -/
theorem EdgeInvariants.disconnect (hg : g.EdgeInvariants) (u v : NodeId) :
    (g.disconnect u v).EdgeInvariants := by
  have hsame := sameNodes_disconnect (g := g) u v
  have hold : ∀ x y, y ∈ (g.disconnect u v).children x → y ∈ g.children x := by
    intro x y hy
    rw [children_disconnect, mem_children_removeEdge] at hy
    exact hy.1
  refine ⟨hg.mirror.disconnect u v, ⟨?_, ?_⟩, ?_⟩
  · intro x y hy
    rw [hsame.nextNode_eq]
    exact hg.allocated.parent_lt x y (hold x y hy)
  · intro x y hy
    rw [hsame.nextNode_eq]
    exact hg.allocated.child_lt x y (hold x y hy)
  · intro p a b ha hb haa hba hne hdiffer
    rw [hsame.isArtifact_eq] at haa hba
    rw [hsame.mustDiffer_eq] at hdiffer
    rw [hsame.filePath_eq, hsame.filePath_eq]
    exact hg.childPaths p a b (hold p a ha) (hold p b hb) haa hba hne hdiffer

/-- Disconnecting two nodes closes no cycle. -/
theorem Acyclic.disconnect (hg : g.Acyclic) (u v : NodeId) : (g.disconnect u v).Acyclic := by
  apply GraphSearch.Acyclic.mono hg
  intro x y hy
  change y ∈ (g.disconnect u v).children x at hy
  rw [children_disconnect, mem_children_removeEdge] at hy
  exact hy.1

/-! ## Safe connections -/

/-- A safe connection comes to its end, with a result and the graph that it leaves. -/
def SafeConnectReturns (g : BuildGraph) (u v : NodeId) (r : Except ErrorInfo Bool × BuildGraph) :
    Prop :=
  r.1 ≠ .error .outOfFuel ∧ ∃ fuel, (GraphOp.safeConnect fuel u v).outcome g = r

/-- What a safe connection of two different nodes promises. -/
structure SafeConnectSpec (g : BuildGraph) (u v : NodeId) (r : Except ErrorInfo Bool × BuildGraph) :
    Prop where
  returns : g.SafeConnectReturns u v r
  refused_iff : r.1 = .ok false ↔ Relation.ReflTransGen g.IsChild v u
  unchanged : Relation.ReflTransGen g.IsChild v u → r.2 = g
  connected : ¬Relation.ReflTransGen g.IsChild v u →
    (∃ g', r = (.ok true, g') ∧ v ∈ g'.children u) ∨ ∃ error, r = (.error error, g)
  acyclic : g.Acyclic → r.2.Acyclic

/-- The search for a path back, if there is one, tries no edges that lead to a cycle. The children
of a node are tried in their order, up to the first one with a path back. -/
def NoCycleTried (g : BuildGraph) (u v : NodeId) : Prop :=
  Relation.ReflTransGen g.IsChild v u → PathSearch.NoCycleTried (fun n => (g.children n).elems) u v

theorem findChildArtifact_ne_outOfFuel (ac : NodeId) (l : List NodeId) :
    g.findChildArtifact ac l ≠ .error .outOfFuel := by
  induction l with
  | nil => exact fun h => (by cases h)
  | cons child l ih =>
      rw [findChildArtifact]
      split
      · exact fun h => (by cases h)
      · split
        · exact fun h => (by cases h)
        · exact ih

theorem connect_ne_outOfFuel (p c : NodeId) : g.connect p c ≠ .error .outOfFuel := by
  have hfound : g.findChild p c ≠ .error .outOfFuel := by
    unfold findChild
    split
    · exact findChildArtifact_ne_outOfFuel c _
    · exact fun h => (by cases h)
  unfold connect qbsCheck
  split
  · cases hchild : g.findChild p c with
    | error e =>
        rw [hchild] at hfound
        exact fun h => hfound (Except.error.inj h ▸ rfl)
    | ok found => exact fun h => (by cases h)
  · exact fun h => (by cases h)

/-- A safe connection that returns has left the graph as it was, or it is a connection. -/
theorem SafeConnectReturns.cases {r : Except ErrorInfo Bool × BuildGraph}
    (h : g.SafeConnectReturns u v r) :
    r.2 = g ∨ ∃ g', g.connect u v = .ok g' ∧ r = (.ok true, g') ∧ g.existsPath v u = false := by
  rcases h with ⟨-, fuel, rfl⟩
  rw [GraphOp.outcome_safeConnect]
  cases hsafe : g.safeConnect u v with
  | error e => exact Or.inl rfl
  | ok result =>
      rcases result with ⟨g', connected⟩
      rcases (safeConnect_cases hsafe).2 with ⟨rfl, rfl, -⟩ | ⟨rfl, hconnect, hpath⟩
      · refine Or.inl ?_
        dsimp only
        split <;> rfl
      · exact Or.inr ⟨g', hconnect, rfl, hpath⟩

theorem acyclic_connect (hg : g.Acyclic) (hback : ¬Relation.ReflTransGen g.IsChild v u)
    (h : g.connect u v = .ok g') : g'.Acyclic := by
  apply GraphSearch.acyclic_of_addEdge hg ?_ hback
  intro a b hab
  exact (mem_children_connect h).mp hab

/-- With a path back, a safe connection returns exactly if the search for the path does. -/
theorem safeConnectSpec_of_path (he : g.EdgesAllocated) (hv : v < g.nextNode) (huv : u ≠ v)
    (hback : Relation.ReflTransGen g.IsChild v u) :
    (∃ r, g.SafeConnectSpec u v r) ↔ ∃ fuel, (GraphOp.findPath g u fuel v).isSome = true := by
  have hcheck : qbsCheck (u ≠ v) "u != v" = .ok () := by simpa using huv
  have hsafe : g.safeConnect u v = .ok (g, false) := by
    simp only [safeConnect, hcheck, (existsPath_iff he hv).mpr hback]
    rfl
  have hrun := fun fuel => GraphOp.outcome_safeConnect (g := g) fuel u v
  simp only [hsafe] at hrun
  constructor
  · rintro ⟨r, ⟨⟨hne, fuel, rfl⟩, -⟩⟩
    refine ⟨fuel, ?_⟩
    rw [hrun] at hne
    split at hne <;> rename_i hsome
    · exact hsome
    · exact absurd rfl hne
  · rintro ⟨fuel, hfuel⟩
    have hout := hrun fuel
    rw [if_pos hfuel] at hout
    refine ⟨(.ok false, g), ⟨fun h => (by cases h), fuel, hout⟩, ?_, fun _ => rfl, ?_, fun hg => hg⟩
    · exact iff_of_true rfl hback
    · exact fun hno => absurd hback hno

/-- Without a path back, a safe connection is a connection. -/
theorem safeConnectSpec_of_no_path (he : g.EdgesAllocated) (hv : v < g.nextNode) (huv : u ≠ v)
    (hback : ¬Relation.ReflTransGen g.IsChild v u) :
    ∃ r, g.SafeConnectSpec u v r := by
  have hcheck : qbsCheck (u ≠ v) "u != v" = .ok () := by simpa using huv
  have hfalse : g.existsPath v u = false := by simpa [← existsPath_iff he hv] using hback
  have hrun := GraphOp.outcome_safeConnect (g := g) 0 u v
  simp only [safeConnect, hcheck, hfalse] at hrun
  cases hconnect : g.connect u v with
  | error e =>
      rw [hconnect] at hrun
      refine ⟨(.error e, g), ⟨?_, 0, hrun⟩, ?_, fun _ => rfl, fun _ => Or.inr ⟨e, rfl⟩, fun hg => hg⟩
      · intro h
        rw [Except.error.inj h] at hconnect
        exact connect_ne_outOfFuel u v hconnect
      · exact iff_of_false (fun h => (by cases h)) hback
  | ok g' =>
      rw [hconnect] at hrun
      refine ⟨(.ok true, g'), ⟨fun h => (by cases h), 0, hrun⟩, ?_, fun h => absurd h hback, ?_, ?_⟩
      · exact iff_of_false (fun h => (by cases h)) hback
      · exact fun _ => Or.inl ⟨g', rfl, (mem_children_connect hconnect).mpr (Or.inr ⟨rfl, rfl⟩)⟩
      · exact fun hg => acyclic_connect hg hback hconnect

/-- A safe connection does what it promises exactly if the search for the path back tries no edges
that lead to a cycle. -/
theorem safeConnectSpec_iff (he : g.EdgesAllocated) (hv : v < g.nextNode) (huv : u ≠ v) :
    (∃ r, g.SafeConnectSpec u v r) ↔ g.NoCycleTried u v := by
  by_cases hback : Relation.ReflTransGen g.IsChild v u
  · have hclosed : ∀ a b, a ∈ Finset.range g.nextNode → b ∈ (g.children a).elems →
        b ∈ Finset.range g.nextNode :=
      fun a b _ hb => Finset.mem_range.mpr (he.child_lt a b hb)
    rw [safeConnectSpec_of_path he hv huv hback, NoCycleTried, imp_iff_right hback]
    exact PathSearch.exists_find_iff hclosed (Finset.mem_range.mpr hv)
  · exact iff_of_true (safeConnectSpec_of_no_path he hv huv hback) fun h => absurd h hback

/-- Without cycles, none are tried. -/
theorem Acyclic.noCycleTried (hg : g.Acyclic) (u v : NodeId) : g.NoCycleTried u v :=
  fun _ => PathSearch.noCycleTried_of_acyclic hg

/-! ## Sequences of operations -/

/-- A call of one of the operations on edges. -/
inductive EdgeCall where
  | connect (p c : NodeId)
  | safeConnect (u v : NodeId)
  | disconnect (u v : NodeId)
deriving DecidableEq

namespace EdgeCall

/-- The nodes of a call exist, and safe connections are for artifacts. -/
def Valid (g : BuildGraph) : EdgeCall → Prop
  | connect p c => p < g.nextNode ∧ c < g.nextNode
  | safeConnect u v =>
      u < g.nextNode ∧ v < g.nextNode ∧ g.isArtifact u = true ∧ g.isArtifact v = true
  | disconnect u v => u < g.nextNode ∧ v < g.nextNode

instance (g : BuildGraph) : (call : EdgeCall) → Decidable (call.Valid g)
  | connect p c => inferInstanceAs (Decidable (p < g.nextNode ∧ c < g.nextNode))
  | safeConnect u v => inferInstanceAs
      (Decidable (u < g.nextNode ∧ v < g.nextNode ∧ g.isArtifact u = true ∧ g.isArtifact v = true))
  | disconnect u v => inferInstanceAs (Decidable (u < g.nextNode ∧ v < g.nextNode))

/-- A call comes to its end and leaves a graph, by return or by an exception. -/
def Leaves (g g' : BuildGraph) : EdgeCall → Prop
  | connect p c => ((GraphOp.connect p c).outcome g).2 = g'
  | safeConnect u v => ∃ result, g.SafeConnectReturns u v (result, g')
  | disconnect u v => ((GraphOp.disconnect u v).outcome g).2 = g'

/-- One call in a sequence of calls. -/
def Step (g : BuildGraph) (call : EdgeCall) (g' : BuildGraph) : Prop :=
  call.Valid g ∧ call.Leaves g g'

end EdgeCall

namespace EdgeInvariants

/-- One call keeps the invariants. -/
theorem call (hg : g.EdgeInvariants) {c : EdgeCall} (hstep : c.Step g g') : g'.EdgeInvariants := by
  rcases hstep with ⟨hvalid, hleaves⟩
  cases c with
  | connect p c =>
      rw [← (show _ = g' from hleaves), GraphOp.outcome_connect]
      cases hconnect : g.connect p c with
      | error e => exact hg
      | ok g' => exact hg.connect hvalid.1 hvalid.2 hconnect
  | safeConnect u v =>
      rcases hleaves with ⟨result, hreturns⟩
      rcases hreturns.cases with hsame | ⟨g₁, hconnect, hr, -⟩
      · rw [show g' = g from hsame]
        exact hg
      · rw [(Prod.mk.inj hr).2]
        exact hg.connect hvalid.1 hvalid.2.1 hconnect
  | disconnect u v =>
      rw [← (show _ = g' from hleaves)]
      exact hg.disconnect u v

end EdgeInvariants

/-- Safe connections and disconnections close no cycle. -/
theorem Acyclic.call (hg : g.EdgeInvariants) (ha : g.Acyclic) {c : EdgeCall}
    (hc : ∀ p q, c ≠ .connect p q) (hstep : c.Step g g') : g'.Acyclic := by
  rcases hstep with ⟨hvalid, hleaves⟩
  cases c with
  | connect p c => exact absurd rfl (hc p c)
  | safeConnect u v =>
      rcases hleaves with ⟨result, hreturns⟩
      rcases hreturns.cases with hsame | ⟨g₁, hconnect, hr, hpath⟩
      · rw [show g' = g from hsame]
        exact ha
      · rw [(Prod.mk.inj hr).2]
        refine acyclic_connect ha ?_ hconnect
        rw [← existsPath_iff hg.allocated hvalid.2.1, hpath]
        exact Bool.false_ne_true
  | disconnect u v =>
      rw [← (show _ = g' from hleaves)]
      exact ha.disconnect u v

/-- The edges of the build graph over any sequence of calls that return: children and parents
mirror each other, child artifacts in conflict have different paths, without connections no cycle
is closed, and a connection that throws changes nothing. A safe connection is refused exactly when
there is a path back, provided the search for this path tries no edges that lead to a cycle; in
other cases it does not return. -/
theorem edgeInvariants_of_calls {trace : List (BuildGraph × EdgeCall)} (hg : g.EdgeInvariants)
    (hrun : TransitionSystem.Run EdgeCall.Step g trace g') :
    (∀ p c, c ∈ g'.children p ↔ p ∈ g'.parents c) ∧ (∀ d, g'.doSanityChecksForEdges d = .ok ()) ∧
      g'.ChildPathsDistinct ∧
      (g.Acyclic → (∀ e, e ∈ trace → ∀ p c, e.2 ≠ .connect p c) → g'.Acyclic) ∧
      (∀ u v, (EdgeCall.safeConnect u v).Valid g' → u ≠ v →
        ((∃ r, g'.SafeConnectSpec u v r) ↔ g'.NoCycleTried u v)) ∧
      (g'.Acyclic → ∀ u v, g'.NoCycleTried u v) ∧
      ∀ p c error, ((GraphOp.connect p c).outcome g').1 = .error error →
        ((GraphOp.connect p c).outcome g').2 = g' := by
  have hkeep : ∀ t call u, t.EdgeInvariants → True → EdgeCall.Step t call u →
      u.EdgeInvariants := fun _ _ _ ht _ hstep => ht.call hstep
  have hend := hrun.invariant (fun _ _ => True) hkeep hg fun _ _ => trivial
  refine ⟨fun p c => (hend.mirror.mem_parents_iff p c).symm, hend.mirror.sanityChecks,
    hend.childPaths, ?_, ?_, fun ha => ha.noCycleTried, ?_⟩
  · intro ha hsafe
    have hkeepBoth : ∀ t call u, t.EdgeInvariants ∧ t.Acyclic → (∀ p c, call ≠ .connect p c) →
        EdgeCall.Step t call u → u.EdgeInvariants ∧ u.Acyclic :=
      fun _ _ _ ht hc hstep => ⟨ht.1.call hstep, ht.2.call ht.1 hc hstep⟩
    exact (hrun.invariant (P := fun g => g.EdgeInvariants ∧ g.Acyclic)
      (fun _ call => ∀ p c, call ≠ EdgeCall.connect p c) hkeepBoth ⟨hg, ha⟩ hsafe).2
  · exact fun u v hvalid huv => safeConnectSpec_iff hend.allocated hvalid.2.1 huv
  · intro p c error herror
    rw [GraphOp.outcome_connect] at herror ⊢
    cases hconnect : g'.connect p c with
    | error _ => rfl
    | ok g' =>
        rw [hconnect] at herror
        cases herror

/-- Some artifacts without an edge. -/
def someArtifacts (count : Nat) : BuildGraph :=
  { empty with
    artifact := fun n => Artifact.create .sourceFile
      (if n = 0 then "a.o" else if n = 1 then "a.cpp" else "a.h")
    nextNode := count }

theorem someArtifacts_edgeInvariants (count : Nat) : (someArtifacts count).EdgeInvariants := by
  refine ⟨⟨fun u v => ?_⟩, ⟨?_, ?_⟩, ?_⟩
  · exact iff_of_false (SortedSet.not_mem_empty u) (SortedSet.not_mem_empty v)
  · exact fun u v hv => absurd hv (SortedSet.not_mem_empty v)
  · exact fun u v hv => absurd hv (SortedSet.not_mem_empty v)
  · exact fun p a b ha => absurd ha (SortedSet.not_mem_empty a)

theorem someArtifacts_acyclic (count : Nat) : (someArtifacts count).Acyclic := by
  intro a ha
  cases ha with
  | single h => exact SortedSet.not_mem_empty _ h
  | tail _ h => exact SortedSet.not_mem_empty _ h

/-- A graph after some connections. -/
def afterConnects (g : BuildGraph) (edges : List (NodeId × NodeId)) : BuildGraph :=
  edges.foldl (fun g e => ((GraphOp.connect e.1 e.2).outcome g).2) g

/-- Connecting two artifacts one way and then the other leaves no cycle: the second connection is
refused. -/
theorem edgeInvariants_of_calls_someArtifacts :
    (∃ r, (afterConnects (someArtifacts 2) [(0, 1)]).SafeConnectSpec 1 0 r) ∧
      (afterConnects (someArtifacts 2) [(0, 1)]).Acyclic := by
  have hreturns : (someArtifacts 2).SafeConnectReturns 0 1
      (.ok true, afterConnects (someArtifacts 2) [(0, 1)]) := ⟨fun h => (by cases h), 0, rfl⟩
  have hrun : TransitionSystem.Run EdgeCall.Step (someArtifacts 2)
      ([] ++ [(someArtifacts 2, EdgeCall.safeConnect 0 1)])
      (afterConnects (someArtifacts 2) [(0, 1)]) := .snoc .nil ⟨by decide, .ok true, hreturns⟩
  have h := edgeInvariants_of_calls (someArtifacts_edgeInvariants 2) hrun
  have hacyclic := h.2.2.2.1 (someArtifacts_acyclic 2) (by simp)
  exact ⟨(h.2.2.2.2.1 1 0 (by decide) (by decide)).mpr (h.2.2.2.2.2.1 hacyclic 1 0), hacyclic⟩

/-- Two artifacts that depend on each other, one of which depends on a third one. -/
def twoOnACycle : BuildGraph :=
  afterConnects (someArtifacts 3) [(0, 1), (1, 0), (0, 2)]

/-- The search for the path back goes around in the cycle for ever. -/
theorem safeConnect_twoOnACycle :
    (∃ trace, TransitionSystem.Run EdgeCall.Step (someArtifacts 3) trace twoOnACycle) ∧
      (EdgeCall.safeConnect 2 0).Valid twoOnACycle ∧
      Relation.ReflTransGen twoOnACycle.IsChild 0 2 ∧
      ∀ fuel, (GraphOp.safeConnect fuel 2 0).outcome twoOnACycle =
        (.error .outOfFuel, twoOnACycle) := by
  have hpath : Relation.ReflTransGen twoOnACycle.IsChild 0 2 :=
    .single (show 2 ∈ twoOnACycle.children 0 by decide)
  have hfirst : (EdgeCall.connect 0 1).Step (someArtifacts 3)
      (afterConnects (someArtifacts 3) [(0, 1)]) := ⟨by decide, rfl⟩
  have hsecond : (EdgeCall.connect 1 0).Step (afterConnects (someArtifacts 3) [(0, 1)])
      (afterConnects (someArtifacts 3) [(0, 1), (1, 0)]) := ⟨by decide, rfl⟩
  have hthird : (EdgeCall.connect 0 2).Step (afterConnects (someArtifacts 3) [(0, 1), (1, 0)])
      twoOnACycle := ⟨by decide, rfl⟩
  refine ⟨⟨_, .snoc (.snoc (.snoc .nil hfirst) hsecond) hthird⟩, by decide, hpath, fun fuel => ?_⟩
  have hgo : PathSearch.Tried (fun n => (twoOnACycle.children n).elems) 2 0 1 :=
    ⟨by decide, [], [2], by decide, fun z hz => absurd hz List.not_mem_nil⟩
  have hback : PathSearch.Tried (fun n => (twoOnACycle.children n).elems) 2 1 0 :=
    ⟨by decide, [], [], by decide, fun z hz => absurd hz List.not_mem_nil⟩
  have hnone : (GraphOp.findPath twoOnACycle 2 fuel 0).isSome = false := by
    rw [Bool.eq_false_iff]
    intro hsome
    have hacc := PathSearch.acc_of_find hsome
    exact PathSearch.not_transGen_of_acc hacc (.head hgo (.single hback))
  have hsafe : twoOnACycle.safeConnect 2 0 = .ok (twoOnACycle, false) := by
    rfl
  rw [GraphOp.outcome_safeConnect, hsafe]
  simp [hnone]

end BuildGraph

end Qbs
