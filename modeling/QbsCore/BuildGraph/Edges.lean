import QbsCore.BuildGraph.Basic
import QbsCore.Library.GraphSearch

/-!
# Edges of the build graph

Connecting, safely connecting and disconnecting two nodes.  An edge from a parent
to a child says that the child must be built first.

Main results:

- Theorem {lit}`BuildGraph.connect_cases`: a successful connection either finds
  the edge in place or inserts it and marks the build graph as modified.
- Theorem {lit}`BuildGraph.existsPath_iff`: the search for a path decides
  reachability.
- Theorem {lit}`BuildGraph.safeConnect_cases`: a refused connection would have
  closed a cycle.

Current gaps:

- The second search for the path back, which a refused safe connection makes for a message, is
  modelled with the sequences of calls.
-/

namespace Qbs

namespace BuildGraph

variable {g g' : BuildGraph}

/-! ## Connecting two nodes -/

/-- Whether two artifacts that are children of one node need different paths. -/
def filePathsMustBeDifferent (g : BuildGraph) (child ac : NodeId) : Bool :=
  (g.artifact child).artifactType = .generated || g.productOf child = g.productOf ac ||
    (g.artifact child).artifactType ≠ (g.artifact ac).artifactType

/-- Look for an artifact among the child artifacts of a node; a different artifact
with the same path is an error. -/
def findChildArtifact (g : BuildGraph) (ac : NodeId) : List NodeId → Except ErrorInfo Bool
  | [] => .ok false
  | child :: rest =>
      if child = ac then .ok true
      else if g.filePathsMustBeDifferent child ac &&
          (g.artifact child).filePath = (g.artifact ac).filePath then
        .error (.message s!"already has a child artifact {(g.artifact ac).filePath} as different object.")
      else g.findChildArtifact ac rest

theorem findChildArtifact_eq_ok {ac : NodeId} {l : List NodeId} {b : Bool}
    (h : g.findChildArtifact ac l = .ok b) : b = true ↔ ac ∈ l := by
  induction l with
  | nil =>
      simp only [findChildArtifact, Except.ok.injEq] at h
      simp [← h]
  | cons child l ih =>
      simp only [findChildArtifact] at h
      split at h <;> rename_i hc
      · simp only [Except.ok.injEq] at h
        simp [← h, hc]
      · split at h
        · cases h
        · rw [ih h, List.mem_cons]
          exact ⟨Or.inr, fun hm => hm.resolve_left fun hEq => hc hEq.symm⟩

/-- Whether an edge to an artifact is there already; only artifacts are looked for. -/
def findChild (g : BuildGraph) (p c : NodeId) : Except ErrorInfo Bool :=
  if g.isArtifact c then g.findChildArtifact c (g.childArtifacts p).elems else .ok false

/-- Create the edge {lit}`p -> c`. -/
def connect (g : BuildGraph) (p c : NodeId) : Except ErrorInfo BuildGraph := do
  qbsCheck (p ≠ c) "p != c"
  let found ← g.findChild p c
  return if found then g else (g.insertEdge p c).setDirty

variable {c p u v : NodeId}

/-- A successful connection finds the edge in place or inserts it. -/
theorem connect_cases (h : g.connect p c = .ok g') :
    p ≠ c ∧ (g' = g ∧ c ∈ g.children p ∨ g' = (g.insertEdge p c).setDirty) := by
  simp only [connect, Fallible.bind_eq_ok_iff, qbsCheck_eq_ok_iff, Fallible.pure_eq_ok_iff] at h
  rcases h with ⟨-, hpc, found, hfound, hg⟩
  refine ⟨by simpa using hpc, ?_⟩
  cases found with
  | false => exact Or.inr (by simpa using hg.symm)
  | true =>
      refine Or.inl ⟨by simpa using hg.symm, ?_⟩
      unfold findChild at hfound
      split at hfound
      · have hmem : c ∈ (g.childArtifacts p).elems :=
          (findChildArtifact_eq_ok hfound).mp rfl
        exact ((mem_filterArtifacts g).mp hmem).1
      · cases hfound

@[simp]
theorem mem_children_insertEdge :
    v ∈ (g.insertEdge p c).children u ↔ v ∈ g.children u ∨ u = p ∧ v = c := by
  simp only [insertEdge]
  by_cases hu : u = p
  · subst hu
    simp only [Function.update_self, SortedSet.mem_insert, true_and]
    exact or_comm
  · simp [hu]

@[simp]
theorem mem_parents_insertEdge :
    u ∈ (g.insertEdge p c).parents v ↔ u ∈ g.parents v ∨ u = p ∧ v = c := by
  simp only [insertEdge]
  by_cases hv : v = c
  · subst hv
    simp only [Function.update_self, SortedSet.mem_insert, and_true]
    exact or_comm
  · simp [hv]

/-- A connection adds its edge and no other. -/
theorem mem_children_connect (h : g.connect p c = .ok g') :
    v ∈ g'.children u ↔ v ∈ g.children u ∨ u = p ∧ v = c := by
  rcases (connect_cases h).2 with ⟨rfl, hc⟩ | rfl
  · constructor
    · exact Or.inl
    · rintro (hv | ⟨rfl, rfl⟩)
      · exact hv
      · exact hc
  · exact mem_children_insertEdge

theorem Mirror.insertEdge (hm : g.Mirror) (p c : NodeId) : (g.insertEdge p c).Mirror := by
  constructor
  intro u v
  rw [mem_parents_insertEdge, mem_children_insertEdge, hm.mem_parents_iff]

/-- Connecting keeps children and parents mirrored. -/
theorem Mirror.connect (hm : g.Mirror) (h : g.connect p c = .ok g') :
    g'.Mirror := by
  rcases (connect_cases h).2 with ⟨rfl, -⟩ | rfl
  · exact hm
  · exact ⟨(hm.insertEdge p c).mem_parents_iff⟩

/-! ## Paths -/

/-- There is an edge from a node to its child. -/
def IsChild (g : BuildGraph) (u v : NodeId) : Prop :=
  v ∈ g.children u

/-- Whether there is a path from one node to another. -/
def existsPath (g : BuildGraph) (u v : NodeId) : Bool :=
  GraphSearch.search g.children v (g.nextNode + 1) u

/-- All nodes that were ever created. -/
def allocated (g : BuildGraph) : NodeSet :=
  SortedSet.range g.nextNode

/-- Edges lead from and to nodes that were created. -/
structure EdgesAllocated (g : BuildGraph) : Prop where
  parent_lt : ∀ u v, v ∈ g.children u → u < g.nextNode
  child_lt : ∀ u v, v ∈ g.children u → v < g.nextNode

/-- The search for a path decides reachability. -/
theorem existsPath_iff (he : g.EdgesAllocated) (hu : u < g.nextNode) :
    g.existsPath u v = true ↔ Relation.ReflTransGen g.IsChild u v := by
  refine GraphSearch.search_eq_true_iff g.allocated ?_ ?_ ?_
  · intro a _ b hb
    exact SortedSet.mem_range.mpr (he.child_lt a b hb)
  · exact SortedSet.mem_range.mpr hu
  · simp [allocated]

/-- Create the edge {lit}`u -> v` unless it would close a cycle. -/
def safeConnect (g : BuildGraph) (u v : NodeId) : Except ErrorInfo (BuildGraph × Bool) := do
  qbsCheck (u ≠ v) "u != v"
  if g.existsPath v u then return (g, false)
  let g ← g.connect u v
  return (g, true)

/-- A safe connection is refused because of a path back, or it is a connection. -/
theorem safeConnect_cases {connected : Bool} (h : g.safeConnect u v = .ok (g', connected)) :
    u ≠ v ∧ (connected = false ∧ g' = g ∧ g.existsPath v u = true ∨
      connected = true ∧ g.connect u v = .ok g' ∧ g.existsPath v u = false) := by
  simp only [safeConnect, Fallible.bind_eq_ok_iff, qbsCheck_eq_ok_iff] at h
  rcases h with ⟨-, huv, h⟩
  refine ⟨by simpa using huv, ?_⟩
  split at h <;> rename_i hpath
  · simp only [Fallible.pure_eq_ok_iff, Prod.mk.injEq] at h
    exact Or.inl ⟨h.2.symm, h.1.symm, hpath⟩
  · simp only [Fallible.bind_eq_ok_iff, Fallible.pure_eq_ok_iff, Prod.mk.injEq] at h
    rcases h with ⟨g₁, hconnect, rfl, rfl⟩
    exact Or.inr ⟨rfl, hconnect, by simpa using hpath⟩

/-! ## Disconnecting two nodes -/

/-- Remove the edge {lit}`u -> v`; an artifact also forgets that the scanner has added it. -/
def disconnect (g : BuildGraph) (u v : NodeId) : BuildGraph :=
  if g.isArtifact u && g.isArtifact v then
    (g.removeEdge u v).modifyArtifact u fun a =>
      { a with childrenAddedByScanner := a.childrenAddedByScanner.remove v }
  else g.removeEdge u v

@[simp]
theorem mem_children_removeEdge :
    v ∈ (g.removeEdge p c).children u ↔ v ∈ g.children u ∧ ¬(u = p ∧ v = c) := by
  simp only [removeEdge]
  by_cases hu : u = p
  · subst hu
    simp
  · simp [hu]

@[simp]
theorem mem_parents_removeEdge :
    u ∈ (g.removeEdge p c).parents v ↔ u ∈ g.parents v ∧ ¬(u = p ∧ v = c) := by
  simp only [removeEdge]
  by_cases hv : v = c
  · subst hv
    simp
  · simp [hv]

@[simp]
theorem children_disconnect (u v : NodeId) :
    (g.disconnect u v).children = (g.removeEdge u v).children := by
  unfold disconnect
  split <;> rfl

@[simp]
theorem parents_disconnect (u v : NodeId) :
    (g.disconnect u v).parents = (g.removeEdge u v).parents := by
  unfold disconnect
  split <;> rfl

/-- Disconnecting two nodes changes edges and scanner marks only. -/
theorem disconnect_eq (u v : NodeId) :
    g.disconnect u v = { g with
      children := (g.removeEdge u v).children
      parents := (g.removeEdge u v).parents
      artifact := (g.disconnect u v).artifact } := by
  unfold disconnect
  split <;> rfl

/-- Disconnecting keeps children and parents mirrored. -/
theorem Mirror.disconnect (hm : g.Mirror) (u v : NodeId) : (g.disconnect u v).Mirror := by
  constructor
  intro x y
  rw [parents_disconnect, children_disconnect, mem_parents_removeEdge, mem_children_removeEdge,
    hm.mem_parents_iff]

end BuildGraph

end Qbs
