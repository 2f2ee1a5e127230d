import QbsCore.BuildGraph.Basic
import QbsCore.Library.CycleSearch

/-!
# Cycle detection in the build graph

A depth-first search remembers the nodes that were visited completely, the nodes on
the current path and the node that was entered last.  When it comes to a node on the
current path, it throws an error with the nodes of a cycle, which a second search
looks for between the node on the path and the node that was entered last.

Main results:

- Theorem {lit}`CycleDetector.visitProject_throws_iff`: the search ends, and it throws
  exactly when a cycle can be reached.
- Theorem {lit}`CycleDetector.visitProject_right_iff`: the reported nodes are a closed
  walk exactly when all children of the last node on the way to the first cycle that
  come before the repeated one had been visited before.

Current gaps:

- The products of a project and of its subprojects are one list, in visiting order.
-/

namespace Qbs

/-- Search for a path from one of some children; the first argument is the search from one node. -/
def findPathAmong (search : NodeId → List NodeId → Option (Bool × List NodeId)) :
    List NodeId → List NodeId → Option (Bool × List NodeId)
  | [], path => some (false, path)
  | child :: rest, path =>
      (search child path).bind fun r => if r.1 then some r else findPathAmong search rest r.2

/-- Search for a path between two nodes; returns whether there is one, and its nodes. There is
no result if the fuel does not suffice. The second node may be null. -/
def findPath (children : NodeId → NodeSet) (v : Option NodeId) :
    Nat → NodeId → List NodeId → Option (Bool × List NodeId)
  | 0, _, _ => none
  | fuel + 1, u, path =>
      if some u = v then some (true, path ++ [u])
      else
        (findPathAmong (findPath children v fuel) (children u).elems path).map fun r =>
          if r.1 then (true, u :: r.2) else r

/-- The state of a cycle detector; the parent is null at first. -/
structure CycleDetector where
  allNodes : NodeSet
  nodesInCurrentPath : NodeSet
  parent : Option NodeId

/-- The error that is thrown, with the nodes that are reported. -/
structure CycleError where
  nodes : List NodeId

/-- The text of the error. -/
def CycleError.info (toString : NodeId → String) (e : CycleError) : ErrorInfo :=
  .ofItems ("Cycle in build graph detected." :: e.nodes.map toString)

namespace CycleDetector

/-- A cycle detector before the first visit. -/
def create : CycleDetector :=
  ⟨∅, ∅, none⟩

/-- Visit one after the other. -/
def visitAll {ι : Type} (visit : ι → CycleDetector → Option (Except CycleError CycleDetector)) :
    List ι → CycleDetector → Option (Except CycleError CycleDetector)
  | [], s => some (.ok s)
  | i :: rest, s =>
      (visit i s).bind fun r =>
        match r with
        | .error e => some (.error e)
        | .ok s' => visitAll visit rest s'

variable (children : NodeId → NodeSet) (bound : Nat)

/-- The nodes of the cycle that is reported. -/
def cycle (doubleEntry : NodeId) (s : CycleDetector) : Option (List NodeId) :=
  (findPath children s.parent bound doubleEntry []).map fun r => r.2 ++ [doubleEntry]

/-- Visit a node. The visitor returns false, so that its children are visited here only. -/
def visitNode : Nat → NodeId → CycleDetector → Option (Except CycleError CycleDetector)
  | 0, _, _ => none
  | fuel + 1, node, s =>
      if node ∈ s.nodesInCurrentPath then
        (cycle children bound node s).map fun nodes => .error ⟨nodes⟩
      else if node ∈ s.allNodes then some (.ok s)
      else
        (visitAll (visitNode fuel) (children node).elems
            ⟨s.allNodes, insert node s.nodesInCurrentPath, some node⟩).map fun r =>
          r.map fun s' => ⟨insert node s'.allNodes, s'.nodesInCurrentPath.remove node, s'.parent⟩

/-- Visit the root nodes of a product; a product without build data has none. -/
def visitProduct (g : BuildGraph) (product : ProductId) (s : CycleDetector) :
    Option (Except CycleError CycleDetector) :=
  match g.productData product with
  | none => some (.ok s)
  | some buildData => visitAll (visitNode g.children bound bound) buildData.roots.elems s

/-- Visit the products of a project. -/
def visitProject (g : BuildGraph) (products : List ProductId) :
    Option (Except CycleError CycleDetector) :=
  visitAll (visitProduct bound g) products create

/-! ## Searching for a path where there is no cycle -/

variable {children} {bound}

/-- The children of a node in the order in which they are visited. -/
abbrev next (children : NodeId → NodeSet) (n : NodeId) : List NodeId :=
  (children n).elems

open CycleSearch Relation

variable {s s' : CycleDetector} {path us : List NodeId} {u : NodeId}
  {search : NodeId → List NodeId → Option (Bool × List NodeId)} {nodes : NodeSet}

theorem findPathAmong_append_found {ws found : List NodeId}
    (h : findPathAmong search us path = some (true, found)) :
    findPathAmong search (us ++ ws) path = some (true, found) := by
  induction us generalizing path with
  | nil => simp [findPathAmong] at h
  | cons u us ih =>
      simp only [List.cons_append, findPathAmong] at h ⊢
      rcases Option.bind_eq_some_iff.mp h with ⟨⟨b, path'⟩, hu, hrest⟩
      rw [hu, Option.bind_some]
      cases b with
      | true => simpa using hrest
      | false => simpa using ih (by simpa using hrest)

theorem findPathAmong_append_not_found {ws path' : List NodeId}
    (h : findPathAmong search us path = some (false, path')) :
    findPathAmong search (us ++ ws) path = findPathAmong search ws path' := by
  induction us generalizing path with
  | nil =>
      simp only [findPathAmong, Option.some.injEq, Prod.mk.injEq, true_and] at h
      rw [List.nil_append, h]
  | cons u us ih =>
      simp only [List.cons_append, findPathAmong] at h ⊢
      rcases Option.bind_eq_some_iff.mp h with ⟨⟨b, path''⟩, hu, hrest⟩
      rw [hu, Option.bind_some]
      cases b with
      | true => simp at hrest
      | false => simpa using ih (by simpa using hrest)

variable (children) in
/-- A search for a path between two nodes has found one, or there is none. -/
def Decides (u v : NodeId) (r : Option (Bool × List NodeId)) : Prop :=
  (∃ path, r = some (true, path) ∧ Walk (next children) u v path) ∨
    r = some (false, []) ∧ ¬ReflTransGen (Edge (next children)) u v

theorem findPathAmong_spec {v : NodeId} (h : ∀ u, u ∈ us → Decides children u v (search u [])) :
    (∃ u path, u ∈ us ∧ findPathAmong search us [] = some (true, path) ∧
        Walk (next children) u v path) ∨
      findPathAmong search us [] = some (false, []) ∧
        ∀ u, u ∈ us → ¬ReflTransGen (Edge (next children)) u v := by
  induction us with
  | nil => exact Or.inr ⟨rfl, by simp⟩
  | cons u us ih =>
      simp only [findPathAmong]
      rcases h u (by simp) with ⟨path, heq, hwalk⟩ | ⟨heq, hnot⟩
      · exact Or.inl ⟨u, path, by simp, by simp [heq], hwalk⟩
      · rw [heq, Option.bind_some]
        rcases ih fun w hw => h w (List.mem_cons_of_mem u hw) with ⟨w, path, hw, hsome, hwalk⟩ | hrest
        · exact Or.inl ⟨w, path, List.mem_cons_of_mem u hw, by simpa using hsome, hwalk⟩
        · refine Or.inr ⟨by simpa using hrest.1, ?_⟩
          intro w hw
          rcases List.mem_cons.mp hw with rfl | hw
          · exact hnot
          · exact hrest.2 w hw

/-- Where no cycle can be reached, the search for a path ends with the right result. -/
theorem findPath_spec (hclosed : ∀ a, a ∈ nodes → ∀ b, b ∈ children a → b ∈ nodes) {fuel : Nat}
    {v : NodeId} {above : List NodeId} (habove : Above (next children) nodes.elems above u)
    (hu : u ∈ nodes) (hleads : ¬LeadsToCycle (next children) u)
    (hfuel : nodes.size < above.length + fuel) :
    Decides children u v (findPath children (some v) fuel u []) := by
  induction fuel generalizing u above with
  | zero =>
      have hle : above.length ≤ nodes.size := habove.length_le
      omega
  | succ fuel ih =>
      simp only [findPath]
      split_ifs with huv
      · rw [Option.some.inj huv]
        exact Or.inl ⟨[v], rfl, Walk.single _ v⟩
      · have hcycle : ¬TransGen (Edge (next children)) u u :=
          fun h => hleads ⟨u, ReflTransGen.refl, h⟩
        have hsearch : ∀ c, c ∈ next children u →
            Decides children c v (findPath children (some v) fuel c []) := by
          intro c hc
          have hlength : nodes.size < (u :: above).length + fuel := by
            simp only [List.length_cons]
            omega
          exact ih (habove.cons hu hcycle hc) (hclosed u hu c hc) (fun h => hleads (h.of_edge hc))
            hlength
        rcases findPathAmong_spec hsearch with ⟨c, path, hc, heq, hwalk⟩ | ⟨heq, hnot⟩
        · exact Or.inl ⟨u :: path, by simp [heq], hwalk.cons hc⟩
        · refine Or.inr ⟨by simp [heq], ?_⟩
          intro hpath
          rcases ReflTransGen.cases_head hpath with rfl | ⟨c, hc, hrest⟩
          · exact huv rfl
          · exact hnot c hc hrest

/-! ## Complete visits -/

/-- What the complete visit of some nodes achieves. The parent is a node that was visited newly,
unless all of the nodes had been visited before. -/
structure Visits (children : NodeId → NodeSet) (us : List NodeId) (s s' : CycleDetector) :
    Prop where
  path : s'.nodesInCurrentPath = s.nodesInCurrentPath
  all : ∀ x, x ∈ s'.allNodes ↔
    x ∈ s.allNodes ∨ ∃ u, u ∈ us ∧ ReflTransGen (Edge (next children)) u x
  parent : (∀ u, u ∈ us → u ∈ s.allNodes) ∧ s'.parent = s.parent ∨
    ∃ m u, s'.parent = some m ∧ m ∉ s.allNodes ∧ u ∈ us ∧ ReflTransGen (Edge (next children)) u m

/-- The nodes that were visited completely are closed under children. -/
def Closed (children : NodeId → NodeSet) (s : CycleDetector) : Prop :=
  ∀ a, a ∈ s.allNodes → ∀ b, b ∈ children a → b ∈ s.allNodes

theorem Closed.mem_of_path (h : Closed children s) {a b : NodeId} (ha : a ∈ s.allNodes)
    (hpath : ReflTransGen (Edge (next children)) a b) :
    b ∈ s.allNodes := by
  induction hpath with
  | refl => exact ha
  | tail _ hedge ih => exact h _ ih _ hedge

theorem Visits.closed (h : Visits children us s s') (hs : Closed children s) :
    Closed children s' := by
  intro a ha b hb
  rw [h.all] at ha ⊢
  rcases ha with ha | ⟨u, hu, hpath⟩
  · exact Or.inl (hs a ha b hb)
  · exact Or.inr ⟨u, hu, hpath.tail hb⟩

theorem Visits.nil (s : CycleDetector) : Visits children [] s s :=
  ⟨rfl, by simp, Or.inl ⟨by simp, rfl⟩⟩

/-- A node that was visited before is left at once. -/
theorem Visits.known (hs : Closed children s) (hu : u ∈ s.allNodes) : Visits children [u] s s := by
  refine ⟨rfl, ?_, Or.inl ⟨by simpa using hu, rfl⟩⟩
  intro x
  constructor
  · exact Or.inl
  · rintro (hx | ⟨w, hw, hpath⟩)
    · exact hx
    · rw [List.mem_singleton.mp hw] at hpath
      exact hs.mem_of_path hu hpath

theorem Visits.cons {s'' : CycleDetector} (hs : Closed children s) (h : Visits children [u] s s')
    (h' : Visits children us s' s'') :
    Visits children (u :: us) s s'' := by
  refine ⟨h'.path.trans h.path, ?_, ?_⟩
  · intro x
    rw [h'.all, h.all]
    simp only [List.mem_cons, List.not_mem_nil, or_false]
    constructor
    · rintro ((hx | ⟨w, rfl, hpath⟩) | ⟨w, hw, hpath⟩)
      · exact Or.inl hx
      · exact Or.inr ⟨w, Or.inl rfl, hpath⟩
      · exact Or.inr ⟨w, Or.inr hw, hpath⟩
    · rintro (hx | ⟨w, rfl | hw, hpath⟩)
      · exact Or.inl (Or.inl hx)
      · exact Or.inl (Or.inr ⟨w, rfl, hpath⟩)
      · exact Or.inr ⟨w, hw, hpath⟩
  · rcases h'.parent with ⟨hknown', hparent'⟩ | ⟨m, w, hm, hnew, hw, hpath⟩
    · rcases h.parent with ⟨hknown, hparent⟩ | ⟨m, w, hm, hnew, hw, hpath⟩
      · refine Or.inl ⟨?_, hparent'.trans hparent⟩
        intro w hw
        rcases List.mem_cons.mp hw with rfl | hw
        · exact hknown w (by simp)
        · rcases (h.all w).mp (hknown' w hw) with hold | ⟨x, hx, hpath⟩
          · exact hold
          · exact hs.mem_of_path (hknown x hx) hpath
      · rw [List.mem_singleton] at hw
        exact Or.inr ⟨m, u, hparent'.trans hm, hnew, by simp, hw ▸ hpath⟩
    · refine Or.inr ⟨m, w, hm, ?_, List.mem_cons_of_mem u hw, hpath⟩
      exact fun hold => hnew ((h.all m).mpr (Or.inl hold))

theorem visitAll_visits {visit : NodeId → CycleDetector → Option (Except CycleError CycleDetector)}
    {us : List NodeId} {P : NodeSet}
    (hvisit : ∀ u, u ∈ us → ∀ s, Closed children s → s.nodesInCurrentPath = P →
      ∃ s', visit u s = some (.ok s') ∧ Visits children [u] s s')
    {s : CycleDetector} (hs : Closed children s) (hpath : s.nodesInCurrentPath = P) :
    ∃ s', visitAll visit us s = some (.ok s') ∧ Visits children us s s' := by
  induction us generalizing s with
  | nil => exact ⟨s, rfl, Visits.nil s⟩
  | cons u us ih =>
      rcases hvisit u (by simp) s hs hpath with ⟨s', heq, hvisits⟩
      rcases ih (fun w hw => hvisit w (List.mem_cons_of_mem u hw)) (hvisits.closed hs)
        (hvisits.path.trans hpath) with ⟨s'', heq', hvisits'⟩
      exact ⟨s'', by simp [visitAll, heq, heq'], Visits.cons hs hvisits hvisits'⟩

/-- The visit of a new node, put together from the visit of its children. -/
theorem Visits.leave (hpath : u ∉ s.nodesInCurrentPath) (hnew : u ∉ s.allNodes)
    (h : Visits children (next children u) ⟨s.allNodes, insert u s.nodesInCurrentPath, some u⟩ s') :
    Visits children [u] s
      ⟨insert u s'.allNodes, s'.nodesInCurrentPath.remove u, s'.parent⟩ := by
  refine ⟨?_, ?_, Or.inr ?_⟩
  · ext x
    rw [h.path]
    simp only [SortedSet.mem_remove, SortedSet.mem_insert]
    constructor
    · rintro ⟨hx | hx, hne⟩
      · exact absurd hx hne
      · exact hx
    · exact fun hx => ⟨Or.inr hx, fun heq => hpath (heq ▸ hx)⟩
  · intro x
    simp only [SortedSet.mem_insert, h.all, List.mem_singleton, exists_eq_left]
    constructor
    · rintro (rfl | hx | ⟨c, hc, hreach⟩)
      · exact Or.inr ReflTransGen.refl
      · exact Or.inl hx
      · exact Or.inr (ReflTransGen.head hc hreach)
    · rintro (hx | hreach)
      · exact Or.inr (Or.inl hx)
      · rcases ReflTransGen.cases_head hreach with rfl | ⟨c, hc, hrest⟩
        · exact Or.inl rfl
        · exact Or.inr (Or.inr ⟨c, hc, hrest⟩)
  · rcases h.parent with ⟨-, hparent⟩ | ⟨m, c, hm, hold, hc, hreach⟩
    · exact ⟨u, u, hparent, hnew, by simp, ReflTransGen.refl⟩
    · exact ⟨m, u, hm, hold, by simp, ReflTransGen.head hc hreach⟩

/-- The visit of a node from which neither a cycle nor the current path can be reached is
completed. -/
theorem visitNode_visits (hclosed : ∀ a, a ∈ nodes → ∀ b, b ∈ children a → b ∈ nodes) {fuel : Nat}
    {above : List NodeId} (habove : Above (next children) nodes.elems above u) (hu : u ∈ nodes)
    (hleads : ¬LeadsToCycle (next children) u) (hfuel : nodes.size < above.length + fuel)
    (hs : Closed children s)
    (hpath : ∀ p, p ∈ s.nodesInCurrentPath → ¬ReflTransGen (Edge (next children)) u p) :
    ∃ s', visitNode children bound fuel u s = some (.ok s') ∧ Visits children [u] s s' := by
  induction fuel generalizing u above s with
  | zero =>
      have hle : above.length ≤ nodes.size := habove.length_le
      omega
  | succ fuel ih =>
      have hnotInPath : u ∉ s.nodesInCurrentPath := fun h => hpath u h ReflTransGen.refl
      simp only [visitNode, if_neg hnotInPath]
      split_ifs with hknown
      · exact ⟨s, rfl, Visits.known hs hknown⟩
      · have hcycle : ¬TransGen (Edge (next children)) u u :=
          fun h => hleads ⟨u, ReflTransGen.refl, h⟩
        have hvisit : ∀ c, c ∈ next children u → ∀ t, Closed children t →
            t.nodesInCurrentPath = insert u s.nodesInCurrentPath →
            ∃ t', visitNode children bound fuel c t = some (.ok t') ∧ Visits children [c] t t' := by
          intro c hc t ht htpath
          have hlength : nodes.size < (u :: above).length + fuel := by
            simp only [List.length_cons]
            omega
          refine ih (habove.cons hu hcycle hc) (hclosed u hu c hc) (fun h => hleads (h.of_edge hc))
            hlength ht ?_
          intro p hp hreach
          rw [htpath, SortedSet.mem_insert] at hp
          rcases hp with rfl | hp
          · exact hleads (leadsToCycle_of_return hc hreach)
          · exact hpath p hp (ReflTransGen.head hc hreach)
        rcases visitAll_visits hvisit (s := ⟨s.allNodes, insert u s.nodesInCurrentPath, some u⟩) hs
          rfl with ⟨t, heq, hvisits⟩
        exact ⟨_, by rw [heq]; rfl, hvisits.leave hnotInPath hknown⟩

/-! ## The reported cycle -/

variable {roots : List NodeId}

/-- A search that succeeds from the current node of the way succeeds from all nodes of the way, if
no node that was visited before leads to what is looked for. -/
theorem findPath_of_way {nodes : NodeSet}
    (hclosed : ∀ a, a ∈ nodes → ∀ b, b ∈ children a → b ∈ nodes)
    (hroots : ∀ r, r ∈ roots → r ∈ nodes) {m u : NodeId} {path visited : List NodeId}
    (hway : Way (next children) roots (u :: path) visited)
    (hvisited : ∀ y, y ∈ visited → ¬ReflTransGen (Edge (next children)) y m)
    (hm : m ∉ path) {K : Nat} (hK : nodes.size ≤ K)
    (hfound : ∀ fuel, K < fuel → ∃ l, findPath children (some m) fuel u [] = some (true, l) ∧
      Walk (next children) u m l) :
    ∀ d, d ∈ u :: path → ∀ fuel, K + path.length < fuel →
      ∃ l, findPath children (some m) fuel d [] = some (true, l) ∧ Walk (next children) d m l := by
  generalize hwhole : u :: path = whole at hway
  induction hway generalizing u path K with
  | root =>
      rcases List.cons.inj hwhole with ⟨rfl, rfl⟩
      intro d hd fuel hfuel
      rw [List.mem_singleton.mp hd]
      exact hfound fuel (by simpa using hfuel)
  | @step path' visited' before after w c hprev hsplit hpassed _ hnew ih =>
      rcases List.cons.inj hwhole with ⟨rfl, rfl⟩
      have hwm : w ≠ m := fun h => hm (by simp [h])
      have hedge : u ∈ next children w := by simp [hsplit]
      have hmem := hprev.mem_of_closed (S := (· ∈ nodes)) hroots hclosed
      have hnext : ∀ fuel, K + 1 < fuel →
          ∃ l, findPath children (some m) fuel w [] = some (true, l) ∧
            Walk (next children) w m l := by
        intro fuel hfuel
        rcases fuel with _ | fuel
        · omega
        · have hbefore : ∀ x, x ∈ before →
              Decides children x m (findPath children (some m) fuel x []) := by
            intro x hx
            have hxw : x ∈ children w := by
              rw [SortedSet.mem_def, show (children w).elems = _ from hsplit]
              simp [hx]
            refine findPath_spec hclosed (Above.nil _ _ x) (hclosed w (hmem.1 w (by simp)) x hxw)
              (hpassed x hx) ?_
            simp only [List.length_nil, Nat.zero_add]
            omega
          rcases hfound fuel (by omega) with ⟨l, hl, hwalk⟩
          rcases findPathAmong_spec hbefore with ⟨x, l', hx, -, hwalk'⟩ | ⟨hnone, -⟩
          · exact absurd hwalk'.reaches (hvisited x (List.mem_append_right _ hx))
          · refine ⟨w :: l, ?_, hwalk.cons hedge⟩
            have hchildren : (children w).elems = before ++ u :: after := hsplit
            simp only [findPath, Option.some.injEq, if_neg hwm, hchildren,
              findPathAmong_append_not_found hnone, findPathAmong, hl]
            rfl
      intro d hd fuel hfuel
      simp only [List.length_cons] at hfuel
      rcases List.mem_cons.mp hd with rfl | hd
      · exact hfound fuel (by omega)
      · refine ih (fun y hy => hvisited y (List.mem_append_left _ hy)) ?_ (by omega : nodes.size ≤ K + 1) hnext rfl d hd fuel (by omega)
        exact fun h => hm (List.mem_cons_of_mem w h)

variable (children roots) in
/-- Each child of the last node on the way to the first cycle that comes before the repeated node
can be reached from a root or a child that was passed earlier on the way. -/
def LastChildrenVisited : Prop :=
  ∀ u path visited before d, FirstBackEdge (next children) roots u path visited before d →
    ∀ x, x ∈ before → ∃ y, y ∈ visited ∧ ReflTransGen (Edge (next children)) y x

variable (children) in
/-- The node that was entered last when the search goes on behind some children of a node: the
node itself, or a node that was first reached from these children. -/
def EnteredLast (u : NodeId) (visited before : List NodeId) (m : NodeId) : Prop :=
  (∀ x, x ∈ before → ∃ y, y ∈ visited ∧ ReflTransGen (Edge (next children)) y x) ∧ m = u ∨
    (∀ y, y ∈ visited → ¬ReflTransGen (Edge (next children)) y m) ∧
      ∃ x, x ∈ before ∧ ReflTransGen (Edge (next children)) x m

section Reported

variable {nodes : NodeSet} (hclosed : ∀ a, a ∈ nodes → ∀ b, b ∈ children a → b ∈ nodes)
  (hroots : ∀ r, r ∈ roots → r ∈ nodes) {u d m : NodeId} {path visited before : List NodeId}
  (h : FirstBackEdge (next children) roots u path visited before d)
  (hm : EnteredLast children u visited before m)

include h hm

/-- The node that was entered last has the repeated node as a child exactly if it is the last node
on the way. -/
theorem mem_children_enteredLast_iff :
    d ∈ next children m ↔
      ∀ x, x ∈ before → ∃ y, y ∈ visited ∧ ReflTransGen (Edge (next children)) y x := by
  rcases hm with ⟨hvisited, rfl⟩ | ⟨hnew, x, hx, hreach⟩
  · rcases h.split with ⟨after, hsplit⟩
    have hd : d ∈ next children m := by simp [hsplit]
    exact ⟨fun _ => hvisited, fun _ => hd⟩
  · constructor
    · intro hd
      exact absurd (h.leads.of_path (hreach.tail hd)) (h.passed x hx)
    · intro hvisited
      rcases hvisited x hx with ⟨y, hy, hyx⟩
      exact absurd (hyx.trans hreach) (hnew y hy)

theorem EnteredLast.not_mem_path : m ∉ path := by
  rcases hm with ⟨-, rfl⟩ | ⟨-, x, hx, hreach⟩
  · exact (List.nodup_cons.mp h.way.nodup).1
  · intro hmem
    have hleads := h.way.leads m (List.mem_cons_of_mem u hmem)
    exact h.passed x hx (hleads.of_path hreach)

theorem EnteredLast.not_reached :
    ∀ y, y ∈ visited → ¬ReflTransGen (Edge (next children)) y m := by
  rcases hm with ⟨-, rfl⟩ | ⟨hnew, -⟩
  · intro y hy hreach
    exact h.way.not_leads y hy ((h.way.leads m (by simp)).of_path hreach)
  · exact hnew

include hclosed hroots

/-- From the last node on the way, the node that was entered last is found. -/
theorem findPath_last {fuel : Nat} (hfuel : nodes.size + 1 < fuel) :
    ∃ l, findPath children (some m) fuel u [] = some (true, l) ∧
      Walk (next children) u m l := by
  rcases fuel with _ | fuel
  · omega
  · simp only [findPath]
    split_ifs with hum
    · rw [Option.some.inj hum]
      exact ⟨[m], rfl, Walk.single _ m⟩
    · rcases hm with ⟨-, rfl⟩ | ⟨-, x, hx, hreach⟩
      · exact absurd rfl hum
      · rcases h.split with ⟨after, hsplit⟩
        have hu := (h.way.mem_of_closed (S := (· ∈ nodes)) hroots hclosed).1 u (by simp)
        have hbefore : ∀ x, x ∈ before →
            Decides children x m (findPath children (some m) fuel x []) := by
          intro x hx
          have hxu : x ∈ next children u := by simp [hsplit, hx]
          refine findPath_spec hclosed (Above.nil _ _ x) (hclosed u hu x hxu) (h.passed x hx) ?_
          simp only [List.length_nil, Nat.zero_add]
          omega
        rcases findPathAmong_spec hbefore with ⟨c, l, hc, heq, hwalk⟩ | ⟨-, hnone⟩
        · have hcu : c ∈ next children u := by simp [hsplit, hc]
          have hfound : findPathAmong (findPath children (some m) fuel) (before ++ d :: after) [] =
              some (true, l) := findPathAmong_append_found heq
          refine ⟨u :: l, ?_, hwalk.cons hcu⟩
          rw [show (children u).elems = before ++ d :: after from hsplit, hfound]
          rfl
        · exact absurd hreach (hnone x hx)

/-- The reported nodes, and when they are a closed walk. -/
theorem cycle_spec (hbound : 2 * nodes.size < bound) {s : CycleDetector}
    (hparent : s.parent = some m) :
    ∃ reported, cycle children bound d s = some reported ∧
      (ClosedWalk (next children) reported ↔
        ∀ x, x ∈ before → ∃ y, y ∈ visited ∧ ReflTransGen (Edge (next children)) y x) := by
  have hmem := h.way.mem_of_closed (S := (· ∈ nodes)) hroots hclosed
  have hlength : (u :: path).length ≤ nodes.size :=
    (List.subperm_of_subset h.way.nodup hmem.1).length_le
  rw [List.length_cons] at hlength
  have hsearch := findPath_of_way hclosed hroots h.way (EnteredLast.not_reached h hm)
    (EnteredLast.not_mem_path h hm) (Nat.le_succ nodes.size)
    (fun fuel hfuel => findPath_last hclosed hroots h hm hfuel) d h.back bound (by omega)
  rcases hsearch with ⟨l, hl, hwalk⟩
  refine ⟨l ++ [d], by simp [cycle, hparent, hl], ?_⟩
  rw [hwalk.closedWalk_iff, mem_children_enteredLast_iff h hm]

end Reported

theorem lastChildrenVisited_iff {d : NodeId} {visited before : List NodeId}
    (h : FirstBackEdge (next children) roots u path visited before d) :
    LastChildrenVisited children roots ↔
      ∀ x, x ∈ before → ∃ y, y ∈ visited ∧ ReflTransGen (Edge (next children)) y x := by
  constructor
  · exact fun hall => hall u path visited before d h
  · intro hbefore u' path' visited' before' d' h'
    rcases h.unique h' with ⟨-, rfl, rfl⟩
    exact hbefore

/-! ## Visits that throw -/

section VisitAll

variable {ι : Type} {visit : ι → CycleDetector → Option (Except CycleError CycleDetector)}
  {us ws : List ι} {s s' : CycleDetector}

theorem visitAll_append_ok (h : visitAll visit us s = some (.ok s')) :
    visitAll visit (us ++ ws) s = visitAll visit ws s' := by
  induction us generalizing s with
  | nil =>
      simp only [visitAll, Option.some.injEq, Except.ok.injEq] at h
      rw [List.nil_append, h]
  | cons u us ih =>
      simp only [List.cons_append, visitAll] at h ⊢
      rcases Option.bind_eq_some_iff.mp h with ⟨r, hu, hrest⟩
      rw [hu, Option.bind_some]
      cases r with
      | error e => cases hrest
      | ok s'' => exact ih hrest

theorem visitAll_append_error {e : CycleError} (h : visitAll visit us s = some (.error e)) :
    visitAll visit (us ++ ws) s = some (.error e) := by
  induction us generalizing s with
  | nil => cases h
  | cons u us ih =>
      simp only [List.cons_append, visitAll] at h ⊢
      rcases Option.bind_eq_some_iff.mp h with ⟨r, hu, hrest⟩
      rw [hu, Option.bind_some]
      cases r with
      | error e' => exact hrest
      | ok s'' => exact ih hrest

theorem visitAll_append_none (h : visitAll visit us s = none) :
    visitAll visit (us ++ ws) s = none := by
  induction us generalizing s with
  | nil => cases h
  | cons u us ih =>
      simp only [List.cons_append, visitAll] at h ⊢
      cases hu : visit u s with
      | none => rfl
      | some r =>
          rw [hu, Option.bind_some] at h
          rw [Option.bind_some]
          cases r with
          | error e => cases h
          | ok s'' => exact ih h

end VisitAll

section Errors

variable {nodes : NodeSet} (hclosed : ∀ a, a ∈ nodes → ∀ b, b ∈ children a → b ∈ nodes)
  (hroots : ∀ r, r ∈ roots → r ∈ nodes) (hbound : 2 * nodes.size < bound)

variable (children) in
/-- The detector has visited completely what can be reached from the nodes that were passed on the
way. -/
structure OnWay (path visited : List NodeId) (s : CycleDetector) : Prop where
  path : ∀ x, x ∈ s.nodesInCurrentPath ↔ x ∈ path
  all : ∀ x, x ∈ s.allNodes ↔ ∃ y, y ∈ visited ∧ ReflTransGen (Edge (next children)) y x

variable {s : CycleDetector} {before path visited : List NodeId}

theorem OnWay.closed (h : OnWay children path visited s) : Closed children s := by
  intro a ha b hb
  rw [h.all] at ha ⊢
  rcases ha with ⟨y, hy, hpath⟩
  exact ⟨y, hy, hpath.tail hb⟩

theorem OnWay.passed {s' : CycleDetector} (h : OnWay children path visited s)
    (hvisits : Visits children before s s') :
    OnWay children path (visited ++ before) s' := by
  constructor
  · intro x
    rw [hvisits.path]
    exact h.path x
  · intro x
    rw [hvisits.all, h.all]
    simp only [List.mem_append, or_and_right, exists_or]

theorem OnWay.enteredLast {u : NodeId} {s' : CycleDetector} (h : OnWay children path visited s)
    (hvisits : Visits children before s s') (hparent : s.parent = some u) :
    ∃ m, s'.parent = some m ∧ EnteredLast children u visited before m := by
  rcases hvisits.parent with ⟨hknown, hsame⟩ | ⟨m, x, hm, hnew, hx, hreach⟩
  · exact ⟨u, hsame.trans hparent, Or.inl ⟨fun x hx => (h.all x).mp (hknown x hx), rfl⟩⟩
  · refine ⟨m, hm, Or.inr ⟨?_, x, hx, hreach⟩⟩
    exact fun y hy hym => hnew ((h.all m).mpr ⟨y, hy, hym⟩)

include hclosed

variable (bound) in
/-- The nodes that are passed on the way are visited completely. -/
theorem visitAll_passed {fuel : Nat} (hfuel : nodes.size < fuel)
    (hs : OnWay children path visited s)
    (hbefore : ∀ x, x ∈ before → x ∈ nodes ∧ ¬LeadsToCycle (next children) x)
    (hleads : ∀ p, p ∈ path → LeadsToCycle (next children) p) :
    ∃ s', visitAll (visitNode children bound fuel) before s = some (.ok s') ∧
      Visits children before s s' := by
  refine visitAll_visits ?_ hs.closed rfl
  intro x hx t ht htpath
  refine visitNode_visits hclosed (Above.nil _ _ x) (hbefore x hx).1 (hbefore x hx).2 (by simpa) ht ?_
  intro p hp hreach
  rw [htpath, hs.path] at hp
  exact (hbefore x hx).2 ((hleads p hp).of_path hreach)

include hroots hbound

/-- The visit of a node on the way to the first cycle throws. -/
theorem visitNode_error {fuel : Nat} {u : NodeId}
    (hway : Way (next children) roots (u :: path) visited) (hs : OnWay children path visited s)
    (hfuel : 2 * nodes.size < path.length + fuel) :
    ∃ e, visitNode children bound fuel u s = some (.error e) ∧
      (ClosedWalk (next children) e.nodes ↔ LastChildrenVisited children roots) := by
  induction fuel generalizing u path visited s with
  | zero =>
      have hmem := hway.mem_of_closed (S := (· ∈ nodes)) hroots hclosed
      have hlength := (List.subperm_of_subset hway.nodup hmem.1).length_le
      have hsize : nodes.elems.length = nodes.size := rfl
      rw [List.length_cons] at hlength
      omega
  | succ fuel ih =>
      have hmem := hway.mem_of_closed (S := (· ∈ nodes)) hroots hclosed
      have hlength : (u :: path).length ≤ nodes.size :=
        (List.subperm_of_subset hway.nodup hmem.1).length_le
      rw [List.length_cons] at hlength
      have hu : u ∈ nodes := hmem.1 u (by simp)
      have hnotInPath : u ∉ s.nodesInCurrentPath :=
        fun h => (List.nodup_cons.mp hway.nodup).1 ((hs.path u).mp h)
      have hnew : u ∉ s.allNodes := by
        intro h
        rcases (hs.all u).mp h with ⟨y, hy, hreach⟩
        exact hway.not_leads y hy ((hway.leads u (by simp)).of_path hreach)
      rcases exists_first ((hway.leads u (by simp)).exists_next) with
        ⟨before, c, after, hsplit, hc, hpassed⟩
      have hbefore : ∀ x, x ∈ before → x ∈ nodes ∧ ¬LeadsToCycle (next children) x := by
        intro x hx
        have hxu : x ∈ next children u := by simp [hsplit, hx]
        exact ⟨hclosed u hu x hxu, hpassed x hx⟩
      have hentered : OnWay children (u :: path) visited
          ⟨s.allNodes, insert u s.nodesInCurrentPath, some u⟩ := by
        refine ⟨?_, hs.all⟩
        intro x
        simp only [SortedSet.mem_insert, List.mem_cons, hs.path]
      rcases visitAll_passed bound hclosed (by omega : nodes.size < fuel) hentered hbefore
        hway.leads with ⟨t, hvisit, hvisits⟩
      have hchildren : (children u).elems = before ++ c :: after := hsplit
      have hthrows : ∃ e, visitNode children bound fuel c t = some (.error e) ∧
          (ClosedWalk (next children) e.nodes ↔ LastChildrenVisited children roots) := by
        by_cases hback : c ∈ u :: path
        · have hfirst : FirstBackEdge (next children) roots u path visited before c :=
            ⟨hway, ⟨after, hsplit⟩, hpassed, hback⟩
          rcases hentered.enteredLast hvisits rfl with ⟨m, hparent, hm⟩
          rcases cycle_spec hclosed hroots hfirst hm hbound hparent with
            ⟨reported, hreported, hclosedWalk⟩
          have hmemPath : c ∈ t.nodesInCurrentPath := by
            rw [hvisits.path]
            exact (hentered.path c).mpr hback
          rcases fuel with _ | fuel
          · omega
          · refine ⟨⟨reported⟩, ?_, hclosedWalk.trans (lastChildrenVisited_iff hfirst).symm⟩
            simp only [visitNode, if_pos hmemPath, hreported, Option.map_some]
        · have hstep := Way.step hway hsplit hpassed hc hback
          refine ih hstep (hentered.passed hvisits) ?_
          rw [List.length_cons]
          omega
      rcases hthrows with ⟨e, he, hright⟩
      refine ⟨e, ?_, hright⟩
      simp only [visitNode, if_neg hnotInPath, if_neg hnew, hchildren]
      rw [visitAll_append_ok hvisit]
      simp only [visitAll, he, Option.bind_some, Option.map_some]
      rfl

/-- The visits of the roots are complete, or one of them throws. -/
theorem visitAll_roots :
    (∃ s, visitAll (visitNode children bound bound) roots create = some (.ok s)) ∧
        (∀ r, r ∈ roots → ¬LeadsToCycle (next children) r) ∨
      ∃ e, visitAll (visitNode children bound bound) roots create = some (.error e) ∧
        (∃ r, r ∈ roots ∧ LeadsToCycle (next children) r) ∧
        (ClosedWalk (next children) e.nodes ↔ LastChildrenVisited children roots) := by
  have hstart : OnWay children [] [] create := ⟨by simp [create], by simp [create]⟩
  by_cases hleads : ∃ r, r ∈ roots ∧ LeadsToCycle (next children) r
  · rcases exists_first hleads with ⟨before, r, after, hsplit, hr, hpassed⟩
    have hbefore : ∀ x, x ∈ before → x ∈ nodes ∧ ¬LeadsToCycle (next children) x :=
      fun x hx => ⟨hroots x (by simp [hsplit, hx]), hpassed x hx⟩
    rcases visitAll_passed bound hclosed (by omega : nodes.size < bound) hstart hbefore
      (by simp) with ⟨s, hvisit, hvisits⟩
    have hway := Way.root hsplit hpassed hr
    rcases visitNode_error hclosed hroots hbound hway (hstart.passed hvisits) (by simpa) with
      ⟨e, he, hright⟩
    refine Or.inr ⟨e, ?_, hleads, hright⟩
    rw [hsplit, visitAll_append_ok hvisit]
    simp only [visitAll, he, Option.bind_some]
  · have hnone : ∀ r, r ∈ roots → ¬LeadsToCycle (next children) r :=
      fun r hr h => hleads ⟨r, hr, h⟩
    rcases visitAll_passed bound hclosed (by omega : nodes.size < bound) hstart
      (fun x hx => ⟨hroots x hx, hnone x hx⟩) (by simp) with ⟨s, hvisit, -⟩
    exact Or.inl ⟨⟨s, hvisit⟩, hnone⟩

end Errors

/-! ## The build graph of a project -/

/-- The root nodes of some products, in visiting order. -/
def rootNodes (g : BuildGraph) (products : List ProductId) : List NodeId :=
  products.flatMap fun p => ((g.productData p).map fun d => d.roots.elems).getD []

/-- The finitely many nodes of a build graph. -/
structure NodesOf (g : BuildGraph) (nodes : NodeSet) : Prop where
  closed : ∀ a, a ∈ nodes → ∀ b, b ∈ g.children a → b ∈ nodes
  roots : ∀ p d, g.productData p = some d → ∀ r, r ∈ d.roots → r ∈ nodes

/-- What cycle detection should do: it ends, it throws exactly if a cycle can be reached from the
root nodes, and it reports a closed walk. -/
structure Right (g : BuildGraph) (products : List ProductId)
    (outcome : Option (Except CycleError CycleDetector)) : Prop where
  ends : ∃ r, outcome = some r
  throws_iff : (∃ e, outcome = some (.error e)) ↔
    ∃ r, r ∈ rootNodes g products ∧ LeadsToCycle (next g.children) r
  closedWalk : ∀ e, outcome = some (.error e) → ClosedWalk (next g.children) e.nodes

variable {g : BuildGraph} {products : List ProductId}

theorem visitAll_visitProduct (s : CycleDetector) :
    visitAll (visitProduct bound g) products s =
      visitAll (visitNode g.children bound bound) (rootNodes g products) s := by
  induction products generalizing s with
  | nil => rfl
  | cons p products ih =>
      have hroots : rootNodes g (p :: products) =
          ((g.productData p).map fun d => d.roots.elems).getD [] ++ rootNodes g products := rfl
      have hproduct : visitProduct bound g p s =
          visitAll (visitNode g.children bound bound)
            (((g.productData p).map fun d => d.roots.elems).getD []) s := by
        unfold visitProduct
        cases g.productData p <;> rfl
      rw [hroots, visitAll, hproduct]
      cases hfirst : visitAll (visitNode g.children bound bound)
          (((g.productData p).map fun d => d.roots.elems).getD []) s with
      | none => rw [visitAll_append_none hfirst, Option.bind_none]
      | some r =>
          cases r with
          | error e => rw [visitAll_append_error hfirst, Option.bind_some]
          | ok s' =>
              rw [visitAll_append_ok hfirst, Option.bind_some]
              exact ih s'

theorem visitProject_eq_visitAll :
    visitProject bound g products =
      visitAll (visitNode g.children bound bound) (rootNodes g products) create :=
  visitAll_visitProduct create

theorem NodesOf.rootNodes_mem (h : NodesOf g nodes) :
    ∀ r, r ∈ rootNodes g products → r ∈ nodes := by
  intro r hr
  rcases List.mem_flatMap.mp hr with ⟨p, -, hmem⟩
  cases hd : g.productData p with
  | none => simp [hd] at hmem
  | some d => exact h.roots p d hd r (by simpa [hd, SortedSet.mem_def] using hmem)

/-- With enough fuel, cycle detection ends, and it throws exactly if a cycle can be reached from the
root nodes. -/
theorem visitProject_throws_iff (hg : NodesOf g nodes) (hbound : 2 * nodes.size < bound) :
    (∃ r, visitProject bound g products = some r) ∧
      ((∃ e, visitProject bound g products = some (.error e)) ↔
        ∃ r, r ∈ rootNodes g products ∧ LeadsToCycle (next g.children) r) := by
  have hrootNodes : ∀ r, r ∈ rootNodes g products → r ∈ nodes := hg.rootNodes_mem
  rw [visitProject_eq_visitAll]
  rcases visitAll_roots hg.closed hrootNodes hbound with
    ⟨⟨s, heq⟩, hnone⟩ | ⟨e, heq, hleads, -⟩
  · refine ⟨⟨_, heq⟩, ?_⟩
    constructor
    · rintro ⟨e, he⟩
      rw [heq] at he
      cases he
    · rintro ⟨r, hr, hleads⟩
      exact absurd hleads (hnone r hr)
  · exact ⟨⟨_, heq⟩, fun _ => hleads, fun _ => ⟨e, heq⟩⟩

/-- Cycle detection is right exactly if the children of the last node on the way to the first
cycle that come before the repeated node had been visited before this node was entered; in
particular if there is no cycle. -/
theorem visitProject_right_iff (g : BuildGraph) (nodes : NodeSet) (hg : NodesOf g nodes)
    (products : List ProductId) (bound : Nat) (hbound : 2 * nodes.size < bound) :
    Right g products (visitProject bound g products) ↔
      LastChildrenVisited g.children (rootNodes g products) := by
  have hrootNodes : ∀ r, r ∈ rootNodes g products → r ∈ nodes := hg.rootNodes_mem
  have hthrows : (∃ r, visitProject bound g products = some r) ∧
      ((∃ e, visitProject bound g products = some (.error e)) ↔
        ∃ r, r ∈ rootNodes g products ∧ LeadsToCycle (next g.children) r) :=
    visitProject_throws_iff hg hbound
  rw [visitProject_eq_visitAll] at hthrows ⊢
  rcases visitAll_roots hg.closed hrootNodes hbound with
    ⟨⟨s, heq⟩, hnone⟩ | ⟨e, heq, -, hclosedWalk⟩
  · constructor
    · intro _ u path visited before d hfirst
      rcases hfirst.way.exists_root with ⟨r, hr, hleads⟩
      exact absurd hleads (hnone r hr)
    · intro _
      refine ⟨hthrows.1, hthrows.2, ?_⟩
      intro e he
      rw [heq] at he
      cases he
  · rw [← hclosedWalk]
    constructor
    · exact fun hright => hright.closedWalk e heq
    · intro hwalk
      refine ⟨hthrows.1, hthrows.2, ?_⟩
      intro e' he'
      rw [heq] at he'
      cases he'
      exact hwalk

/-- Two generated artifacts that depend on each other; one of them has a source file as its first
child. -/
def sampleGraph : BuildGraph :=
  { BuildGraph.empty with
    productOf := fun _ => "app"
    children := fun n => if n = 3 then {1} else if n = 1 then {2} else if n = 2 then {0, 1} else ∅
    parents := fun n => if n = 0 then {2} else if n = 1 then {2, 3} else if n = 2 then {1} else ∅
    productData := fun p => if p = "app" then some ⟨{0, 1, 2, 3}, {3}, ∅, ∅⟩ else none
    nextNode := 4 }

theorem sampleGraph_nodes : NodesOf sampleGraph {0, 1, 2, 3} := by
  constructor
  · show ∀ a ∈ ({0, 1, 2, 3} : NodeSet).elems, ∀ b ∈ (sampleGraph.children a).elems,
      b ∈ ({0, 1, 2, 3} : NodeSet).elems
    decide
  · intro p d hd r hr
    simp only [sampleGraph, Option.ite_none_right_eq_some, Option.some.injEq] at hd
    rcases hd with ⟨-, rfl⟩
    rw [SortedSet.mem_singleton.mp hr]
    decide

theorem visitProject_right_sampleGraph :
    Right sampleGraph ["app"] (visitProject 9 sampleGraph ["app"]) ↔
      LastChildrenVisited sampleGraph.children (rootNodes sampleGraph ["app"]) :=
  visitProject_right_iff sampleGraph {0, 1, 2, 3} sampleGraph_nodes ["app"] 9 (by decide)

/-- The source file is reported as part of the cycle. -/
theorem visitProject_sampleGraph :
    visitProject 9 sampleGraph ["app"] = some (.error ⟨[1, 2, 0, 1]⟩) ∧
      ¬Right sampleGraph ["app"] (visitProject 9 sampleGraph ["app"]) := by
  have heq : visitProject 9 sampleGraph ["app"] = some (.error ⟨[1, 2, 0, 1]⟩) := by rfl
  refine ⟨heq, fun h => ?_⟩
  have hchain := (h.closedWalk ⟨[1, 2, 0, 1]⟩ heq).chain
  have hedge : 1 ∈ next sampleGraph.children 0 := by
    simp only [List.isChain_cons_cons] at hchain
    exact hchain.2.2.1
  exact absurd hedge (by decide)

end CycleDetector

end Qbs
