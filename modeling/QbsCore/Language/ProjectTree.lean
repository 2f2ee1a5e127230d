import QbsCore.Language.Project

/-!
# The tree of projects

Projects contain products and other projects.  The names of projects differ only from
those of their siblings, while products have a name and a multiplex configuration that
no other product of the whole tree has together.

Main results:

- Definitions {lit}`ProjectTree.allProducts` and {lit}`ProjectTree.allSubProjects`: what
  a project contains, in the order in which it is gone through.
- Theorem {lit}`ProjectTree.mem_projects_of_mem_allProducts`: the project of a product is
  one of the tree.

Current gaps:

- How siblings with one name get different ones is left out.
-/

namespace Qbs

/-- The address of a project. -/
abbrev ProjectAddr := Nat

/-- The unique name of a product. -/
def uniqueNameOf (name multiplexConfigurationId : String) : ProductId :=
  if multiplexConfigurationId = "" then name else name ++ "." ++ multiplexConfigurationId

/-- Products with one name have different unique names if their multiplex configurations differ. -/
theorem uniqueNameOf_inj {name id id' : String} :
    uniqueNameOf name id = uniqueNameOf name id' ↔ id = id' := by
  have hlonger : ∀ i : String, name ++ "." ++ i ≠ name := by
    intro i h
    have hlength := congrArg String.length h
    rw [String.length_append, String.length_append, show ("." : String).length = 1 from rfl]
      at hlength
    omega
  unfold uniqueNameOf
  split_ifs with hid hid' hid'
  · simp [hid, hid']
  · exact iff_of_false (fun h => hlonger id' h.symm) fun h => hid' (h ▸ hid)
  · exact iff_of_false (hlonger id) fun h => hid (h ▸ hid')
  · constructor
    · intro h
      have hlist := congrArg String.toList h
      simp only [String.toList_append] at hlist
      exact String.toList_inj.mp (List.append_cancel_left hlist)
    · intro h
      rw [h]

/-- The name and the multiplex configuration of a product. -/
structure ProductKey where
  name : String
  multiplexConfigurationId : String
deriving DecidableEq

def ProductKey.uniqueName (p : ProductKey) : ProductId :=
  uniqueNameOf p.name p.multiplexConfigurationId

/-- A project without what it contains. -/
structure ProjectNode where
  addr : ProjectAddr
  name : String
  projectProperties : VariantMap

/-- A project with its products and its sub-projects. -/
inductive ProjectTree (Product : Type) where
  | mk (node : ProjectNode) (products : List Product) (subProjects : List (ProjectTree Product))

namespace ProjectTree

variable {Product : Type}

/-- The project at the root. -/
def node : ProjectTree Product → ProjectNode
  | mk node _ _ => node

mutual

/-- The products of a project and of all projects in it, each with its own project. -/
def allProducts : ProjectTree Product → List (ProjectNode × Product)
  | mk node products subProjects =>
      products.map (fun p => (node, p)) ++ allProductsAmong subProjects

/-- The products of some projects and of all projects in them. -/
def allProductsAmong : List (ProjectTree Product) → List (ProjectNode × Product)
  | [] => []
  | t :: ts => allProducts t ++ allProductsAmong ts

end

mutual

/-- The projects in a project: its sub-projects come before what these contain. -/
def allSubProjects : ProjectTree Product → List ProjectNode
  | mk _ _ subProjects => subProjects.map node ++ allSubProjectsAmong subProjects

/-- The projects in some projects. -/
def allSubProjectsAmong : List (ProjectTree Product) → List ProjectNode
  | [] => []
  | t :: ts => allSubProjects t ++ allSubProjectsAmong ts

end

mutual

/-- The sub-projects of each project have different names. -/
def SiblingNamesDiffer : ProjectTree Product → Prop
  | mk _ _ subProjects =>
      (subProjects.map fun t => t.node.name).Nodup ∧ SiblingNamesDifferAmong subProjects

/-- The same for all projects in some projects. -/
def SiblingNamesDifferAmong : List (ProjectTree Product) → Prop
  | [] => True
  | t :: ts => SiblingNamesDiffer t ∧ SiblingNamesDifferAmong ts

end

/-- All projects of a tree. -/
def projects (t : ProjectTree Product) : List ProjectNode :=
  t.node :: t.allSubProjects

mutual

/-- The project of a product is one of the tree. -/
theorem mem_projects_of_mem_allProducts {t : ProjectTree Product} {e : ProjectNode × Product}
    (h : e ∈ t.allProducts) : e.1 ∈ t.projects := by
  cases t with
  | mk n products subProjects =>
      unfold allProducts at h
      unfold projects allSubProjects
      rcases List.mem_append.mp h with h | h
      · rcases List.mem_map.mp h with ⟨p, -, rfl⟩
        exact List.mem_cons_self
      · exact List.mem_cons_of_mem _ (mem_projectsAmong_of_mem_allProductsAmong h)

theorem mem_projectsAmong_of_mem_allProductsAmong {ts : List (ProjectTree Product)}
    {e : ProjectNode × Product} (h : e ∈ allProductsAmong ts) :
    e.1 ∈ ts.map node ++ allSubProjectsAmong ts := by
  cases ts with
  | nil => cases h
  | cons t ts =>
      unfold allProductsAmong at h
      unfold allSubProjectsAmong
      simp only [List.map_cons, List.mem_append, List.mem_cons]
      rcases List.mem_append.mp h with h | h
      · rcases List.mem_cons.mp (mem_projects_of_mem_allProducts h) with hroot | hsub
        · exact Or.inl (Or.inl hroot)
        · exact Or.inr (Or.inl hsub)
      · rcases List.mem_append.mp (mem_projectsAmong_of_mem_allProductsAmong h) with hsub | hsub
        · exact Or.inl (Or.inr hsub)
        · exact Or.inr (Or.inr hsub)

end

end ProjectTree

end Qbs
