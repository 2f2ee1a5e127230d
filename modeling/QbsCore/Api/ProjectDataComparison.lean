import QbsCore.Api.ProjectDataJson
import QbsCore.Api.SortedProjectData

/-!
# Comparing project data

Data that have been retrieved from projects are compared with each other, and the comparison is
supposed to tell apart what has different JSON objects.  The data should not depend on the order
in which a project happens to list its products, groups and artifacts.

Main results:

- Theorem {lit}`ProjectData.independent_iff`: when the order of lists does not matter.
- Theorem {lit}`comparesRight_iff`: when comparisons are right.

Current gaps:

- None.
-/

namespace Qbs

namespace Api

open Arrangement

/-- What may be retrieved from a project. -/
def Retrieves (project : TopLevelProject) (multiplexIdToString : String → String)
    (p : ResolvedProject) (d : ProjectData) : Prop :=
  ProjectData.Arranged Orders.operators (retrieveProjectData project multiplexIdToString p) d

/-! ## Parts of a project -/

/-- A project is part of another one: it is that project or part of a subproject. -/
inductive ProjectData.IsPart : ProjectData → ProjectData → Prop
  | self (p : ProjectData) : IsPart p p
  | sub (r q p : ProjectData) (hq : q ∈ p.subProjects) (hr : IsPart r q) : IsPart r p

/-- The products of each project have different names or multiplex configurations, and the groups
of each product have different names. -/
def HasDistinctNames (p : ProjectData) : Prop :=
  ∀ r : ProjectData, r.IsPart p →
    (r.products.Pairwise fun a b =>
      ¬(a.name = b.name ∧ a.multiplexConfigurationId = b.multiplexConfigurationId)) ∧
    ∀ q : ProductData, q ∈ r.products → q.groups.Pairwise fun g h => g.name ≠ h.name

/-! ## Orders -/

/-- An order is a strict weak one among some elements: what cannot be compared is alike. -/
def StrictWeakOn {α : Type} (lt : α → α → Prop) (l : List α) : Prop :=
  ∀ a, a ∈ l → ∀ b, b ∈ l → ∀ c, c ∈ l →
    ¬lt a b ∧ ¬lt b a → ¬lt b c ∧ ¬lt c b → ¬lt a c ∧ ¬lt c a

/-- Of products with one name, if a first one is less than a second one both in its profile and in
its multiplex configuration, then a third one is more than the first or less than the second. -/
def ProductsInLine (l : List ProductData) : Prop :=
  ∀ a, a ∈ l → ∀ b, b ∈ l → ∀ c, c ∈ l → a.name = b.name → a.name = c.name →
    a.profile < b.profile ∧ a.multiplexConfigurationId < b.multiplexConfigurationId →
      a.profile < c.profile ∧ a.multiplexConfigurationId < c.multiplexConfigurationId ∨
        c.profile < b.profile ∧ c.multiplexConfigurationId < b.multiplexConfigurationId

theorem isStrictWeakOrder_of_key {α : Type} (key : α → String) :
    IsStrictWeakOrder α fun a b => key a < key b where
  toIsStrictOrder := isStrictOrder_of_key key
  incomp_trans := by
    intro a b c hab hbc
    simp only [not_lt] at hab hbc ⊢
    exact ⟨hbc.1.trans hab.1, hab.2.trans hbc.2⟩

/-- The products are ordered by a strict weak order if and only if those with one name are in
line. -/
theorem strictWeakOn_iff (l : List ProductData) :
    StrictWeakOn (fun a b : ProductData => a < b) l ↔ ProductsInLine l := by
  constructor
  · intro h a ha b hb c hc hab hac hless
    by_contra hnot
    rw [not_or] at hnot
    have hlt : a < b := (ProductData.lt_iff a b).mpr (Or.inr ⟨hab, hless⟩)
    have hca : ¬c < a := by
      intro hca
      have hcb := (ProductData.lt_iff c b).mp (trans_of (· < ·) hca hlt)
      simp only [← hac, hab, lt_irrefl, false_or, true_and] at hcb
      exact hnot.2 hcb
    have hbc : ¬b < c := by
      intro hbc
      have hac' := (ProductData.lt_iff a c).mp (trans_of (· < ·) hlt hbc)
      simp only [← hac, lt_irrefl, false_or, true_and] at hac'
      exact hnot.1 hac'
    have hac' : ¬a < c := by
      rw [ProductData.lt_iff]
      simp only [← hac, lt_irrefl, false_or, true_and]
      exact hnot.1
    have hcb : ¬c < b := by
      rw [ProductData.lt_iff]
      simp only [← hac, ← hab, lt_irrefl, false_or, true_and]
      exact hnot.2
    exact (h a ha c hc b hb ⟨hac', hca⟩ ⟨hcb, hbc⟩).1 hlt
  · intro h
    -- what is less than an element is less than one that cannot be compared with that, or the other
    -- way round
    have hstep : ∀ a, a ∈ l → ∀ b, b ∈ l → ∀ c, c ∈ l → a < c → a < b ∨ b < c := by
      intro a ha b hb c hc hac
      rw [ProductData.lt_iff] at hac
      rcases hac with hac | ⟨hac, hless⟩
      · rcases lt_trichotomy a.name b.name with hab | hab | hab
        · exact Or.inl ((ProductData.lt_iff a b).mpr (Or.inl hab))
        · exact Or.inr ((ProductData.lt_iff b c).mpr (Or.inl (hab ▸ hac)))
        · exact Or.inr ((ProductData.lt_iff b c).mpr (Or.inl (lt_trans hab hac)))
      · rcases lt_trichotomy a.name b.name with hab | hab | hab
        · exact Or.inl ((ProductData.lt_iff a b).mpr (Or.inl hab))
        · rcases h a ha c hc b hb hac hab hless with hmore | hmore
          · exact Or.inl ((ProductData.lt_iff a b).mpr (Or.inr ⟨hab, hmore⟩))
          · exact Or.inr ((ProductData.lt_iff b c).mpr (Or.inr ⟨hab.symm.trans hac, hmore⟩))
        · exact Or.inr ((ProductData.lt_iff b c).mpr (Or.inl (hac ▸ hab)))
    intro a ha b hb c hc hab hbc
    constructor
    · intro hac
      have hcases := hstep a ha b hb c hc hac
      tauto
    · intro hca
      have hcases := hstep c hc b hb a ha hca
      tauto

/-! ## Independence of the order of lists -/

namespace ProjectData

/-- The same is retrieved in all cases, if and only if the lists to be sorted determine their
order, and the data are the same up to the order of these lists. -/
theorem independent_iff (p p' : ProjectData) :
    (∀ d d', Arranged Orders.operators p d → Arranged Orders.operators p' d' → d = d') ↔
      Determined p ∧ Arranged Orders.unsorted p p' := by
  rcases exists_arranged p with ⟨e, he⟩
  rcases exists_arranged p' with ⟨e', he'⟩
  constructor
  · intro h
    refine ⟨(unique_iff p).mp ?_, (arranged_unsorted_iff p p').mpr ⟨e, he, ?_⟩⟩
    · intro d d' hd hd'
      rw [h d e' hd he', h d' e' hd' he']
    · rw [h e e' he he']
      exact he'
  · intro h d d' hd hd'
    rcases (arranged_unsorted_iff p p').mp h.2 with ⟨c, hc, hc'⟩
    have hback := (arranged_unsorted_iff p' p).mpr ⟨c, hc', hc⟩
    exact (unique_iff p).mpr h.1 d d' hd (hback.trans_of Orders.keeps_unsorted hd')

end ProjectData

/-! ## Right comparisons -/

variable (ext : Externals) (project project' : TopLevelProject) (p p' : ResolvedProject)

/-- Equal data have the same JSON objects, the lists are sorted by strict weak orders, and the
order of lists in a project does not matter. -/
structure ComparesRight : Prop where
  toJson : ∀ d d', Retrieves project ext.multiplexIdToString p d →
    Retrieves project' ext.multiplexIdToString p' d' → d.equals ext d' = true →
      ∀ names, d.toJson ext names = d'.toJson ext names
  artifacts : IsStrictWeakOrder ArtifactData (· < ·)
  groups : IsStrictWeakOrder GroupData (· < ·)
  projects : IsStrictWeakOrder ProjectData (· < ·)
  products : ∀ r : ProjectData, r.IsPart (retrieveProjectData project ext.multiplexIdToString p) →
    StrictWeakOn (fun a b : ProductData => a < b) r.products
  independent : HasDistinctNames (retrieveProjectData project ext.multiplexIdToString p) →
    ProjectData.Arranged Orders.any (retrieveProjectData project ext.multiplexIdToString p)
      (retrieveProjectData project' ext.multiplexIdToString p') →
    ∀ d d', Retrieves project ext.multiplexIdToString p d →
      Retrieves project' ext.multiplexIdToString p' d' → d = d'

/-- What has to be true of the projects: if equal data are retrieved from them, then what the
comparison leaves out or takes loosely is the same; products with one name are in line; and if they
differ in the order of lists, then the lists to be sorted determine their order, and the
dependencies are in the same order. -/
structure ComparesRightWhen : Prop where
  omitted : ∀ d d', Retrieves project ext.multiplexIdToString p d →
    Retrieves project' ext.multiplexIdToString p' d' → d.equals ext d' = true →
      ∀ names, ProjectData.SameOmitted ext names d d'
  inLine : ∀ r : ProjectData, r.IsPart (retrieveProjectData project ext.multiplexIdToString p) →
    ProductsInLine r.products
  determined : HasDistinctNames (retrieveProjectData project ext.multiplexIdToString p) →
    ProjectData.Arranged Orders.any (retrieveProjectData project ext.multiplexIdToString p)
      (retrieveProjectData project' ext.multiplexIdToString p') →
    ProjectData.Determined (retrieveProjectData project ext.multiplexIdToString p) ∧
      ProjectData.Arranged Orders.unsorted (retrieveProjectData project ext.multiplexIdToString p)
        (retrieveProjectData project' ext.multiplexIdToString p')

theorem comparesRight_iff :
    ComparesRight ext project project' p p' ↔ ComparesRightWhen ext project project' p p' := by
  constructor
  · intro h
    refine ⟨?_, ?_, ?_⟩
    · intro d d' hd hd' heq names
      exact (ProjectData.toJson_eq_iff heq names).mp (h.toJson d d' hd hd' heq names)
    · intro r hr
      exact (strictWeakOn_iff r.products).mp (h.products r hr)
    · intro hdistinct harranged
      exact (ProjectData.independent_iff _ _).mp (h.independent hdistinct harranged)
  · intro h
    refine ⟨?_, isStrictWeakOrder_of_key ArtifactData.filePath,
      isStrictWeakOrder_of_key GroupData.name, isStrictWeakOrder_of_key ProjectData.name, ?_, ?_⟩
    · intro d d' hd hd' heq names
      exact (ProjectData.toJson_eq_iff heq names).mpr (h.omitted d d' hd hd' heq names)
    · intro r hr
      exact (strictWeakOn_iff r.products).mpr (h.inLine r hr)
    · intro hdistinct harranged
      exact (ProjectData.independent_iff _ _).mpr (h.determined hdistinct harranged)

/-! ## Groups that differ in their prefix -/

/-- A project with one product, which has a group of no files with a prefix. -/
def projectWithPrefix (groupPrefix : String) : ResolvedProject where
  name := "p"
  location := .none
  enabled := true
  products :=
    [{ fileTags := []
       name := "a"
       targetName := "a"
       productProperties := []
       multiplexConfigurationId := ""
       location := .none
       sourceDirectory := []
       enabled := true
       moduleProperties := []
       groups := [⟨"g", groupPrefix, .none, [], none, [], true, ""⟩]
       artifacts := []
       rescuableArtifactData := []
       dependencies := [] }]
  subProjects := []

def topLevelProject : TopLevelProject :=
  ⟨[], []⟩

theorem arranges_singleton {α : Type} {R lt : α → α → Prop} {a : α} (h : R a a) :
    Arranges R lt [a] [a] :=
  ⟨[a], List.Forall₂.cons h List.Forall₂.nil, List.Perm.refl [a], List.pairwise_singleton _ a⟩

theorem arranges_nil {α : Type} (R lt : α → α → Prop) : Arranges R lt [] [] :=
  ⟨[], List.Forall₂.nil, List.Perm.refl [], List.Pairwise.nil⟩

theorem retrieves_projectWithPrefix (multiplexIdToString : String → String)
    (groupPrefix : String) :
    Retrieves topLevelProject multiplexIdToString (projectWithPrefix groupPrefix)
      (retrieveProjectData topLevelProject multiplexIdToString (projectWithPrefix groupPrefix)) := by
  refine ProjectData.arranged_of ?_ (arranges_nil _ _) rfl
  refine arranges_singleton ⟨arranges_nil _ _, rfl, ?_, arranges_nil _ _, rfl⟩
  exact arranges_singleton ⟨arranges_nil _ _, arranges_nil _ _, rfl⟩

/-- The data of projects are equal if a group has another prefix, but their JSON objects differ. -/
theorem not_comparesRight_groupPrefix :
    ¬ComparesRight ⟨id, fun v w => v = w⟩ topLevelProject topLevelProject
      (projectWithPrefix "a/") (projectWithPrefix "b/") := by
  intro h
  have heq : (retrieveProjectData topLevelProject id (projectWithPrefix "a/")).equals
      ⟨id, fun v w => v = w⟩ (retrieveProjectData topLevelProject id (projectWithPrefix "b/")) =
        true := by
    decide
  have hjson := h.toJson _ _ (retrieves_projectWithPrefix id "a/")
    (retrieves_projectWithPrefix id "b/") heq []
  have homitted := (ProjectData.toJson_eq_iff heq []).mp hjson
  rw [ProjectData.sameOmitted_iff] at homitted
  have hproducts := (homitted rfl).1
  have hgroups := ((List.forall₂_cons.mp hproducts).1 rfl).2.2.2.2.1
  have hprefix := ((List.forall₂_cons.mp hgroups).1 rfl).1
  exact absurd hprefix (by decide)

end Api

end Qbs
