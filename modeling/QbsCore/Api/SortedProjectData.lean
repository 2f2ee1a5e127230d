import QbsCore.Api.RetrieveProjectData
import QbsCore.Library.Arrangements

/-!
# Sorted project data

The lists in the data of a project are sorted.  The sorting function of the standard library
leaves open where elements end up of which none is less than the other.

Main results:

- Definition {lit}`ProjectData.Arranged`: what may become of data whose lists are sorted.
- Theorem {lit}`ProjectData.unique_iff`: when there is just one result.

Current gaps:

- None.
-/

namespace Qbs

namespace Api

open Arrangement

/-! ## Sorting -/

/-- The orders that lists have to be in, and which lists of dependencies may stand for each
other. -/
structure Orders where
  tags : String → String → Prop
  artifacts : ArtifactData → ArtifactData → Prop
  groups : GroupData → GroupData → Prop
  products : ProductData → ProductData → Prop
  projects : ProjectData → ProjectData → Prop
  dependencies : List String → List String → Prop

namespace Orders

/-- What the lists are sorted by. The dependencies are not sorted. -/
def operators : Orders where
  tags := (· < ·)
  artifacts := (· < ·)
  groups := (· < ·)
  products := (· < ·)
  projects := (· < ·)
  dependencies := (· = ·)

/-- All lists may be in any order, but those of dependencies are kept. -/
def unsorted : Orders where
  tags := fun _ _ => False
  artifacts := fun _ _ => False
  groups := fun _ _ => False
  products := fun _ _ => False
  projects := fun _ _ => False
  dependencies := (· = ·)

/-- All lists may be in any order. -/
def any : Orders :=
  { unsorted with dependencies := List.Perm }

/-- Dependencies stay in their order. -/
def KeepsDependencies (o : Orders) : Prop :=
  o.dependencies = (· = ·)

theorem keeps_operators : operators.KeepsDependencies :=
  rfl

theorem keeps_unsorted : unsorted.KeepsDependencies :=
  rfl

end Orders

/-- A group whose lists get into an order. -/
structure GroupData.Arranged (o : Orders) (g d : GroupData) : Prop where
  sourceArtifacts : Arranges (· = ·) o.artifacts g.sourceArtifacts d.sourceArtifacts
  wildcards : Arranges (· = ·) o.artifacts g.sourceArtifactsFromWildcards
    d.sourceArtifactsFromWildcards
  rest : { d with sourceArtifacts := [], sourceArtifactsFromWildcards := [] } =
    { g with sourceArtifacts := [], sourceArtifactsFromWildcards := [] }

/-- A product whose lists get into an order. -/
structure ProductData.Arranged (o : Orders) (p d : ProductData) : Prop where
  type : Arranges (· = ·) o.tags p.type d.type
  dependencies : o.dependencies p.dependencies d.dependencies
  groups : Arranges (GroupData.Arranged o) o.groups p.groups d.groups
  generatedArtifacts : Arranges (· = ·) o.artifacts p.generatedArtifacts d.generatedArtifacts
  rest : { d with type := [], dependencies := [], groups := [], generatedArtifacts := [] } =
    { p with type := [], dependencies := [], groups := [], generatedArtifacts := [] }

/-- A project whose lists get into an order. -/
inductive ProjectData.Arranged (o : Orders) : ProjectData → ProjectData → Prop
  | intro (p d : ProjectData)
      (hproducts : Arranges (ProductData.Arranged o) o.products p.products d.products)
      (subProjects : List ProjectData)
      (helems : List.Forall₂ (ProjectData.Arranged o) p.subProjects subProjects)
      (hperm : subProjects.Perm d.subProjects) (hsorted : InOrder o.projects d.subProjects)
      (hrest : { d with products := [], subProjects := [] } =
        { p with products := [], subProjects := [] }) :
      ProjectData.Arranged o p d

/-! ## Orders -/

theorem isStrictOrder_of_key {α : Type} (key : α → String) :
    IsStrictOrder α fun a b => key a < key b where
  irrefl := fun a => lt_irrefl (key a)
  trans := fun _ _ _ => lt_trans

instance : IsStrictOrder ArtifactData (· < ·) :=
  isStrictOrder_of_key ArtifactData.filePath

instance : IsStrictOrder GroupData (· < ·) :=
  isStrictOrder_of_key GroupData.name

instance : IsStrictOrder ProjectData (· < ·) :=
  isStrictOrder_of_key ProjectData.name

theorem ProductData.lt_iff (lhs rhs : ProductData) :
    lhs < rhs ↔ lhs.name < rhs.name ∨ lhs.name = rhs.name ∧ lhs.profile < rhs.profile ∧
      lhs.multiplexConfigurationId < rhs.multiplexConfigurationId := by
  show (if lhs.name < rhs.name then True else if rhs.name < lhs.name then False
    else lhs.profile < rhs.profile ∧
      lhs.multiplexConfigurationId < rhs.multiplexConfigurationId) ↔ _
  rcases lt_trichotomy lhs.name rhs.name with h | h | h
  · simp [h]
  · simp [h]
  · simp [h, lt_asymm h, ne_of_gt h]

instance : IsStrictOrder ProductData (· < ·) where
  irrefl := by
    intro a h
    simp [ProductData.lt_iff] at h
  trans := by
    intro a b c hab hbc
    rw [ProductData.lt_iff] at hab hbc ⊢
    rcases hab with hab | ⟨hab, hprofile, hid⟩
    · rcases hbc with hbc | ⟨hbc, -, -⟩
      · exact Or.inl (lt_trans hab hbc)
      · exact Or.inl (hbc ▸ hab)
    · rcases hbc with hbc | ⟨hbc, hprofile', hid'⟩
      · exact Or.inl (hab ▸ hbc)
      · exact Or.inr ⟨hab.trans hbc, lt_trans hprofile hprofile', lt_trans hid hid'⟩

/-! ## Groups -/

namespace GroupData

variable {o o' : Orders} {g d e : GroupData}

theorem Arranged.name_eq (h : Arranged o g d) : d.name = g.name := by
  have hname := congrArg GroupData.name h.rest
  exact hname

theorem arranged_refl (g : GroupData) : Arranged Orders.unsorted g g :=
  ⟨arranges_refl fun _ _ => rfl, arranges_refl fun _ _ => rfl, rfl⟩

/-- What became of a group can be arranged as the group itself. -/
theorem Arranged.trans_of (h : Arranged o g e) (h' : Arranged o' g d) : Arranged o' e d := by
  refine ⟨h.sourceArtifacts.trans_of h'.sourceArtifacts ?_, h.wildcards.trans_of h'.wildcards ?_,
    h'.rest.trans h.rest.symm⟩
  · intro a _ c b hc hb
    rw [← hc, hb]
  · intro a _ c b hc hb
    rw [← hc, hb]

theorem exists_arranged (g : GroupData) : ∃ d, Arranged Orders.operators g d := by
  rcases exists_arranges (· < ·) fun a (_ : a ∈ g.sourceArtifacts) => ⟨a, rfl⟩ with ⟨l, hl⟩
  rcases exists_arranges (· < ·) fun a (_ : a ∈ g.sourceArtifactsFromWildcards) => ⟨a, rfl⟩
    with ⟨m, hm⟩
  exact ⟨{ g with sourceArtifacts := l, sourceArtifactsFromWildcards := m }, hl, hm, rfl⟩

/-- Groups are the same up to the order of lists if they can be sorted to the same. -/
theorem arranged_unsorted_iff (g e : GroupData) :
    Arranged Orders.unsorted g e ↔
      ∃ d, Arranged Orders.operators g d ∧ Arranged Orders.operators e d := by
  constructor
  · intro h
    rcases exists_arranged g with ⟨d, hd⟩
    exact ⟨d, hd, h.trans_of hd⟩
  · intro h
    rcases h with ⟨d, hg, he⟩
    exact (hg.trans_of (arranged_refl g)).trans_of (he.trans_of (arranged_refl e))

/-- There is only one way to sort the lists of a group. -/
structure Determined (g : GroupData) : Prop where
  sourceArtifacts : Comparable (· < ·) (· = ·) g.sourceArtifacts
  wildcards : Comparable (· < ·) (· = ·) g.sourceArtifactsFromWildcards

theorem unique_iff (g : GroupData) :
    (∀ d d', Arranged Orders.operators g d → Arranged Orders.operators g d' → d = d') ↔
      Determined g := by
  rcases exists_arranged g with ⟨e, he⟩
  constructor
  · intro h
    refine ⟨unique_arranges_eq_iff.mp ?_, unique_arranges_eq_iff.mp ?_⟩
    · intro m m' hm hm'
      have heq := h { e with sourceArtifacts := m } { e with sourceArtifacts := m' }
        ⟨hm, he.wildcards, he.rest⟩ ⟨hm', he.wildcards, he.rest⟩
      exact congrArg sourceArtifacts heq
    · intro m m' hm hm'
      have heq := h { e with sourceArtifactsFromWildcards := m }
        { e with sourceArtifactsFromWildcards := m' }
        ⟨he.sourceArtifacts, hm, he.rest⟩ ⟨he.sourceArtifacts, hm', he.rest⟩
      exact congrArg sourceArtifactsFromWildcards heq
  · intro h d d' hd hd'
    have hsource := unique_arranges_eq_iff.mpr h.sourceArtifacts _ _ hd.sourceArtifacts
      hd'.sourceArtifacts
    have hwildcards := unique_arranges_eq_iff.mpr h.wildcards _ _ hd.wildcards hd'.wildcards
    have hrest := hd.rest.trans hd'.rest.symm
    cases d
    cases d'
    simp only [GroupData.mk.injEq] at hrest hsource hwildcards ⊢
    exact ⟨hrest.1, hrest.2.1, hrest.2.2.1, hsource, hwildcards, hrest.2.2.2.2.2⟩

end GroupData

/-! ## Products -/

namespace ProductData

variable {o o' : Orders} {p d e : ProductData}

theorem Arranged.lt_iff (h : Arranged o p d) {q c : ProductData} (h' : Arranged o q c) :
    d < c ↔ p < q := by
  have hname := congrArg ProductData.name h.rest
  have hid := congrArg ProductData.multiplexConfigurationId h.rest
  have hproperties := congrArg ProductData.moduleProperties h.rest
  have hname' := congrArg ProductData.name h'.rest
  have hid' := congrArg ProductData.multiplexConfigurationId h'.rest
  have hproperties' := congrArg ProductData.moduleProperties h'.rest
  simp only at hname hid hproperties hname' hid' hproperties'
  rw [ProductData.lt_iff, ProductData.lt_iff, hname, hname', hid, hid', profile, profile,
    profile, profile, hproperties, hproperties']

theorem arranged_refl (p : ProductData) : Arranged Orders.unsorted p p where
  type := arranges_refl fun _ _ => rfl
  dependencies := rfl
  groups := arranges_refl fun g _ => GroupData.arranged_refl g
  generatedArtifacts := arranges_refl fun _ _ => rfl
  rest := rfl

theorem Arranged.trans_of (hkeeps : o.KeepsDependencies) (h : Arranged o p e)
    (h' : Arranged o' p d) : Arranged o' e d := by
  refine ⟨h.type.trans_of h'.type ?_, ?_, h.groups.trans_of h'.groups ?_,
    h.generatedArtifacts.trans_of h'.generatedArtifacts ?_, h'.rest.trans h.rest.symm⟩
  · intro a _ c b hc hb
    rw [← hc, hb]
  · have hdependencies := h.dependencies
    rw [hkeeps] at hdependencies
    rw [← hdependencies]
    exact h'.dependencies
  · intro g _ c b hc hb
    exact hc.trans_of hb
  · intro a _ c b hc hb
    rw [← hc, hb]

theorem exists_arranged (p : ProductData) : ∃ d, Arranged Orders.operators p d := by
  rcases exists_arranges (· < ·) fun a (_ : a ∈ p.type) => ⟨a, rfl⟩ with ⟨k, hk⟩
  rcases exists_arranges (· < ·) fun g (_ : g ∈ p.groups) => GroupData.exists_arranged g
    with ⟨l, hl⟩
  rcases exists_arranges (· < ·) fun a (_ : a ∈ p.generatedArtifacts) => ⟨a, rfl⟩ with ⟨m, hm⟩
  exact ⟨{ p with type := k, groups := l, generatedArtifacts := m }, hk, rfl, hl, hm, rfl⟩

theorem arranged_unsorted_iff (p e : ProductData) :
    Arranged Orders.unsorted p e ↔
      ∃ d, Arranged Orders.operators p d ∧ Arranged Orders.operators e d := by
  constructor
  · intro h
    rcases exists_arranged p with ⟨d, hd⟩
    exact ⟨d, hd, h.trans_of Orders.keeps_unsorted hd⟩
  · intro h
    rcases h with ⟨d, hp, he⟩
    exact (hp.trans_of Orders.keeps_operators (arranged_refl p)).trans_of Orders.keeps_unsorted
      (he.trans_of Orders.keeps_operators (arranged_refl e))

/-- There is only one way to sort the lists of a product. -/
structure Determined (p : ProductData) : Prop where
  groups : ∀ g, g ∈ p.groups → g.Determined
  comparableGroups : Comparable (· < ·) (GroupData.Arranged Orders.unsorted) p.groups
  generatedArtifacts : Comparable (· < ·) (· = ·) p.generatedArtifacts

theorem comparable_tags (l : List String) : Comparable (· < ·) (· = ·) l := by
  intro a _ b _
  have h := lt_trichotomy a b
  tauto

theorem unique_groups_iff (l : List GroupData) :
    (∀ m m', Arranges (GroupData.Arranged Orders.operators) (· < ·) l m →
        Arranges (GroupData.Arranged Orders.operators) (· < ·) l m' → m = m') ↔
      (∀ g, g ∈ l → g.Determined) ∧
        Comparable (· < ·) (GroupData.Arranged Orders.unsorted) l := by
  rw [unique_arranges_iff_comparable (· < ·) (GroupData.Arranged Orders.unsorted)
    (fun g _ => GroupData.exists_arranged g)]
  · simp only [GroupData.unique_iff]
  · intro g g' d d' hd hd'
    show d.name < d'.name ↔ g.name < g'.name
    rw [hd.name_eq, hd'.name_eq]
  · intro g _ g'
    exact GroupData.arranged_unsorted_iff g g'

theorem unique_iff (p : ProductData) :
    (∀ d d', Arranged Orders.operators p d → Arranged Orders.operators p d' → d = d') ↔
      Determined p := by
  rcases exists_arranged p with ⟨e, he⟩
  constructor
  · intro h
    have hgroups : ∀ m m', Arranges (GroupData.Arranged Orders.operators) (· < ·) p.groups m →
        Arranges (GroupData.Arranged Orders.operators) (· < ·) p.groups m' → m = m' := by
      intro m m' hm hm'
      have heq := h { e with groups := m } { e with groups := m' }
        ⟨he.type, he.dependencies, hm, he.generatedArtifacts, he.rest⟩
        ⟨he.type, he.dependencies, hm', he.generatedArtifacts, he.rest⟩
      exact congrArg groups heq
    rw [unique_groups_iff] at hgroups
    refine ⟨hgroups.1, hgroups.2, unique_arranges_eq_iff.mp ?_⟩
    intro m m' hm hm'
    have heq := h { e with generatedArtifacts := m } { e with generatedArtifacts := m' }
      ⟨he.type, he.dependencies, he.groups, hm, he.rest⟩
      ⟨he.type, he.dependencies, he.groups, hm', he.rest⟩
    exact congrArg generatedArtifacts heq
  · intro h d d' hd hd'
    have htype := unique_arranges_eq_iff.mpr (comparable_tags p.type) _ _ hd.type hd'.type
    have hdependencies := hd.dependencies.symm.trans hd'.dependencies
    have hgroups := (unique_groups_iff p.groups).mpr ⟨h.groups, h.comparableGroups⟩ _ _
      hd.groups hd'.groups
    have hartifacts := unique_arranges_eq_iff.mpr h.generatedArtifacts _ _
      hd.generatedArtifacts hd'.generatedArtifacts
    have hrest := hd.rest.trans hd'.rest.symm
    cases d
    cases d'
    simp only [ProductData.mk.injEq] at hrest htype hdependencies hgroups hartifacts ⊢
    tauto

end ProductData

/-! ## Projects -/

namespace ProjectData

variable {o o' : Orders} {p d e : ProjectData}

theorem Arranged.products (h : Arranged o p d) :
    Arranges (ProductData.Arranged o) o.products p.products d.products := by
  cases h with
  | intro _ _ hproducts _ _ _ _ _ => exact hproducts

theorem Arranged.subProjects (h : Arranged o p d) :
    Arranges (Arranged o) o.projects p.subProjects d.subProjects := by
  cases h with
  | intro _ _ _ subProjects helems hperm hsorted _ => exact ⟨subProjects, helems, hperm, hsorted⟩

theorem Arranged.rest (h : Arranged o p d) :
    { d with products := [], subProjects := [] } =
      { p with products := [], subProjects := [] } := by
  cases h with
  | intro _ _ _ _ _ _ _ hrest => exact hrest

theorem arranged_of (hproducts : Arranges (ProductData.Arranged o) o.products p.products d.products)
    (hsubProjects : Arranges (Arranged o) o.projects p.subProjects d.subProjects)
    (hrest : { d with products := [], subProjects := [] } =
      { p with products := [], subProjects := [] }) : Arranged o p d := by
  rcases hsubProjects with ⟨subProjects, helems, hperm, hsorted⟩
  exact Arranged.intro p d hproducts subProjects helems hperm hsorted hrest

theorem Arranged.name_eq (h : Arranged o p d) : d.name = p.name := by
  have hname := congrArg ProjectData.name h.rest
  exact hname

theorem arranged_refl (p : ProjectData) : Arranged Orders.unsorted p p := by
  induction p using induct with
  | h p ih =>
      exact arranged_of (arranges_refl fun q _ => ProductData.arranged_refl q)
        (arranges_refl ih) rfl

theorem Arranged.trans_of (hkeeps : o.KeepsDependencies) (h : Arranged o p e)
    (h' : Arranged o' p d) : Arranged o' e d := by
  induction p using induct generalizing e d with
  | h p ih =>
      refine arranged_of (h.products.trans_of h'.products ?_)
        (h.subProjects.trans_of h'.subProjects ?_) (h'.rest.trans h.rest.symm)
      · intro q _ c b hc hb
        exact hc.trans_of hkeeps hb
      · intro q hq c b hc hb
        exact ih q hq hc hb

theorem exists_arranged (p : ProjectData) : ∃ d, Arranged Orders.operators p d := by
  induction p using induct with
  | h p ih =>
      rcases exists_arranges (· < ·) fun q (_ : q ∈ p.products) => ProductData.exists_arranged q
        with ⟨l, hl⟩
      rcases exists_arranges (· < ·) ih with ⟨m, hm⟩
      exact ⟨{ p with products := l, subProjects := m }, arranged_of hl hm rfl⟩

theorem arranged_unsorted_iff (p e : ProjectData) :
    Arranged Orders.unsorted p e ↔
      ∃ d, Arranged Orders.operators p d ∧ Arranged Orders.operators e d := by
  constructor
  · intro h
    rcases exists_arranged p with ⟨d, hd⟩
    exact ⟨d, hd, h.trans_of Orders.keeps_unsorted hd⟩
  · intro h
    rcases h with ⟨d, hp, he⟩
    exact (hp.trans_of Orders.keeps_operators (arranged_refl p)).trans_of Orders.keeps_unsorted
      (he.trans_of Orders.keeps_operators (arranged_refl e))

/-- There is only one way to sort the lists of a project. -/
inductive Determined : ProjectData → Prop
  | intro (p : ProjectData) (hproducts : ∀ q, q ∈ p.products → q.Determined)
      (hcomparable : Comparable (· < ·) (ProductData.Arranged Orders.unsorted) p.products)
      (hsubProjects : ∀ q, q ∈ p.subProjects → Determined q)
      (hcomparableProjects : Comparable (· < ·) (Arranged Orders.unsorted) p.subProjects) :
      Determined p

theorem unique_products_iff (l : List ProductData) :
    (∀ m m', Arranges (ProductData.Arranged Orders.operators) (· < ·) l m →
        Arranges (ProductData.Arranged Orders.operators) (· < ·) l m' → m = m') ↔
      (∀ p, p ∈ l → p.Determined) ∧
        Comparable (· < ·) (ProductData.Arranged Orders.unsorted) l := by
  rw [unique_arranges_iff_comparable (· < ·) (ProductData.Arranged Orders.unsorted)
    (fun p _ => ProductData.exists_arranged p)]
  · simp only [ProductData.unique_iff]
  · intro p p' d d' hd hd'
    exact hd.lt_iff hd'
  · intro p _ p'
    exact ProductData.arranged_unsorted_iff p p'

/-- The subprojects are sorted in one way if they are determined and can be compared. -/
theorem unique_subProjects_iff (l : List ProjectData) :
    (∀ m m', Arranges (Arranged Orders.operators) (· < ·) l m →
        Arranges (Arranged Orders.operators) (· < ·) l m' → m = m') ↔
      (∀ p, p ∈ l → ∀ d d', Arranged Orders.operators p d → Arranged Orders.operators p d' →
          d = d') ∧
        Comparable (· < ·) (Arranged Orders.unsorted) l := by
  rw [unique_arranges_iff_comparable (· < ·) (Arranged Orders.unsorted)
    (fun p _ => exists_arranged p)]
  · intro p p' d d' hd hd'
    show d.name < d'.name ↔ p.name < p'.name
    rw [hd.name_eq, hd'.name_eq]
  · intro p _ p'
    exact arranged_unsorted_iff p p'

/-- There is one result if and only if each two elements of a list that gets sorted can be compared
or are the same. -/
theorem unique_iff (p : ProjectData) :
    (∀ d d', Arranged Orders.operators p d → Arranged Orders.operators p d' → d = d') ↔
      Determined p := by
  induction p using induct with
  | h p ih =>
      rcases exists_arranged p with ⟨e, he⟩
      constructor
      · intro h
        have hproducts : ∀ m m',
            Arranges (ProductData.Arranged Orders.operators) (· < ·) p.products m →
              Arranges (ProductData.Arranged Orders.operators) (· < ·) p.products m' →
                m = m' := by
          intro m m' hm hm'
          have heq := h { e with products := m } { e with products := m' }
            (arranged_of hm he.subProjects he.rest) (arranged_of hm' he.subProjects he.rest)
          exact congrArg ProjectData.products heq
        have hsubProjects : ∀ m m', Arranges (Arranged Orders.operators) (· < ·) p.subProjects m →
            Arranges (Arranged Orders.operators) (· < ·) p.subProjects m' → m = m' := by
          intro m m' hm hm'
          have heq := h { e with subProjects := m } { e with subProjects := m' }
            (arranged_of he.products hm he.rest) (arranged_of he.products hm' he.rest)
          exact congrArg ProjectData.subProjects heq
        rw [unique_products_iff] at hproducts
        rw [unique_subProjects_iff] at hsubProjects
        exact Determined.intro p hproducts.1 hproducts.2
          (fun q hq => (ih q hq).mp (hsubProjects.1 q hq)) hsubProjects.2
      · intro h d d' hd hd'
        cases h with
        | intro _ hproducts hcomparable hsubProjects hcomparableProjects =>
            have hproductsEq := (unique_products_iff p.products).mpr ⟨hproducts, hcomparable⟩ _ _
              hd.products hd'.products
            have hsubProjectsEq := (unique_subProjects_iff p.subProjects).mpr
              ⟨fun q hq => (ih q hq).mpr (hsubProjects q hq), hcomparableProjects⟩ _ _
              hd.subProjects hd'.subProjects
            have hrest := hd.rest.trans hd'.rest.symm
            cases d
            cases d'
            simp only [ProjectData.mk.injEq] at hrest hproductsEq hsubProjectsEq ⊢
            tauto

end ProjectData

end Api

end Qbs
