import QbsCore.PkgConfig.MergeDependencies

/-!
# Requirements

What merging is for, in terms of the names of the packages: which packages a package
requires, directly or not, when it is broken, and what its merged package is.  A database
says which package a name stands for.

Main results:

- Theorem {lit}`PkgConfig.Database.isBroken_merged`: a merged package is broken if and only if
  there is an error behind it.
- Theorem {lit}`PkgConfig.Database.looks_iff_requires`: all requirements of a package without
  errors behind it are looked at.
-/

namespace Qbs

namespace PkgConfig

open PcPackage

/-- Which package a base file name stands for. -/
abbrev Database := StdString → Option PcPackageVariant

namespace Database

variable (db : Database) (staticMode : Bool)

/-- The dependencies of the package with a name. -/
def dependencies (name : StdString) : List RequiredVersion :=
  match db name with
  | some (.package package) => allDependencies staticMode package
  | _ => []

/-- A package requires the packages with the names of its dependencies. -/
def Requires (name other : StdString) : Prop :=
  ∃ dependency, dependency ∈ db.dependencies staticMode name ∧ dependency.name = other

/-- There is a package with the name of a dependency, but it has another version. -/
def Mismatch (dependency : RequiredVersion) : Prop :=
  ∃ package, db dependency.name = some (.package package) ∧
    versionTest dependency.comparison package.version dependency.version = false

/-- A package is missing, broken itself, or requires another version of a package. -/
def HasError (name : StdString) : Prop :=
  (∀ package, db name ≠ some (.package package)) ∨
    ∃ dependency, dependency ∈ db.dependencies staticMode name ∧ db.Mismatch dependency

/-- There is an error behind a package. -/
def Broken (name : StdString) : Prop :=
  ∃ other, Relation.ReflTransGen (db.Requires staticMode) name other ∧ db.HasError staticMode other

/-- A dependency that can be merged. -/
def Fine (dependency : RequiredVersion) : Prop :=
  ¬db.Broken staticMode dependency.name ∧ ¬db.Mismatch dependency

/-- The dependencies up to the first one with an error are looked at. -/
def Looks (name other : StdString) : Prop :=
  ∃ before dependency after,
    db.dependencies staticMode name = before ++ dependency :: after ∧ dependency.name = other ∧
      ∀ d, d ∈ before → db.Fine staticMode d

open scoped Classical in
/-- The packages that are merged into a package, if there is no error behind it. -/
noncomputable def next (name : StdString) : List StdString :=
  if db.Broken staticMode name then [] else (db.dependencies staticMode name).map (·.name)

open scoped Classical in
/-- The error about a dependency that cannot be merged. -/
noncomputable def failureOf (package : PcPackage) (dependency : RequiredVersion) :
    PcBrokenPackage :=
  match db dependency.name with
  | none => makeMissingDependency package dependency
  | some (.brokenPackage _) => makeBrokenDependency package dependency
  | some (.package depPackage) =>
      if db.Broken staticMode dependency.name then makeBrokenDependency package dependency
      else makeVersionMismatchDependency package depPackage dependency

/-- The package with a name, if it could be read. -/
def packageOf (name : StdString) : Option PcPackage :=
  match db name with
  | some (.package package) => some package
  | _ => none

variable {db staticMode} {name other : StdString} {package : PcPackage}

/-! ## Errors -/

theorem dependencies_eq (h : db name = some (.package package)) :
    db.dependencies staticMode name = allDependencies staticMode package := by
  simp [dependencies, h]

theorem exists_package_of_requires (h : db.Requires staticMode name other) :
    ∃ package, db name = some (.package package) := by
  rcases h with ⟨dependency, hmem, -⟩
  unfold dependencies at hmem
  split at hmem
  · rename_i package hpackage
    exact ⟨package, hpackage⟩
  · simp at hmem

theorem broken_of_no_package (h : ∀ package, db name ≠ some (.package package)) :
    db.Broken staticMode name :=
  ⟨name, Relation.ReflTransGen.refl, Or.inl h⟩

theorem exists_package_of_not_broken (h : ¬db.Broken staticMode name) :
    ∃ package, db name = some (.package package) := by
  by_contra hcontra
  push Not at hcontra
  exact h (broken_of_no_package hcontra)

/-- There is an error behind a package if and only if one of its dependencies cannot be merged. -/
theorem broken_iff (h : db name = some (.package package)) :
    db.Broken staticMode name ↔
      ∃ dependency, dependency ∈ allDependencies staticMode package ∧
        ¬db.Fine staticMode dependency := by
  constructor
  · intro hbroken
    rcases hbroken with ⟨other, hpath, herror⟩
    rcases Relation.ReflTransGen.cases_head hpath with heq | ⟨second, hfirst, hrest⟩
    · rw [← heq] at herror
      rcases herror with hno | ⟨dependency, hmem, hmismatch⟩
      · exact absurd h (hno package)
      · rw [dependencies_eq h] at hmem
        exact ⟨dependency, hmem, fun hfine => hfine.2 hmismatch⟩
    · rcases hfirst with ⟨dependency, hmem, hname⟩
      rw [dependencies_eq h] at hmem
      rw [← hname] at hrest
      exact ⟨dependency, hmem, fun hfine => hfine.1 ⟨other, hrest, herror⟩⟩
  · intro hdependency
    rcases hdependency with ⟨dependency, hmem, hno⟩
    rw [← dependencies_eq h] at hmem
    by_cases hmismatch : db.Mismatch dependency
    · exact ⟨name, Relation.ReflTransGen.refl, Or.inr ⟨dependency, hmem, hmismatch⟩⟩
    · have hbroken : db.Broken staticMode dependency.name := by
        by_contra hcontra
        exact hno ⟨hcontra, hmismatch⟩
      rcases hbroken with ⟨other, hpath, herror⟩
      exact ⟨other, Relation.ReflTransGen.head ⟨dependency, hmem, rfl⟩ hpath, herror⟩

theorem looks_requires (h : db.Looks staticMode name other) : db.Requires staticMode name other := by
  rcases h with ⟨before, dependency, after, heq, hname, -⟩
  exact ⟨dependency, by simp [heq], hname⟩

/-- All requirements of a package without errors behind it are looked at. -/
theorem looks_iff_requires (h : ¬db.Broken staticMode name) :
    db.Looks staticMode name other ↔ db.Requires staticMode name other := by
  refine ⟨looks_requires, ?_⟩
  intro hrequires
  rcases hrequires with ⟨dependency, hmem, hname⟩
  rcases exists_package_of_not_broken h with ⟨package, hpackage⟩
  rcases List.append_of_mem hmem with ⟨before, after, heq⟩
  refine ⟨before, dependency, after, heq, hname, ?_⟩
  intro d hd
  by_contra hno
  rw [dependencies_eq hpackage] at heq
  exact h ((broken_iff hpackage).mpr ⟨d, by simp [heq, hd], hno⟩)

theorem not_broken_of_path (h : ¬db.Broken staticMode name)
    (hpath : Relation.ReflTransGen (db.Requires staticMode) name other) :
    ¬db.Broken staticMode other := by
  intro hbroken
  rcases hbroken with ⟨last, hrest, herror⟩
  exact h ⟨last, hpath.trans hrest, herror⟩

theorem not_broken_of_requires (h : ¬db.Broken staticMode name)
    (hrequires : db.Requires staticMode name other) : ¬db.Broken staticMode other :=
  not_broken_of_path h (Relation.ReflTransGen.single hrequires)

theorem mem_next :
    other ∈ db.next staticMode name ↔
      ¬db.Broken staticMode name ∧ db.Requires staticMode name other := by
  unfold next
  split
  · rename_i hbroken
    simp [hbroken]
  · rename_i hbroken
    simp [hbroken, Requires]

theorem next_eq (h : ¬db.Broken staticMode name) (hpackage : db name = some (.package package)) :
    db.next staticMode name = (allDependencies staticMode package).map (·.name) := by
  rw [next, if_neg h, dependencies_eq hpackage]

/-- Behind a package without errors, what is merged are all its requirements. -/
theorem edges_iff (h : ¬db.Broken staticMode name) :
    Relation.ReflTransGen (OrderedClosure.Edge (db.next staticMode)) name other ↔
      Relation.ReflTransGen (db.Requires staticMode) name other := by
  constructor
  · intro hpath
    exact Relation.ReflTransGen.mono (fun a b hab => (mem_next.mp hab).2) _ _ hpath
  · intro hpath
    induction hpath using Relation.ReflTransGen.head_induction_on with
    | refl => exact Relation.ReflTransGen.refl
    | head hfirst hrest ih =>
        exact Relation.ReflTransGen.head (mem_next.mpr ⟨h, hfirst⟩)
          (ih (not_broken_of_requires h hfirst))

/-! ## Merged packages -/

variable (hwf : WellFounded fun other name => db.Looks staticMode name other)

include hwf in
theorem wellFounded_next : WellFounded fun other name => other ∈ db.next staticMode name := by
  refine Subrelation.wf ?_ hwf
  intro other name hother
  rcases mem_next.mp hother with ⟨hbroken, hrequires⟩
  exact (looks_iff_requires hbroken).mpr hrequires

/-- The packages that are merged into a package, and the package itself. -/
noncomputable def order (name : StdString) : List StdString :=
  OrderedClosure.order (wellFounded_next hwf) name

theorem nodup_order (name : StdString) : (order hwf name).Nodup :=
  OrderedClosure.nodup_order _ name

/-- Without errors, what is merged into a package is what it requires. -/
theorem mem_order (h : ¬db.Broken staticMode name) :
    other ∈ order hwf name ↔ Relation.ReflTransGen (db.Requires staticMode) name other := by
  rw [← edges_iff h, order, OrderedClosure.mem_order]

/-- Requirements come first. -/
theorem pairwise_order (h : ¬db.Broken staticMode name) :
    (order hwf name).Pairwise fun a b => ¬db.Requires staticMode a b := by
  refine (OrderedClosure.pairwise_order (wellFounded_next hwf) name).imp_of_mem ?_
  intro a b ha _ hnext hrequires
  have hpath := (mem_order hwf h).mp ha
  exact hnext (mem_next.mpr ⟨not_broken_of_path h hpath, hrequires⟩)

open scoped Classical in
/-- What the package with a name becomes. -/
noncomputable def merged (name : StdString) : Option PcPackageVariant :=
  match db name with
  | none => none
  | some (.brokenPackage broken) => some (.brokenPackage broken)
  | some (.package package) =>
      match (allDependencies staticMode package).find? (¬db.Fine staticMode ·) with
      | some dependency => some (.brokenPackage (db.failureOf staticMode package dependency))
      | none => some (.package (mergedPackage package ((order hwf name).filterMap db.packageOf)))

theorem merged_missing (h : db name = none) : merged hwf name = none := by
  simp [merged, h]

theorem merged_brokenPackage {broken : PcBrokenPackage} (h : db name = some (.brokenPackage broken)) :
    merged hwf name = some (.brokenPackage broken) := by
  simp [merged, h]

open scoped Classical in
/-- The first dependency that cannot be merged decides about the error. -/
theorem merged_of_not_fine {before after : List RequiredVersion} {dependency : RequiredVersion}
    (h : db name = some (.package package))
    (hsplit : allDependencies staticMode package = before ++ dependency :: after)
    (hbefore : ∀ d, d ∈ before → db.Fine staticMode d) (hno : ¬db.Fine staticMode dependency) :
    merged hwf name =
      some (.brokenPackage (db.failureOf staticMode package dependency)) := by
  have hfind : (allDependencies staticMode package).find? (¬db.Fine staticMode ·) =
      some dependency := by
    rw [hsplit, List.find?_append, List.find?_eq_none.mpr (by simpa using hbefore)]
    simp [hno]
  simp only [merged, h, hfind]

theorem merged_of_fine (h : db name = some (.package package))
    (hfine : ∀ d, d ∈ allDependencies staticMode package → db.Fine staticMode d) :
    merged hwf name =
      some (.package (mergedPackage package ((order hwf name).filterMap db.packageOf))) := by
  simp only [merged, h]
  split
  · rename_i d hd
    have hno := List.find?_some hd
    exact absurd (hfine d (List.mem_of_find?_eq_some hd)) (by simpa using hno)
  · rfl

theorem filePath_failureOf (dependency : RequiredVersion) :
    (db.failureOf staticMode package dependency).filePath = package.filePath := by
  unfold failureOf
  split
  · simp [makeMissingDependency]
  · simp [makeBrokenDependency]
  · split
    · simp [makeBrokenDependency]
    · simp [makeVersionMismatchDependency]

/-- A merged package comes from the file of its package. -/
theorem getFilePath_merged {result : PcPackageVariant} (h : merged hwf name = some result) :
    ∃ v, db name = some v ∧ result.getFilePath = v.getFilePath := by
  unfold merged at h
  split at h
  · simp at h
  · rename_i broken hbroken
    rw [Option.some.injEq] at h
    exact ⟨_, hbroken, by rw [← h]⟩
  · rename_i package hpackage
    refine ⟨_, hpackage, ?_⟩
    split at h
    · rename_i dependency hfind
      rw [Option.some.injEq] at h
      simp only [← h, PcPackageVariant.getFilePath, filePath_failureOf]
    · rw [Option.some.injEq] at h
      simp [← h, PcPackageVariant.getFilePath, mergedPackage]

theorem isBroken_merged {result : PcPackageVariant} (h : merged hwf name = some result) :
    result.isBroken = true ↔ db.Broken staticMode name := by
  unfold merged at h
  split at h
  · simp at h
  · rename_i broken hbroken
    simp only [Option.some.injEq] at h
    simp only [← h, PcPackageVariant.isBroken, true_iff]
    exact broken_of_no_package (by simp [hbroken])
  · rename_i package hpackage
    rw [broken_iff hpackage]
    split at h
    · rename_i dependency hfind
      simp only [Option.some.injEq] at h
      simp only [← h, PcPackageVariant.isBroken, true_iff]
      exact ⟨dependency, List.mem_of_find?_eq_some hfind, by simpa using List.find?_some hfind⟩
    · rename_i hfind
      simp only [Option.some.injEq] at h
      simpa [← h, PcPackageVariant.isBroken] using hfind

end Database

end PkgConfig

end Qbs
