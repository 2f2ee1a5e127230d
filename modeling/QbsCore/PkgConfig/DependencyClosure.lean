import Mathlib.Data.Set.Finite.Range
import QbsCore.PkgConfig.MergeSimulation

/-!
# Merged packages hold the flags of what they require

If the names of the packages are different and no package requires itself, the order of the
packages does not matter: a package is broken if and only if there is an error behind it, and
else its flags come from everything that it requires.

Main results:

- Theorem {lit}`PkgConfig.mergedHash_reported`: what is reported about each package.
-/

namespace Qbs

namespace PkgConfig

open PcPackage OrderedClosure

/-- The first package of a list with a name. -/
def Database.ofList (packages : List PcPackageVariant) : Database :=
  fun name => packages.find? fun package => package.getBaseFileName = name

/-- The packages that are looked up by their names. -/
def lastChoice (packages : List PcPackageVariant) : Choice packages where
  find := packageHash packages
  name_eq _ _ := name_of_packageHash
  exists_find i := Option.ne_none_iff_exists'.mp (packageHash_ne_none i)

/-- The flags of a package come from a list of everything that it requires. -/
structure MergesClosure (db : Database) (staticMode : Bool) {packages : List PcPackageVariant}
    (name : StdString) (deps : List (PackagePointer packages)) (package : PcPackage) : Prop where
  source : ∃ p, db name = some (.package p) ∧
    package = mergedPackage p (deps.map PackagePointer.asPackage)
  nodup : deps.Nodup
  mem_iff : ∀ i, i ∈ deps ↔ Relation.ReflTransGen (db.Requires staticMode) name i.name
  ordered : deps.Pairwise fun i j => ¬db.Requires staticMode i.name j.name
  libs : Merged package.libs (deps.map fun i => i.asPackage.libs)
  cflags : Merged package.cflags (deps.map fun i => i.asPackage.cflags)

/-- What is reported about the package with a name. -/
structure Reported (db : Database) (staticMode : Bool) {packages : List PcPackageVariant}
    (name : StdString) (entry : MergedHashEntry packages) : Prop where
  isBroken_iff : entry.package.isBroken = true ↔ db.Broken staticMode name
  merged : ∀ package, entry.package = .package package →
    MergesClosure db staticMode name entry.deps package

variable {packages : List PcPackageVariant} {staticMode : Bool}

/-! ## Paths end -/

/-- Only packages in the list look at others. -/
theorem Choice.wellFounded_looks (c : Choice packages)
    (hacyclic : ∀ name, ¬Relation.TransGen (c.database.Looks staticMode) name name) :
    WellFounded fun other name => c.database.Looks staticMode name other := by
  have hfinite : {name | ∃ i : PackagePointer packages, i.name = name}.Finite :=
    Set.toFinite (Set.range PackagePointer.name)
  refine wellFounded_of_acyclic hfinite ?_ hacyclic
  intro name other hlooks
  rcases Database.exists_package_of_requires (Database.looks_requires hlooks) with ⟨package, h⟩
  unfold Choice.database at h
  rcases Option.map_eq_some_iff.mp h with ⟨i, hi, -⟩
  exact ⟨i, c.name_eq name i hi⟩

/-! ## Entries -/

theorem simulates_empty {c : Choice packages}
    (hwf : WellFounded fun other name => c.database.Looks staticMode name other) :
    Simulates hwf ∅ (∅ : MergedHash packages) := by
  constructor <;> intro name <;> simp

/-- A right entry has the flags of what the package requires. -/
theorem Correct.reported {c : Choice packages}
    {hwf : WellFounded fun other name => c.database.Looks staticMode name other} {name : StdString}
    {entry : MergedHashEntry packages} (hall : ∀ i, c.find i.name = some i)
    (h : Correct hwf name entry) : Reported c.database staticMode name entry := by
  have hiff := Database.isBroken_merged hwf h.merged
  refine ⟨hiff, ?_⟩
  intro package hpackage
  have hno : ¬c.database.Broken staticMode name := by
    rw [← hiff, hpackage]
    simp [PcPackageVariant.isBroken]
  have horder := h.order hno
  have hmem : ∀ i, i ∈ entry.deps ↔
      Relation.ReflTransGen (c.database.Requires staticMode) name i.name := by
    intro i
    rw [← Database.mem_order hwf hno, ← horder, List.mem_map]
    constructor
    · intro hi
      exact ⟨i, hi, rfl⟩
    · intro hi
      rcases hi with ⟨j, hj, hname⟩
      rwa [← Choice.eq_of_name_eq (hall j) (hall i) hname]
  have hnotBroken : ∀ i, i ∈ entry.deps → ¬c.database.Broken staticMode i.name := by
    intro i hi
    exact Database.not_broken_of_path hno ((hmem i).mp hi)
  have hsource : ∃ p, c.database name = some (.package p) ∧
      package = mergedPackage p (entry.deps.map PackagePointer.asPackage) := by
    rcases Database.exists_package_of_not_broken hno with ⟨p, hp⟩
    have hfine : ∀ d, d ∈ allDependencies staticMode p → c.database.Fine staticMode d := by
      rw [Database.broken_iff hp] at hno
      push Not at hno
      exact hno
    have hmerged := h.merged
    rw [Database.merged_of_fine hwf hp hfine, ← horder,
      Choice.filterMap_packageOf (fun i _ => hall i) fun i hi =>
        Database.exists_package_of_not_broken (hnotBroken i hi),
      hpackage, Option.some.injEq, PcPackageVariant.package.injEq] at hmerged
    exact ⟨p, hp, hmerged.symm⟩
  rcases hsource with ⟨p, hp, hflags⟩
  have hsound := merged_mergedFlags (entry.deps.map PackagePointer.asPackage)
  constructor
  · exact ⟨p, hp, hflags⟩
  · apply List.Nodup.of_map PackagePointer.name
    rw [horder]
    exact Database.nodup_order hwf name
  · exact hmem
  · have hpairwise := Database.pairwise_order hwf hno
    rwa [← horder, List.pairwise_map] at hpairwise
  · rw [hflags]
    simpa [mergedPackage, Function.comp_def] using hsound.libs
  · rw [hflags]
    simpa [mergedPackage, Function.comp_def] using hsound.cflags

/-! ## Packages with different names -/

theorem eq_of_name_eq (h : (packages.map PcPackageVariant.getBaseFileName).Nodup)
    {i j : PackagePointer packages} (heq : i.name = j.name) : i = j := by
  have hlength := @List.length_map _ _ packages PcPackageVariant.getBaseFileName
  have hnames : (packages.map PcPackageVariant.getBaseFileName).get (i.cast hlength.symm) =
      (packages.map PcPackageVariant.getBaseFileName).get (j.cast hlength.symm) := by
    simpa [PackagePointer.name] using heq
  have hcast := List.nodup_iff_injective_get.mp h hnames
  simpa [Fin.ext_iff] using hcast

/-- Every package is found under its name. -/
theorem lastChoice_find (h : (packages.map PcPackageVariant.getBaseFileName).Nodup)
    (i : PackagePointer packages) : (lastChoice packages).find i.name = some i := by
  rcases (lastChoice packages).exists_find i with ⟨j, hj⟩
  rw [hj, eq_of_name_eq h ((lastChoice packages).name_eq _ j hj)]

/-- The packages that are looked up are the packages of the list. -/
theorem lastChoice_database (h : (packages.map PcPackageVariant.getBaseFileName).Nodup) :
    (lastChoice packages).database = Database.ofList packages := by
  funext name
  cases hfind : Database.ofList packages name with
  | none =>
      have hnone : (lastChoice packages).find name = none := by
        by_contra hcontra
        rcases Option.ne_none_iff_exists'.mp hcontra with ⟨i, hi⟩
        have hname := (lastChoice packages).name_eq name i hi
        have hno := List.find?_eq_none.mp hfind (packages.get i) (List.get_mem packages i)
        exact hno (by simpa [PackagePointer.name] using hname)
      simp [Choice.database, hnone]
  | some package =>
      rcases List.mem_iff_get.mp (List.mem_of_find?_eq_some hfind) with ⟨i, hi⟩
      have hname : PackagePointer.name i = name := by
        rw [PackagePointer.name, hi]
        simpa using List.find?_some hfind
      rw [← hname, Choice.database_eq (lastChoice_find h i), hi]

/-- For packages with different names that do not require themselves, each name has one entry. It is
broken if and only if there is an error behind the package; else its flags are those of everything
that the package requires. -/
theorem mergedHash_reported (staticMode : Bool) (packages : List PcPackageVariant)
    (hnames : (packages.map PcPackageVariant.getBaseFileName).Nodup)
    (hacyclic : ∀ name,
      ¬Relation.TransGen ((Database.ofList packages).Requires staticMode) name name) :
    ((mergeDependencies staticMode packages).map PcPackageVariant.getBaseFileName).Perm
        (packages.map PcPackageVariant.getBaseFileName) ∧
      ∀ name entry, (mergedHash staticMode packages).lookup name = some entry →
        entry.package.getBaseFileName = name ∧
          Reported (Database.ofList packages) staticMode name entry := by
  rw [← lastChoice_database hnames] at hacyclic ⊢
  have hfind := lastChoice_find hnames
  have hwf := (lastChoice packages).wellFounded_looks fun name hpath => hacyclic name
    (Relation.TransGen.mono (fun a b => Database.looks_requires) _ _ hpath)
  have hrun := mergeAll_mergedHash staticMode packages
  have hsim : Simulates hwf ∅ (mergedHash staticMode packages) := by
    rcases mergeAll_simulates (simulates_empty hwf) (fun _ i _ _ => Or.inl (hfind i)) hrun with
      hsim | ⟨-, -, -, name, -, -, -, -, -, -, i, -, -, hi, hno⟩
    · exact hsim
    · exact absurd hi hno
  have hentry : ∀ name entry, (mergedHash staticMode packages).lookup name = some entry →
      entry.package.getBaseFileName = name ∧
        Reported (lastChoice packages).database staticMode name entry := by
    intro name entry hlookup
    exact ⟨name_of_mergedHash hlookup,
      (hsim.correct name entry (by simp) hlookup).reported hfind⟩
  refine ⟨?_, hentry⟩
  rw [map_getBaseFileName_mergeDependencies,
    List.perm_ext_iff_of_nodup (mergedHash staticMode packages).keys_nodup hnames]
  intro name
  rw [← AList.mem_keys, ← AList.lookup_isSome, Option.isSome_iff_ne_none]
  constructor
  · intro hlookup
    rcases Option.ne_none_iff_exists'.mp hlookup with ⟨entry, hlookup⟩
    rcases exists_belongs hlookup with ⟨i, -, hname⟩
    rw [← hname]
    exact List.mem_map_of_mem (List.get_mem packages i)
  · intro hmem
    rcases List.mem_map.mp hmem with ⟨v, hv, hname⟩
    rcases List.mem_iff_get.mp hv with ⟨i, hi⟩
    rw [← hname, ← hi]
    exact mergedHash_lookup_ne_none i

/-- A package with a name, a version, a library of that name and dependencies. -/
def samplePackage (name version : StdString) (requires : List RequiredVersion) :
    PcPackageVariant :=
  .package { PcPackage.empty with
    baseFileName := name
    name := name
    version := version
    libs := [⟨.libraryName, name⟩]
    libs_kind := by simp [FlagType.isLibsType]
    requiresPublic := requires }

/-- Two packages of which one requires the other, in some version. -/
def samplePackages : List PcPackageVariant :=
  [samplePackage "a".toList "1".toList [⟨"b".toList, .greaterThanEqual, "2".toList⟩],
    samplePackage "b".toList "2".toList []]

theorem mergedHash_reported_sample :
    ((mergeDependencies false samplePackages).map PcPackageVariant.getBaseFileName).Perm
        (samplePackages.map PcPackageVariant.getBaseFileName) ∧
      ∀ name entry, (mergedHash false samplePackages).lookup name = some entry →
        entry.package.getBaseFileName = name ∧
          Reported (Database.ofList samplePackages) false name entry := by
  refine mergedHash_reported false samplePackages (by decide) ?_
  have hrequires : ∀ name other, (Database.ofList samplePackages).Requires false name other →
      name = "a".toList ∧ other = "b".toList := by
    intro name other hrequires
    rcases Database.exists_package_of_requires hrequires with ⟨package, hpackage⟩
    rcases hrequires with ⟨dependency, hmem, hname⟩
    rw [Database.dependencies_eq hpackage] at hmem
    have hbase := List.find?_some hpackage
    have hlist := List.mem_of_find?_eq_some hpackage
    simp only [samplePackages, samplePackage, List.mem_cons, PcPackageVariant.package.injEq,
      List.not_mem_nil, or_false] at hlist
    rcases hlist with heq | heq
    · simp only [heq, allDependencies, PcPackageVariant.getBaseFileName] at hmem hbase
      simp only [Bool.false_eq_true, if_false, List.append_nil, List.mem_singleton] at hmem
      exact ⟨(of_decide_eq_true hbase).symm, by rw [← hname, hmem]⟩
    · simp [heq, allDependencies] at hmem
  intro name hpath
  rcases Relation.TransGen.head'_iff.mp hpath with ⟨second, hfirst, hrest⟩
  rcases hrequires name second hfirst with ⟨hname, hsecond⟩
  rw [hname, hsecond] at hrest
  rcases Relation.ReflTransGen.cases_head hrest with heq | ⟨third, hnext, -⟩
  · simp at heq
  · have hno := (hrequires _ third hnext).1
    simp at hno

end PkgConfig

end Qbs
