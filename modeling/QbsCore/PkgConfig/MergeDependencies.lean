import QbsCore.Library.AssocMap
import QbsCore.Library.OrderedClosure
import QbsCore.PkgConfig.MergedFlags

/-!
# Merging the dependencies of packages

The flags of a package are merged with those of all packages that it requires.  The
packages are visited depth first.  A hash holds the merged packages; a package that is
visited a second time is looked up there, also while it is being merged.

Main results:

- Definition {lit}`PkgConfig.mergeDependencies`: the merged packages.
- Theorem {lit}`PkgConfig.isSome_mergeAll`: merging comes to an end, also if packages require
  each other.
-/

namespace Qbs

namespace PkgConfig

open PcPackage

/-! ## Versions -/

/-- What a byte adds to a number. The subtraction and the sign extension of the byte wrap around. -/
def digitValue (c : Char) : UInt64 :=
  (if c.toNat < 128 then UInt64.ofNat c.toNat else UInt64.ofNat c.toNat - 256) - 48

/-- The number that a part of a version stands for. -/
def numberOf (part : StdString) : UInt64 :=
  part.foldl (fun acc c => acc * 10 + digitValue c) 0

def inPart (c : Char) : Bool :=
  c ≠ '.'

/-- What is left of a version after its first part and the dot. -/
def afterPart (v : StdString) : StdString :=
  (v.dropWhile inPart).drop 1

theorem length_afterPart_le (v : StdString) : (afterPart v).length ≤ v.length - 1 := by
  have h := (List.dropWhile_sublist (l := v) inPart).length_le
  unfold afterPart
  rw [List.length_drop]
  omega

/-- Compare versions part by part. -/
def compareVersions (v1 v2 : StdString) : Int :=
  if v1 = [] ∧ v2 = [] then 0
  else
    let acc1 := numberOf (v1.takeWhile inPart)
    let acc2 := numberOf (v2.takeWhile inPart)
    if acc1 < acc2 then -1
    else if acc2 < acc1 then 1
    else compareVersions (afterPart v1) (afterPart v2)
termination_by v1.length + v2.length
decreasing_by
  rename_i h _ _
  have h1 := length_afterPart_le v1
  have h2 := length_afterPart_le v2
  rw [not_and_or, ← List.length_eq_zero_iff, ← List.length_eq_zero_iff] at h
  omega

def versionTest (comparison : ComparisonType) (a b : StdString) : Bool :=
  match comparison with
  | .lessThan => compareVersions a b < 0
  | .greaterThan => compareVersions a b > 0
  | .lessThanEqual => compareVersions a b ≤ 0
  | .greaterThanEqual => compareVersions a b ≥ 0
  | .equal => compareVersions a b = 0
  | .notEqual => compareVersions a b ≠ 0
  | .alwaysMatch => true

/-! ## Broken dependencies -/

def makeMissingDependency (package : PcPackage) (depVersion : RequiredVersion) :
    PcBrokenPackage where
  filePath := package.filePath
  baseFileName := package.baseFileName
  errorText := "Package ".toList ++ package.name ++ " requires package ".toList ++
    depVersion.name ++ " but it is not found".toList

def makeBrokenDependency (package : PcPackage) (depVersion : RequiredVersion) :
    PcBrokenPackage where
  filePath := package.filePath
  baseFileName := package.baseFileName
  errorText := "Package ".toList ++ package.name ++ " requires package ".toList ++
    depVersion.name ++ " but it is broken".toList

def makeVersionMismatchDependency (package depPackage : PcPackage) (depVersion : RequiredVersion) :
    PcBrokenPackage where
  filePath := package.filePath
  baseFileName := package.baseFileName
  errorText := "Package ".toList ++ package.name ++ " requires version ".toList ++
    comparisonToString depVersion.comparison ++ depVersion.version ++ " but ".toList ++
    depPackage.version ++ " is present".toList

/-! ## Merging -/

/-- A list of packages can be pointed into. -/
abbrev PackagePointer (packages : List PcPackageVariant) := Fin packages.length

/-- A merged or broken package, and the unmerged packages that its flags come from. -/
structure MergedHashEntry (packages : List PcPackageVariant) where
  package : PcPackageVariant
  deps : List (PackagePointer packages)

/-- The entries by the base file names of the packages. -/
abbrev MergedHash (packages : List PcPackageVariant) :=
  AssocMap StdString (MergedHashEntry packages)

variable (staticMode : Bool) {packages : List PcPackageVariant}

/-- The package with a base file name; a later one in the list replaces an earlier one. -/
def packageHash (packages : List PcPackageVariant) (name : StdString) :
    Option (PackagePointer packages) :=
  (List.finRange packages.length).reverse.find? fun i => (packages.get i).getBaseFileName = name

def PackagePointer.name (i : PackagePointer packages) : StdString :=
  (packages.get i).getBaseFileName

/-- The package that is pointed to; only those that are not broken get merged. -/
def PackagePointer.asPackage (i : PackagePointer packages) : PcPackage :=
  match packages.get i with
  | .package p => p
  | .brokenPackage _ => default

/-- The packages that have to be there, in static mode also for the package itself. -/
def allDependencies (package : PcPackage) : List RequiredVersion :=
  package.requiresPublic ++ if staticMode then package.requiresPrivate else []

/-- The data of a package with the flags of all its dependencies. -/
def mergedPackage (package : PcPackage) (deps : List PcPackage) : PcPackage where
  filePath := package.filePath
  baseFileName := package.baseFileName
  name := package.name
  version := package.version
  description := package.description
  url := package.url
  libs := (mergedFlags deps).libs
  libsPrivate := []
  cflags := (mergedFlags deps).cflags
  requiresPublic := []
  requiresPrivate := []
  conflicts := []
  variablesMap := package.variablesMap
  libs_kind := (merged_mergedFlags deps).libs_kind
  cflags_kind := (merged_mergedFlags deps).cflags_kind

/-- Change the dependencies in an entry of the hash. -/
def modifyDeps (hash : MergedHash packages) (name : StdString)
    (f : List (PackagePointer packages) → List (PackagePointer packages)) : MergedHash packages :=
  AssocMap.modify hash name ⟨default, []⟩ fun entry => { entry with deps := f entry.deps }

/-- Go through the dependencies of a package. Their own dependencies are appended to the entry of
the package, where a dependency that requires the package back can see them. The loop ends with an
error at the first dependency that is missing, broken or has the wrong version. -/
def mergeLoop
    (merge : MergedHash packages → PackagePointer packages →
      Option (MergedHashEntry packages × MergedHash packages))
    (package : PcPackage) (hash : MergedHash packages) :
    List RequiredVersion → Option (Option PcBrokenPackage × MergedHash packages)
  | [] => some (none, hash)
  | dependency :: dependencies =>
      match packageHash packages dependency.name with
      | none => some (some (makeMissingDependency package dependency), hash)
      | some child => do
          let (childEntry, hash) ← merge hash child
          match childEntry.package with
          | .brokenPackage _ => some (some (makeBrokenDependency package dependency), hash)
          | .package merged =>
              if versionTest dependency.comparison merged.version dependency.version then
                mergeLoop merge package
                  (modifyDeps hash package.baseFileName fun deps =>
                    OrderedClosure.appendNew deps childEntry.deps)
                  dependencies
              else some (some (makeVersionMismatchDependency package merged dependency), hash)

/-- The dependencies that are in an entry of the hash. -/
def depsOf (hash : MergedHash packages) (name : StdString) : List (PackagePointer packages) :=
  ((hash.lookup name).map MergedHashEntry.deps).getD []

/-- The entry of a package after the loop over its dependencies. -/
def finishedEntry (package : PcPackage) (i : PackagePointer packages)
    (deps : List (PackagePointer packages)) : Option PcBrokenPackage → MergedHashEntry packages
  | some broken => ⟨.brokenPackage broken, deps⟩
  | none =>
      ⟨.package (mergedPackage package ((deps ++ [i]).map PackagePointer.asPackage)), deps ++ [i]⟩

/-- Merge a package with its dependencies, unless it has an entry. The recursion is cut off by
fuel. -/
def mergeFunc : Nat → MergedHash packages → PackagePointer packages →
    Option (MergedHashEntry packages × MergedHash packages)
  | fuel, hash, i =>
      match hash.lookup i.name with
      | some entry => some (entry, hash)
      | none =>
          match fuel with
          | 0 => none
          | fuel + 1 =>
              match packages.get i with
              | .brokenPackage broken =>
                  some (⟨.brokenPackage broken, []⟩,
                    AList.insert i.name ⟨.brokenPackage broken, []⟩ hash)
              | .package package => do
                  let (failure, hash) ← mergeLoop (mergeFunc fuel) package
                    (AList.insert i.name ⟨default, []⟩ hash) (allDependencies staticMode package)
                  let entry := finishedEntry package i (depsOf hash i.name) failure
                  some (entry, AList.insert i.name entry hash)

/-- Merge some packages one after the other. -/
def mergeAll (fuel : Nat) (hash : MergedHash packages) (is : List (PackagePointer packages)) :
    Option (MergedHash packages) :=
  is.foldlM (fun hash i => (mergeFunc staticMode fuel hash i).map Prod.snd) hash

/-! ## Merging comes to an end -/

variable {staticMode} {hash hash' hash'' : MergedHash packages} {i : PackagePointer packages}

theorem PackagePointer.name_of_package {package : PcPackage}
    (h : packages.get i = .package package) : i.name = package.baseFileName := by
  rw [PackagePointer.name, h]
  rfl

/-- The packages that have no entry yet. -/
def missing (hash : MergedHash packages) : List (PackagePointer packages) :=
  (List.finRange packages.length).filter fun i => (hash.lookup i.name).isNone

/-- No entry gets lost. -/
def Grows (hash hash' : MergedHash packages) : Prop :=
  ∀ name, (hash.lookup name).isSome = true → (hash'.lookup name).isSome = true

theorem Grows.refl (hash : MergedHash packages) : Grows hash hash :=
  fun _ h => h

theorem Grows.trans (h : Grows hash hash') (h' : Grows hash' hash'') : Grows hash hash'' :=
  fun name hname => h' name (h name hname)

theorem grows_insert (hash : MergedHash packages) (name : StdString)
    (entry : MergedHashEntry packages) : Grows hash (AList.insert name entry hash) := by
  intro other hother
  by_cases heq : other = name
  · rw [heq, AList.lookup_insert]
    simp
  · rwa [AList.lookup_insert_ne heq]

theorem grows_modifyDeps (hash : MergedHash packages) (name : StdString)
    (f : List (PackagePointer packages) → List (PackagePointer packages)) :
    Grows hash (modifyDeps hash name f) :=
  grows_insert hash name _

theorem mem_missing : i ∈ missing hash ↔ hash.lookup i.name = none := by
  simp [missing]

theorem Grows.missing_le (h : Grows hash hash') :
    (missing hash').length ≤ (missing hash).length := by
  apply (List.monotone_filter_right _ _).length_le
  intro i hi
  by_contra hcontra
  have hsome := h i.name (by simpa [Option.isSome_iff_ne_none] using hcontra)
  rw [Option.isNone_iff_eq_none] at hi
  simp [hi] at hsome

/-- A package that gets an entry is missing no longer. -/
theorem missing_insert_lt (h : hash.lookup i.name = none) (entry : MergedHashEntry packages) :
    (missing (AList.insert i.name entry hash)).length < (missing hash).length := by
  have hsub : (missing (AList.insert i.name entry hash)).Sublist
      ((missing hash).filter fun j => j.name ≠ i.name) := by
    unfold missing
    rw [List.filter_filter]
    apply List.monotone_filter_right
    intro j hj
    by_cases heq : j.name = i.name
    · rw [heq, AList.lookup_insert] at hj
      simp at hj
    · rw [AList.lookup_insert_ne heq] at hj
      simpa [heq] using hj
  refine lt_of_le_of_lt hsub.length_le ?_
  apply List.length_filter_lt_length_iff_exists.mpr
  exact ⟨i, mem_missing.mpr h, by simp⟩

/-- The loop over the dependencies comes to an end if the calls in it do. -/
theorem mergeLoop_total
    {merge : MergedHash packages → PackagePointer packages →
      Option (MergedHashEntry packages × MergedHash packages)} {bound : Nat}
    (hmerge : ∀ hash i, (missing hash).length ≤ bound →
      ∃ entry hash', merge hash i = some (entry, hash') ∧ Grows hash hash')
    (package : PcPackage) (dependencies : List RequiredVersion)
    (hbound : (missing hash).length ≤ bound) :
    ∃ failure hash', mergeLoop merge package hash dependencies = some (failure, hash') ∧
      Grows hash hash' := by
  induction dependencies generalizing hash with
  | nil => exact ⟨none, hash, rfl, Grows.refl hash⟩
  | cons dependency dependencies ih =>
      unfold mergeLoop
      cases packageHash packages dependency.name with
      | none => exact ⟨_, hash, rfl, Grows.refl hash⟩
      | some child =>
          rcases hmerge hash child hbound with ⟨childEntry, hash₁, hchild, hgrows⟩
          simp only [hchild, Option.bind_eq_bind, Option.bind_some]
          cases childEntry.package with
          | brokenPackage _ => exact ⟨_, hash₁, rfl, hgrows⟩
          | package merged =>
              dsimp only
              split
              · have hmodify := grows_modifyDeps hash₁ package.baseFileName fun deps =>
                  OrderedClosure.appendNew deps childEntry.deps
                rcases ih ((hgrows.trans hmodify).missing_le.trans hbound) with
                  ⟨failure, hash₂, hloop, hgrows₂⟩
                exact ⟨failure, hash₂, hloop, (hgrows.trans hmodify).trans hgrows₂⟩
              · exact ⟨_, hash₁, rfl, hgrows⟩

/-- As many nested calls as packages are missing are enough. -/
theorem mergeFunc_total (fuel : Nat) (hash : MergedHash packages) (i : PackagePointer packages)
    (hfuel : (missing hash).length ≤ fuel) :
    ∃ entry hash', mergeFunc staticMode fuel hash i = some (entry, hash') ∧ Grows hash hash' := by
  induction fuel generalizing hash i with
  | zero =>
      unfold mergeFunc
      cases hlookup : hash.lookup i.name with
      | some entry => exact ⟨entry, hash, rfl, Grows.refl hash⟩
      | none =>
          have hpos := List.length_pos_of_mem (mem_missing.mpr hlookup)
          omega
  | succ fuel ih =>
      unfold mergeFunc
      cases hlookup : hash.lookup i.name with
      | some entry => exact ⟨entry, hash, rfl, Grows.refl hash⟩
      | none =>
          dsimp only
          cases packages.get i with
          | brokenPackage broken => exact ⟨_, _, rfl, grows_insert hash i.name _⟩
          | package package =>
              have hlt := missing_insert_lt hlookup ⟨default, []⟩
              have hbound : (missing (AList.insert i.name ⟨default, []⟩ hash)).length ≤ fuel := by
                omega
              rcases mergeLoop_total ih package (allDependencies staticMode package) hbound with
                ⟨failure, hash₁, hloop, hgrows⟩
              simp only [hloop, Option.bind_eq_bind, Option.bind_some]
              exact ⟨_, _, rfl, ((grows_insert hash i.name _).trans hgrows).trans
                (grows_insert hash₁ i.name _)⟩

theorem mergeAll_total (fuel : Nat) (is : List (PackagePointer packages))
    (hash : MergedHash packages) (hfuel : (missing hash).length ≤ fuel) :
    ∃ hash', mergeAll staticMode fuel hash is = some hash' := by
  induction is generalizing hash with
  | nil => exact ⟨hash, rfl⟩
  | cons i is ih =>
      rcases mergeFunc_total fuel hash i hfuel with ⟨entry, hash₁, hmerge, hgrows⟩
      rcases ih hash₁ (hgrows.missing_le.trans hfuel) with ⟨hash', hall⟩
      refine ⟨hash', ?_⟩
      unfold mergeAll at hall ⊢
      rw [List.foldlM_cons, hmerge]
      exact hall

/-- As many nested calls as there are packages are enough. -/
theorem isSome_mergeAll (staticMode : Bool) (packages : List PcPackageVariant) :
    (mergeAll staticMode packages.length (∅ : MergedHash packages)
      (List.finRange packages.length)).isSome = true := by
  have hle := List.length_filter_le (fun i : PackagePointer packages =>
    ((∅ : MergedHash packages).lookup i.name).isNone) (List.finRange packages.length)
  rw [List.length_finRange] at hle
  exact Option.isSome_iff_exists.mpr (mergeAll_total _ _ ∅ hle)

/-- The hash after all packages were merged. -/
def mergedHash (staticMode : Bool) (packages : List PcPackageVariant) : MergedHash packages :=
  (mergeAll staticMode packages.length ∅ (List.finRange packages.length)).get
    (isSome_mergeAll staticMode packages)

/-- The merged packages, in the order of the hash. -/
def mergeDependencies (staticMode : Bool) (packages : List PcPackageVariant) :
    List PcPackageVariant :=
  (mergedHash staticMode packages).entries.map fun e => e.2.package

end PkgConfig

end Qbs
