import Mathlib.Data.Char
import Mathlib.Data.List.Lex
import QbsCore.PkgConfig.DependencyClosure

/-!
# Finding packages

The package files in the search paths are read, merged and sorted by their base file names.
A package is looked up by binary search.  The listing of a directory and what is read from a
file are parameters.

Main results:

- Theorem {lit}`PkgConfig.getPackage_findPackages`: looking up a package gives what is in the hash
  of the merged packages.
-/

namespace Qbs

open PcPackage

/-! ## Changes to the flags of a package -/

/-- Leave out the library paths of the system. -/
def PcPackage.removeSystemLibraryPaths (package : PcPackage) (libraryPaths : List StdString) :
    PcPackage :=
  if libraryPaths = [] then package
  else
    let keep (flag : Flag) : Bool := !(flag.type = .libraryPath && flag.value ∈ libraryPaths)
    { package with
      libs := package.libs.filter keep
      libsPrivate := package.libsPrivate.filter keep
      libs_kind := fun flag hflag => package.libs_kind flag (List.mem_of_mem_filter hflag) }

/-- Put the root in front of a flag that is a path. -/
def PcPackage.Flag.prependSysroot (sysroot : StdString) (flag : Flag) : Flag :=
  if flag.type = .includePath ∨ flag.type = .systemIncludePath ∨ flag.type = .dirAfterIncludePath ∨
      flag.type = .libraryPath then
    { flag with value := sysroot ++ flag.value }
  else flag

@[simp]
theorem PcPackage.Flag.type_prependSysroot (sysroot : StdString) (flag : Flag) :
    (flag.prependSysroot sysroot).type = flag.type := by
  unfold prependSysroot
  split <;> simp

/-- Put the root in front of all paths. -/
def PcPackage.prependSysroot (package : PcPackage) (sysroot : StdString) : PcPackage :=
  if sysroot = [] then package
  else
    { package with
      libs := package.libs.map (Flag.prependSysroot sysroot)
      libsPrivate := package.libsPrivate.map (Flag.prependSysroot sysroot)
      cflags := package.cflags.map (Flag.prependSysroot sysroot)
      libs_kind := by
        simpa using package.libs_kind
      cflags_kind := by
        simpa using package.cflags_kind }

/-- The changes to the flags keep the names. -/
theorem PcPackage.names_removeSystemLibraryPaths (package : PcPackage)
    (libraryPaths : List StdString) :
    (package.removeSystemLibraryPaths libraryPaths).baseFileName = package.baseFileName ∧
      (package.removeSystemLibraryPaths libraryPaths).filePath = package.filePath := by
  unfold PcPackage.removeSystemLibraryPaths
  split <;> simp

theorem PcPackage.names_prependSysroot (package : PcPackage) (sysroot : StdString) :
    (package.prependSysroot sysroot).baseFileName = package.baseFileName ∧
      (package.prependSysroot sysroot).filePath = package.filePath := by
  unfold PcPackage.prependSysroot
  split <;> simp

namespace PkgConfig

/-! ## Reading the files -/

structure Options where
  libDirs : List StdString
  extraPaths : List StdString
  sysroot : StdString
  systemLibraryPaths : List StdString
  disableUninstalled : Bool
  staticMode : Bool
  mergeDependencies : Bool
  allowSystemLibraryPaths : Bool

/-- The package files: those of a directory, in the order in which they are listed, and what is
read from a file. -/
structure PcFiles where
  listing : StdString → List StdString
  read : StdString → Except PcException PcPackage

/-- The name of a file without its path and its last extension. -/
def baseName (filePath : StdString) : StdString :=
  let fileName :=
    if '/' ∈ filePath then (filePath.reverse.takeWhile (· ≠ '/')).reverse else []
  if '.' ∈ fileName then ((fileName.reverse.dropWhile (· ≠ '.')).drop 1).reverse else []

/-- The package of a file. One that cannot be read is broken. -/
def parsePackageFile (files : PcFiles) (path : StdString) : PcPackageVariant :=
  match files.read path with
  | .ok package => .package { package with filePath := path, baseFileName := baseName path }
  | .error ex => .brokenPackage ⟨path, baseName path, ex.message⟩

variable (options : Options) (files : PcFiles)

def allSearchPaths : List StdString :=
  options.extraPaths ++ options.libDirs

/-- Files of packages that are not installed can be left out. -/
def isUsed (pcFilePath : StdString) : Bool :=
  !(options.disableUninstalled && decide ("-uninstalled.pc".toList <:+: pcFilePath))

/-- The files of a directory that are read. -/
def usedFiles (searchPath : StdString) : List StdString :=
  (files.listing searchPath).filter (isUsed options)

def getPcFilePaths : List StdString :=
  (allSearchPaths options).flatMap (usedFiles options files)

/-- The package of a file, with the changes to its flags that the options ask for. -/
def foundPackage (pcFilePath : StdString) : PcPackageVariant :=
  match parsePackageFile files pcFilePath with
  | .package package =>
      .package ((package.removeSystemLibraryPaths
        (if options.allowSystemLibraryPaths then [] else options.systemLibraryPaths)).prependSysroot
          options.sysroot)
  | .brokenPackage broken => .brokenPackage broken

/-- The packages of all files, in the order of the search paths. -/
def unmergedPackages : List PcPackageVariant :=
  (getPcFilePaths options files).map (foundPackage options files)

/-- All packages, sorted by their base file names. -/
def findPackages : List PcPackageVariant :=
  let result :=
    if options.mergeDependencies then
      mergeDependencies options.staticMode (unmergedPackages options files)
    else unmergedPackages options files
  result.mergeSort fun lhs rhs => lhs.getBaseFileName ≤ rhs.getBaseFileName

def unknownPackageException (package : StdString) : PcException :=
  ⟨"Can't find package '".toList ++ package ++ "'".toList⟩

/-- The package with a name in a sorted list, at the first position where the names are not less. -/
def getPackage (packages : List PcPackageVariant) (baseFileName : StdString) :
    Except PcException PcPackageVariant :=
  match packages.dropWhile fun package => package.getBaseFileName < baseFileName with
  | [] => .error (unknownPackageException baseFileName)
  | package :: _ =>
      if baseFileName ≠ package.getBaseFileName then
        .error (unknownPackageException baseFileName)
      else .ok package

variable {options files}

/-! ## Names and paths of the packages -/

theorem foundPackage_names (path : StdString) :
    (foundPackage options files path).getBaseFileName = baseName path ∧
      (foundPackage options files path).getFilePath = path := by
  unfold foundPackage parsePackageFile
  cases files.read path with
  | error ex => simp [PcPackageVariant.getBaseFileName, PcPackageVariant.getFilePath]
  | ok package =>
      simp [PcPackageVariant.getBaseFileName, PcPackageVariant.getFilePath,
        PcPackage.names_prependSysroot, PcPackage.names_removeSystemLibraryPaths]

theorem map_getFilePath_unmergedPackages :
    (unmergedPackages options files).map PcPackageVariant.getFilePath =
      getPcFilePaths options files := by
  simp [unmergedPackages, Function.comp_def, foundPackage_names]

/-! ## Looking up a package -/

/-- In a sorted list with different names, each package is found under its name. -/
theorem getPackage_eq_ok {packages : List PcPackageVariant} {package : PcPackageVariant}
    (hsorted : packages.Pairwise fun a b => a.getBaseFileName ≤ b.getBaseFileName)
    (hnames : (packages.map PcPackageVariant.getBaseFileName).Nodup) (h : package ∈ packages) :
    getPackage packages package.getBaseFileName = .ok package := by
  rcases List.append_of_mem h with ⟨before, after, heq⟩
  have hbefore : ∀ p, p ∈ before → decide (p.getBaseFileName < package.getBaseFileName) = true := by
    intro p hp
    rw [heq] at hsorted hnames
    have hle := (List.pairwise_append.mp hsorted).2.2 p hp package (by simp)
    rw [List.map_append, List.nodup_append] at hnames
    have hne := hnames.2.2 _ (List.mem_map_of_mem hp) package.getBaseFileName (by simp)
    exact decide_eq_true (lt_of_le_of_ne hle hne)
  unfold getPackage
  rw [heq, List.dropWhile_append_of_pos hbefore]
  simp

theorem getPackage_eq_error {packages : List PcPackageVariant} {name : StdString}
    (h : ∀ package, package ∈ packages → package.getBaseFileName ≠ name) :
    getPackage packages name = .error (unknownPackageException name) := by
  unfold getPackage
  split
  · simp
  · rename_i package rest heq
    have hmem : package ∈ packages := by
      apply (List.dropWhile_sublist fun p => decide (p.getBaseFileName < name)).subset
      simp [heq]
    simp [Ne.symm (h package hmem)]

/-- What a name stands for in the hash of the merged packages. -/
def reportedPackage (options : Options) (files : PcFiles) (name : StdString) :
    Option PcPackageVariant :=
  ((mergedHash options.staticMode (unmergedPackages options files)).lookup name).map
    MergedHashEntry.package

/-- If packages are merged, looking up a name gives what is in the hash. -/
theorem getPackage_findPackages (hmerge : options.mergeDependencies = true) (name : StdString) :
    getPackage (findPackages options files) name =
      match reportedPackage options files name with
      | some package => .ok package
      | none => .error (unknownPackageException name) := by
  have hperm := List.mergeSort_perm
    (mergeDependencies options.staticMode (unmergedPackages options files))
    fun lhs rhs => lhs.getBaseFileName ≤ rhs.getBaseFileName
  have hfind : findPackages options files =
      (mergeDependencies options.staticMode (unmergedPackages options files)).mergeSort
        fun lhs rhs => lhs.getBaseFileName ≤ rhs.getBaseFileName := by
    simp [findPackages, hmerge]
  rw [← hfind] at hperm
  have hmem : ∀ package, package ∈ findPackages options files ↔
      reportedPackage options files package.getBaseFileName = some package := by
    intro package
    rw [hperm.mem_iff, mem_mergeDependencies, reportedPackage, Option.map_eq_some_iff]
  cases hreported : reportedPackage options files name with
  | none =>
      apply getPackage_eq_error
      intro package hpackage hname
      rw [hmem, hname, hreported] at hpackage
      simp at hpackage
  | some package =>
      have hname : package.getBaseFileName = name := by
        rcases Option.map_eq_some_iff.mp hreported with ⟨entry, hlookup, heq⟩
        rw [← heq, name_of_mergedHash hlookup]
      have hsorted := AssocMap.pairwise_mergeSort_key PcPackageVariant.getBaseFileName
        (mergeDependencies options.staticMode (unmergedPackages options files))
      rw [← hfind] at hsorted
      have hnames : ((findPackages options files).map PcPackageVariant.getBaseFileName).Nodup := by
        rw [(hperm.map _).nodup_iff, map_getBaseFileName_mergeDependencies]
        exact AList.keys_nodup _
      dsimp only
      rw [← hname]
      apply getPackage_eq_ok hsorted hnames
      rw [hmem, hname, hreported]

end PkgConfig

end Qbs
