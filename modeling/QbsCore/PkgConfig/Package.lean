import Mathlib.Data.List.Basic
import QbsCore.Library.Texts

/-!
# Packages

What a package file says about its package: the flags that users of the package need, and
the packages that it requires.  A text is a list of characters, each of which stands for
one byte.

Main results:

- Structure {lit}`PcPackage`: the kinds of the flags are part of the data.
-/

namespace Qbs

/-- A text. -/
abbrev StdString := List Char

/-- White space in the C locale. -/
def isspace (c : Char) : Bool :=
  c = ' ' || c = '\t' || c = '\n' || c = '\x0b' || c = '\x0c' || c = '\r'

/-- A text without the white space around it. -/
def trimmed (str : StdString) : StdString :=
  ((str.dropWhile isspace).reverse.dropWhile isspace).reverse

/-- An exception while a package file is read. -/
structure PcException where
  message : StdString
deriving DecidableEq

namespace PcPackage

/-! ## Flags -/

inductive FlagType where
  | libraryName
  | staticLibraryName
  | libraryPath
  | framework
  | frameworkPath
  | linkerFlag
  | includePath
  | systemIncludePath
  | dirAfterIncludePath
  | define
  | compilerFlag
deriving DecidableEq

/-- The kinds of flags for the linker. -/
def FlagType.isLibsType : FlagType → Bool
  | .libraryName | .staticLibraryName | .libraryPath | .framework | .frameworkPath
  | .linkerFlag => true
  | _ => false

structure Flag where
  type : FlagType
  value : StdString
deriving DecidableEq

/-! ## Required packages -/

inductive ComparisonType where
  | lessThan
  | greaterThan
  | lessThanEqual
  | greaterThanEqual
  | equal
  | notEqual
  | alwaysMatch
deriving DecidableEq

structure RequiredVersion where
  name : StdString
  comparison : ComparisonType
  version : StdString
deriving DecidableEq

def comparisonToString : ComparisonType → StdString
  | .lessThan => "LessThan".toList
  | .greaterThan => "GreaterThan".toList
  | .lessThanEqual => "LessThanEqual".toList
  | .greaterThanEqual => "GreaterThanEqual".toList
  | .equal => "Equal".toList
  | .notEqual => "NotEqual".toList
  | .alwaysMatch => "AlwaysMatch".toList

end PcPackage

/-! ## Packages -/

/-- A package. The flags of the libraries and of the compiler are of different kinds. -/
structure PcPackage where
  filePath : StdString
  baseFileName : StdString
  name : StdString
  version : StdString
  description : StdString
  url : StdString
  libs : List PcPackage.Flag
  libsPrivate : List PcPackage.Flag
  cflags : List PcPackage.Flag
  requiresPublic : List PcPackage.RequiredVersion
  requiresPrivate : List PcPackage.RequiredVersion
  conflicts : List PcPackage.RequiredVersion
  variablesMap : List (StdString × StdString)
  libs_kind : ∀ flag, flag ∈ libs → flag.type.isLibsType = true
  cflags_kind : ∀ flag, flag ∈ cflags → flag.type.isLibsType = false

namespace PcPackage

/-- A package about which nothing is known. -/
def empty : PcPackage where
  filePath := []
  baseFileName := []
  name := []
  version := []
  description := []
  url := []
  libs := []
  libsPrivate := []
  cflags := []
  requiresPublic := []
  requiresPrivate := []
  conflicts := []
  variablesMap := []
  libs_kind := by simp
  cflags_kind := by simp

instance : Inhabited PcPackage where
  default := empty

end PcPackage

/-- A package that could not be read or merged. -/
structure PcBrokenPackage where
  filePath : StdString
  baseFileName : StdString
  errorText : StdString
deriving DecidableEq

inductive PcPackageVariant where
  | package (p : PcPackage)
  | brokenPackage (p : PcBrokenPackage)

namespace PcPackageVariant

instance : Inhabited PcPackageVariant where
  default := .package default

def isBroken : PcPackageVariant → Bool
  | .package _ => false
  | .brokenPackage _ => true

def getBaseFileName : PcPackageVariant → StdString
  | .package p => p.baseFileName
  | .brokenPackage p => p.baseFileName

def getFilePath : PcPackageVariant → StdString
  | .package p => p.filePath
  | .brokenPackage p => p.filePath

end PcPackageVariant

end Qbs
