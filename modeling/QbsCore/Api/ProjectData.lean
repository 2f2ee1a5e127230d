import QbsCore.Language.Variant
import QbsCore.Loader.ProductSort
import QbsCore.Tools.FileInfo

/-!
# Project data

What a project looks like from outside: projects with products, which have groups of source
artifacts and generated artifacts.  These data can be compared with each other, ordered for
sorting, and turned into JSON.

Main results:

- Definitions {lit}`ArtifactData.equals` to {lit}`ProjectData.equals`: the comparisons.
- Definitions {lit}`ArtifactData.toJson` to {lit}`ProjectData.toJson`: the JSON objects.

Current gaps:

- The values in JSON are variants.
- How {lit}`QVariant`s compare is given.
-/

namespace Qbs

namespace Api

/-- What is given: how multiplex configurations are displayed, and which values compare equal,
such as 1 and "1". -/
structure Externals where
  multiplexIdToString : String → String
  sameVariant : Variant → Variant → Bool

/-- An object in JSON, with its entries in key order. -/
abbrev JsonObject := VariantMap

/-- Insert entries one after the other. -/
def objectOf (entries : List (String × Variant)) : JsonObject :=
  entries.foldl (fun obj e => obj.insert e.1 e.2) []

structure CodeLocation where
  filePath : String
  line : Int
  column : Int
deriving DecidableEq

/-- A location without data. -/
def CodeLocation.none : CodeLocation :=
  ⟨"", -1, -1⟩

def CodeLocation.toJson (location : CodeLocation) : JsonObject :=
  objectOf
    ((if location.filePath ≠ "" then [("file-path", .string location.filePath)] else []) ++
      (if location.line ≠ -1 then [("line", .int location.line)] else []) ++
      (if location.column ≠ -1 then [("column", .int location.column)] else []))

structure InstallData where
  installFilePath : String
  installRoot : String
  isValid : Bool
  isInstallable : Bool

structure ArtifactData where
  filePath : String
  fileTags : List String
  properties : VariantMap
  installData : InstallData
  isValid : Bool
  isGenerated : Bool
  isTargetArtifact : Bool

structure GroupData where
  name : String
  groupPrefix : String
  location : CodeLocation
  sourceArtifacts : List ArtifactData
  sourceArtifactsFromWildcards : List ArtifactData
  properties : VariantMap
  isEnabled : Bool
  isValid : Bool

structure ProductData where
  type : List String
  dependencies : List String
  name : String
  targetName : String
  version : String
  multiplexConfigurationId : String
  location : CodeLocation
  buildDirectory : String
  groups : List GroupData
  properties : VariantMap
  moduleProperties : VariantMap
  generatedArtifacts : List ArtifactData
  isEnabled : Bool
  isRunnable : Bool
  isMultiplexed : Bool
  isValid : Bool

structure ProjectData where
  name : String
  location : CodeLocation
  enabled : Bool
  isValid : Bool
  products : List ProductData
  subProjects : List ProjectData
  buildDir : String

/-! ## Install data -/

namespace InstallData

/-- Whether to install. Data that is not valid does not say so. -/
def installable (d : InstallData) : Bool :=
  d.isValid && d.isInstallable

def localInstallFilePath (d : InstallData) : String :=
  String.ofList (FileInfo.cleanPath (d.installRoot.toList ++ '/' :: d.installFilePath.toList))

def toJson (d : InstallData) : JsonObject :=
  if d.isValid then
    objectOf (("is-installable", .bool d.isInstallable) ::
      if d.isInstallable then
        [("install-file-path", .string d.installFilePath), ("install-root", .string d.installRoot)]
      else [])
  else []

end InstallData

/-! ## Module properties -/

/-- The value of a property with the name of a module before it. -/
def getModuleProperty (properties : VariantMap) (fullPropertyName : String) : Variant :=
  let reversed := fullPropertyName.toList.reverse
  if '.' ∉ reversed then .invalid
  else
    properties.moduleProperty
      (String.ofList ((reversed.dropWhile fun ch => ch ≠ '.').drop 1).reverse)
      (String.ofList (reversed.takeWhile fun ch => ch ≠ '.').reverse)

/-- The values of those module properties that there are. -/
def propertyValues (properties : VariantMap) (propertyNames : List String) : JsonObject :=
  objectOf ((propertyNames.map fun prop => (prop, getModuleProperty properties prop)).filter
    fun e => e.2 ≠ .invalid)

/-- The entry for some module properties. -/
def modulePropertiesEntry (properties : VariantMap) (propertyNames : List String) :
    List (String × Variant) :=
  if propertyValues properties propertyNames = [] then []
  else [("module-properties", .map (propertyValues properties propertyNames))]

/-! ## Artifacts -/

def isRunnableArtifact (fileTags : List String) (isBundle isAndroidApk : Bool) : Bool :=
  fileTags.contains "application" && (!isBundle || fileTags.contains "bundle.content") ||
    fileTags.contains "bundle.application-executable" ||
      fileTags.contains "android.package" && isAndroidApk || fileTags.contains "msi"

namespace ArtifactData

def isExecutable (d : ArtifactData) : Bool :=
  isRunnableArtifact d.fileTags (d.properties.moduleProperty "bundle" "isBundle").toBool
    ((d.properties.moduleProperty "Android.sdk" "packageType").toString = "apk")

/-- Whether this is a target artifact of its product. Data that is not valid is not. -/
def isTarget (d : ArtifactData) : Bool :=
  d.isValid && d.isTargetArtifact

def toJson (d : ArtifactData) (moduleProperties : List String) : JsonObject :=
  if d.isValid then
    objectOf ([("file-path", .string d.filePath), ("file-tags", .ofStringList d.fileTags),
      ("is-generated", .bool d.isGenerated), ("is-executable", .bool d.isExecutable),
      ("is-target", .bool d.isTargetArtifact), ("install-data", .map d.installData.toJson)] ++
        modulePropertiesEntry d.properties moduleProperties)
  else []

def equals (ext : Externals) (ad1 ad2 : ArtifactData) : Bool :=
  ad1.filePath = ad2.filePath && ad1.fileTags = ad2.fileTags &&
    ad1.isGenerated = ad2.isGenerated && ad1.properties.sameValues ext.sameVariant ad2.properties

instance : LT ArtifactData :=
  ⟨fun ta1 ta2 => ta1.filePath < ta2.filePath⟩

end ArtifactData

def toJsonArray (objects : List JsonObject) : Variant :=
  .list (objects.map .map)

/-! ## Groups -/

namespace GroupData

def toJson (d : GroupData) (moduleProperties : List String) : JsonObject :=
  if d.isValid then
    objectOf ([("location", .map d.location.toJson), ("name", .string d.name),
      ("prefix", .string d.groupPrefix), ("is-enabled", .bool d.isEnabled),
      ("source-artifacts", toJsonArray (d.sourceArtifacts.map fun a => a.toJson [])),
      ("source-artifacts-from-wildcards",
        toJsonArray (d.sourceArtifactsFromWildcards.map fun a => a.toJson []))] ++
        modulePropertiesEntry d.properties moduleProperties)
  else []

def equals (ext : Externals) (lhs rhs : GroupData) : Bool :=
  if !lhs.isValid && !rhs.isValid then true
  else
    lhs.isValid = rhs.isValid && lhs.name = rhs.name && lhs.location = rhs.location &&
      lhs.sourceArtifactsFromWildcards.isEqv rhs.sourceArtifactsFromWildcards
        (ArtifactData.equals ext) &&
      lhs.sourceArtifacts.isEqv rhs.sourceArtifacts (ArtifactData.equals ext) &&
      lhs.properties.sameValues ext.sameVariant rhs.properties && lhs.isEnabled = rhs.isEnabled

instance : LT GroupData :=
  ⟨fun lhs rhs => lhs.name < rhs.name⟩

end GroupData

/-! ## Products -/

namespace ProductData

def profile (d : ProductData) : String :=
  (d.moduleProperties.moduleProperty "qbs" "profile").toString

def targetArtifacts (d : ProductData) : List ArtifactData :=
  d.generatedArtifacts.filter ArtifactData.isTarget

/-- Where an executable can be run: at the place where it is installed, if it is. -/
def executablePath (ta : ArtifactData) : String :=
  if ta.installData.installable then ta.installData.localInstallFilePath else ta.filePath

/-- Where the first executable is that a bundle contains or, if there is none, the first one. -/
def targetExecutable (d : ProductData) : String :=
  let inBundle :=
    if (d.moduleProperties.moduleProperty "bundle" "isBundle").toBool then
      d.targetArtifacts.find? fun ta => ta.fileTags.contains "bundle.application-executable"
    else none
  ((inBundle.or (d.targetArtifacts.find? ArtifactData.isExecutable)).map executablePath).getD ""

/-- The names of the properties that are given for a group: none if the properties equal those of
the product. -/
def groupPropNames (ext : Externals) (d : ProductData) (g : GroupData)
    (propertyNames : List String) : List String :=
  if g.properties.sameValues ext.sameVariant d.moduleProperties then [] else propertyNames

def toJson (ext : Externals) (d : ProductData) (propertyNames : List String) : JsonObject :=
  if d.isValid then
    objectOf ([("type", .ofStringList d.type), ("dependencies", .ofStringList d.dependencies),
      ("name", .string d.name),
      ("full-display-name",
        .string (fullDisplayName ext.multiplexIdToString d.name d.multiplexConfigurationId)),
      ("target-name", .string d.targetName), ("version", .string d.version),
      ("multiplex-configuration-id", .string d.multiplexConfigurationId),
      ("location", .map d.location.toJson), ("build-directory", .string d.buildDirectory),
      ("generated-artifacts",
        toJsonArray (d.generatedArtifacts.map fun a => a.toJson propertyNames)),
      ("target-executable", .string d.targetExecutable),
      ("groups", toJsonArray
        (d.groups.map fun g => g.toJson (d.groupPropNames ext g propertyNames))),
      ("properties", .map d.properties), ("is-enabled", .bool d.isEnabled),
      ("is-runnable", .bool d.isRunnable), ("is-multiplexed", .bool d.isMultiplexed)] ++
        modulePropertiesEntry d.moduleProperties propertyNames)
  else []

def equals (ext : Externals) (lhs rhs : ProductData) : Bool :=
  if !lhs.isValid && !rhs.isValid then true
  else
    lhs.isValid = rhs.isValid && lhs.name = rhs.name && lhs.targetName = rhs.targetName &&
      lhs.type = rhs.type && lhs.version = rhs.version &&
      lhs.dependencies = rhs.dependencies && lhs.profile = rhs.profile &&
      lhs.multiplexConfigurationId = rhs.multiplexConfigurationId &&
      lhs.location = rhs.location && lhs.groups.isEqv rhs.groups (GroupData.equals ext) &&
      lhs.generatedArtifacts.isEqv rhs.generatedArtifacts (ArtifactData.equals ext) &&
      lhs.properties.sameValues ext.sameVariant rhs.properties &&
      lhs.moduleProperties.sameValues ext.sameVariant rhs.moduleProperties &&
      lhs.isEnabled = rhs.isEnabled && lhs.isMultiplexed = rhs.isMultiplexed

/-- Products are ordered by name. For products with one name, both the profile and the multiplex
configuration have to be less. -/
instance : LT ProductData :=
  ⟨fun lhs rhs =>
    if lhs.name < rhs.name then True
    else if rhs.name < lhs.name then False
    else lhs.profile < rhs.profile ∧
      lhs.multiplexConfigurationId < rhs.multiplexConfigurationId⟩

end ProductData

/-! ## Projects -/

namespace ProjectData

mutual

def toJson (ext : Externals) (moduleProperties : List String) : ProjectData → JsonObject
  | ⟨name, location, enabled, isValid, products, subProjects, _⟩ =>
      if isValid then
        objectOf [("name", .string name), ("location", .map location.toJson),
          ("is-enabled", .bool enabled),
          ("products", toJsonArray
            (products.map fun p => p.toJson ext moduleProperties)),
          ("sub-projects", toJsonArray (toJsonObjects ext moduleProperties subProjects))]
      else []

def toJsonObjects (ext : Externals) (moduleProperties : List String) :
    List ProjectData → List JsonObject
  | [] => []
  | p :: projects => p.toJson ext moduleProperties :: toJsonObjects ext moduleProperties projects

end

mutual

def equals (ext : Externals) : ProjectData → ProjectData → Bool
  | ⟨name, location, enabled, isValid, products, subProjects, buildDir⟩, rhs =>
      if !isValid && !rhs.isValid then true
      else
        isValid = rhs.isValid && enabled = rhs.enabled && name = rhs.name &&
          buildDir = rhs.buildDir && location = rhs.location &&
          equalLists ext subProjects rhs.subProjects &&
          products.isEqv rhs.products (ProductData.equals ext)

def equalLists (ext : Externals) : List ProjectData → List ProjectData → Bool
  | [], [] => true
  | p :: projects, q :: projects' => p.equals ext q && equalLists ext projects projects'
  | _, _ => false

end

instance : LT ProjectData :=
  ⟨fun lhs rhs => lhs.name < rhs.name⟩

/-- What holds of each project if it holds of those that have only such subprojects. -/
theorem induct {P : ProjectData → Prop}
    (h : ∀ p : ProjectData, (∀ q, q ∈ p.subProjects → P q) → P p) (p : ProjectData) : P p := by
  apply h
  intro q hq
  exact induct h q
termination_by sizeOf p
decreasing_by
  have hlt := List.sizeOf_lt_of_mem hq
  cases p
  simp only [ProjectData.mk.sizeOf_spec] at *
  omega

end ProjectData

end Api

end Qbs
