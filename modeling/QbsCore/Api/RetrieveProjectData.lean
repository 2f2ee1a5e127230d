import QbsCore.Api.ProjectData
import QbsCore.BuildGraph.Basic
import QbsCore.BuildGraph.ProductInstaller

/-!
# Retrieving project data

The data of a project are gathered from its products, their groups and artifacts.

Main results:

- Definition {lit}`retrieveProjectData`: the data before the lists in them are sorted.

Current gaps:

- The warnings about files that cannot be installed are left out.
-/

namespace Qbs

namespace Api

/-! ## Resolved projects -/

structure SourceArtifact where
  absoluteFilePath : String
  fileTags : List String
  properties : VariantMap

structure Group where
  name : String
  groupPrefix : String
  location : CodeLocation
  files : List SourceArtifact
  wildcards : Option (List SourceArtifact)
  properties : VariantMap
  enabled : Bool
  targetOfModule : String

/-- An artifact in the build data of a product. -/
structure Artifact where
  filePath : String
  artifactType : ArtifactType
  fileTags : List String
  properties : VariantMap
  isRootArtifact : Bool

structure RescuableArtifactData where
  filePath : String
  fileTags : List String
  properties : VariantMap

/-- A product with its build data, which are there if it is enabled. -/
structure ResolvedProduct where
  fileTags : List String
  name : String
  targetName : String
  productProperties : VariantMap
  multiplexConfigurationId : String
  location : CodeLocation
  sourceDirectory : PathText
  enabled : Bool
  moduleProperties : VariantMap
  groups : List Group
  artifacts : List Artifact
  rescuableArtifactData : List RescuableArtifactData
  /-- The names and multiplex configurations of the products that this one depends on. -/
  dependencies : List (String × String)

structure ResolvedProject where
  name : String
  location : CodeLocation
  enabled : Bool
  products : List ResolvedProduct
  subProjects : List ResolvedProject

/-- What is the same for all products of a project. -/
structure TopLevelProject where
  homePath : PathText
  effectiveInstallRoot : PathText

/-! ## Gathering -/

variable (project : TopLevelProject)

/-- The properties of an artifact that say where to install it. -/
def installProperties (properties : VariantMap) : ProductInstaller.InstallProperties where
  install := (properties.moduleProperty "qbs" "install").toBool
  installDir := (properties.moduleProperty "qbs" "installDir").toString.toList
  installPrefix := (properties.moduleProperty "qbs" "installPrefix").toString.toList
  installSourceBase := (properties.moduleProperty "qbs" "installSourceBase").toString.toList
  installRoot := (properties.moduleProperty "qbs" "installRoot").toString.toList

/-- The install data of an artifact. The file path is relative to the install root. -/
def setupInstallData (artifact : ArtifactData) (product : ResolvedProduct) : ArtifactData :=
  let properties := installProperties artifact.properties
  if !properties.install then { artifact with installData := ⟨"", "", true, false⟩ }
  else
    let installRoot := properties.installRoot
    let installFilePath :=
      match ProductInstaller.targetFilePath project.homePath project.effectiveInstallRoot
          product.sourceDirectory artifact.filePath.toList properties
          ⟨installRoot, false, false, false⟩ with
      | .error _ => []
      | .ok installFilePath => installFilePath.drop installRoot.length
    { artifact with
      installData := ⟨String.ofList installFilePath, String.ofList installRoot, true, true⟩ }

/-- Data without install data. -/
def InstallData.none : InstallData :=
  ⟨"", "", false, false⟩

def createApiSourceArtifact (sa : SourceArtifact) : ArtifactData where
  filePath := sa.absoluteFilePath
  fileTags := sa.fileTags
  properties := sa.properties
  installData := .none
  isValid := true
  isGenerated := false
  isTargetArtifact := false

def createArtifactData (artifact : Artifact) (product : ResolvedProduct) : ArtifactData :=
  setupInstallData project
    { filePath := artifact.filePath
      fileTags := artifact.fileTags
      properties := artifact.properties
      installData := .none
      isValid := true
      isGenerated := artifact.artifactType = .generated
      isTargetArtifact := artifact.isRootArtifact } product

/-- The data of an artifact that was there in an earlier build. -/
def createRescuedArtifactData (rad : RescuableArtifactData) (product : ResolvedProduct) :
    ArtifactData :=
  setupInstallData project
    { filePath := rad.filePath
      fileTags := rad.fileTags
      properties := rad.properties
      installData := .none
      isValid := true
      isGenerated := true
      isTargetArtifact := product.fileTags.any rad.fileTags.contains } product

def createGroupDataFromGroup (group : Group) (product : ResolvedProduct) : GroupData where
  name := group.name
  groupPrefix := group.groupPrefix
  location := group.location
  sourceArtifacts :=
    group.files.map fun sa => setupInstallData project (createApiSourceArtifact sa) product
  sourceArtifactsFromWildcards :=
    (group.wildcards.getD []).map fun sa =>
      setupInstallData project (createApiSourceArtifact sa) product
  properties := group.properties
  isEnabled := group.enabled
  isValid := true

def productIsRunnable (product : ResolvedProduct) : Bool :=
  isRunnableArtifact product.fileTags
    (product.moduleProperties.moduleProperty "bundle" "isBundle").toBool
    ((product.moduleProperties.moduleProperty "Android.sdk" "packageType").toString = "apk")

def productIsMultiplexed (product : ResolvedProduct) : Bool :=
  (product.productProperties.value "multiplexed").toBool

variable (multiplexIdToString : String → String)

def retrieveProductData (product : ResolvedProduct) : ProductData where
  type := product.fileTags
  dependencies :=
    product.dependencies.map fun dep => fullDisplayName multiplexIdToString dep.1 dep.2
  name := product.name
  targetName := product.targetName
  version := (product.productProperties.value "version").toString
  multiplexConfigurationId := product.multiplexConfigurationId
  location := product.location
  buildDirectory := (product.productProperties.value "buildDirectory").toString
  groups :=
    (product.groups.filter fun group => group.targetOfModule = "").map fun group =>
      createGroupDataFromGroup project group product
  properties := product.productProperties
  moduleProperties := product.moduleProperties
  generatedArtifacts :=
    if product.enabled then
      (product.artifacts.filter fun a => a.artifactType = .generated).map
          (createArtifactData project · product) ++
        product.rescuableArtifactData.map (createRescuedArtifactData project · product)
    else []
  isEnabled := product.enabled
  isRunnable := productIsRunnable product
  isMultiplexed := productIsMultiplexed product
  isValid := true

mutual

/-- The data of a project, before the lists in them are sorted. -/
def retrieveProjectData : ResolvedProject → ProjectData
  | ⟨name, location, enabled, products, subProjects⟩ =>
      { name := name
        location := location
        enabled := enabled
        isValid := true
        products := products.map (retrieveProductData project multiplexIdToString)
        subProjects := retrieveSubProjects subProjects
        buildDir := "" }

/-- The data of those subprojects that are enabled. -/
def retrieveSubProjects : List ResolvedProject → List ProjectData
  | [] => []
  | p :: projects =>
      if p.enabled then retrieveProjectData p :: retrieveSubProjects projects
      else retrieveSubProjects projects

end

end Api

end Qbs
