import QbsCore.Language.Project
import QbsCore.Library.AssocMap
import QbsCore.Library.StateOp
import QbsCore.Tools.Error

/-!
# Resolving the groups of a product

Each Group item of a product becomes a resolved group with source artifacts or, with a
file tags filter, an entry of properties for artifacts.  Property maps are shared by
address: a group without module properties of its own has the map of its parent.

Main results:

- Definition {lit}`ProjectResolver.getGroupPropertyMap`: the property map of a group.
- Definition {lit}`ProjectResolver.resolveGroup`: a group with all groups in it.

Current gaps:

- Expressions are given by their values, and cancellation by the user is left out.
-/

namespace Qbs

/-- A place in a project file. -/
structure CodeLocation where
  filePath : FilePath
  line : Nat
deriving DecidableEq

def CodeLocation.isValid (l : CodeLocation) : Bool :=
  l.filePath ≠ ""

/-- The address of a property map. -/
abbrev PropertyMapId := Nat

namespace ProjectResolver

/-- What the properties of a Group item evaluate to. An expression may fail. -/
structure GroupData where
  location : CodeLocation
  filesLocation : CodeLocation
  condition : Except ErrorInfo Bool
  files : Except ErrorInfo (List String)
  fileTags : Except ErrorInfo (FileTags × Bool)
  fileTagsFilter : Except ErrorInfo (List String)
  filePrefix : Except ErrorInfo (String × Bool)
  overrideTags : Except ErrorInfo Bool
  excludeFiles : Except ErrorInfo (List String)
  name : Except ErrorInfo String
  targetOfModule : String
  /-- All module properties with the ones set in the group, from the current ones; empty
  for a group that sets none. -/
  resolveAdditionalModuleProperties : VariantMap → Except ErrorInfo VariantMap

/-- A Group item with the Group items in it. -/
inductive GroupItem where
  | mk (data : GroupData) (children : List GroupItem)

/-- A source file of a group. -/
structure SourceArtifact where
  absoluteFilePath : FilePath
  fileTags : FileTags
  overrideFileTags : Bool
  properties : PropertyMapId
  targetOfModule : String

/-- The patterns of a group with the files that match them. -/
structure SourceWildCards where
  patterns : List String
  excludePatterns : List String
  files : List SourceArtifact

structure ResolvedGroup where
  name : String
  filePrefix : String
  location : CodeLocation
  enabled : Bool
  properties : PropertyMapId
  fileTags : FileTags
  overrideTags : Bool
  targetOfModule : String
  files : List SourceArtifact
  wildcards : Option SourceWildCards

/-- The properties of the artifacts that match a file tags filter, with the locations of
the groups that have it. -/
structure ArtifactPropertiesInfo where
  key : List String
  fileTagsFilter : FileTags
  extraFileTags : FileTags
  propertyMap : Option PropertyMapId
  locations : List CodeLocation

/-- The product that is being resolved, with all property maps. -/
structure ProductContext where
  maps : PropertyMapId → VariantMap
  nextMap : PropertyMapId
  moduleProperties : PropertyMapId
  enabled : Bool
  groups : List ResolvedGroup
  artifactProperties : List ArtifactPropertiesInfo
  sourceArtifactLocations : AssocMap (String × FilePath) CodeLocation
  missingSourceFiles : SortedSet FilePath
  warnings : List ErrorInfo

namespace ProductContext

/-- Replace the value of a property map. -/
def setValue (c : ProductContext) (m : PropertyMapId) (v : VariantMap) : ProductContext :=
  { c with maps := Function.update c.maps m v }

/-- Create a property map. -/
def createMap (c : ProductContext) (v : VariantMap) : ProductContext :=
  { c with maps := Function.update c.maps c.nextMap v, nextMap := c.nextMap + 1 }

/-- The entry for a file tags filter. -/
def artifactPropertiesPerFilter (c : ProductContext) (key : List String) :
    Option ArtifactPropertiesInfo :=
  c.artifactProperties.find? fun info => info.key = key

/-- Change the entry for a file tags filter. -/
def modifyInfo (c : ProductContext) (key : List String)
    (f : ArtifactPropertiesInfo → ArtifactPropertiesInfo) : ProductContext :=
  { c with artifactProperties :=
      c.artifactProperties.map fun info => if info.key = key then f info else info }

/-- The property map that the properties of a group are added to. -/
def parentMap (c : ProductContext) : Option ResolvedGroup → PropertyMapId
  | some group => group.properties
  | none => c.moduleProperties

end ProductContext

/-- The facts about the file system and the settings that resolving a group depends on. -/
structure Environment where
  strictErrors : Bool
  fileExists : FilePath → Bool
  path : FilePath → FilePath
  resolvePath : FilePath → String → FilePath
  isPattern : String → Bool
  expandPatterns : String → List String → List String → FilePath → SortedSet FilePath

/-! ## The property map of a group -/

/-- The property map that a group starts from: the one its filter has already or the one of
the enclosing group or product. -/
def startMap (c : ProductContext) (currentGroup : Option ResolvedGroup)
    (existing : Option PropertyMapId) : PropertyMapId :=
  existing.getD (c.parentMap currentGroup)

/-- The property map of a group and the product with it. -/
def groupPropertyMap (data : GroupData) (currentGroup : Option ResolvedGroup)
    (existing : Option PropertyMapId) (c : ProductContext) :
    Except ErrorInfo PropertyMapId × ProductContext :=
  match data.resolveAdditionalModuleProperties (c.maps (startMap c currentGroup existing)) with
  | .error e => (.error e, c)
  | .ok newModuleProperties =>
      if newModuleProperties.isEmpty then (.ok (startMap c currentGroup existing), c)
      else
        match existing with
        | none => (.ok c.nextMap, c.createMap newModuleProperties)
        | some m => (.ok m, c.setValue m newModuleProperties)

/-- One call of {lit}`getGroupPropertyMap`: the group, its file tags filter, the enclosing group,
the property map that the filter has already, and the product before it. -/
structure PropertyMapCall where
  data : GroupData
  filter : Option (List String)
  currentGroup : Option ResolvedGroup
  existing : Option PropertyMapId
  before : ProductContext

/-- The product after a call. -/
def PropertyMapCall.after (call : PropertyMapCall) : ProductContext :=
  (groupPropertyMap call.data call.currentGroup call.existing call.before).2

/-- The product with the calls so far, which no function reads. -/
structure State where
  context : ProductContext
  calls : List PropertyMapCall

/-- An operation on the product. -/
abbrev Op (α : Type) :=
  StateOp State ErrorInfo α

/-- Read the product. -/
def context : Op ProductContext :=
  StateOp.query fun s => .ok s.context

/-- Change the product. -/
def modifyContext (f : ProductContext → ProductContext) : Op Unit :=
  StateOp.update fun s => { s with context := f s.context }

/-- The value of an expression. -/
def value {α : Type} (v : Except ErrorInfo α) : Op α :=
  StateOp.query fun _ => v

/-- The property map of a group; the call is written down. -/
def getGroupPropertyMap (data : GroupData) (filter : Option (List String))
    (currentGroup : Option ResolvedGroup) (existing : Option PropertyMapId) : Op PropertyMapId :=
  StateOp.transform fun s =>
    let call : PropertyMapCall := ⟨data, filter, currentGroup, existing, s.context⟩
    ((groupPropertyMap data currentGroup existing s.context).1,
      { context := call.after, calls := s.calls ++ [call] })

/-! ## Groups with a file tags filter -/

/-- Create the entry for a file tags filter. -/
def createInfo (key : List String) (c : ProductContext) : ProductContext :=
  { c with artifactProperties := c.artifactProperties ++ [⟨key, SortedSet.ofList key, ∅, none, []⟩] }

/-- The entry for a file tags filter must not come from the same file. -/
def checkConflict (data : GroupData) (info : ArtifactPropertiesInfo) : Except ErrorInfo Unit :=
  match info.locations.find? fun l => data.location.filePath = l.filePath with
  | some _ => .error (.ofItems ["Conflicting fileTagsFilter in Group items.", "First item",
      "Second item"])
  | none => .ok ()

/-- Find or create the entry for the file tags filter of a group. -/
def provideInfo (data : GroupData) (key : List String) : Op Unit := do
  let c ← context
  match c.artifactPropertiesPerFilter key with
  | some info => value (checkConflict data info)
  | none => modifyContext (createInfo key)

/-- Give the entry for a file tags filter the property map and the file tags of a group. -/
def setInfoProperties (data : GroupData) (currentGroup : Option ResolvedGroup)
    (fileTags : FileTags) (key : List String) : Op Unit := do
  let c ← context
  let m ← getGroupPropertyMap data (some key) currentGroup
    ((c.artifactPropertiesPerFilter key).bind ArtifactPropertiesInfo.propertyMap)
  modifyContext fun c => c.modifyInfo key fun info =>
    { info with propertyMap := some m, extraFileTags := info.extraFileTags.unite fileTags }

/-- A group with a file tags filter. -/
def resolveFilterGroup (data : GroupData) (currentGroup : Option ResolvedGroup)
    (fileTags : FileTags) (fileTagsFilter : List String) : Op Unit := do
  provideInfo data fileTagsFilter
  modifyContext fun c => c.modifyInfo fileTagsFilter fun info =>
    { info with locations := info.locations ++ [data.location] }
  setInfoProperties data currentGroup fileTags fileTagsFilter

/-! ## Groups with files -/

/-- The source artifacts of a group while they are created. -/
structure SourceFiles where
  context : ProductContext
  created : List SourceArtifact
  errors : List String

/-- Create the source artifact for a file of a group. -/
def createSourceArtifact (env : Environment) (group : ResolvedGroup) (wildcard : Bool)
    (filesLocation : CodeLocation) (acc : SourceFiles) (fileName : String) : SourceFiles :=
  let absFilePath := env.resolvePath (env.path group.location.filePath) fileName
  let artifact : SourceArtifact :=
    ⟨absFilePath, group.fileTags, group.overrideTags, group.properties, group.targetOfModule⟩
  let key := (group.targetOfModule, absFilePath)
  let locations := acc.context.sourceArtifactLocations
  if !wildcard && !env.fileExists absFilePath then
    { acc with
      context := { acc.context with
        missingSourceFiles := insert absFilePath acc.context.missingSourceFiles }
      errors := acc.errors ++ [s!"File '{absFilePath}' does not exist."] }
  else if group.enabled then
    if (locations.lookup key).any CodeLocation.isValid then
      { acc with errors := acc.errors ++ [s!"Duplicate source file '{absFilePath}'.",
          "First occurrence is here.", "Next occurrence is here."] }
    else
      { acc with
        context := { acc.context with sourceArtifactLocations := locations.insert key filesLocation }
        created := acc.created ++ [artifact] }
  else { acc with created := acc.created ++ [artifact] }

/-- Create the source artifacts for some files of a group. -/
def createSourceArtifacts (env : Environment) (group : ResolvedGroup) (wildcard : Bool)
    (filesLocation : CodeLocation) (fileNames : List String) : Op (List SourceArtifact × List String) :=
  StateOp.transform fun s =>
    let r := fileNames.foldl (createSourceArtifact env group wildcard filesLocation)
      ⟨s.context, [], []⟩
    (.ok (r.created, r.errors), { s with context := r.context })

/-- Report the errors for the files of a group. -/
def reportFileErrors (env : Environment) (enabled : Bool) (errors : List String) : Op Unit :=
  if errors.isEmpty || !enabled then pure ()
  else if env.strictErrors then StateOp.fail (.ofItems errors)
  else modifyContext fun c => { c with warnings := c.warnings ++ [.ofItems errors] }

/-- The file tags of a group with files. -/
def groupFileTags (currentGroup : Option ResolvedGroup) (overrideTags fileTagsSet : Bool)
    (fileTags : FileTags) : FileTags :=
  if overrideTags && fileTagsSet then
    if fileTags.isEmpty then {"unknown-file-tag"} else fileTags
  else
    match currentGroup with
    | some parent => fileTags.unite parent.fileTags
    | none => fileTags

/-- The prefix of a group; it is inherited from the enclosing group. -/
def groupPrefix (currentGroup : Option ResolvedGroup) : String × Bool → String
  | (own, true) => own
  | (own, false) => (currentGroup.map ResolvedGroup.filePrefix).getD own

/-- Create the source artifacts for the files that match the patterns of a group. -/
def createWildcards (env : Environment) (data : GroupData) (group : ResolvedGroup)
    (patterns : List String) : Op (Option SourceWildCards × List String) :=
  if patterns.isEmpty then pure (none, [])
  else do
    let excludePatterns ← value data.excludeFiles
    let names := env.expandPatterns group.filePrefix patterns excludePatterns
      (env.path data.location.filePath)
    let r ← createSourceArtifacts env group true data.filesLocation names.elems
    return (some ⟨patterns, excludePatterns, r.1⟩, r.2)

/-- Add a group to the product; a group without a name gets a number. -/
def addGroup (group : ResolvedGroup) (name : String) : Op ResolvedGroup := do
  let c ← context
  let named := { group with name := if name = "" then s!"Group {c.groups.length}" else name }
  modifyContext fun c => { c with groups := c.groups ++ [named] }
  return named

/-- Create the source artifacts of a group and add the group to the product. -/
def finishGroup (env : Environment) (data : GroupData) (group : ResolvedGroup)
    (patterns files : List String) : Op ResolvedGroup := do
  let wildcards ← createWildcards env data group patterns
  let created ← createSourceArtifacts env group false data.filesLocation
    (files.map (group.filePrefix ++ ·))
  reportFileErrors env group.enabled (wildcards.2 ++ created.2)
  let name ← value data.name
  addGroup { group with files := created.1, wildcards := wildcards.1 } name

/-- A group with files. -/
def resolveFileGroup (env : Environment) (data : GroupData) (isEnabled : Bool)
    (currentGroup : Option ResolvedGroup) (files : List String) (fileTags : FileTags)
    (fileTagsSet : Bool) : Op ResolvedGroup := do
  let ownPrefix ← value data.filePrefix
  let m ← getGroupPropertyMap data none currentGroup none
  let overrideTags ← value data.overrideTags
  finishGroup env data {
      name := ""
      filePrefix := groupPrefix currentGroup ownPrefix
      location := data.location
      enabled := isEnabled
      properties := m
      fileTags := groupFileTags currentGroup overrideTags fileTagsSet fileTags
      overrideTags := overrideTags
      targetOfModule := data.targetOfModule
      files := []
      wildcards := none }
    (files.filter env.isPattern).reverse (files.filter fun file => !env.isPattern file)

/-! ## Groups in groups -/

/-- A group whose condition is known; the last argument resolves the groups in it. -/
def resolveGroupFully (env : Environment) (data : GroupData) (isEnabled : Bool)
    (currentGroup : Option ResolvedGroup) (resolveChildren : ResolvedGroup → Op Unit) : Op Unit := do
  let files ← value data.files
  let fileTags ← value data.fileTags
  let fileTagsFilter ← value data.fileTagsFilter
  if !fileTagsFilter.isEmpty then
    if !files.isEmpty then
      StateOp.fail (.message "Group.files and Group.fileTagsFilters are exclusive.")
    else if !isEnabled then pure ()
    else resolveFilterGroup data currentGroup fileTags.1 fileTagsFilter
  else do
    let group ← resolveFileGroup env data isEnabled currentGroup files fileTags.1 fileTags.2
    resolveChildren group

/-- Whether a group is enabled; its condition counts only in an enabled parent. -/
def groupEnabled (data : GroupData) (currentGroup : Option ResolvedGroup) : Op Bool := do
  let c ← context
  let parentEnabled := (currentGroup.map ResolvedGroup.enabled).getD c.enabled
  if parentEnabled then value data.condition else pure false

/-- An error in a disabled group is ignored, and in an enabled one it may be a warning. -/
def handleGroupError (env : Environment) (isEnabled : Bool) (error : ErrorInfo) : Op Unit :=
  if !isEnabled then pure ()
  else if env.strictErrors then StateOp.fail error
  else modifyContext fun c => { c with warnings := c.warnings ++ [error] }

mutual

/-- Resolve a group and all groups in it. -/
def resolveGroup (env : Environment) (currentGroup : Option ResolvedGroup) : GroupItem → Op Unit
  | .mk data children => do
      let isEnabled ← groupEnabled data currentGroup
      StateOp.attempt
        (resolveGroupFully env data isEnabled currentGroup fun group =>
          resolveGroups env (some group) children)
        (handleGroupError env isEnabled)

/-- Resolve groups one after the other. -/
def resolveGroups (env : Environment) (currentGroup : Option ResolvedGroup) :
    List GroupItem → Op Unit
  | [] => pure ()
  | item :: items => do
      resolveGroup env currentGroup item
      resolveGroups env currentGroup items

end

end ProjectResolver

end Qbs
