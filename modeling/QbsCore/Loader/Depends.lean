import QbsCore.Language.Items
import QbsCore.Library.StateOp
import QbsCore.Loader.ProductSort
import QbsCore.Tools.Version

/-!
# Loading the modules that an item depends on

The Depends items of an item are resolved one after the other.  Each of them names modules;
a module that was loaded before is merged with the one that is there, and any other is
looked up among the exports of the products and in the module files.  At the end the
modules are added to the item.

Main results:

- Definition {lit}`ModuleLoader.resolveDependsItem`: what one Depends item leads to.
- Definition {lit}`ModuleLoader.addModule`: a module is added to those of an item.
- Definition {lit}`ModuleLoader.resolveDependencies`: all Depends items of an item.

Current gaps:

- Names are split at their dots, and the properties of a Depends item are given by their
  values.  Items that name product types are given with the names they are expanded to.
- What the search for module files finds, and whether the dependencies of a module can be
  resolved, is given.  Scopes, probes and the properties of module instances are left out.
-/

namespace Qbs

namespace ModuleLoader

/-! ## Data -/

/-- A Depends item with the values of its properties, and the item it belongs to. -/
structure DependsItem where
  parent : ItemId
  condition : Bool
  id : String
  name : QualifiedId
  submodules : Option (List QualifiedId)
  enableFallback : Bool
  productTypesIsSet : Bool
  required : Bool
  versionAtLeast : Version
  versionBelow : Version
  multiplexConfigurationIds : List String
  profiles : Option (List String)
  parameters : VariantMap

/-- An export of a product. -/
structure ProductModuleInfo where
  multiplexId : String
  defaultParameters : VariantMap

/-- What a module instance is made from. -/
inductive ModulePrototype where
  | exportItem (info : ProductModuleInfo)
  | moduleFile
  | nonPresent

/-- An item at a path of properties: a prefix of a module name, or a module instance, which has no
prototype before its module was loaded. -/
inductive InstanceItem where
  | modulePrefix
  | moduleInstance (prototype : Option ModulePrototype)

/-- A module instance is found at a path of properties of an item. -/
structure InstanceRef where
  item : ItemId
  path : QualifiedId
deriving DecidableEq

/-- A module of an item. -/
structure Module where
  name : QualifiedId
  item : InstanceRef
  isProduct : Bool
  requiredValue : Bool
  required : Bool
  fallbackEnabled : Bool
  parameters : VariantMap
  versionRange : VersionRange
deriving DecidableEq

/-- A dependency on a product. -/
structure UsedProduct where
  name : QualifiedId
  profile : String
  multiplexConfigurationId : String
  isRequired : Bool
  parameters : VariantMap
deriving DecidableEq

/-- An item: its modules and the items at paths of properties. -/
structure LoadedItem where
  modules : List Module
  instances : QualifiedId → Option InstanceItem

/-- What the search for module files finds. -/
inductive ModuleSearch where
  | candidate
  | noCandidate (triedToLoad : Bool)
  | failed (e : ErrorInfo)

inductive DependencyResolvingPass where
  | first
  | second
deriving DecidableEq

/-- What surrounds the resolving of dependencies: the product, the exports of all products, the
module files, and the chain of modules that are being loaded, each with whether it is required and
whether it is a product. The product context is there if the item is a product. -/
structure DependsContext where
  pass : DependencyResolvingPass
  hasProductContext : Bool
  productName : String
  multiplexIdToString : String → String
  fallbackProviderEnabled : Bool
  productModules : QualifiedId → List ProductModuleInfo
  moduleFiles : QualifiedId → Bool → ModuleSearch
  instantiation : QualifiedId → ModulePrototype → Except ErrorInfo Unit
  requiredChain : List Bool
  dependsChain : List (QualifiedId × Bool)

/-- The state of the loader. The last three fields belong to the item whose dependencies are
resolved. -/
structure Loader where
  items : ItemId → LoadedItem
  errors : List ErrorInfo
  secondPassQueued : Bool
  usedProducts : List UsedProduct
  loadedModules : List Module
  dependsItemPerLoadedModule : List DependsItem
  productDependencies : List UsedProduct

abbrev LoaderOp (α : Type) :=
  StateOp Loader ErrorInfo α

def nameString (name : QualifiedId) : String :=
  ".".intercalate name

variable (ctx : DependsContext)

/-! ## Module instances -/

def moduleNamePrefixError (shortName longName : QualifiedId) : ErrorInfo :=
  .message s!"The name of module '{nameString shortName}' is equal to the first component of the name of module '{nameString longName}', which is not allowed"

/-- Create an item at a path unless one is there. -/
def provide (instances : QualifiedId → Option InstanceItem) (path : QualifiedId)
    (new : InstanceItem) : QualifiedId → Option InstanceItem :=
  if (instances path).isSome then instances else Function.update instances path (some new)

/-- Create the items at the paths that lead to a module. -/
def provideInstances (moduleName : QualifiedId) :
    QualifiedId → List String → (QualifiedId → Option InstanceItem) →
      Except ErrorInfo Unit × (QualifiedId → Option InstanceItem)
  | _, [], instances => (.ok (), instances)
  | path, [segment], instances =>
      (.ok (), provide instances (path ++ [segment]) (.moduleInstance none))
  | path, segment :: segments, instances =>
      let path := path ++ [segment]
      let instances := provide instances path .modulePrefix
      match instances path with
      | some (.moduleInstance _) => (.error (moduleNamePrefixError path moduleName), instances)
      | _ => provideInstances moduleName path segments instances

/-- Set the items at the paths of an item. -/
def Loader.setInstances (s : Loader) (item : ItemId)
    (instances : QualifiedId → Option InstanceItem) : Loader :=
  { s with items := Function.update s.items item { s.items item with instances := instances } }

/-- The item at the path of a module, which is created if it is not there. -/
def moduleInstanceItem (ref : InstanceRef) : LoaderOp (Option InstanceItem) := do
  StateOp.query fun _ => qbsCheck (!ref.path.isEmpty) "!moduleName.empty()"
  StateOp.transform fun s =>
    let provided := provideInstances ref.path [] ref.path (s.items ref.item).instances
    (provided.1, s.setInstances ref.item provided.2)
  StateOp.query fun s => .ok ((s.items ref.item).instances ref.path)

/-! ## Loading a module -/

/-- The export of a product with a multiplex configuration; without one, the first export. -/
def productModule (exports : List ProductModuleInfo) (multiplexId : String) :
    Option ProductModuleInfo :=
  match exports.find? fun info => info.multiplexId = multiplexId with
  | some info => some info
  | none => if multiplexId = "" then exports.head? else none

/-- The prototype of a module that is found in the module files. A module that is not required
need not be there. -/
def searchAndLoadModuleFile (moduleName : QualifiedId) (fallback isRequired : Bool) :
    Except ErrorInfo (Option ModulePrototype) :=
  match ctx.moduleFiles moduleName fallback with
  | .failed e => .error e
  | .candidate => .ok (some .moduleFile)
  | .noCandidate triedToLoad =>
      if !isRequired then .ok (some .nonPresent)
      else if triedToLoad then
        .error (.message s!"Module {nameString moduleName} could not be loaded.")
      else .ok none

/-- The prototype of a module, and whether there is a product of its name. -/
def modulePrototype (moduleName : QualifiedId) (multiplexId : String)
    (fallback isRequired : Bool) : Except ErrorInfo (Option ModulePrototype) :=
  match productModule (ctx.productModules moduleName) multiplexId with
  | some info => .ok (some (.exportItem info))
  | none =>
      if (ctx.productModules moduleName).isEmpty then
        searchAndLoadModuleFile ctx moduleName fallback isRequired
      else .ok none

def ModulePrototype.defaultParameters : ModulePrototype → VariantMap
  | .exportItem info => info.defaultParameters
  | _ => []

/-- Where the instance of a module is found. -/
def instanceRef (item : ItemId) (moduleId : String) (moduleName : QualifiedId) : InstanceRef :=
  ⟨item, if moduleId = "" then moduleName else [moduleId]⟩

/-- What loading a module results in. -/
structure LoadResult where
  item : Option InstanceRef
  isProduct : Bool
  defaultParameters : VariantMap

/-- A module instance gets its prototype, and its own dependencies are resolved. -/
def instantiateModule (ref : InstanceRef) (moduleName : QualifiedId)
    (prototype : ModulePrototype) : LoaderOp Unit := do
  StateOp.update fun s => s.setInstances ref.item (Function.update
    (s.items ref.item).instances ref.path (some (.moduleInstance (some prototype))))
  StateOp.query fun _ => ctx.instantiation moduleName prototype

def cyclicDependenciesError (moduleName : QualifiedId) : ErrorInfo :=
  .ofItems ("Cyclic dependencies detected:" ::
    (ctx.dependsChain.map fun e => nameString e.1) ++ [nameString moduleName])

/-- Load a module. The flag says whether the module loaded before is a product; it stays as it is
when the module instance was handled already. -/
def loadModule (item : ItemId) (moduleId : String) (moduleName : QualifiedId)
    (multiplexId : String) (fallback isRequired isProduct : Bool) : LoaderOp LoadResult := do
  if ctx.dependsChain.any fun e => e.1 = moduleName then
    StateOp.fail (cyclicDependenciesError ctx moduleName)
  let ref := instanceRef item moduleId moduleName
  let instanceItem ← moduleInstanceItem ref
  match instanceItem with
  | some (.moduleInstance (some _)) => return ⟨some ref, isProduct, []⟩
  | some (.moduleInstance none) =>
      let prototype ← StateOp.query fun _ =>
        modulePrototype ctx moduleName multiplexId fallback isRequired
      let isProduct := !(ctx.productModules moduleName).isEmpty
      match prototype with
      | none => return ⟨none, isProduct, []⟩
      | some prototype =>
          instantiateModule ctx ref moduleName prototype
          return ⟨some ref, isProduct, prototype.defaultParameters⟩
  | _ => do
      let modules ← StateOp.query fun s => .ok (s.items item).modules
      match modules.find? fun m => m.name.head? = moduleName.head? with
      | some m => StateOp.fail (moduleNamePrefixError moduleName m.name)
      | none => StateOp.fail (.check "moduleInstance->type() == ItemType::ModuleInstance")

/-! ## Depends items -/

namespace DependsItem

variable (d : DependsItem)

def isRequired : Bool :=
  !d.productTypesIsSet && d.required && !ctx.requiredChain.contains false

def fallback : Bool :=
  ctx.fallbackProviderEnabled && d.enableFallback

def versionRange : VersionRange :=
  ⟨d.versionAtLeast, d.versionBelow⟩

/-- The multiplex configurations that are asked for; none in particular if none is given. -/
def multiplexIds : List String :=
  if d.multiplexConfigurationIds.isEmpty then [""] else d.multiplexConfigurationIds

/-- The profiles that are asked for: all of them if the list is set but empty, and none in
particular if it is not set. -/
def profileNames : List String :=
  match d.profiles with
  | none => [""]
  | some [] => ["*"]
  | some profiles => profiles

/-- The names of the modules. -/
def moduleNames : List QualifiedId :=
  match d.submodules with
  | none => [d.name]
  | some submodules => submodules.map fun submodule => d.name ++ submodule

end DependsItem

/-- Merge a further Depends item into a module that was loaded before. -/
def mergeDuplicate (d : DependsItem) (m : Module) : Module :=
  { m with
    required := m.required || d.isRequired ctx
    requiredValue := m.requiredValue || d.required
    fallbackEnabled := m.fallbackEnabled && d.fallback ctx
    versionRange := m.versionRange.narrowDown d.versionRange }

/-- Change the first module of a name. -/
def updateFirst (name : QualifiedId) (f : Module → Module) : List Module → Option (List Module)
  | [] => none
  | m :: modules =>
      if m.name = name then some (f m :: modules)
      else (updateFirst name f modules).map fun modules => m :: modules

/-- The dependencies on a product: one for each profile and multiplex configuration. -/
def productEntries (d : DependsItem) (moduleName : QualifiedId) : List UsedProduct :=
  d.profileNames.flatMap fun profile => d.multiplexIds.map fun multiplexId =>
    ⟨moduleName, profile, multiplexId, d.isRequired ctx, []⟩

def notFoundError (d : DependsItem) (moduleName : QualifiedId) : ErrorInfo :=
  let multiplexId := d.multiplexIds.headD ""
  if multiplexId ≠ "" then
    .message s!"Dependency from product '{ctx.productName}' to product '{fullDisplayName ctx.multiplexIdToString (nameString moduleName) multiplexId}' not fulfilled."
  else .message s!"Dependency '{nameString moduleName}' not found for product '{ctx.productName}'."

def invalidDependencyError (moduleName : QualifiedId) : ErrorInfo :=
  .message s!"Invalid dependency on product '{nameString moduleName}': Modules cannot depend on products. You may want to turn your module into a product and add the dependency in that product's Export item."

/-- Whether a module is being loaded that is no product. -/
def insideModule : Bool :=
  match ctx.dependsChain.getLast? with
  | none => false
  | some e => !e.2

/-- A module that was loaded for a Depends item. -/
def newModule (d : DependsItem) (moduleName : QualifiedId) (item : InstanceRef)
    (result : LoadResult) : Module where
  name := moduleName
  item := item
  isProduct := result.isProduct
  requiredValue := d.required
  required := d.isRequired ctx
  fallbackEnabled := d.fallback ctx
  parameters := result.defaultParameters
  versionRange := d.versionRange

/-- Remember a module that was loaded, and the dependencies on its product. -/
def addResult (d : DependsItem) (moduleName : QualifiedId) (item : InstanceRef)
    (result : LoadResult) (s : Loader) : Loader :=
  { s with
    loadedModules := s.loadedModules ++ [newModule ctx d moduleName item result]
    productDependencies :=
      if result.isProduct then s.productDependencies ++ productEntries ctx d moduleName
      else s.productDependencies }

/-- Load a module for a Depends item; returns whether it is a product. -/
def loadForItem (d : DependsItem) (moduleName : QualifiedId) (isProduct : Bool) :
    LoaderOp Bool := do
  let result ← loadModule ctx d.parent d.id moduleName (d.multiplexIds.headD "")
    (d.fallback ctx) (d.isRequired ctx) isProduct
  match result.item with
  | none => StateOp.fail (notFoundError ctx d moduleName)
  | some item =>
      if result.isProduct && insideModule ctx then
        StateOp.fail (invalidDependencyError moduleName)
      StateOp.update (addResult ctx d moduleName item result)
      return result.isProduct

/-- Resolve the modules that a Depends item names. -/
def resolveModules (d : DependsItem) : Bool → List QualifiedId → LoaderOp Unit
  | _, [] => return
  | isProduct, moduleName :: moduleNames => do
      let merged ← StateOp.query fun s =>
        .ok (updateFirst moduleName (mergeDuplicate ctx d) s.loadedModules)
      match merged with
      | some modules =>
          StateOp.update fun s => { s with loadedModules := modules }
          resolveModules d isProduct moduleNames
      | none =>
          let isProduct ← loadForItem ctx d moduleName isProduct
          resolveModules d isProduct moduleNames

/-- Resolve a Depends item. Those that name product types wait for the second pass. -/
def resolveDependsItem (d : DependsItem) : LoaderOp Unit := do
  if !d.condition || d.submodules = some [] then return
  if (d.submodules.getD []).length > 1 && d.id ≠ "" then
    StateOp.fail (.message "A Depends item with more than one module cannot have an id.")
  if d.submodules = none && d.name = ["qbs"] then return
  if ctx.pass = .first && d.productTypesIsSet then
    StateOp.update fun s => { s with secondPassQueued := true }
  else resolveModules ctx d false d.moduleNames

/-! ## All Depends items -/

/-- Resolve a Depends item; the error of one is an error of the product. -/
def handleDependsItem (d : DependsItem) : LoaderOp Unit := do
  StateOp.attempt (resolveDependsItem ctx d) fun e =>
    if ctx.hasProductContext then StateOp.update fun s => { s with errors := s.errors ++ [e] }
    else StateOp.fail e
  StateOp.update fun s =>
    { s with dependsItemPerLoadedModule := s.dependsItemPerLoadedModule ++
        List.replicate (s.loadedModules.length - s.dependsItemPerLoadedModule.length) d }

def handleDependsItems : List DependsItem → LoaderOp Unit
  | [] => return
  | d :: items => do
      handleDependsItem ctx d
      handleDependsItems items

mutual

/-- Merge some parameters into others. -/
def mergeParameters : VariantMap → VariantMap → VariantMap
  | dst, [] => dst
  | dst, (key, v) :: src => mergeParameters (dst.insert key (mergeParameter (dst.value key) v)) src

def mergeParameter : Variant → Variant → Variant
  | old, .map src => .map (mergeParameters old.toMap src)
  | _, v => v

end

/-- The check of an item to which a module is added. -/
def addModuleError : ErrorInfo :=
  .check "it == m_modules.end() || (module.name != it->name && module.item != it->item)"

/-- Add a module to the modules of an item, which are in the order of their names. -/
def addModule (module : Module) (modules : List Module) : Except ErrorInfo (List Module) :=
  let before := modules.takeWhile fun m => m.name < module.name
  let after := modules.dropWhile fun m => m.name < module.name
  match after.head? with
  | none => .ok (before ++ module :: after)
  | some it =>
      if module.name ≠ it.name && module.item ≠ it.item then .ok (before ++ module :: after)
      else .error addModuleError

/-- Add a module to an item. -/
def addModuleTo (item : ItemId) (module : Module) : LoaderOp Unit :=
  StateOp.transform fun s =>
    match addModule module (s.items item).modules with
    | .ok modules =>
        (.ok (), { s with
          items := Function.update s.items item { s.items item with modules := modules } })
    | .error e => (.error e, s)

/-- A module that was loaded, with the parameters of its Depends item. -/
def withParameters (e : Module × DependsItem) : Module :=
  { e.1 with parameters := mergeParameters e.1.parameters e.2.parameters }

/-- Add a module that was loaded. -/
def addLoadedModule (item : ItemId) (e : Module × DependsItem) : LoaderOp Unit := do
  let module := withParameters e
  addModuleTo item module
  StateOp.update fun s =>
    { s with productDependencies := s.productDependencies.map fun dep =>
        if dep.name = module.name then { dep with parameters := module.parameters } else dep }

def addLoadedModules (item : ItemId) : List (Module × DependsItem) → LoaderOp Unit
  | [] => return
  | e :: modules => do
      addLoadedModule item e
      addLoadedModules item modules

/-- The base module of an item. -/
def baseModule (ref : InstanceRef) : Module where
  name := ["qbs"]
  item := ref
  isProduct := false
  requiredValue := true
  required := true
  fallbackEnabled := true
  parameters := []
  versionRange := ⟨Version.empty, Version.empty⟩

/-- Load the base module of an item. -/
def loadBaseModule (item : ItemId) : LoaderOp Module := do
  let result ← loadModule ctx item "" ["qbs"] "" false true false
  StateOp.query fun _ => qbsCheck (!result.isProduct) "!baseModuleDesc.isProduct"
  match result.item with
  | none => StateOp.fail (.message "Cannot load base qbs module.")
  | some ref => return baseModule ref

/-- Whether the base module has to be loaded: a product has it already in the second pass. -/
def DependsContext.loadsBaseModule : Bool :=
  !ctx.hasProductContext || ctx.pass = .first

/-- Load the modules that Depends items name, each with the Depends item it was loaded for. -/
def loadModules (dependsItems : List DependsItem) : LoaderOp (List (Module × DependsItem)) := do
  StateOp.update fun s =>
    { s with loadedModules := [], dependsItemPerLoadedModule := [], productDependencies := [] }
  handleDependsItems ctx dependsItems
  StateOp.query fun s =>
    if s.loadedModules.length = s.dependsItemPerLoadedModule.length then
      .ok (s.loadedModules.zip s.dependsItemPerLoadedModule)
    else .error (.check "loadedModules.size() == dependsItemPerLoadedModule.size()")

/-- Load and add the base module unless the item has it. -/
def addBaseModule (item : ItemId) : LoaderOp Unit := do
  if ctx.loadsBaseModule then
    let module ← loadBaseModule ctx item
    addModuleTo item module

/-- Resolve all Depends items of an item. -/
def resolveDependencies (item : ItemId) (dependsItems : List DependsItem) : LoaderOp Unit := do
  addBaseModule ctx item
  let modules ← loadModules ctx dependsItems
  addLoadedModules item modules
  StateOp.update fun s => { s with usedProducts := s.usedProducts ++ s.productDependencies }

end ModuleLoader

end Qbs
