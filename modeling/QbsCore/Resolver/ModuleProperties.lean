import QbsCore.Language.Items
import QbsCore.Library.AssocMap
import QbsCore.Library.Worklist
import QbsCore.Tools.Error

/-!
# Module properties in groups

A group can set properties of the modules of its product.  Its property map is computed from
the map of the enclosing group or product: only what the group sets and what depends on that is
evaluated again.  The dependencies have been recorded while properties were evaluated.

Main results:

- Definition {lit}`ModuleProperties.property`: evaluating a property with the cache, while
  dependencies are recorded.
- Definition {lit}`ModuleProperties.resolveAdditionalModuleProperties`: the map of a group.
- Definition {lit}`ModuleProperties.perform`: what the resolver does with a product.
- Theorem {lit}`ModuleProperties.mem_propertiesToEvaluate_iff`: the properties that are evaluated
  again depend on those that the group sets.

Current gaps:

- The instances of the modules in a group inherit from those of the enclosing item; next-chains
  and the values of {lit}`base` and {lit}`original` are part of the scripts.
- All modules are present, values have the declared types, and the properties of products and
  groups do not read module properties.
- The items do not change any more after the first evaluation.
-/

namespace Qbs

namespace ModuleProperties

/-- What a property evaluates to; a script may catch an error. -/
abbrev Result := Except ErrorInfo Variant

/-- The source code of a module property: it reads other module properties, the value of the
same property in the enclosing item and properties of the group or product. -/
inductive PropertyScript where
  | done (r : Result)
  | read (name : QualifiedId) (k : Result → PropertyScript)
  | readOuter (k : Result → PropertyScript)
  | readItem (name : String) (k : Variant → PropertyScript)

/-- The value of a module property: source code, or a variant from the profile or an
override. -/
inductive PropertyValue where
  | source (s : PropertyScript)
  | variant (v : Variant)

/-- A group with the module properties that it sets, its own properties, the filter that selects
the artifacts for which it sets them, and the groups in it. -/
inductive GroupItem where
  | mk (assigned : List (QualifiedId × PropertyScript)) (properties : List (String × Variant))
      (fileTagsFilter : List String) (children : List GroupItem)

namespace GroupItem

def assigned : GroupItem → List (QualifiedId × PropertyScript)
  | mk assigned _ _ _ => assigned

def properties : GroupItem → List (String × Variant)
  | mk _ properties _ _ => properties

def fileTagsFilter : GroupItem → List String
  | mk _ _ fileTagsFilter _ => fileTagsFilter

def children : GroupItem → List GroupItem
  | mk _ _ _ children => children

end GroupItem

/-- A product with the properties of its modules, its own properties, and its groups. -/
structure ProductItem where
  modules : List QualifiedId
  moduleProperties : List (QualifiedId × PropertyValue)
  properties : List (String × Variant)
  groups : List GroupItem

/-- Where a group is: its position in the enclosing item, and where that is. The product is at
the empty path. -/
abbrev Path := List Nat

namespace ProductItem

variable (product : ProductItem)

def group : Path → Option GroupItem
  | [] => none
  | [i] => product.groups[i]?
  | i :: j :: path => (group (j :: path)).bind fun g => g.children[i]?

/-- The module properties that are set in a group. -/
def assigned (path : Path) : List (QualifiedId × PropertyScript) :=
  match product.group path with
  | none => []
  | some g => g.assigned

def fileTagsFilter (path : Path) : List String :=
  match product.group path with
  | none => []
  | some g => g.fileTagsFilter

/-- The value of a module property in an instance: that of the nearest item that sets it. -/
def value : Path → QualifiedId → Option PropertyValue
  | [], name => product.moduleProperties.lookup name
  | i :: path, name =>
      match (product.assigned (i :: path)).lookup name with
      | some s => some (.source s)
      | none => value path name

/-- The names of the module properties of an instance and its prototypes. -/
def names : Path → List QualifiedId
  | [] => product.moduleProperties.map Prod.fst
  | i :: path => (product.assigned (i :: path)).map Prod.fst ++ names path

/-- A property of the nearest group or of the product. -/
def itemProperty : Path → String → Variant
  | [], name => (product.properties.lookup name).getD .invalid
  | i :: path, name =>
      match (product.group (i :: path)).bind fun g => g.properties.lookup name with
      | some v => v
      | none => itemProperty path name

end ProductItem

/-! ## Evaluation -/

structure EvaluatorState where
  valueCacheEnabled : Bool
  valueCache : AssocMap (Path × QualifiedId) Result
  propertyDependencies : List (QualifiedId × QualifiedId)
  requestedProperties : List QualifiedId

/-- Computations of the evaluator. There is no result if the evaluation does not come to an
end. -/
abbrev EvalM := StateT EvaluatorState Option

def current : EvalM EvaluatorState :=
  fun s => some (s, s)

def update (f : EvaluatorState → EvaluatorState) : EvalM Unit :=
  fun s => some ((), f s)

variable (product : ProductItem)

/-- Run a script; the first argument evaluates the properties that it reads. -/
def run (property : Path → QualifiedId → EvalM Result) (path : Path) (name : QualifiedId) :
    PropertyScript → EvalM Result
  | .done r => pure r
  | .read read k => property path read >>= fun r => run property path name (k r)
  | .readOuter k =>
      match path with
      | [] => run property path name (k (.ok .invalid))
      | _ :: outer => property outer name >>= fun r => run property path name (k r)
  | .readItem item k => run property path name (k (product.itemProperty path item))

/-- The property that was requested before depends on the one that is evaluated now. -/
def recordDependency (name : QualifiedId) (s : EvaluatorState) : EvaluatorState :=
  match s.requestedProperties with
  | [] => s
  | top :: _ =>
      { s with propertyDependencies :=
          if (name, top) ∈ s.propertyDependencies then s.propertyDependencies
          else (name, top) :: s.propertyDependencies }

def pushProperty (name : QualifiedId) (s : EvaluatorState) : EvaluatorState :=
  { s with requestedProperties := name :: s.requestedProperties }

def popProperty (s : EvaluatorState) : EvaluatorState :=
  { s with requestedProperties := s.requestedProperties.tail }

/-- While a property is evaluated, its name is on the stack. -/
def withPropertyStack (name : QualifiedId) (m : EvalM Result) : EvalM Result :=
  update (recordDependency name) >>= fun _ =>
  update (pushProperty name) >>= fun _ =>
  m >>= fun r =>
  update popProperty >>= fun _ =>
  pure r

/-- Keep the value of a property if the cache is in use. -/
def insertValue (path : Path) (name : QualifiedId) (r : Result) (s : EvaluatorState) :
    EvaluatorState :=
  if s.valueCacheEnabled then
    { s with valueCache := AList.insert (path, name) r s.valueCache }
  else s

/-- Look in the cache if it is in use, and evaluate the property otherwise. -/
def cachedValue (path : Path) (name : QualifiedId) (m : EvalM Result) : EvalM Result :=
  current >>= fun s =>
    match if s.valueCacheEnabled then s.valueCache.lookup (path, name) else none with
    | some r => pure r
    | none => m >>= fun r => update (insertValue path name r) >>= fun _ => pure r

/-- Evaluate a module property of an instance. Only for source code the property is put on the
stack. -/
def property : Nat → Path → QualifiedId → EvalM Result
  | 0, _, _ => fun _ => none
  | n + 1, path, name =>
      match product.value path name with
      | none => pure (.ok .invalid)
      | some (.variant v) => pure (.ok v)
      | some (.source s) =>
          withPropertyStack name (cachedValue path name (run product (property n) path name s))

def setValueCacheEnabled (enabled : Bool) (s : EvaluatorState) : EvaluatorState :=
  { s with valueCacheEnabled := enabled }

/-- Use the cache, or do not, for a while. -/
def withCaching {α : Type} (enabled : Bool) (m : EvalM α) : EvalM α :=
  update (setValueCacheEnabled enabled) >>= fun _ =>
  m >>= fun a =>
  update (setValueCacheEnabled false) >>= fun _ =>
  pure a

/-! ## Property maps -/

/-- The values of module properties. -/
abbrev PropertyMap := AssocMap QualifiedId Variant

def moduleName (name : QualifiedId) : QualifiedId :=
  name.dropLast

/-- The names of the properties of a module. -/
def propertiesOf (path : Path) (module : QualifiedId) : List QualifiedId :=
  (product.names path).filter fun name => moduleName name = module

/-- Evaluate the properties that are not in a map yet. -/
def evaluateProperties (n : Nat) (path : Path) :
    List QualifiedId → PropertyMap → EvalM (Except ErrorInfo PropertyMap)
  | [], result => pure (.ok result)
  | name :: rest, result =>
      if (result.lookup name).isSome then evaluateProperties n path rest result
      else
        property product n path name >>= fun r =>
          match r with
          | .error e => pure (.error e)
          | .ok v => evaluateProperties n path rest (AList.insert name v result)

/-- Evaluate all properties of some modules. -/
def evaluateModules (n : Nat) (path : Path) :
    List QualifiedId → PropertyMap → EvalM (Except ErrorInfo PropertyMap)
  | [], result => pure (.ok result)
  | module :: rest, result =>
      evaluateProperties product n path (propertiesOf product path module) result >>= fun r =>
        match r with
        | .error e => pure (.error e)
        | .ok result => evaluateModules n path rest result

/-- Evaluate all module properties of an instance from scratch. -/
def evaluateModuleValues (n : Nat) (path : Path) : EvalM (Except ErrorInfo PropertyMap) :=
  evaluateModules product n path product.modules ∅

/-- The first properties and all that depend on them; every property is expanded once. -/
def propertiesToEvaluate (initialProps : List QualifiedId)
    (deps : List (QualifiedId × QualifiedId)) : List QualifiedId :=
  Worklist.close (Worklist.targets deps) (initialProps.length + deps.length) initialProps []

theorem mem_propertiesToEvaluate_iff {initialProps : List QualifiedId}
    {deps : List (QualifiedId × QualifiedId)} {name : QualifiedId} :
    name ∈ propertiesToEvaluate initialProps deps ↔
      ∃ prop, prop ∈ initialProps ∧ Relation.ReflTransGen (fun x y => (x, y) ∈ deps) prop name :=
  Worklist.edges_mem_close_iff

/-- Replace the values of properties that have to be evaluated again, module by module. -/
def replaceValues (n : Nat) (path : Path) (propsToEval : List QualifiedId) :
    List QualifiedId → PropertyMap → EvalM (Except ErrorInfo PropertyMap)
  | [], modulesMap => pure (.ok modulesMap)
  | module :: rest, modulesMap =>
      let propsForModule := propsToEval.filter fun name => moduleName name = module
      if propsForModule.isEmpty then replaceValues n path propsToEval rest modulesMap
      else
        let reusableValues := propsForModule.foldl (fun m name => AList.erase name m) modulesMap
        evaluateProperties product n path (propertiesOf product path module) reusableValues
          >>= fun r =>
            match r with
            | .error e => pure (.error e)
            | .ok modulesMap => replaceValues n path propsToEval rest modulesMap

/-- The properties that have to be evaluated again for a group. -/
def propsToEval (path : Path) (s : EvaluatorState) : List QualifiedId :=
  propertiesToEvaluate ((product.assigned path).map Prod.fst) s.propertyDependencies

/-- The property map of a group that sets module properties, from that of the enclosing item. A
group that sets none has no map of its own. -/
def resolveAdditionalModuleProperties (n : Nat) (path : Path) (currentValues : PropertyMap) :
    EvalM (Except ErrorInfo (Option PropertyMap)) :=
  if (product.assigned path).isEmpty then pure (.ok none)
  else
    current >>= fun s =>
    withCaching true
        (replaceValues product n path (propsToEval product path s) product.modules currentValues)
      >>= fun r =>
    pure (r.map some)

/-! ## Resolving a product -/

/-- The state of the resolver: the maps of the product, which is at the empty path, and of the
groups, and the maps for artifacts that a filter selects. -/
structure ResolverState where
  evaluator : EvaluatorState
  properties : AssocMap Path PropertyMap
  artifactProperties : AssocMap (List String) PropertyMap

/-- A group with a filter adds to the map that there is for the same filter already; other groups
start from the map of the enclosing group or product. -/
def currentValues (s : ResolverState) (path : Path) : Option PropertyMap :=
  if (product.fileTagsFilter path).isEmpty then s.properties.lookup path.tail
  else
    match s.artifactProperties.lookup (product.fileTagsFilter path) with
    | some m => some m
    | none => s.properties.lookup path.tail

/-- Store the map of a group. -/
def setGroupPropertyMap (path : Path) (m : PropertyMap) (s : ResolverState) : ResolverState :=
  if (product.fileTagsFilter path).isEmpty then
    { s with properties := AList.insert path m s.properties }
  else
    { s with
      artifactProperties := AList.insert (product.fileTagsFilter path) m s.artifactProperties }

/-- After a group has been resolved: an error leaves no map, and a group without a map of its own
gets the one that it started from. -/
def finishGroup (path : Path) (values : PropertyMap) (s : ResolverState)
    (x : Except ErrorInfo (Option PropertyMap) × EvaluatorState) : ResolverState :=
  match x.1 with
  | .error _ => { s with evaluator := x.2 }
  | .ok none => setGroupPropertyMap product path values { s with evaluator := x.2 }
  | .ok (some m) => setGroupPropertyMap product path m { s with evaluator := x.2 }

/-- What happens with a product: the loader and the resolver evaluate properties, and the resolver
resolves the product and its groups. -/
inductive Step where
  | evaluate (caching : Bool) (path : Path) (name : QualifiedId)
  | clearPropertyDependencies
  | createProductConfig
  | resolveGroup (path : Path)

/-- Perform a step; an error leaves no map. -/
def perform (n : Nat) : Step → ResolverState → Option ResolverState
  | .evaluate caching path name, s =>
      (withCaching caching (property product n path name) s.evaluator).map fun x =>
        { s with evaluator := x.2 }
  | .clearPropertyDependencies, s =>
      some { s with evaluator := { s.evaluator with propertyDependencies := [] } }
  | .createProductConfig, s =>
      (withCaching true (evaluateModuleValues product n []) s.evaluator).map fun x =>
        match x.1 with
        | .error _ => { s with evaluator := x.2 }
        | .ok m => { s with evaluator := x.2, properties := AList.insert [] m s.properties }
  | .resolveGroup path, s =>
      (currentValues product s path).bind fun values =>
        (resolveAdditionalModuleProperties product n path values s.evaluator).map
          (finishGroup product path values s)

/-- A step that comes to an end. -/
def Performs (s : ResolverState) (l : Step) (s' : ResolverState) : Prop :=
  ∃ n, perform product n l s = some s'

/-- Nothing has been evaluated yet. -/
def EvaluatorState.initial : EvaluatorState where
  valueCacheEnabled := false
  valueCache := ∅
  propertyDependencies := []
  requestedProperties := []

def ResolverState.initial : ResolverState where
  evaluator := .initial
  properties := ∅
  artifactProperties := ∅

end ModuleProperties

end Qbs
