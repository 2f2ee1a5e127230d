import QbsCore.Language.Items

/-!
# The evaluator

Properties are evaluated by running their source code in the scopes of the item.  Reading a
property from there evaluates that property in turn.  The evaluator has members that an
evaluation changes on its way, and it sets flags on the values.

Main results:

- Definition {lit}`Evaluator.property`: evaluating a property of an item.
- Definition {lit}`Evaluator.evaluator`: the evaluator with a bound on nested evaluations.

Current gaps:

- Errors are values; the pending exception of the script engine and the locations in error
  messages are left out.
- The engine reports an error if more evaluations are nested than it can handle.
- What a file imports and how a path is made absolute is given.
- The elements of a member of a next-chain are those that it has when it is evaluated.
-/

namespace Qbs

namespace Evaluator

/-- What is known of the property that was asked for last. -/
structure QueryResult where
  foundInParent : Bool
  data : ItemId
  itemOfProperty : Option ItemId
  value : Option Value

inductive QueryPropertyType where
  | default
  | parentProperty

/-- A scope that names are looked up in: an item or a plain object. -/
inductive Scope where
  | item (i : ItemId)
  | object (properties : List (String × JsValue))

/-- The members of the evaluator and the items that it works on. -/
structure EvaluatorState extends Heap where
  queryResult : Option QueryResult
  valueCacheEnabled : Bool
  valueCache : List ((ItemId × String) × JsValue)
  currentNextChain : List ValueId
  requestedProperties : List QualifiedId
  pathPropertiesBaseDir : String
  scopes : List Scope
  /-- What arrays of imported files hold that have been written to. -/
  sharedArrays : List (ArrayId × List JsValue)

/-- What an evaluation records: property dependencies and, only for reasoning about it, which
of two branches it has taken. -/
inductive Event where
  /-- A property has been read while another one was evaluated. -/
  | dependency (property dependent : QualifiedId)
  /-- The values of a next-chain have been left because of an error. -/
  | errorExit
  /-- An alternative overrides the list properties of a value. -/
  | exclusiveListValue (id : ValueId)
  /-- An array of an imported file has been changed. -/
  | sharedArrayWritten (id : ArrayId)
  /-- What is documented is not what is done, at some depth of nested evaluations. -/
  | deviation (depth : Nat)
deriving DecidableEq

/-- Computations of the evaluator. -/
def EvalM (α : Type) : Type :=
  EvaluatorState → α × EvaluatorState × List Event

namespace EvalM

variable {α β : Type}

def pure (a : α) : EvalM α :=
  fun s => (a, s, [])

def bind (m : EvalM α) (f : α → EvalM β) : EvalM β :=
  fun s =>
    let r := m s
    let r' := f r.1 r.2.1
    (r'.1, r'.2.1, r.2.2 ++ r'.2.2)

instance : Monad EvalM where
  pure := EvalM.pure
  bind := EvalM.bind

/-- The result of a computation. -/
def result (m : EvalM α) (s : EvaluatorState) : α :=
  (m s).1

/-- The state after a computation. -/
def state (m : EvalM α) (s : EvaluatorState) : EvaluatorState :=
  (m s).2.1

/-- What a computation records. -/
def events (m : EvalM α) (s : EvaluatorState) : List Event :=
  (m s).2.2

end EvalM

def current : EvalM EvaluatorState :=
  fun s => (s, s, [])

def update (f : EvaluatorState → EvaluatorState) : EvalM Unit :=
  fun s => ((), f s, [])

def emit (e : Event) : EvalM Unit :=
  fun s => ((), s, [e])

/-! ## Queries -/

/-- Find a property of an item, or of its parent. -/
def queryItemProperty (items : Items) (data : ItemId) (name : String) : Option QueryResult :=
  match items.findProperty data name with
  | some (j, value) => some ⟨false, data, some j, some value⟩
  | none =>
      match (items.item data).parent with
      | none => none
      | some parent =>
          (items.findProperty parent name).map fun e => ⟨true, data, some e.1, some e.2⟩

/-- Ask for a property: what is found is kept for reading it. -/
def queryProperty (object : ItemId) (name : String) : EvalM (Option QueryPropertyType) :=
  current >>= fun s =>
    if s.queryResult.isSome then pure none
    else if name = "parent" then
      update (fun s => { s with queryResult := some ⟨false, object, none, none⟩ }) >>= fun _ =>
      pure (some .parentProperty)
    else
      match queryItemProperty s.items object name with
      | none => pure none
      | some q =>
          update (fun s => { s with queryResult := some q }) >>= fun _ => pure (some .default)

/-! ## Types of properties -/

section Types

variable (resolvePath : String → String → String)

def typeError (name : String) (type : PropertyType) : JsValue :=
  .error s!"Value assigned to property '{name}' does not have type '{type.typeString}'."

/-- The text of a variant. -/
def textOf : Variant → String
  | .string s => s
  | .int i => toString i
  | .bool b => toString b
  | _ => ""

def overriddenSourceDirectory (items : Items) (i : ItemId) (defaultValue : String) : String :=
  ((items.variantProperty i "_qbs_sourceDir").map textOf).getD defaultValue

def elementError (index : Nat) (name what : String) : JsValue :=
  .error s!"Element at index {index} of list property '{name}' {what}"

/-- Check the elements of a list of strings, and resolve them if there is a directory. -/
def convertElements (name srcDir : String) : Nat → List JsValue → Except JsValue (List JsValue)
  | _, [] => .ok []
  | index, elem :: rest =>
      match elem with
      | .undefined => .error (elementError index name "is undefined. String expected.")
      | .null => .error (elementError index name "is null. String expected.")
      | .string s =>
          let elem := if srcDir = "" then .string s else JsValue.string (resolvePath srcDir s)
          (convertElements name srcDir (index + 1) rest).map fun l => elem :: l
      | _ => .error (elementError index name "does not have string type.")

/-- A value as a list. -/
def asArray : JsValue → List JsValue
  | .array l | .sharedArray _ l => l
  | v => [v]

/-- An array with other elements; a value that is no array becomes one. -/
def withElements (v : JsValue) (l : List JsValue) : JsValue :=
  match v with
  | .sharedArray id _ => .sharedArray id l
  | _ => .array l

/-- The directory that paths of an item are relative to. -/
def srcDirOf (items : Items) (baseDir : String) (i : ItemId) : String :=
  let actualBaseDir :=
    if baseDir = "" then ""
    else ((items.variantProperty i "sourceDirectory").map textOf).getD baseDir
  overriddenSourceDirectory items i actualBaseDir

/-- Resolve elements in place, up to one that is not a string. -/
def resolveElements (srcDir : String) : List JsValue → List JsValue
  | .string s :: rest => .string (resolvePath srcDir s) :: resolveElements srcDir rest
  | l => l

/-- Whether resolving elements changes one. -/
def resolvesElement (srcDir : String) : List JsValue → Bool
  | .string s :: rest => resolvePath srcDir s ≠ s || resolvesElement srcDir rest
  | _ => false

def writeSharedArray (id : ArrayId) (l : List JsValue) : EvalM Unit :=
  update (fun s => { s with sharedArrays := (id, l) :: s.sharedArrays }) >>= fun _ =>
  emit (.sharedArrayWritten id)

/-- The elements of a list of paths are resolved in the array that the script has returned. -/
def writeElements (items : Items) (baseDir : String) (i : ItemId) (type : PropertyType)
    (v : JsValue) : EvalM Unit :=
  match type, v with
  | .pathList, .sharedArray id l =>
      let srcDir := srcDirOf items baseDir i
      if srcDir ≠ "" ∧ resolvesElement resolvePath srcDir l then
        writeSharedArray id (resolveElements resolvePath srcDir l)
      else pure ()
  | _, _ => pure ()

/-- Convert a value to the type of a property. -/
def convertToPropertyType (items : Items) (baseDir : String) (i : ItemId) (name : String)
    (type : PropertyType) (v : JsValue) : JsValue :=
  let srcDir := srcDirOf items baseDir i
  if v.isUndefined || v.isError then v
  else
    match type with
    | .unknownType | .variant => v
    | .boolean => .bool v.toBool
    | .integer =>
        match v with
        | .number i => .number i
        | _ => typeError name type
    | .path =>
        match v with
        | .string s => if srcDir = "" then v else .string (resolvePath srcDir s)
        | _ => typeError name type
    | .string =>
        match v with
        | .string s => .string s
        | _ => typeError name type
    | .pathList =>
        match convertElements resolvePath name srcDir 0 (asArray v) with
        | .ok l => withElements v l
        | .error e => e
    | .stringList =>
        match convertElements resolvePath name "" 0 (asArray v) with
        | .ok l => withElements v l
        | .error e => e
    | .variantList => withElements v (asArray v)

end Types

/-! ## Converting values -/

/-- What a value is converted for. -/
structure SVConverter where
  object : ItemId
  itemOfProperty : ItemId
  propertyName : String
  data : ItemId

/-- The operations that an evaluation uses for nested ones. -/
structure Nested where
  property : ItemId → String → EvalM (Option JsValue)
  convert : SVConverter → Value → EvalM JsValue

/-- Look up a name in the scopes. -/
def lookupName (nested : Nested) (name : String) : List Scope → EvalM JsValue
  | [] => pure (.error s!"ReferenceError: Can't find variable: {name}")
  | .item i :: rest =>
      nested.property i name >>= fun v =>
        match v with
        | some v => pure v
        | none => lookupName nested name rest
  | .object properties :: rest =>
      match properties.lookup name with
      | some v => current >>= fun s => pure (v.refresh s.sharedArrays)
      | none => lookupName nested name rest

/-- Run a script in the scopes that are there. -/
def evaluate (nested : Nested) : Script → EvalM JsValue
  | .done v => current >>= fun s => pure (v.refresh s.sharedArrays)
  | .lookup name k =>
      current >>= fun s =>
      lookupName nested name s.scopes >>= fun v =>
      evaluate nested (k v)
  | .get object name k =>
      nested.property object name >>= fun v =>
      evaluate nested (k (v.getD .undefined))

/-- Push scopes, the nearest first, and pop them in the end. -/
def withScopes {α : Type} (scopes : List Scope) (m : EvalM α) : EvalM α :=
  update (fun s => { s with scopes := scopes ++ s.scopes }) >>= fun _ =>
  m >>= fun a =>
  update (fun s => { s with scopes := s.scopes.drop scopes.length }) >>= fun _ =>
  pure a

namespace SVConverter

variable (nested : Nested) (c : SVConverter)

/-- What a convenience property such as {lit}`base` is set to. -/
def setupConvenienceProperty (items : Items) (conveniencePropertyName : String)
    (scriptValue : Option JsValue) : String × JsValue :=
  let type := items.propertyDeclaration c.itemOfProperty c.propertyName
  let isArray := type = .stringList ∨ type = .pathList ∨ type = .variant ∨ type = .variantList
  let valueToSet :=
    if isArray then
      match scriptValue with
      | none | some .undefined => .array []
      | some v => v
    else scriptValue.getD .undefined
  (conveniencePropertyName, valueToSet)

/-- The value of {lit}`original`: what a module itself sets a property to. -/
def originalValue : EvalM (Except String (Option JsValue)) :=
  current >>= fun s =>
    let type := (s.items.item c.itemOfProperty).type
    if (s.items.propertyDeclaration c.data c.propertyName).isScalar then
      if type = .module ∨ type = .exports then
        pure (.error ("The special value 'original' cannot be used on the right-hand " ++
          "side of a property declaration."))
      else if type = .moduleInstance ∧ ¬ s.items.hasProperty c.itemOfProperty "present" then
        pure (.error (s!"Trying to assign property '{c.propertyName}' " ++
          "on something that is not a module."))
      else
        match (s.items.prototypes c.itemOfProperty).find? fun j =>
          (s.items.item j).type ≠ .moduleInstance with
        | none =>
            pure (.error "The special value 'original' can only be used with module properties.")
        | some item =>
            if (s.items.item item).type ≠ .module ∧ (s.items.item item).type ≠ .exports then
              pure (.error
                "The special value 'original' can only be used with module properties.")
            else
              match s.items.property item c.propertyName with
              | none => pure (.error "Error setting up 'original'.")
              | some v =>
                  nested.convert { c with itemOfProperty := item } v >>= fun v =>
                  pure (.ok (some v))
    else pure (.ok (some (.array [])))

/-- The value of {lit}`base`. -/
def baseProperty (source : SourceCode) (baseValue : Option Value) :
    EvalM (List (String × JsValue)) :=
  if source.sourceUsesBase then
    match baseValue with
    | none =>
        current >>= fun s => pure [c.setupConvenienceProperty s.items "base" none]
    | some value =>
        nested.convert c value >>= fun v =>
        current >>= fun s => pure [c.setupConvenienceProperty s.items "base" (some v)]
  else pure []

/-- The value of {lit}`outer`. -/
def outerProperty (source : SourceCode) (outerItem : Option ItemId)
    (outerScriptValue : Option JsValue) : EvalM (Except String (List (String × JsValue))) :=
  if source.sourceUsesOuter then
    match outerItem with
    | some outerItem =>
        nested.property outerItem c.propertyName >>= fun v =>
          match v with
          | some (.error e) => pure (.error e)
          | some v =>
              current >>= fun s =>
              pure (.ok [c.setupConvenienceProperty s.items "outer" (some v)])
          | none => pure (.ok [])
    | none =>
        match outerScriptValue with
        | some v =>
            current >>= fun s =>
            pure (.ok [c.setupConvenienceProperty s.items "outer" (some v)])
        | none => pure (.ok [])
  else pure (.ok [])

def originalProperty (source : SourceCode) : EvalM (Except String (List (String × JsValue))) :=
  if source.sourceUsesOriginal then
    originalValue nested c >>= fun v =>
      match v with
      | .error e => pure (.error e)
      | .ok v =>
          current >>= fun s =>
          pure (.ok [c.setupConvenienceProperty s.items "original" v])
  else pure (.ok [])

/-- The properties {lit}`base`, {lit}`outer` and {lit}`original` as far as the source code uses
them. -/
def createExtraScope (source : SourceCode) (baseValue : Option Value) (outerItem : Option ItemId)
    (outerScriptValue : Option JsValue) : EvalM (Except String (List Scope)) :=
  baseProperty nested c source baseValue >>= fun base =>
  outerProperty nested c source outerItem outerScriptValue >>= fun outer =>
    match outer with
    | .error e => pure (.error e)
    | .ok outer =>
        originalProperty nested c source >>= fun original =>
          match original with
          | .error e => pure (.error e)
          | .ok original =>
              let properties := base ++ outer ++ original
              pure (.ok (if properties.isEmpty then [] else [.object properties]))

/-- The scopes that source code is run in, the nearest first. -/
def scopesFor (items : Items) (head : ValueHead) (file : FileContext)
    (extraScope : List Scope) (importScope : List (String × JsValue)) : List Scope :=
  let fileScope := (file.idScope.toList.map Scope.item) ++
    [.object [("filePath", .string file.filePath), ("path", .string file.dirPath)]]
  let ownScope :=
    if (items.item c.itemOfProperty).type ≠ .moduleInstance then [Scope.item c.object] else []
  let definingScopes := match head.definingItem with
    | none => []
    | some i => (items.scopeChain i).map Scope.item
  [.object importScope] ++ extraScope ++ definingScopes ++ ownScope ++
    (items.scopeChain c.data).map Scope.item ++ fileScope

/-- The result of evaluating source code. -/
structure JSSourceValueEvaluationResult where
  scriptValue : JsValue
  tryNextAlternative : Bool
  hasError : Bool

/-- Evaluate the condition of an alternative, and whether it overrides list properties of the
value that it belongs to. -/
def checkAlternative (condition overrideListProperties : Script) (elseCaseId : ValueId) :
    EvalM (Option JSSourceValueEvaluationResult) :=
  evaluate nested condition >>= fun sv =>
    if sv.isError then pure (some ⟨sv, true, true⟩)
    else if sv.toBool then
      evaluate nested overrideListProperties >>= fun sv =>
        if sv.isError then pure (some ⟨sv, false, true⟩)
        else if sv.toBool then
          update (fun s => { s with exclusiveListValues := elseCaseId :: s.exclusiveListValues })
            >>= fun _ =>
          emit (.exclusiveListValue elseCaseId) >>= fun _ =>
          pure none
        else pure none
    else pure (some ⟨.undefined, true, false⟩)

/-- Evaluate source code, with the condition of an alternative if there is one. -/
def evaluateJSSourceValue (value : Value) (outerItem : Option ItemId)
    (alternative : Option (Script × Script × ValueId)) (outerScriptValue : Option JsValue) :
    EvalM JSSourceValueEvaluationResult :=
  match value with
  | .item _ _ | .variant _ _ => pure ⟨.undefined, true, false⟩
  | .jsSource head source baseValue _ _ =>
      createExtraScope nested c source baseValue outerItem outerScriptValue >>= fun extraScope =>
        match extraScope, source.file.importScope with
        | .error e, _ => pure ⟨.error e, true, true⟩
        | .ok _, .error e => pure ⟨.error e, true, true⟩
        | .ok extraScope, .ok importScope =>
            current >>= fun s =>
            withScopes (c.scopesFor s.items head source.file extraScope importScope)
              (match alternative with
              | none =>
                  evaluate nested source.code >>= fun v => pure ⟨v, true, false⟩
              | some (condition, overrideListProperties, elseCaseId) =>
                  checkAlternative nested condition overrideListProperties elseCaseId >>= fun r =>
                    match r with
                    | some r => pure r
                    | none => evaluate nested source.code >>= fun v => pure ⟨v, false, false⟩)

/-- What {lit}`outer` is for an alternative that uses it: the value without alternatives, unless
there is an outer item. -/
def outerValue (value alternative : Value) (outerItem : Option ItemId)
    (outerScriptValue : Option JsValue) : EvalM (Except JsValue (Option JsValue)) :=
  if alternative.sourceUsesOuter ∧ outerItem.isNone ∧ outerScriptValue.isNone then
    evaluateJSSourceValue nested c value none none none >>= fun r =>
    pure (if r.hasError then .error r.scriptValue else .ok (some r.scriptValue))
  else pure (.ok outerScriptValue)

/-- Evaluate the first alternative that applies, or the value itself. -/
def handleAlternatives (value : Value) (outerItem : Option ItemId) :
    List (Script × Script × Value) → Option JsValue → EvalM JsValue
  | [], _ =>
      evaluateJSSourceValue nested c value outerItem none none >>= fun r => pure r.scriptValue
  | (condition, overrideListProperties, alternative) :: rest, outerScriptValue =>
      outerValue nested c value alternative outerItem outerScriptValue >>= fun outerScriptValue =>
        match outerScriptValue with
        | .error e => pure e
        | .ok outerScriptValue =>
            evaluateJSSourceValue nested c alternative outerItem
              (some (condition, overrideListProperties, value.head.id)) outerScriptValue
              >>= fun r =>
              if ¬ r.tryNextAlternative ∨ r.hasError then pure r.scriptValue
              else handleAlternatives value outerItem rest outerScriptValue

/-- Convert a value. -/
def handle : Value → EvalM JsValue
  | .jsSource head source baseValue alternatives next =>
      current >>= fun s =>
      handleAlternatives nested c (.jsSource head source baseValue alternatives next)
        (s.items.item c.data).outerItem alternatives none
  | .item _ i => pure (.item i)
  | .variant _ v => pure (.ofVariant v)

end SVConverter

/-! ## Reading properties -/

section Property

variable (resolvePath : String → String → String) (nested : Nested)

/-- Evaluate the values of a next-chain in the items that have set them. -/
def collectLoop (propertyName : String) :
    List Value → List JsValue → EvalM (Except JsValue (List JsValue))
  | [], lst => pure (.ok lst)
  | next :: rest, lst =>
      (match next.head.definingItem with
      | none => pure (some (.error "No item has set the value."))
      | some i => nested.property i propertyName) >>= fun v =>
        match v.getD .undefined with
        | .error e => pure (.error (.error e))
        | .undefined => collectLoop propertyName rest lst
        | v =>
            let lst := lst ++ [v]
            current >>= fun s =>
              if next.isJSSource ∧ next.head.id ∈ s.exclusiveListValues then
                pure (.ok (lst.drop (lst.length - 2)))
              else collectLoop propertyName rest lst

/-- The elements of all collected values in one list. -/
def joinCollected (lst : List JsValue) : JsValue :=
  .array (lst.flatMap asArray)

/-- Collect the values of a next-chain. Meanwhile they count as being on the current one. -/
def collectValuesFromNextChain (propertyName : String) (value : Value) : EvalM JsValue :=
  current >>= fun s =>
    let oldNextChain := s.currentNextChain
    update (fun s => { s with
      currentNextChain := value.nextChain.map (fun v => v.head.id) ++ s.currentNextChain })
      >>= fun _ =>
    collectLoop nested propertyName value.nextChain [] >>= fun lst =>
      match lst with
      | .error e => emit .errorExit >>= fun _ => pure e
      | .ok lst =>
          update (fun s => { s with currentNextChain := oldNextChain }) >>= fun _ =>
          pure (joinCollected lst)

/-- The full name of a property of a module that is given as source code. -/
def fullPropName (items : Items) (itemOfProperty : ItemId) (name : String) (value : Value) :
    Option QualifiedId :=
  let type := (items.item itemOfProperty).type
  if value.isJSSource ∧ (type = .moduleInstance ∨ type = .module ∨ type = .exports) then
    (items.variantProperty itemOfProperty "name").map fun moduleName =>
      QualifiedId.fromString (textOf moduleName) ++ [name]
  else none

/-- While a property of a module is evaluated, its name is on the stack, and the property that
was requested before depends on it. -/
def withPropertyStack {α : Type} (itemOfProperty : ItemId) (name : String) (value : Value)
    (m : EvalM α) : EvalM α :=
  current >>= fun s =>
    match fullPropName s.items itemOfProperty name value with
    | none => m
    | some fullPropName =>
        (match s.requestedProperties with
        | [] => pure ()
        | top :: _ => emit (.dependency fullPropName top)) >>= fun _ =>
        update (fun s => { s with requestedProperties := fullPropName :: s.requestedProperties })
          >>= fun _ =>
        m >>= fun a =>
        update (fun s => { s with requestedProperties := s.requestedProperties.tail }) >>= fun _ =>
        pure a

/-- Evaluate a value that is not in the cache. -/
def evaluateValue (object : ItemId) (foundInParent : Bool) (data itemOfProperty : ItemId)
    (name : String) (value : Value) : EvalM JsValue :=
  current >>= fun s =>
    if value.next.isSome ∧ value.head.id ∉ s.currentNextChain then
      collectValuesFromNextChain nested name value
    else
      let object := if foundInParent then (s.items.item data).parent.getD object else object
      SVConverter.handle nested ⟨object, itemOfProperty, name, data⟩ value >>= fun v =>
      current >>= fun s =>
        let type := s.items.propertyDeclaration data name
        if value.isVariant ∧ v.isUndefined ∧ ¬ type.isScalar then pure (.array [])
        else
          writeElements resolvePath s.items s.pathPropertiesBaseDir data type v >>= fun _ =>
          pure (convertToPropertyType resolvePath s.items s.pathPropertiesBaseDir data name type v)

/-- Look in the cache if it is enabled, and evaluate the value otherwise. -/
def cachedValue (data : ItemId) (name : String) (m : EvalM JsValue) : EvalM JsValue :=
  current >>= fun s =>
    match if s.valueCacheEnabled then s.valueCache.lookup (data, name) else none with
    | some v => pure v
    | none =>
        m >>= fun v =>
        update (fun s =>
          if s.valueCacheEnabled then
            { s with valueCache := ((data, name), v) :: s.valueCache }
          else s) >>= fun _ =>
        pure v

/-- Read the property that has been asked for. -/
def readProperty (object : ItemId) (name : String) : QueryPropertyType → EvalM JsValue
  | type =>
      current >>= fun s =>
      update (fun s => { s with queryResult := none }) >>= fun _ =>
        match s.queryResult, type with
        | none, _ => pure .undefined
        | some q, .parentProperty =>
            pure (match (s.items.item q.data).parent with
              | none => .undefined
              | some parent => .item parent)
        | some q, .default =>
            match q.itemOfProperty, q.value with
            | some itemOfProperty, some value =>
                withPropertyStack itemOfProperty name value
                  (cachedValue q.data name
                    (evaluateValue resolvePath nested object q.foundInParent q.data itemOfProperty
                      name value))
            | _, _ => pure .undefined

/-- Ask for a property and read it. -/
def step (object : ItemId) (name : String) : EvalM (Option JsValue) :=
  queryProperty object name >>= fun type =>
    match type with
    | none => pure none
    | some type => readProperty resolvePath nested object name type >>= fun v => pure (some v)

end Property

section Evaluator

variable (resolvePath : String → String → String)

/-- The error that the engine reports when evaluations are nested too deeply. -/
def tooDeep : JsValue :=
  .error "RangeError: Maximum call stack size exceeded."

/-- The evaluator with a bound on how deep evaluations are nested. -/
def evaluator : Nat → Nested
  | 0 => ⟨fun _ _ => pure (some tooDeep), fun _ _ => pure tooDeep⟩
  | n + 1 => ⟨step resolvePath (evaluator n), SVConverter.handle (evaluator n)⟩

/-- Evaluate a property of an item; a property that does not exist has no value. -/
def property (limit : Nat) (item : ItemId) (name : String) : EvalM (Option JsValue) :=
  (evaluator resolvePath limit).property item name

end Evaluator

end Evaluator

end Qbs
