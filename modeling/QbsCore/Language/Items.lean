import QbsCore.Language.Variant
import Mathlib.Data.List.Basic

/-!
# Items and the values of their properties

The items of a project form a graph: each has a prototype that it inherits properties from, a
scope and a parent.  The values of properties are owned by the items and are copied when an
item is cloned.

Main results:

- Definition {lit}`Items.property`: the value of a property, which may be inherited.
- Definition {lit}`Heap.clone`: a copy of an item with copies of all its values.

Current gaps:

- Source code is given by what it does: a script looks up names, reads properties and
  returns a value.  Of JavaScript objects that are not items, only the arrays of imported
  files can change; what a script has seen of them stays until it looks them up again.
- Modules and locations of items are left out.
-/

namespace Qbs

/-- The place of an item among all items. -/
abbrev ItemId := Nat

/-- The identity of a value object. -/
abbrev ValueId := Nat

/-- The identity of an array of an imported file. -/
abbrev ArrayId := Nat

/-- A name with its parts. -/
abbrev QualifiedId := List String

def QualifiedId.fromString (s : String) : QualifiedId :=
  s.splitOn "."

inductive ItemType where
  | moduleInstance
  | module
  | exports
  | group
  | product
  | other
deriving DecidableEq

/-- The types that properties are declared with. -/
inductive PropertyType where
  | unknownType
  | boolean
  | integer
  | path
  | pathList
  | string
  | stringList
  | variant
  | variantList
deriving DecidableEq

namespace PropertyType

def isScalar (t : PropertyType) : Bool :=
  t ≠ pathList && t ≠ stringList && t ≠ variantList

def typeString : PropertyType → String
  | boolean => "bool"
  | integer => "int"
  | path => "path"
  | pathList => "pathList"
  | string => "string"
  | stringList => "stringList"
  | variant => "variant"
  | variantList => "varList"
  | unknownType => "unknown"

end PropertyType

/-! ## Scripts -/

/-- What a script computes with. An array of an imported file is the same one for all scripts;
with it is what it holds. -/
inductive JsValue where
  | undefined
  | null
  | bool (b : Bool)
  | number (i : Int)
  | string (s : String)
  | array (l : List JsValue)
  | sharedArray (id : ArrayId) (l : List JsValue)
  | object (l : List (String × JsValue))
  | item (i : ItemId)
  | error (message : String)

namespace JsValue

instance : Inhabited JsValue where
  default := undefined

def isUndefined : JsValue → Bool
  | undefined => true
  | _ => false

def isError : JsValue → Bool
  | error _ => true
  | _ => false

def toBool : JsValue → Bool
  | undefined | null => false
  | bool b => b
  | number i => i ≠ 0
  | string s => s ≠ ""
  | array _ | sharedArray _ _ | object _ | item _ | error _ => true

mutual

/-- The script value for a variant. -/
def ofVariant : Variant → JsValue
  | .invalid => undefined
  | .bool b => bool b
  | .int i => number i
  | .string s => string s
  | .list l => array (ofVariantList l)
  | .map m => object (ofVariantMap m)

def ofVariantList : List Variant → List JsValue
  | [] => []
  | v :: l => ofVariant v :: ofVariantList l

def ofVariantMap : List (String × Variant) → List (String × JsValue)
  | [] => []
  | (key, v) :: l => (key, ofVariant v) :: ofVariantMap l

end

mutual

/-- A value with what arrays of imported files hold now. -/
def refresh (arrays : List (ArrayId × List JsValue)) : JsValue → JsValue
  | sharedArray id l => sharedArray id ((arrays.lookup id).getD l)
  | array l => array (refreshList arrays l)
  | object m => object (refreshMap arrays m)
  | v => v

def refreshList (arrays : List (ArrayId × List JsValue)) : List JsValue → List JsValue
  | [] => []
  | v :: l => refresh arrays v :: refreshList arrays l

def refreshMap (arrays : List (ArrayId × List JsValue)) :
    List (String × JsValue) → List (String × JsValue)
  | [] => []
  | (key, v) :: l => (key, refresh arrays v) :: refreshMap arrays l

end

end JsValue

/-- What source code does: it looks up names in its scopes and reads properties of items,
and what it does next depends on what it gets. -/
inductive Script where
  | done (v : JsValue)
  | lookup (name : String) (k : JsValue → Script)
  | get (object : ItemId) (name : String) (k : JsValue → Script)

namespace Script

instance : Inhabited Script where
  default := done .undefined

/-- A script that is just a name. -/
def ofName (name : String) : Script :=
  lookup name done

end Script

/-- A project file: the scope of its ids, and what its imports give. -/
structure FileContext where
  filePath : String
  dirPath : String
  idScope : Option ItemId
  importScope : Except String (List (String × JsValue))

instance : Inhabited FileContext where
  default := ⟨"", "", none, .ok []⟩

/-- The source code of a value. -/
structure SourceCode where
  code : Script
  file : FileContext
  sourceUsesBase : Bool
  sourceUsesOuter : Bool
  sourceUsesOriginal : Bool
deriving Inhabited

/-! ## Values -/

/-- What all values have. -/
structure ValueHead where
  id : ValueId
  definingItem : Option ItemId
deriving DecidableEq

/-- The value of a property. -/
inductive Value where
  /-- Source code, with the alternatives from Properties items: a condition, whether it
  overrides list properties, and the source code for it. -/
  | jsSource (head : ValueHead) (source : SourceCode) (baseValue : Option Value)
      (alternatives : List (Script × Script × Value)) (next : Option Value)
  | item (head : ValueHead) (item : ItemId)
  | variant (head : ValueHead) (value : Variant)

namespace Value

def head : Value → ValueHead
  | jsSource head _ _ _ _ | item head _ | variant head _ => head

def next : Value → Option Value
  | jsSource _ _ _ _ next => next
  | item _ _ | variant _ _ => none

def isJSSource : Value → Bool
  | jsSource _ _ _ _ _ => true
  | item _ _ | variant _ _ => false

def isVariant : Value → Bool
  | variant _ _ => true
  | jsSource _ _ _ _ _ | item _ _ => false

def sourceUsesOuter : Value → Bool
  | jsSource _ source _ _ _ => source.sourceUsesOuter
  | item _ _ | variant _ _ => false

/-- A value and the ones behind it on its next-chain. -/
def nextChain : Value → List Value
  | jsSource head source base alternatives next =>
      jsSource head source base alternatives next :: nextChainOf next
  | item head i => [item head i]
  | variant head v => [variant head v]
where
  nextChainOf : Option Value → List Value
    | none => []
    | some v => v.nextChain

end Value

/-! ## Items -/

/-- An item. -/
structure Item where
  type : ItemType
  prototype : Option ItemId
  scope : Option ItemId
  outerItem : Option ItemId
  parent : Option ItemId
  properties : List (String × Value)
  propertyDeclarations : List (String × PropertyType)
  children : List ItemId

instance : Inhabited Item where
  default := ⟨.other, none, none, none, none, [], [], []⟩

def Item.ownProperty (item : Item) (name : String) : Option Value :=
  item.properties.lookup name

/-- Set a property of an item. -/
def Item.setProperty (item : Item) (name : String) (value : Value) : Item :=
  { item with
    properties := (name, value) :: item.properties.filter fun e => e.1 ≠ name }

/-- All items. -/
abbrev Items := List Item

namespace Items

def item (items : Items) (i : ItemId) : Item :=
  items.getD i default

/-- Follow a pointer from item to item, at most a number of times. -/
def walk (items : Items) (pointer : Item → Option ItemId) : Nat → ItemId → List ItemId
  | 0, _ => []
  | n + 1, i =>
      i :: match pointer (items.item i) with
        | none => []
        | some j => walk items pointer n j

/-- An item and its prototypes, nearest first. -/
def prototypes (items : Items) (i : ItemId) : List ItemId :=
  items.walk Item.prototype items.length i

/-- The scopes of an item, nearest first. -/
def scopeChain (items : Items) (i : ItemId) : List ItemId :=
  match (items.item i).scope with
  | none => []
  | some j => items.walk Item.scope items.length j

/-- The item that has a property, and the value. -/
def findProperty (items : Items) (i : ItemId) (name : String) : Option (ItemId × Value) :=
  (items.prototypes i).findSome? fun j =>
    ((items.item j).ownProperty name).map fun value => (j, value)

def property (items : Items) (i : ItemId) (name : String) : Option Value :=
  (items.findProperty i name).map Prod.snd

def hasProperty (items : Items) (i : ItemId) (name : String) : Bool :=
  (items.property i name).isSome

/-- The value of a property if it is a variant. -/
def variantProperty (items : Items) (i : ItemId) (name : String) : Option Variant :=
  match items.property i name with
  | some (.variant _ value) => some value
  | _ => none

/-- The type that a property is declared with. -/
def propertyDeclaration (items : Items) (i : ItemId) (name : String) : PropertyType :=
  ((items.prototypes i).findSome? fun j =>
    (items.item j).propertyDeclarations.lookup name).getD .unknownType

def setProperty (items : Items) (i : ItemId) (name : String) (value : Value) : Items :=
  items.modify i fun item => item.setProperty name value

end Items

/-! ## Clones -/

/-- The items with the flags of their values. -/
structure Heap where
  items : Items
  /-- The values that an alternative has made exclusive. -/
  exclusiveListValues : List ValueId
  lastValueId : ValueId

namespace Heap

/-- A new value object with the flag of another one. -/
def cloneHead (heap : Heap) (head : ValueHead) : ValueHead × Heap :=
  (⟨heap.lastValueId + 1, head.definingItem⟩, { heap with
    lastValueId := heap.lastValueId + 1
    exclusiveListValues :=
      if head.id ∈ heap.exclusiveListValues then
        (heap.lastValueId + 1) :: heap.exclusiveListValues
      else heap.exclusiveListValues })

variable (cloneItem : ItemId → Heap → ItemId × Heap)

mutual

/-- Clone a value with all that it owns. -/
def cloneValue : Value → Heap → Value × Heap
  | .jsSource head source base alternatives next, heap =>
      let (next, heap) := cloneOption next heap
      let (head, heap) := heap.cloneHead head
      let (base, heap) := cloneOption base heap
      let (alternatives, heap) := cloneAlternatives alternatives heap
      (.jsSource head source base alternatives next, heap)
  | .item head i, heap =>
      let (i, heap) := cloneItem i heap
      let (head, heap) := heap.cloneHead ⟨head.id, none⟩
      (.item head i, heap)
  | .variant head v, heap =>
      let (head, heap) := heap.cloneHead head
      (.variant head v, heap)

def cloneOption : Option Value → Heap → Option Value × Heap
  | none, heap => (none, heap)
  | some v, heap =>
      let (v, heap) := cloneValue v heap
      (some v, heap)

def cloneAlternatives :
    List (Script × Script × Value) → Heap → List (Script × Script × Value) × Heap
  | [], heap => ([], heap)
  | (condition, override, v) :: rest, heap =>
      let (v, heap) := cloneValue v heap
      let (rest, heap) := cloneAlternatives rest heap
      ((condition, override, v) :: rest, heap)

end

def cloneProperties : List (String × Value) → Heap → List (String × Value) × Heap
  | [], heap => ([], heap)
  | (name, v) :: rest, heap =>
      let (v, heap) := cloneValue cloneItem v heap
      let (rest, heap) := cloneProperties rest heap
      ((name, v) :: rest, heap)

/-- Clone the children of an item for its duplicate. -/
def cloneChildren (dup : ItemId) : List ItemId → Heap → List ItemId × Heap
  | [], heap => ([], heap)
  | child :: rest, heap =>
      let (child, heap) := cloneItem child heap
      let heap := { heap with
        items := heap.items.modify child fun item => { item with parent := some dup } }
      let (rest, heap) := cloneChildren dup rest heap
      (child :: rest, heap)

/-- Clone an item with its children and the values of its properties. Items contain each
other at most as deep as the fuel allows. -/
def clone : Nat → ItemId → Heap → ItemId × Heap
  | 0, i, heap => (i, heap)
  | fuel + 1, i, heap =>
      let item := heap.items.item i
      let dup := heap.items.length
      let heap := { heap with
        items := heap.items ++ [{ item with properties := [], children := [] }] }
      let (children, heap) := cloneChildren (clone fuel) dup item.children heap
      let (properties, heap) := cloneProperties (clone fuel) item.properties heap
      (dup, { heap with items := heap.items.modify dup fun item =>
        { item with children := children, properties := properties } })

end Heap

end Qbs
