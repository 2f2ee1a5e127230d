import QbsCore.Serialization.Types
import QbsCore.Library.Streams
import QbsCore.Tools.Error

/-!
# The persistent pool

The pool writes the objects of a memory to a stream.  What is referred to more than once is
written once and gets an id; the reader keeps what it has read under the same ids.

Main results:

- Definitions {lit}`Serialization.storeValue` and {lit}`Serialization.loadValue`: the operations
  for each type.
- Definitions {lit}`Serialization.storeGraph` and {lit}`Serialization.loadGraph`: a file is
  written and read.

Current gaps:

- The stream is a list of tokens: numbers, strings and the variants that the stream handles by
  itself.  A token of another kind than the one that is read counts as an error.
- Counts and ids do not overflow.
- The failures of opening, flushing and removing files are left out.
-/

namespace Qbs

namespace Serialization

open Streams

/-- What the stream consists of. -/
inductive Token where
  | int (i : Int)
  | string (s : String)
  | variant (value : OtherVariant)
deriving DecidableEq

/-! ## The memory that is stored -/

/-- The classes with what their load and store operations process. -/
abbrev Fields (Class : Type) :=
  Class → Ty Class

/-- Finitely many objects. Each has a class and is referred to either by plain pointers or by
shared ones, and its members may refer to any object. -/
structure Memory {Class : Type} (fields : Fields Class) where
  size : Nat
  kind : Fin size → Bool × Class
  contents : (a : Fin size) →
    (fields (kind a).2).Val fun shared c => {b : Fin size // kind b = (shared, c)}

/-- The references to objects of a kind. -/
def Memory.Ref {Class : Type} {fields : Fields Class} (m : Memory fields) (shared : Bool)
    (c : Class) : Type :=
  {b : Fin m.size // m.kind b = (shared, c)}

/-! ## The state of the pool -/

/-- The ids of the values that have been stored. -/
structure IdMap (α : Type) where
  ids : AssocMap α Int
  lastStoredId : Int

/-- Give the next id to a value. -/
def IdMap.insert {α : Type} [DecidableEq α] (m : IdMap α) (value : α) : IdMap α where
  ids := AList.insert value m.lastStoredId m.ids
  lastStoredId := m.lastStoredId + 1

/-- The state while storing. -/
structure StorePool (n : Nat) where
  storageIndices : AssocMap (Fin n) Int
  lastStoredObjectId : Int
  inverseStringStorage : IdMap String
  inverseStringListStorage : IdMap (List String)
  inverseEnvStorage : IdMap QProcessEnvironment

/-- References in the memory of the reader: the number of the object. -/
abbrev Loaded (Class : Type) (_ : Bool) (_ : Class) : Type :=
  Nat

/-- The state while loading, with the memory that has been allocated. The members of an
object are there when they have been loaded. -/
structure LoadPool {Class : Type} (fields : Fields Class) where
  loadedRaw : List (Option Nat)
  loaded : List (Option Nat)
  stringStorage : List String
  stringListStorage : List (List String)
  envStorage : List QProcessEnvironment
  objects : List (Option (Σ c : Class, (fields c).Val (Loaded Class)))

def emptyValueId : Int :=
  -2

def valueNotFoundId : Int :=
  -1

/-- The text of the error for what is not a file of the pool. -/
def corrupt : ErrorInfo :=
  .message "Failure reading build graph."

section Operations

variable {n : Nat} {Class : Type} {fields : Fields Class}

abbrev Store (n : Nat) :=
  Writer Token (StorePool n) ErrorInfo

abbrev Load {Class : Type} (fields : Fields Class) :=
  Reader Token (LoadPool fields) ErrorInfo

def putInt (i : Int) : Store n Unit :=
  put (.int i)

def intOf : Token → Load fields Int
  | .int i => pure i
  | _ => fail corrupt

def nextInt : Load fields Int :=
  next corrupt >>= intOf

/-! ## Strings, string lists and environments -/

/-- Where the ids of the values of a type are kept. -/
structure StoreTable (n : Nat) (α : Type) where
  idMap : StorePool n → IdMap α
  setIdMap : IdMap α → StorePool n → StorePool n

/-- Where the loaded values of a type are kept. -/
structure LoadTable {Class : Type} (fields : Fields Class) (α : Type) where
  idStorage : LoadPool fields → List α
  setIdStorage : List α → LoadPool fields → LoadPool fields

/-- Grow a table so that it has an entry with an id. -/
def resize {α : Type} (l : List α) (size : Nat) (value : α) : List α :=
  l ++ List.replicate (size - l.length) value

/-- Store a value: an empty one has an id of its own, one that has been stored before is
referred to. -/
def idStoreValue {α : Type} [DecidableEq α] (table : StoreTable n α) (isEmpty : α → Bool)
    (doStoreValue : α → Store n Unit) (value : α) : Store n Unit :=
  if isEmpty value then putInt emptyValueId
  else
    current >>= fun pool =>
      let id := ((table.idMap pool).ids.lookup value).getD valueNotFoundId
      if id < 0 then
        update (fun pool => table.setIdMap ((table.idMap pool).insert value) pool) >>= fun _ =>
        putInt (table.idMap pool).lastStoredId >>= fun _ =>
        doStoreValue value
      else putInt id

/-- Load a value: the first time it follows its id. -/
def idLoadValue {α : Type} (table : LoadTable fields α) (empty : α) (doLoadValue : Load fields α) :
    Load fields α :=
  nextInt >>= fun id =>
    if id = emptyValueId then pure empty
    else if id < 0 then fail (.check "id >= 0")
    else
      current >>= fun pool =>
        if (table.idStorage pool).length ≤ id.toNat then
          doLoadValue >>= fun value =>
          update (fun pool => table.setIdStorage
            ((resize (table.idStorage pool) (id.toNat + 1) empty).set id.toNat value) pool)
            >>= fun _ =>
          pure value
        else pure ((table.idStorage pool).getD id.toNat empty)

variable (n) in
def storedStrings : StoreTable n String where
  idMap := StorePool.inverseStringStorage
  setIdMap := fun m pool => { pool with inverseStringStorage := m }

variable (n) in
def storedStringLists : StoreTable n (List String) where
  idMap := StorePool.inverseStringListStorage
  setIdMap := fun m pool => { pool with inverseStringListStorage := m }

variable (n) in
def storedEnvironments : StoreTable n QProcessEnvironment where
  idMap := StorePool.inverseEnvStorage
  setIdMap := fun m pool => { pool with inverseEnvStorage := m }

variable (fields) in
def loadedStrings : LoadTable fields String where
  idStorage := LoadPool.stringStorage
  setIdStorage := fun l pool => { pool with stringStorage := l }

variable (fields) in
def loadedStringLists : LoadTable fields (List String) where
  idStorage := LoadPool.stringListStorage
  setIdStorage := fun l pool => { pool with stringListStorage := l }

variable (fields) in
def loadedEnvironments : LoadTable fields QProcessEnvironment where
  idStorage := LoadPool.envStorage
  setIdStorage := fun l pool => { pool with envStorage := l }

def storeString (s : String) : Store n Unit :=
  idStoreValue (storedStrings n) (fun s => s.isEmpty) (fun s => put (.string s)) s

def stringOf : Token → Load fields String
  | .string s => pure s
  | _ => fail corrupt

def loadString : Load fields String :=
  idLoadValue (loadedStrings fields) "" (next corrupt >>= stringOf)

def doStoreStringList (l : List String) : Store n Unit :=
  putInt l.length >>= fun _ => putAll storeString l

def doLoadStringList : Load fields (List String) :=
  nextInt >>= fun size => readInto loadString (fun l s => l ++ [s]) size.toNat []

def storeStringList (l : List String) : Store n Unit :=
  idStoreValue (storedStringLists n) (fun l => l.isEmpty) doStoreStringList l

def loadStringList : Load fields (List String) :=
  idLoadValue (loadedStringLists fields) [] doLoadStringList

def doStoreEnvironment (env : QProcessEnvironment) : Store n Unit :=
  storeStringList env.keys >>= fun _ => putAll (fun e => storeString e.2) env.1

/-- Read the value of each key. -/
def loadVariables :
    List String → QProcessEnvironment → Load fields QProcessEnvironment
  | [], env => pure env
  | key :: keys, env => loadString >>= fun value => loadVariables keys (env.insert (key, value))

def doLoadEnvironment : Load fields QProcessEnvironment :=
  loadStringList >>= fun keys => loadVariables keys .empty

def storeEnvironment (env : QProcessEnvironment) : Store n Unit :=
  idStoreValue (storedEnvironments n) (fun env => env.1.isEmpty) doStoreEnvironment env

def loadEnvironment : Load fields QProcessEnvironment :=
  idLoadValue (loadedEnvironments fields) .empty doLoadEnvironment

/-! ## Variants -/

mutual

/-- Store the number of the type of a variant and then its value. -/
def storeVariant : VariantData → Store n Unit
  | .string s => putInt 10 >>= fun _ => storeString s
  | .stringList l => putInt 11 >>= fun _ => storeStringList l
  | .list l => putInt 9 >>= fun _ => putInt l.length >>= fun _ => storeVariantList l
  | .map entries => putInt 8 >>= fun _ => putInt entries.length >>= fun _ => storeVariantMap entries
  | .other value => putInt value.userType >>= fun _ => put (.variant value)

def storeVariantList : List VariantData → Store n Unit
  | [] => pure ()
  | v :: l => storeVariant v >>= fun _ => storeVariantList l

def storeVariantMap : List (String × VariantData) → Store n Unit
  | [] => pure ()
  | (key, v) :: entries =>
      (storeString key >>= fun _ => storeVariant v) >>= fun _ => storeVariantMap entries

end

def otherOf : Token → Load fields QVariant
  | .variant value => pure (.ofOther value)
  | _ => fail corrupt

/-- Load a variant; the fuel bounds how deep variants are nested. -/
def loadVariant : Nat → Load fields QVariant
  | 0 => fail .outOfFuel
  | fuel + 1 =>
      nextInt >>= fun type =>
        if type = 10 then loadString >>= fun s => pure (.ofString s)
        else if type = 11 then loadStringList >>= fun l => pure (.ofStringList l)
        else if type = 9 then
          nextInt >>= fun count =>
          readInto (loadVariant fuel) (fun l v => l ++ [v]) count.toNat [] >>= fun l =>
          pure (.ofList l)
        else if type = 8 then
          nextInt >>= fun count =>
          readInto (loadString >>= fun key => loadVariant fuel >>= fun v => pure (key, v))
            QVariantMap.insert count.toNat .empty >>= fun m =>
          pure (.ofMap m)
        else next corrupt >>= otherOf

/-! ## Objects -/

/-- Store a pointer: the first time its object gets an id and is stored behind it. -/
def storeSharedObject (storeContents : Fin n → Store n Unit) (a : Fin n) : Store n Unit :=
  current >>= fun pool =>
    match pool.storageIndices.lookup a with
    | none =>
        update (fun pool => { pool with
          lastStoredObjectId := pool.lastStoredObjectId + 1
          storageIndices := AList.insert a pool.lastStoredObjectId pool.storageIndices }) >>= fun _ =>
        putInt pool.lastStoredObjectId >>= fun _ =>
        storeContents a
    | some id => putInt id

/-- Store a pointer, which may be null. -/
def storePointer (storeObject : Fin n → Store n Unit) : Option (Fin n) → Store n Unit
  | none => putInt (-1)
  | some a => storeObject a

/-- The table with the objects that plain pointers refer to, or that of the shared ones. -/
def LoadPool.table (pool : LoadPool fields) : Bool → List (Option Nat)
  | false => pool.loadedRaw
  | true => pool.loaded

def LoadPool.setTable (pool : LoadPool fields) : Bool → List (Option Nat) → LoadPool fields
  | false, l => { pool with loadedRaw := l }
  | true, l => { pool with loaded := l }

/-- Allocate an object and remember it under an id. -/
def LoadPool.create (pool : LoadPool fields) (shared : Bool) (id : Nat) : LoadPool fields :=
  let entries := (resize (pool.table shared) (id + 1) none).set id (some pool.objects.length)
  { pool.setTable shared entries with objects := pool.objects ++ [none] }

/-- The members of an object have been loaded. -/
def LoadPool.setContents (pool : LoadPool fields) (address : Nat) (c : Class)
    (contents : (fields c).Val (Loaded Class)) : LoadPool fields :=
  { pool with objects := pool.objects.set address (some ⟨c, contents⟩) }

/-- Load a pointer: an object whose id is behind the end of the table is created and loaded. -/
def idLoad (shared : Bool) (c : Class) (loadContents : Load fields ((fields c).Val (Loaded Class))) :
    Load fields (Option Nat) :=
  nextInt >>= fun id =>
    if id < 0 then pure none
    else
      current >>= fun pool =>
        if id.toNat < (pool.table shared).length then
          pure ((pool.table shared).getD id.toNat none)
        else
          update (fun pool => pool.create shared id.toNat) >>= fun _ =>
          loadContents >>= fun contents =>
          update (fun pool' => pool'.setContents pool.objects.length c contents) >>= fun _ =>
          pure (some pool.objects.length)

/-! ## All types -/

/-- Pointers that are loaded into a set are sorted afterwards. -/
def sortAfterLoad :
    (k : KeyTy Class) → List (k.Val (Loaded Class)) → List (k.Val (Loaded Class))
  | .pointer _ _, (l : List (Option Nat)) =>
      l.mergeSort fun p q => p.elim 0 (· + 1) ≤ q.elim 0 (· + 1)
  | _, l => l

variable {Ref : Bool → Class → Type}

/-- Store a key. -/
def storeKey (storePtr : (shared : Bool) → (c : Class) → Option (Ref shared c) → Store n Unit) :
    (k : KeyTy Class) → k.Val Ref → Store n Unit
  | .int, i => putInt i
  | .string, s => storeString s
  | .stringList, l => storeStringList l
  | .pair a b, (x, y) => storeKey storePtr a x >>= fun _ => storeKey storePtr b y
  | .pointer shared c, p => storePtr shared c p

/-- Store a value of a type. -/
def storeValue (storePtr : (shared : Bool) → (c : Class) → Option (Ref shared c) → Store n Unit) :
    (t : Ty Class) → t.Val Ref → Store n Unit
  | .unit, _ => pure ()
  | .key k, x => storeKey storePtr k x
  | .environment, env => storeEnvironment env
  | .variant, v => storeVariant v.1
  | .pair a b, (x, y) => storeValue storePtr a x >>= fun _ => storeValue storePtr b y
  | .list a, l => putInt (List.length l) >>= fun _ => putAll (storeValue storePtr a) l
  | .map _ k v, (m : AssocMap (k.Val Ref) (v.Val Ref)) =>
      putInt m.entries.length >>= fun _ =>
      putAll (fun e => storeKey storePtr k e.1 >>= fun _ => storeValue storePtr v e.2) m.entries
  | .set a, l => putInt (List.length l) >>= fun _ => putAll (storeKey storePtr a) l
  | .sum a _, .inl x => putInt 0 >>= fun _ => storeValue storePtr a x
  | .sum _ b, .inr y => putInt 1 >>= fun _ => storeValue storePtr b y

/-- Load a key. -/
def loadKey (loadPtr : (shared : Bool) → Class → Load fields (Option Nat)) :
    (k : KeyTy Class) → Load fields (k.Val (Loaded Class))
  | .int => nextInt
  | .string => loadString
  | .stringList => loadStringList
  | .pair a b => loadKey loadPtr a >>= fun x => loadKey loadPtr b >>= fun y => pure (x, y)
  | .pointer shared c => loadPtr shared c

/-- Load a value of a type. -/
def loadValue (loadVariant : Load fields QVariant)
    (loadPtr : (shared : Bool) → Class → Load fields (Option Nat)) :
    (t : Ty Class) → Load fields (t.Val (Loaded Class))
  | .unit => pure ()
  | .key k => loadKey loadPtr k
  | .environment => loadEnvironment
  | .variant => loadVariant
  | .pair a b =>
      loadValue loadVariant loadPtr a >>= fun x =>
      loadValue loadVariant loadPtr b >>= fun y =>
      pure (x, y)
  | .list a =>
      nextInt >>= fun count =>
      readInto (loadValue loadVariant loadPtr a)
        (fun (l : List (a.Val (Loaded Class))) x => l ++ [x]) count.toNat []
  | .map overwrites k v =>
      nextInt >>= fun count =>
      readInto (loadKey loadPtr k >>= fun key =>
          loadValue loadVariant loadPtr v >>= fun value => pure (key, value))
        (fun m (e : k.Val (Loaded Class) × v.Val (Loaded Class)) =>
          if overwrites then AList.insert e.1 e.2 m else AssocMap.insertNew m e.1 e.2)
        count.toNat (∅ : AList _)
  | .set a =>
      nextInt >>= fun count =>
      readInto (loadKey loadPtr a)
        (fun (l : List (a.Val (Loaded Class))) x => l ++ [x]) count.toNat [] >>= fun l =>
      pure (sortAfterLoad a l)
  | .sum a b =>
      nextInt >>= fun tag =>
        if tag = 0 then loadValue loadVariant loadPtr a >>= fun x => pure (.inl x)
        else loadValue loadVariant loadPtr b >>= fun y => pure (.inr y)

/-! ## Graphs -/

/-- Store an object of a memory; no more objects are nested than there are. -/
def storeObject (m : Memory fields) : Nat → Fin m.size → Store m.size Unit
  | 0, _ => fail .outOfFuel
  | fuel + 1, a =>
      storeSharedObject (fun a => storeValue
        (fun _ _ p => storePointer (storeObject m fuel) (p.map Subtype.val))
        (fields (m.kind a).2) (m.contents a)) a

/-- Store a value that may refer to the objects of a memory. -/
def storeRoot (m : Memory fields) (t : Ty Class) (v : t.Val m.Ref) : Store m.size Unit :=
  storeValue
    (fun _ _ p => storePointer (storeObject m (m.size + 1)) (p.map Subtype.val)) t v

variable (fields) in
/-- Load an object; the fuel bounds how deep objects are nested. -/
def loadObject : Nat → Bool → Class → Load fields (Option Nat)
  | 0, _, _ => fail .outOfFuel
  | fuel + 1, shared, c =>
      idLoad shared c (loadValue (loadVariant fuel) (loadObject fuel) (fields c))

/-- Load a value. Nothing is nested deeper than there are tokens. -/
def loadRoot (t : Ty Class) : Load fields (t.Val (Loaded Class)) :=
  fun s => loadValue (loadVariant (s.2.length + 1)) (loadObject fields (s.2.length + 1)) t s

/-- A file of the pool. -/
structure GraphFile where
  magic : String
  projectConfig : QVariantMap
  tokens : List Token

def persistenceMagic : String :=
  "QBSPERSISTENCE-130"

/-- A new pool. -/
def StorePool.new (n : Nat) : StorePool n where
  storageIndices := ∅
  lastStoredObjectId := 0
  inverseStringStorage := ⟨∅, 0⟩
  inverseStringListStorage := ⟨∅, 0⟩
  inverseEnvStorage := ⟨∅, 0⟩

def LoadPool.new (fields : Fields Class) : LoadPool fields where
  loadedRaw := []
  loaded := []
  stringStorage := []
  stringListStorage := []
  envStorage := []
  objects := []

/-- Start a file: the magic token is left open. -/
def setupWriteStream (projectConfig : QVariantMap) (pool : StorePool n) : GraphFile × StorePool n :=
  (⟨"", projectConfig, []⟩, { pool with
    lastStoredObjectId := 0
    inverseStringStorage := { pool.inverseStringStorage with lastStoredId := 0 }
    inverseStringListStorage := { pool.inverseStringListStorage with lastStoredId := 0 }
    inverseEnvStorage := { pool.inverseEnvStorage with lastStoredId := 0 } })

/-- Complete a file: the magic token shows that all was written. -/
def finalizeWriteStream (file : GraphFile) : GraphFile :=
  { file with magic := persistenceMagic }

/-- Open a file for loading. -/
def loadHead (file : GraphFile) (pool : LoadPool fields) :
    Except ErrorInfo (QVariantMap × LoadPool fields) :=
  if file.magic ≠ persistenceMagic then
    .error (.message (s!"Cannot use stored build graph: Incompatible file format. " ++
      s!"Expected magic token '{persistenceMagic}', got '{file.magic}'."))
  else .ok (file.projectConfig, { pool with loadedRaw := [], loaded := [], stringStorage := [] })

/-- Store a value and what it refers to in a file. -/
def storeGraph (m : Memory fields) (projectConfig : QVariantMap) (t : Ty Class) (v : t.Val m.Ref) :
    Except ErrorInfo GraphFile :=
  let start := setupWriteStream projectConfig (StorePool.new m.size)
  storeRoot m t v (start.2, start.1.tokens) >>= fun r =>
    .ok (finalizeWriteStream { start.1 with tokens := r.2.2 })

/-- Load the configuration, a value and the memory with what it refers to from a file. The
rest of the tokens has not been read. -/
def loadGraph (fields : Fields Class) (t : Ty Class) (file : GraphFile) :
    Except ErrorInfo (QVariantMap × t.Val (Loaded Class) × LoadPool fields × List Token) :=
  loadHead file (LoadPool.new fields) >>= fun head =>
    loadRoot t (head.2, file.tokens) >>= fun r => .ok (head.1, r.1, r.2.1, r.2.2)

end Operations

end Serialization

end Qbs
