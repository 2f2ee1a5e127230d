import QbsCore.Library.FirstVisits
import QbsCore.Loader.ModuleMerger
import Mathlib.Data.List.TakeWhile

/-!
# Merging the properties of modules

A product and the modules that it depends on may all set the properties of a module, each in
an instance of its own.  The values are merged into one instance: the ones of a list property
into a next-chain, the ones of a scalar property into a single value.

Main results:

- Theorem {lit}`ModuleMerger.values_merged`: the properties of each module after all modules of
  a product have been merged.

Current gaps:

- Prototypes are given as lists.  Warnings about conflicting values are left out.
- The internal checks that a value to be prepended has no next value, and that the prototype of
  a module has a default, are among what is assumed of the items.
-/

namespace Qbs

namespace ModuleMerger

open ModuleLoader (Module InstanceRef)
open FirstVisits (visit newestFirst newestFirst_concat mem_newestFirst nodup_newestFirst
  pairwise_newestFirst)

/-! ## Data -/

inductive ValueKind where
  | jsSource (sourceCode : String)
  | item (ref : InstanceRef)
  | variant (value : Variant)

/-- What a value is evaluated in: a module instance, or the copy of the module's prototype. -/
inductive DefiningItem where
  | moduleInstance (ref : InstanceRef)
  | clonedModulePrototype

structure ChainLink where
  kind : ValueKind
  definingItem : Option DefiningItem

/-- The value of a property, and those behind it. -/
structure PropertyValue where
  head : ChainLink
  next : List ChainLink

def PropertyValue.chain (v : PropertyValue) : List ChainLink :=
  v.head :: v.next

abbrev PropertyMap :=
  String → Option PropertyValue

/-- A module instance, or the prototype of some. -/
structure ModuleItem where
  isModuleInstance : Bool
  /-- Its prototype, and the prototypes of that. -/
  prototypes : List InstanceRef
  properties : PropertyMap
  /-- Whether the properties that it declares are scalar. -/
  propertyDeclarations : String → Option Bool

abbrev ModuleItems :=
  InstanceRef → ModuleItem

def propertyDeclaration (items : ModuleItems) (i : InstanceRef) (name : String) : Option Bool :=
  (i :: (items i).prototypes).findSome? fun j => (items j).propertyDeclarations name

/-- The items, the modules of each item that depends on some, and the items at paths of its
properties. -/
structure MergeState where
  items : ModuleItems
  modulesOf : ContainerModules
  itemAt : ModuleContainer → QualifiedId → Option InstanceRef

/-! ## Collecting values -/

/-- A module instance and its prototypes as far as they are module instances. -/
def instanceChain (items : ModuleItems) (i : InstanceRef) : List InstanceRef :=
  i :: (items i).prototypes.takeWhile fun j => (items j).isModuleInstance

/-- The value that an instance gives to a property, and whether that is scalar. Items, and what
is not declared, are left out. Scalar variants could stem from multiplexing; only the base module
gets them. -/
def assignedValue (items : ModuleItems) (isBaseModule : Bool) (name : String)
    (srcItem : InstanceRef) : Option (PropertyValue × Bool) :=
  match (items srcItem).properties name, propertyDeclaration items srcItem name with
  | none, _ | some _, none => none
  | some srcVal, some isScalar =>
      match srcVal.head.kind with
      | .item _ => none
      | .variant _ =>
          if name = "_qbs_sourceDir" ∨ ¬ isScalar ∨ ¬ isBaseModule then none
          else some (srcVal, isScalar)
      | .jsSource _ => if name = "_qbs_sourceDir" then none else some (srcVal, isScalar)

/-- Merge the properties of an instance: list properties get prepended, scalar properties get
replaced. -/
def mergeProperties (items : ModuleItems) (isBaseModule : Bool) (origSrcItem srcItem : InstanceRef)
    (dstProps : PropertyMap) : PropertyMap := fun name =>
  match assignedValue items isBaseModule name srcItem with
  | none => dstProps name
  | some (srcVal, isScalar) =>
      let clonedSrcVal : PropertyValue :=
        { srcVal with
          head := { srcVal.head with definingItem := some (.moduleInstance origSrcItem) } }
      match dstProps name with
      | none => some clonedSrcVal
      | some dstVal =>
          some (if isScalar then clonedSrcVal else { clonedSrcVal with next := dstVal.chain })

/-- Merge the properties of an instance that has not been seen before. -/
def mergeInstance (items : ModuleItems) (isBaseModule : Bool) (origSrcItem : InstanceRef)
    (merged : List InstanceRef × PropertyMap) (srcItem : InstanceRef) :
    List InstanceRef × PropertyMap :=
  if srcItem ∈ merged.1 then merged
  else (srcItem :: merged.1, mergeProperties items isBaseModule origSrcItem srcItem merged.2)

def isBaseModule (m : Module) : Bool :=
  m.name.head? == some "qbs"

/-- Merge the properties that an item sets in its instance of a module. -/
def mergeValues (s : MergeState) (m : Module) (merged : List InstanceRef × PropertyMap)
    (container : ModuleContainer) : List InstanceRef × PropertyMap :=
  match findModule (s.modulesOf container) m.name with
  | none => merged
  | some dep =>
      (instanceChain s.items dep.item).foldl (mergeInstance s.items (isBaseModule m) dep.item) merged

/-- The essential unmodified module as loaded from the cache. -/
def moduleProto (items : ModuleItems) (i : InstanceRef) : Option InstanceRef :=
  (items i).prototypes.getLast?

/-- The default value of a list property is appended. -/
def appendPrototypeValueToNextChain (items : ModuleItems) (merged : InstanceRef)
    (propertyName : String) (sv : PropertyValue) : PropertyValue :=
  match propertyDeclaration items merged propertyName with
  | none | some true => sv
  | some false =>
      match (moduleProto items merged).bind fun proto => (items proto).properties propertyName with
      | none => sv
      | some protoValue =>
          { sv with next := sv.next ++
              { protoValue.head with definingItem := some .clonedModulePrototype } ::
                protoValue.next }

/-- The properties that the dependents of a module set. -/
def collectedProps (s : MergeState) (m : Module) (later : List Module) : PropertyMap :=
  ((dependents later).foldl (mergeValues s m) ([], fun _ => none)).2

/-- Merge the values of one module, and update its siblings. -/
def startValues (m : Module) (later : List Module) (s : MergeState) : MergeState where
  items := fun i =>
    if i = m.item then
      { s.items i with
        properties := fun name =>
          match collectedProps s m later name with
          | none => (s.items i).properties name
          | some sv => some (appendPrototypeValueToNextChain s.items m.item name sv) }
    else s.items i
  modulesOf := (start s.modulesOf m later).2
  itemAt := fun container path =>
    if container ∈ dependents later ∧ path = m.name ∧ (s.itemAt container path).isSome ∧
        ((s.modulesOf container).any fun dep => dep.name = m.name && dep.item ≠ m.item) then
      some m.item
    else s.itemAt container path

/-- Merge all modules in their order. -/
def mergeAll : List Module → MergeState → MergeState
  | [], s => s
  | m :: later, s => mergeAll later (startValues m later s)

/-! ## What merging one module keeps -/

/-- Merging some modules only changes what belongs to them. -/
structure Keeps (modules : List Module) (s t : MergeState) : Prop where
  items : ∀ i, i ∉ modules.map Module.item → t.items i = s.items i
  prototypes : ∀ i, (t.items i).prototypes = (s.items i).prototypes
  isModuleInstance : ∀ i, (t.items i).isModuleInstance = (s.items i).isModuleInstance
  propertyDeclarations : ∀ i, (t.items i).propertyDeclarations = (s.items i).propertyDeclarations
  modulesOf : ∀ container name, name ∉ modules.map Module.name →
    findModule (t.modulesOf container) name = findModule (s.modulesOf container) name
  itemAt : ∀ container path, path ∉ modules.map Module.name →
    t.itemAt container path = s.itemAt container path

theorem Keeps.refl (s : MergeState) : Keeps [] s s :=
  ⟨fun _ _ => rfl, fun _ => rfl, fun _ => rfl, fun _ => rfl, fun _ _ _ => rfl, fun _ _ _ => rfl⟩

theorem Keeps.trans {modules modules' : List Module} {s t u : MergeState} (h : Keeps modules s t)
    (h' : Keeps modules' t u) : Keeps (modules ++ modules') s u where
  items := by
    intro i hi
    rw [List.map_append, List.mem_append, not_or] at hi
    exact (h'.items i hi.2).trans (h.items i hi.1)
  prototypes := fun i => (h'.prototypes i).trans (h.prototypes i)
  isModuleInstance := fun i => (h'.isModuleInstance i).trans (h.isModuleInstance i)
  propertyDeclarations := fun i => (h'.propertyDeclarations i).trans (h.propertyDeclarations i)
  modulesOf := by
    intro container name hname
    rw [List.map_append, List.mem_append, not_or] at hname
    exact (h'.modulesOf container name hname.2).trans (h.modulesOf container name hname.1)
  itemAt := by
    intro container path hpath
    rw [List.map_append, List.mem_append, not_or] at hpath
    exact (h'.itemAt container path hpath.2).trans (h.itemAt container path hpath.1)

theorem keeps_startValues (m : Module) (later : List Module) (s : MergeState) :
    Keeps [m] s (startValues m later s) where
  items := fun _ hi => if_neg fun h => hi (List.mem_singleton.mpr h)
  prototypes := by
    intro i
    unfold startValues
    dsimp only
    split_ifs
    · rfl
    · rfl
  isModuleInstance := by
    intro i
    unfold startValues
    dsimp only
    split_ifs
    · rfl
    · rfl
  propertyDeclarations := by
    intro i
    unfold startValues
    dsimp only
    split_ifs
    · rfl
    · rfl
  modulesOf := fun container _ hname =>
    findModule_start (fun h => hname (List.mem_singleton.mpr h)) container
  itemAt := by
    intro container path hpath
    refine if_neg ?_
    rintro ⟨-, rfl, -⟩
    exact hpath (List.mem_singleton_self _)

theorem keeps_mergeAll (modules : List Module) (s : MergeState) :
    Keeps modules s (mergeAll modules s) := by
  induction modules generalizing s with
  | nil => exact Keeps.refl s
  | cons m later ih => exact (keeps_startValues m later s).trans (ih _)

/-- What comes before a module in the list is merged before it. -/
theorem exists_mergeAll_append (before : List Module) (m : Module) (later : List Module)
    (s : MergeState) :
    ∃ t, Keeps before s t ∧
      mergeAll (before ++ m :: later) s = mergeAll later (startValues m later t) := by
  induction before generalizing s with
  | nil => exact ⟨s, Keeps.refl s, rfl⟩
  | cons m' before ih =>
      rcases ih (startValues m' (before ++ m :: later) s) with ⟨t, hkeeps, hmerge⟩
      exact ⟨t, (keeps_startValues m' _ s).trans hkeeps, hmerge⟩

/-! ## What is collected -/

/-- The instances in which an item sets properties of a module. -/
def instances (s : MergeState) (name : QualifiedId) (container : ModuleContainer) :
    List InstanceRef :=
  match findModule (s.modulesOf container) name with
  | none => []
  | some dep => instanceChain s.items dep.item

/-- What an instance gives to a property. -/
def assignedKind (items : ModuleItems) (isBaseModule : Bool) (name : String) (i : InstanceRef) :
    Option ValueKind :=
  (assignedValue items isBaseModule name i).map fun r => r.1.head.kind

/-- What stands on the next-chain of a value. -/
def kindsOf : Option PropertyValue → List ValueKind
  | none => []
  | some v => v.chain.map ChainLink.kind

/-- All values of a list property, but only the first one of a scalar property. -/
def limited (isScalar : Bool) (l : List ValueKind) : List ValueKind :=
  if isScalar then l.take 1 else l

section Collected

variable {items : ModuleItems} {base isScalar : Bool} {name : String}

/-- The merged values of a property are those of the instances that have been seen. -/
def Collected (items : ModuleItems) (base isScalar : Bool) (name : String)
    (merged : List InstanceRef × PropertyMap) : Prop :=
  kindsOf (merged.2 name) = limited isScalar (merged.1.filterMap (assignedKind items base name))

/-- One instance is merged. -/
theorem collected_mergeInstance {orig i : InstanceRef} {merged : List InstanceRef × PropertyMap}
    (hvalue : ∀ r, assignedValue items base name i = some r → r.2 = isScalar ∧ r.1.next = [])
    (h : Collected items base isScalar name merged) :
    Collected items base isScalar name (mergeInstance items base orig merged i) := by
  unfold mergeInstance
  split_ifs with hseen
  · exact h
  · unfold Collected at h ⊢
    unfold mergeProperties
    dsimp only
    rw [List.filterMap_cons]
    unfold assignedKind at h ⊢
    cases hassigned : assignedValue items base name i with
    | none => exact h
    | some r =>
        rcases hvalue r hassigned with ⟨hscalar, hnext⟩
        dsimp only [Option.map_some]
        cases isScalar with
        | true =>
            cases hdst : merged.2 name with
            | none =>
                show r.1.head.kind :: r.1.next.map ChainLink.kind = [r.1.head.kind]
                rw [hnext]
                rfl
            | some dstVal =>
                dsimp only
                rw [if_pos hscalar]
                show r.1.head.kind :: r.1.next.map ChainLink.kind = [r.1.head.kind]
                rw [hnext]
                rfl
        | false =>
            cases hdst : merged.2 name with
            | none =>
                rw [hdst] at h
                show r.1.head.kind :: r.1.next.map ChainLink.kind = r.1.head.kind :: _
                rw [hnext]
                exact congrArg (r.1.head.kind :: ·) h
            | some dstVal =>
                rw [hdst] at h
                dsimp only
                rw [if_neg (by rw [hscalar]; exact Bool.false_ne_true)]
                exact congrArg (r.1.head.kind :: ·) h

/-- The instances of one item are merged. -/
theorem collected_foldl_mergeInstance {orig : InstanceRef} {chain : List InstanceRef}
    {merged : List InstanceRef × PropertyMap}
    (hvalue : ∀ i ∈ chain, ∀ r, assignedValue items base name i = some r →
      r.2 = isScalar ∧ r.1.next = [])
    (h : Collected items base isScalar name merged) :
    Collected items base isScalar name (chain.foldl (mergeInstance items base orig) merged) ∧
      (chain.foldl (mergeInstance items base orig) merged).1 = chain.foldl visit merged.1 := by
  induction chain generalizing merged with
  | nil => exact ⟨h, rfl⟩
  | cons i chain ih =>
      rw [List.forall_mem_cons] at hvalue
      rcases ih hvalue.2 (collected_mergeInstance hvalue.1 h) with ⟨hcollected, hseen⟩
      refine ⟨hcollected, hseen.trans ?_⟩
      rw [List.foldl_cons]
      congr 1
      unfold mergeInstance visit
      split_ifs
      · rfl
      · rfl

/-- The instances of all dependents are merged. -/
theorem collected_foldl_mergeValues {s : MergeState} {m : Module}
    {containers : List ModuleContainer} {merged : List InstanceRef × PropertyMap}
    (hvalue : ∀ i ∈ containers.flatMap (instances s m.name), ∀ r,
      assignedValue s.items (isBaseModule m) name i = some r → r.2 = isScalar ∧ r.1.next = [])
    (h : Collected s.items (isBaseModule m) isScalar name merged) :
    Collected s.items (isBaseModule m) isScalar name
        (containers.foldl (mergeValues s m) merged) ∧
      (containers.foldl (mergeValues s m) merged).1 =
        (containers.flatMap (instances s m.name)).foldl visit merged.1 := by
  induction containers generalizing merged with
  | nil => exact ⟨h, rfl⟩
  | cons container containers ih =>
      rw [List.flatMap_cons, List.forall_mem_append] at hvalue
      have hcontainer : Collected s.items (isBaseModule m) isScalar name
            (mergeValues s m merged container) ∧
          (mergeValues s m merged container).1 =
            (instances s m.name container).foldl visit merged.1 := by
        have hfirst := hvalue.1
        revert hfirst
        unfold mergeValues instances
        cases findModule (s.modulesOf container) m.name with
        | none => exact fun _ => ⟨h, rfl⟩
        | some dep => exact fun hfirst => collected_foldl_mergeInstance hfirst h
      rcases ih hvalue.2 hcontainer.1 with ⟨hcollected, hseen⟩
      refine ⟨hcollected, hseen.trans ?_⟩
      rw [hcontainer.2, List.flatMap_cons, List.foldl_append]

/-- The values that are collected for a property, the one that was seen last first. -/
theorem kindsOf_collectedProps {s : MergeState} {m : Module} {later : List Module}
    (hvalue : ∀ i ∈ (dependents later).flatMap (instances s m.name), ∀ r,
      assignedValue s.items (isBaseModule m) name i = some r → r.2 = isScalar ∧ r.1.next = []) :
    kindsOf (collectedProps s m later name) =
      limited isScalar ((newestFirst ((dependents later).flatMap (instances s m.name))).filterMap
        (assignedKind s.items (isBaseModule m) name)) := by
  have hstart : Collected s.items (isBaseModule m) isScalar name ([], fun _ => none) := by
    unfold Collected limited
    cases isScalar with
    | true => rfl
    | false => rfl
  rcases collected_foldl_mergeValues hvalue hstart with ⟨hcollected, hseen⟩
  unfold Collected at hcollected
  rw [hseen] at hcollected
  exact hcollected

end Collected

/-! ## What is assumed, and what is meant -/

/-- The value of a property, which may be that of a prototype. -/
def itemProperty (items : ModuleItems) (i : InstanceRef) (name : String) : Option PropertyValue :=
  (i :: (items i).prototypes).findSome? fun j => (items j).properties name

/-- For each item that may depend on a module, in their order, the instances in which it sets
properties of the module. The product comes last. -/
def chains (s : MergeState) (modules : List Module) (name : QualifiedId) :
    List (List InstanceRef) :=
  (dependents modules).map (instances s name)

/-- What the loader has set up before the modules of a product are merged. -/
structure Mergeable (modules : List Module) (s : MergeState) : Prop where
  names : (modules.map Module.name).Nodup
  /-- The modules are sorted topologically: none of them depends on a later one. -/
  sorted : modules.Pairwise fun d m =>
    findModule (s.modulesOf (.moduleInstance d.item)) m.name = none
  notSelf : ∀ m ∈ modules, findModule (s.modulesOf (.moduleInstance m.item)) m.name = none
  /-- The modules are those of the product. -/
  ofProduct : ∀ m ∈ modules, (findModule (s.modulesOf .product) m.name).map Module.item = some m.item
  /-- Instances of different modules are different. -/
  disjoint : ∀ container container' name name', name ≠ name' →
    List.Disjoint (instances s name container) (instances s name' container')
  notPrototype : ∀ m ∈ modules, ∀ i ∈ (s.items m.item).prototypes, i ∉ modules.map Module.item
  /-- Nothing has been merged yet. -/
  next : ∀ i name v, (s.items i).properties name = some v → v.next = []
  /-- A list property has a default. -/
  default : ∀ m ∈ modules, ∀ name, propertyDeclaration s.items m.item name = some false →
    ∃ proto v, moduleProto s.items m.item = some proto ∧ (s.items proto).properties name = some v

/-- The instances that assign something, in the order of a next-chain: each of them once, and
those of later items first. -/
structure MergeOrder (chains : List (List InstanceRef))
    (assigned : InstanceRef → Option ValueKind) (l : List InstanceRef) : Prop where
  nodup : l.Nodup
  mem_iff : ∀ i, i ∈ l ↔ i ∈ chains.flatten ∧ (assigned i).isSome = true
  laterFirst : l.Pairwise fun i j => ∀ before after, chains = before ++ after →
    i ∈ before.flatten → j ∈ before.flatten

/-- What merging makes of a property of a module. -/
structure ValuesMerged (modules : List Module) (s t : MergeState) (m : Module) (name : String) :
    Prop where
  /-- A list property with an assignment: all assignments, and then the default. -/
  list : (∀ i ∈ (chains s modules m.name).flatten, propertyDeclaration s.items i name = some false) →
    (∃ i ∈ (chains s modules m.name).flatten,
      (assignedKind s.items (isBaseModule m) name i).isSome = true) →
    ∃ l proto v, MergeOrder (chains s modules m.name) (assignedKind s.items (isBaseModule m) name) l ∧
      moduleProto s.items m.item = some proto ∧ (s.items proto).properties name = some v ∧
      kindsOf ((t.items m.item).properties name) =
        l.filterMap (assignedKind s.items (isBaseModule m) name) ++ [v.head.kind]
  /-- A scalar property with an assignment: that of the last item. -/
  scalar : (∀ i ∈ (chains s modules m.name).flatten,
      propertyDeclaration s.items i name = some true) →
    (∃ i ∈ (chains s modules m.name).flatten,
      (assignedKind s.items (isBaseModule m) name i).isSome = true) →
    ∃ i rest kind, MergeOrder (chains s modules m.name)
        (assignedKind s.items (isBaseModule m) name) (i :: rest) ∧
      assignedKind s.items (isBaseModule m) name i = some kind ∧
      kindsOf ((t.items m.item).properties name) = [kind]
  /-- Without an assignment a property keeps what it has: its default if that is not overridden. -/
  unassigned : (∀ i ∈ (chains s modules m.name).flatten,
      assignedKind s.items (isBaseModule m) name i = none) →
    itemProperty t.items m.item name = itemProperty s.items m.item name

/-- All items that depend on a module refer to its merged instance. -/
def InstancesMerged (modules : List Module) (s t : MergeState) (m : Module) : Prop :=
  ∀ container ∈ dependents modules, ∀ dep, findModule (s.modulesOf container) m.name = some dep →
    (findModule (t.modulesOf container) m.name).map Module.item = some m.item ∧
    (s.itemAt container m.name = some dep.item → t.itemAt container m.name = some m.item)

/-! ## All modules -/

section Keeps

variable {modules : List Module} {s t : MergeState}

theorem Keeps.propertyDeclaration (h : Keeps modules s t) (i : InstanceRef) (name : String) :
    propertyDeclaration t.items i name = propertyDeclaration s.items i name := by
  unfold ModuleMerger.propertyDeclaration
  simp only [h.prototypes, h.propertyDeclarations]

theorem Keeps.instances (h : Keeps modules s t) {name : QualifiedId}
    (hname : name ∉ modules.map Module.name) (container : ModuleContainer) :
    instances t name container = instances s name container := by
  unfold ModuleMerger.instances instanceChain
  simp only [h.modulesOf container name hname, h.prototypes, h.isModuleInstance]

theorem Keeps.assignedValue (h : Keeps modules s t) {i : InstanceRef}
    (hi : i ∉ modules.map Module.item) (base : Bool) (name : String) :
    assignedValue t.items base name i = assignedValue s.items base name i := by
  unfold ModuleMerger.assignedValue
  rw [h.items i hi, h.propertyDeclaration]

end Keeps

theorem mergeOrder_newestFirst (chains : List (List InstanceRef))
    (assigned : InstanceRef → Option ValueKind) :
    MergeOrder chains assigned
      ((newestFirst chains.flatten).filter fun i => (assigned i).isSome) where
  nodup := (nodup_newestFirst _).filter _
  mem_iff := fun i => by rw [List.mem_filter, mem_newestFirst]
  laterFirst := by
    refine ((pairwise_newestFirst chains.flatten).imp ?_).filter _
    intro i j h before after hchains
    refine h before.flatten after.flatten ?_
    rw [hchains, List.flatten_append]

theorem filterMap_filter_isSome {α β : Type} (f : α → Option β) (l : List α) :
    (l.filter fun a => (f a).isSome).filterMap f = l.filterMap f := by
  rw [List.filterMap_filter]
  congr 1
  funext a
  cases f a with
  | none => rfl
  | some b => rfl

theorem findSome?_congr {α β : Type} {f g : α → Option β} {l : List α}
    (h : ∀ a ∈ l, f a = g a) : l.findSome? f = l.findSome? g := by
  induction l with
  | nil => rfl
  | cons a l ih =>
      rw [List.forall_mem_cons] at h
      rw [List.findSome?_cons, List.findSome?_cons, h.1, ih h.2]

@[simp]
theorem mergedModule_item (modulesOf : ContainerModules) (m : Module) (later : List Module) :
    (mergedModule modulesOf m later).item = m.item := by
  unfold mergedModule
  induction dependents later generalizing m with
  | nil => rfl
  | cons container containers ih =>
      rw [List.foldl_cons, ih]
      unfold mergeModule
      split
      · rfl
      · rfl

/-- Siblings of a merged module are replaced by it. -/
theorem findModule_start_self {modulesOf : ContainerModules} {m dep : Module} {later : List Module}
    {container : ModuleContainer} (hcontainer : container ∈ dependents later)
    (hdep : findModule (modulesOf container) m.name = some dep) :
    (findModule ((start modulesOf m later).2 container) m.name).map Module.item = some m.item := by
  have hname : dep.name = m.name := by
    have h := List.find?_some hdep
    rwa [decide_eq_true_iff] at h
  unfold start
  dsimp only
  rw [if_pos ⟨hcontainer, by rw [hdep]; rfl⟩]
  unfold findModule at hdep ⊢
  rw [find?_map_updateSibling, hdep, Option.map_some, Option.map_some]
  unfold updateSibling
  split_ifs with h
  · rw [mergedModule_item]
  · rw [mergedModule_name, mergedModule_item] at h
    by_contra hne
    exact h ⟨hname, fun heq => hne (congrArg some heq)⟩

section Merge

variable {before later : List Module} {m : Module} {s : MergeState}

theorem mem_instances_product (h : Mergeable (before ++ m :: later) s) :
    m.item ∈ instances s m.name .product := by
  have hproduct := h.ofProduct m (List.mem_append_right _ List.mem_cons_self)
  unfold instances
  cases hfound : findModule (s.modulesOf .product) m.name with
  | none =>
      rw [hfound] at hproduct
      cases hproduct
  | some dep =>
      rw [hfound, Option.map_some] at hproduct
      rw [← Option.some.inj hproduct]
      exact List.mem_cons_self

/-- No item of another module is among the instances of a module. -/
theorem notMem_items (h : Mergeable (before ++ m :: later) s) {modules : List Module}
    (hsub : ∀ d ∈ modules, d ∈ before ++ m :: later) (hname : m.name ∉ modules.map Module.name)
    {container : ModuleContainer} {i : InstanceRef} (hi : i ∈ instances s m.name container) :
    i ∉ modules.map Module.item := by
  intro hmem
  rcases List.mem_map.mp hmem with ⟨d, hd, rfl⟩
  rcases List.append_of_mem (hsub d hd) with ⟨before', later', hsplit⟩
  have hproduct : d.item ∈ instances s d.name .product := mem_instances_product (hsplit ▸ h)
  have hne : m.name ≠ d.name := fun heq => hname (heq ▸ List.mem_map_of_mem hd)
  exact h.disjoint container .product m.name d.name hne hi hproduct

/-- Modules before a module do not depend on it. -/
theorem findModule_eq_none (h : Mergeable (before ++ m :: later) s) {d : Module}
    (hd : d ∈ before ++ [m]) : findModule (s.modulesOf (.moduleInstance d.item)) m.name = none := by
  rcases List.mem_append.mp hd with hd | hd
  · exact (List.pairwise_append.mp h.sorted).2.2 d hd m List.mem_cons_self
  · rw [List.mem_singleton.mp hd]
    exact h.notSelf m (List.mem_append_right _ List.mem_cons_self)

/-- What is collected from the later dependents is what is collected from all. -/
theorem flatMap_dependents (h : Mergeable (before ++ m :: later) s) :
    (dependents later).flatMap (instances s m.name) =
      (chains s (before ++ m :: later) m.name).flatten := by
  have hnone : ∀ d ∈ before ++ [m], instances s m.name (.moduleInstance d.item) = [] := by
    intro d hd
    unfold instances
    rw [findModule_eq_none h hd]
  have hsplit : before ++ m :: later = before ++ [m] ++ later := by
    rw [List.append_assoc]
    rfl
  unfold chains
  rw [← List.flatMap_def, hsplit]
  generalize before ++ [m] = modules at hnone ⊢
  have hfirst : (modules.map fun d => ModuleContainer.moduleInstance d.item).flatMap
      (instances s m.name) = [] := by
    rw [List.flatMap_eq_nil_iff, List.forall_mem_map]
    exact hnone
  unfold dependents
  rw [List.map_append, List.append_assoc]
  generalize later.map (fun d => ModuleContainer.moduleInstance d.item) ++ [.product] = rest
  rw [List.flatMap_append, hfirst, List.nil_append]

theorem assignedValue_eq_some {items : ModuleItems} {base : Bool} {name : String}
    {i : InstanceRef} {r : PropertyValue × Bool} (h : assignedValue items base name i = some r) :
    (items i).properties name = some r.1 ∧ propertyDeclaration items i name = some r.2 := by
  unfold assignedValue at h
  split at h
  · cases h
  · cases h
  · rename_i srcVal isScalar hvalue hdeclaration
    split at h
    · cases h
    · split_ifs at h
      cases h
      exact ⟨hvalue, hdeclaration⟩
    · split_ifs at h
      cases h
      exact ⟨hvalue, hdeclaration⟩

theorem kindsOf_eq_nil_iff {v : Option PropertyValue} : kindsOf v = [] ↔ v = none := by
  cases v with
  | none => exact iff_of_true rfl rfl
  | some v => exact iff_of_false (List.cons_ne_nil _ _) (Option.some_ne_none v)

/-- The default comes last. -/
theorem kindsOf_appendPrototypeValue {items : ModuleItems} {merged proto : InstanceRef}
    {name : String} {sv v : PropertyValue}
    (hdeclaration : propertyDeclaration items merged name = some false)
    (hproto : moduleProto items merged = some proto) (hv : (items proto).properties name = some v)
    (hnext : v.next = []) :
    kindsOf (some (appendPrototypeValueToNextChain items merged name sv)) =
      kindsOf (some sv) ++ [v.head.kind] := by
  unfold appendPrototypeValueToNextChain
  rw [hdeclaration, hproto]
  dsimp only [Option.bind_some]
  rw [hv]
  dsimp only
  rw [hnext]
  show (sv.head :: (sv.next ++ _)).map ChainLink.kind = (sv.head :: sv.next).map ChainLink.kind ++ _
  rw [← List.cons_append, List.map_append]
  rfl

/-- What a merged module has for a property after all modules have been merged. -/
structure MergedProperty (modules : List Module) (s : MergeState) (m : Module) (name : String)
    (collected : Option PropertyValue) : Prop where
  kinds : ∀ isScalar,
    (∀ i ∈ (chains s modules m.name).flatten, ∀ r,
      assignedValue s.items (isBaseModule m) name i = some r → r.2 = isScalar) →
    kindsOf collected = limited isScalar ((newestFirst (chains s modules m.name).flatten).filterMap
      (assignedKind s.items (isBaseModule m) name))
  none : collected = none →
    ((mergeAll modules s).items m.item).properties name = (s.items m.item).properties name
  scalar : ∀ sv, collected = some sv → propertyDeclaration s.items m.item name = some true →
    ((mergeAll modules s).items m.item).properties name = some sv
  list : ∀ sv, collected = some sv → propertyDeclaration s.items m.item name = some false →
    ∃ proto v, moduleProto s.items m.item = some proto ∧ (s.items proto).properties name = some v ∧
      kindsOf (((mergeAll modules s).items m.item).properties name) =
        kindsOf (some sv) ++ [v.head.kind]

theorem exists_mergedProperty (h : Mergeable (before ++ m :: later) s) (name : String) :
    ∃ collected, MergedProperty (before ++ m :: later) s m name collected := by
  rcases exists_mergeAll_append before m later s with ⟨t, hkeeps, hmerge⟩
  have hnames := h.names
  rw [List.map_append, List.map_cons, List.nodup_middle, List.nodup_cons, List.mem_append,
    not_or] at hnames
  rcases hnames with ⟨⟨hbefore, hlater⟩, -⟩
  have hself : m ∈ before ++ m :: later := List.mem_append_right _ List.mem_cons_self
  have hsub : ∀ d ∈ before, d ∈ before ++ m :: later := fun d hd => List.mem_append_left _ hd
  have hitemBefore : m.item ∉ before.map Module.item :=
    notMem_items h hsub hbefore (mem_instances_product h)
  have hitemLater : m.item ∉ later.map Module.item :=
    notMem_items h (fun d hd => List.mem_append_right _ (List.mem_cons_of_mem _ hd)) hlater
      (mem_instances_product h)
  -- what the dependents set is what they have set at the start
  have hvisits : (dependents later).flatMap (instances t m.name) =
      (chains s (before ++ m :: later) m.name).flatten := by
    rw [← flatMap_dependents h, funext (hkeeps.instances hbefore)]
  have hassigned : ∀ i ∈ (chains s (before ++ m :: later) m.name).flatten,
      assignedValue t.items (isBaseModule m) name i =
        assignedValue s.items (isBaseModule m) name i := by
    intro i hi
    rw [← flatMap_dependents h] at hi
    rcases List.mem_flatMap.mp hi with ⟨container, -, hi⟩
    exact hkeeps.assignedValue (notMem_items h hsub hbefore hi) _ _
  have hfinal : ((mergeAll (before ++ m :: later) s).items m.item).properties name =
      match collectedProps t m later name with
      | none => (s.items m.item).properties name
      | some sv => some (appendPrototypeValueToNextChain t.items m.item name sv) := by
    rw [hmerge, (keeps_mergeAll later _).items m.item hitemLater]
    unfold startValues
    dsimp only
    rw [if_pos rfl, hkeeps.items m.item hitemBefore]
  refine ⟨collectedProps t m later name, ?_, ?_, ?_, ?_⟩
  · intro isScalar hscalar
    have hvalue : ∀ i ∈ (dependents later).flatMap (instances t m.name), ∀ r,
        assignedValue t.items (isBaseModule m) name i = some r →
          r.2 = isScalar ∧ r.1.next = [] := by
      rw [hvisits]
      intro i hi r hr
      rw [hassigned i hi] at hr
      exact ⟨hscalar i hi r hr, h.next i name r.1 (assignedValue_eq_some hr).1⟩
    rw [kindsOf_collectedProps hvalue, hvisits]
    congr 1
    refine List.filterMap_congr fun i hi => ?_
    unfold assignedKind
    rw [hassigned i (mem_newestFirst.mp hi)]
  · intro hnone
    rw [hfinal, hnone]
  · intro sv hsv hdeclaration
    rw [hfinal, hsv]
    unfold appendPrototypeValueToNextChain
    rw [hkeeps.propertyDeclaration, hdeclaration]
  · intro sv hsv hdeclaration
    rcases h.default m hself name hdeclaration with ⟨proto, v, hproto, hv⟩
    refine ⟨proto, v, hproto, hv, ?_⟩
    have hprotoItems : proto ∉ before.map Module.item := by
      intro hmem
      refine h.notPrototype m hself proto (List.mem_of_getLast? hproto) ?_
      rw [List.map_append]
      exact List.mem_append_left _ hmem
    have hmergedProto : moduleProto t.items m.item = some proto := by
      unfold moduleProto
      rw [hkeeps.prototypes]
      exact hproto
    rw [hfinal, hsv]
    refine kindsOf_appendPrototypeValue ?_ hmergedProto ?_ (h.next proto name v hv)
    · rw [hkeeps.propertyDeclaration, hdeclaration]
    · rw [hkeeps.items proto hprotoItems, hv]

theorem MergeOrder.exists_cons {chains : List (List InstanceRef)}
    {assigned : InstanceRef → Option ValueKind} {l : List InstanceRef}
    (h : MergeOrder chains assigned l)
    (hassigned : ∃ i ∈ chains.flatten, (assigned i).isSome = true) :
    ∃ i rest kind, l = i :: rest ∧ assigned i = some kind := by
  rcases hassigned with ⟨j, hj⟩
  cases l with
  | nil => exact absurd ((h.mem_iff j).mpr hj) List.not_mem_nil
  | cons i rest =>
      rcases Option.isSome_iff_exists.mp ((h.mem_iff i).mp List.mem_cons_self).2 with ⟨kind, hkind⟩
      exact ⟨i, rest, kind, rfl, hkind⟩

/-- The property of a module is merged as documented. -/
theorem valuesMerged_append (h : Mergeable (before ++ m :: later) s) (name : String) :
    ValuesMerged (before ++ m :: later) s (mergeAll (before ++ m :: later) s) m name := by
  rcases exists_mergedProperty h name with ⟨collected, hmerged⟩
  have hself : m.item ∈ (chains s (before ++ m :: later) m.name).flatten := by
    rw [← flatMap_dependents h, List.mem_flatMap]
    exact ⟨.product, List.mem_append_right _ List.mem_cons_self, mem_instances_product h⟩
  have horder := mergeOrder_newestFirst (chains s (before ++ m :: later) m.name)
    (assignedKind s.items (isBaseModule m) name)
  -- the declarations tell whether a value is scalar
  have hkinds (isScalar : Bool) (hdeclared : ∀ i ∈ (chains s (before ++ m :: later) m.name).flatten,
      propertyDeclaration s.items i name = some isScalar) :=
    hmerged.kinds isScalar fun i hi r hr =>
      Option.some.inj ((assignedValue_eq_some hr).2.symm.trans (hdeclared i hi))
  rw [← filterMap_filter_isSome] at hkinds
  generalize ((newestFirst (chains s (before ++ m :: later) m.name).flatten).filter fun i =>
    (assignedKind s.items (isBaseModule m) name i).isSome) = l at horder hkinds
  refine ⟨fun hlist hassigned => ?_, fun hscalar hassigned => ?_, fun hnone => ?_⟩
  · rcases horder.exists_cons hassigned with ⟨i, rest, kind, hl, hkind⟩
    have hcollected := hkinds false hlist
    unfold limited at hcollected
    rw [if_neg Bool.false_ne_true] at hcollected
    cases collected with
    | none =>
        rw [hl, List.filterMap_cons_some hkind] at hcollected
        cases hcollected
    | some sv =>
        rcases hmerged.list sv rfl (hlist m.item hself) with ⟨proto, v, hproto, hv, hfinal⟩
        exact ⟨l, proto, v, horder, hproto, hv, hfinal.trans (by rw [hcollected])⟩
  · rcases horder.exists_cons hassigned with ⟨i, rest, kind, rfl, hkind⟩
    have hcollected := hkinds true hscalar
    unfold limited at hcollected
    rw [if_pos rfl, List.filterMap_cons_some hkind, List.take_succ_cons, List.take_zero]
      at hcollected
    cases collected with
    | none => cases hcollected
    | some sv =>
        refine ⟨i, rest, kind, horder, hkind, ?_⟩
        rw [hmerged.scalar sv rfl (hscalar m.item hself)]
        exact hcollected
  · have hcollected : collected = none := by
      have hnothing := hmerged.kinds false fun i hi r hr => by
        have h := hnone i hi
        unfold assignedKind at h
        rw [hr] at h
        cases h
      rw [← kindsOf_eq_nil_iff, hnothing]
      exact List.filterMap_eq_nil_iff.mpr fun i hi => hnone i (mem_newestFirst.mp hi)
    have hkeeps := keeps_mergeAll (before ++ m :: later) s
    unfold itemProperty
    rw [List.findSome?_cons, List.findSome?_cons, hmerged.none hcollected, hkeeps.prototypes]
    cases (s.items m.item).properties name with
    | some v => rfl
    | none =>
        refine findSome?_congr fun j hj => ?_
        rw [hkeeps.items j (h.notPrototype m (List.mem_append_right _ List.mem_cons_self) j hj)]

/-- The items that depend on a module refer to its merged instance. -/
theorem instancesMerged_append (h : Mergeable (before ++ m :: later) s) :
    InstancesMerged (before ++ m :: later) s (mergeAll (before ++ m :: later) s) m := by
  intro container hcontainer dep hdep
  rcases exists_mergeAll_append before m later s with ⟨t, hkeeps, hmerge⟩
  have hnames := h.names
  rw [List.map_append, List.map_cons, List.nodup_middle, List.nodup_cons, List.mem_append,
    not_or] at hnames
  rcases hnames with ⟨⟨hbefore, hlater⟩, -⟩
  have hkeepsLater := keeps_mergeAll later (startValues m later t)
  have hdepNow : findModule (t.modulesOf container) m.name = some dep := by
    rw [hkeeps.modulesOf container m.name hbefore, hdep]
  -- it is behind the module, or the product
  have hdependent : container ∈ dependents later := by
    unfold dependents at hcontainer ⊢
    rw [List.mem_append] at hcontainer ⊢
    refine hcontainer.imp_left fun hmodule => ?_
    rcases List.mem_map.mp hmodule with ⟨d, hd, rfl⟩
    have hlaterOrNot : d ∈ before ++ [m] ∨ d ∈ later := by
      rw [List.mem_append, List.mem_singleton]
      rw [List.mem_append, List.mem_cons] at hd
      rcases hd with hd | rfl | hd
      · exact Or.inl (Or.inl hd)
      · exact Or.inl (Or.inr rfl)
      · exact Or.inr hd
    rcases hlaterOrNot with hd | hd
    · rw [findModule_eq_none h hd] at hdep
      cases hdep
    · exact List.mem_map_of_mem hd
  rw [hmerge]
  constructor
  · rw [hkeepsLater.modulesOf container m.name hlater]
    exact findModule_start_self hdependent hdepNow
  · intro hat
    rw [hkeepsLater.itemAt container m.name hlater]
    have hatNow : t.itemAt container m.name = some dep.item := by
      rw [hkeeps.itemAt container m.name hbefore, hat]
    unfold startValues
    dsimp only
    split_ifs with hreplaced
    · rfl
    · rw [hatNow]
      by_contra hne
      refine hreplaced ⟨hdependent, rfl, by rw [hatNow]; rfl, ?_⟩
      rw [List.any_eq_true]
      refine ⟨dep, List.mem_of_find?_eq_some hdepNow, ?_⟩
      have hname := List.find?_some hdepNow
      rw [Bool.and_eq_true]
      exact ⟨hname, decide_eq_true fun heq => hne (congrArg some heq)⟩

end Merge

/-- After the modules of a product have been merged, each property of each module is as
documented, and all items that depend on the module refer to the merged instance. -/
theorem values_merged {modules : List Module} {s : MergeState} (h : Mergeable modules s)
    {m : Module} (hm : m ∈ modules) :
    (∀ name, ValuesMerged modules s (mergeAll modules s) m name) ∧
      InstancesMerged modules s (mergeAll modules s) m := by
  rcases List.append_of_mem hm with ⟨before, later, rfl⟩
  exact ⟨valuesMerged_append h, instancesMerged_append h⟩

/-! ## A sample -/

namespace ValuesSample

/-- A module of an item. -/
def moduleOf (item : ItemId) (name : String) : Module :=
  ⟨[name], ⟨item, [name]⟩, false, true, true, true, [], ⟨Version.empty, Version.empty⟩⟩

def assigning (sourceCode : String) : PropertyMap := fun name =>
  if name = "list" then some ⟨⟨.jsSource sourceCode, none⟩, []⟩ else none

/-- The product and its module foo assign a list of the module dummy, foo in its own file. -/
def items : ModuleItems := fun i =>
  if i = ⟨0, ["dummy"]⟩ then ⟨true, [⟨3, []⟩], assigning "['product']", fun _ => none⟩
  else if i = ⟨1, ["dummy"]⟩ then ⟨true, [⟨2, ["dummy"]⟩, ⟨3, []⟩], fun _ => none, fun _ => none⟩
  else if i = ⟨2, ["dummy"]⟩ then ⟨true, [⟨3, []⟩], assigning "['foo']", fun _ => none⟩
  else if i = ⟨3, []⟩ then
    ⟨false, [], assigning "['default']", fun name => if name = "list" then some false else none⟩
  else ⟨true, [], fun _ => none, fun _ => none⟩

def modulesOf : ContainerModules
  | .product => [moduleOf 0 "dummy", moduleOf 0 "foo"]
  | .moduleInstance ref => if ref = ⟨0, ["foo"]⟩ then [moduleOf 1 "dummy"] else []

def initial : MergeState :=
  ⟨items, modulesOf, fun container path =>
    (findModule (modulesOf container) path).map Module.item⟩

def modules : List Module :=
  [moduleOf 0 "dummy", moduleOf 0 "foo"]

theorem properties_items (i : InstanceRef) :
    (∃ sourceCode, (items i).properties = assigning sourceCode) ∨
      (items i).properties = fun _ => none := by
  unfold items
  split_ifs
  · exact Or.inl ⟨_, rfl⟩
  · exact Or.inr rfl
  · exact Or.inl ⟨_, rfl⟩
  · exact Or.inl ⟨_, rfl⟩
  · exact Or.inr rfl

theorem prototypes_items (i j : InstanceRef) (h : j ∈ (items i).prototypes) :
    j = ⟨3, []⟩ ∨ j = ⟨2, ["dummy"]⟩ ∧ i = ⟨1, ["dummy"]⟩ := by
  unfold items at h
  split_ifs at h with h₀ h₁ h₂ h₃
  · exact Or.inl (List.mem_singleton.mp h)
  · rw [List.mem_cons, List.mem_singleton] at h
    exact h.symm.imp_right fun h => ⟨h, h₁⟩
  · exact Or.inl (List.mem_singleton.mp h)
  · cases h
  · cases h

theorem item_of_findModule {container : ModuleContainer} {name : QualifiedId} {dep : Module}
    (h : findModule (modulesOf container) name = some dep) : dep.item.path = name := by
  have hfound := List.find?_some h
  have hname : dep.name = name := of_decide_eq_true hfound
  have hmem := List.mem_of_find?_eq_some h
  have hpath : dep.item.path = dep.name := by
    cases container with
    | product =>
        unfold modulesOf at hmem
        rw [List.mem_cons, List.mem_singleton] at hmem
        rcases hmem with rfl | rfl
        · rfl
        · rfl
    | moduleInstance ref =>
        unfold modulesOf at hmem
        dsimp only at hmem
        split_ifs at hmem
        · rw [List.mem_singleton] at hmem
          rw [hmem]
          rfl
        · cases hmem
  exact hpath.trans hname

/-- Instances are at the path that is the name of their module. -/
theorem path_of_mem_instances {container : ModuleContainer} {name : QualifiedId}
    {i : InstanceRef} (h : i ∈ instances initial name container) : i.path = name := by
  unfold instances at h
  split at h
  · cases h
  · rename_i dep hdep
    have hpath := item_of_findModule hdep
    unfold instanceChain at h
    rcases List.mem_cons.mp h with rfl | h
    · exact hpath
    · have hmem := (List.takeWhile_prefix _).mem h
      have hinstance := List.mem_takeWhile_imp h
      rcases prototypes_items dep.item i hmem with rfl | ⟨rfl, hdepItem⟩
      · cases hinstance
      · rw [← hpath, hdepItem]

/-- The sample is what the loader sets up. -/
theorem mergeable : Mergeable modules initial where
  names := by decide
  sorted := by decide
  notSelf := by decide
  ofProduct := by decide
  disjoint := by
    intro container container' name name' hne i hi hi'
    exact hne ((path_of_mem_instances hi).symm.trans (path_of_mem_instances hi'))
  notPrototype := by
    intro m _ i hi hmem
    have hpath : i = ⟨0, ["dummy"]⟩ ∨ i = ⟨0, ["foo"]⟩ := by
      simpa [modules, moduleOf] using hmem
    rcases prototypes_items m.item i hi with rfl | ⟨rfl, -⟩
    · rcases hpath with h | h
      · cases h
      · cases h
    · rcases hpath with h | h
      · cases h
      · cases h
  next := by
    intro i name v hv
    change (items i).properties name = some v at hv
    rcases properties_items i with ⟨sourceCode, h⟩ | h
    · rw [h] at hv
      unfold assigning at hv
      split_ifs at hv
      rw [← Option.some.inj hv]
    · rw [h] at hv
      cases hv
  default := by
    intro m hm name hdeclaration
    unfold modules at hm
    rw [List.mem_cons, List.mem_singleton] at hm
    rcases hm with rfl | rfl
    · refine ⟨⟨3, []⟩, ⟨⟨.jsSource "['default']", none⟩, []⟩, rfl, ?_⟩
      by_cases hname : name = "list"
      · rw [hname]
        rfl
      · simp [propertyDeclaration, initial, items, moduleOf, hname] at hdeclaration
    · cases hdeclaration

end ValuesSample

open ValuesSample in
/-- The list of the product comes first, then that of the other module, and the default last. -/
theorem values_merged_sample :
    kindsOf (((mergeAll modules initial).items ⟨0, ["dummy"]⟩).properties "list") =
        [.jsSource "['product']", .jsSource "['foo']", .jsSource "['default']"] ∧
      (∀ name, ValuesMerged modules initial (mergeAll modules initial) (moduleOf 0 "dummy") name) ∧
      InstancesMerged modules initial (mergeAll modules initial) (moduleOf 0 "dummy") :=
  ⟨rfl, values_merged mergeable List.mem_cons_self⟩

end ModuleMerger

end Qbs
