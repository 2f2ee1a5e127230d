import QbsCore.Serialization.Correspondence
import Mathlib.Data.Fintype.Card

/-!
# Loading what was stored

Objects get their ids in the order in which they are stored, and the reader allocates them in
the same order.  While the members of an object are processed, the object itself is open: it
has an id already, but its members have not all been loaded.

Main results:

- Theorem {lit}`Serialization.mirrors_object`: loading an object mirrors storing it.
- Theorem {lit}`Serialization.loadGraph_storeGraph`: loading a stored graph gives an isomorphic
  one.

Current gaps:

- None.
-/

namespace Qbs

namespace Serialization

open Streams Growth

variable {Class : Type} {fields : Fields Class} {bound : Nat}

/-! ## Isomorphic graphs -/

/-- The loaded pointer refers to what was loaded for the object that the stored one refers to. -/
def SamePointer {n : Nat} (φ : Fin n → Option Nat) : Option (Fin n) → Option Nat → Prop
  | none, q => q = none
  | some a, q => ∃ k, φ a = some k ∧ q = some k

/-- The same for the pointers of a memory. -/
def SameObject (m : Memory fields) (φ : Fin m.size → Option Nat) : PointerRel m.Ref :=
  fun _ _ p q => SamePointer φ (p.map Subtype.val) q

/-- What was loaded is the stored graph: the objects with an address correspond one to one to
the loaded ones, with their classes and members, and so do the values that refer to them. -/
structure Isomorphic (m : Memory fields) (p : LoadPool fields) (t : Ty Class) (v : t.Val m.Ref)
    (v' : t.Val (Loaded Class)) (φ : Fin m.size → Option Nat) : Prop where
  root : t.Corresponds (SameObject m φ) v v'
  contents : ∀ a k, φ a = some k → ∃ x, p.objects[k]? = some (some ⟨(m.kind a).2, x⟩) ∧
    (fields (m.kind a).2).Corresponds (SameObject m φ) (m.contents a) x
  injective : ∀ a b k, φ a = some k → φ b = some k → a = b
  surjective : ∀ k, k < p.objects.length → ∃ a, φ a = some k

/-! ## Objects in step -/

/-- The address of the object that is loaded for a stored one. -/
def StorePool.index {n : Nat} (s : StorePool n) (a : Fin n) : Option Nat :=
  (s.storageIndices.lookup a).map Int.toNat

variable {n : Nat}

theorem StorePool.index_mono {s s' : StorePool n} (h : Grows s s') {a : Fin n} {k : Nat}
    (hk : s.index a = some k) : s'.index a = some k := by
  rw [StorePool.index, Option.map_eq_some_iff] at hk ⊢
  rcases hk with ⟨id, hid, hk⟩
  exact ⟨id, h a id hid, hk⟩

theorem SamePointer.mono {φ ψ : Fin n → Option Nat} (h : ∀ a k, φ a = some k → ψ a = some k)
    {p : Option (Fin n)} {q : Option Nat} (hpq : SamePointer φ p q) : SamePointer ψ p q := by
  cases p with
  | none => exact hpq
  | some a =>
      rcases hpq with ⟨k, hk, hq⟩
      exact ⟨k, h a k hk, hq⟩

theorem SamePointer.leftUnique {φ : Fin n → Option Nat}
    (h : ∀ a b k, φ a = some k → φ b = some k → a = b) {p p' : Option (Fin n)} {q : Option Nat}
    (hp : SamePointer φ p q) (hp' : SamePointer φ p' q) : p = p' := by
  cases p with
  | none =>
      cases p' with
      | none => rfl
      | some b =>
          rcases hp' with ⟨k, -, hq⟩
          rw [show q = none from hp] at hq
          cases hq
  | some a =>
      rcases hp with ⟨k, hk, rfl⟩
      cases p' with
      | none => cases hp'
      | some b =>
          rcases hp' with ⟨k', hk', hq⟩
          cases hq
          rw [h a b k hk hk']

/-- Both sides have the same objects; the members of those that are not open correspond. -/
structure ObjectSync (m : Memory fields) (isOpen : Fin m.size → Prop) (s : StorePool m.size)
    (p : LoadPool fields) : Prop where
  lastStoredObjectId : s.lastStoredObjectId = p.objects.length
  stored : ∀ a id, s.storageIndices.lookup a = some id → ∃ k : Nat, id = k ∧
    k < p.objects.length ∧ (p.table (m.kind a).1)[k]? = some (some k)
  length_table_le : ∀ shared, (p.table shared).length ≤ p.objects.length
  injective : ∀ a b k, s.index a = some k → s.index b = some k → a = b
  surjective : ∀ k, k < p.objects.length → ∃ a, s.index a = some k
  contents : ∀ a k, ¬ isOpen a → s.index a = some k →
    ∃ x, p.objects[k]? = some (some ⟨(m.kind a).2, x⟩) ∧
      (fields (m.kind a).2).Corresponds (SameObject m s.index) (m.contents a) x

variable {m : Memory fields} {isOpen : Fin m.size → Prop}

theorem tablesFree_objectSync : TablesFree (ObjectSync m isOpen) where
  string := fun _ _ _ _ h => { h with }
  stringList := fun _ _ _ _ h => { h with }
  env := fun _ _ _ _ h => { h with }

/-- Give the next id to an object. -/
def StorePool.register {n : Nat} (s : StorePool n) (a : Fin n) : StorePool n :=
  { s with
    lastStoredObjectId := s.lastStoredObjectId + 1
    storageIndices := AList.insert a s.lastStoredObjectId s.storageIndices }

theorem StorePool.index_register {s : StorePool n} {k : Nat} (hk : s.lastStoredObjectId = k)
    (a b : Fin n) :
    (s.register a).index b = if b = a then some k else s.index b := by
  simp only [StorePool.index, StorePool.register]
  split <;> rename_i h
  · rw [h, AList.lookup_insert, hk]
    rfl
  · rw [AList.lookup_insert_ne h]

/-- An object without an id keeps the others as they are. -/
theorem StorePool.grows_register {s : StorePool n} {a : Fin n}
    (ha : s.storageIndices.lookup a = none) : Grows s (s.register a) := by
  intro b id hid
  have hb : b ≠ a := by
    rintro rfl
    rw [ha] at hid
    cases hid
  rw [StorePool.register, AList.lookup_insert_ne hb, hid]

section Create

variable {p : LoadPool fields}

@[simp]
theorem LoadPool.objects_create (shared : Bool) (id : Nat) :
    (p.create shared id).objects = p.objects ++ [none] := by
  cases shared <;> rfl

theorem LoadPool.table_create (shared shared' : Bool) (id : Nat) :
    (p.create shared id).table shared' =
      if shared' = shared then
        (resize (p.table shared) (id + 1) none).set id (some p.objects.length)
      else p.table shared' := by
  cases shared <;> cases shared' <;> rfl

/-- The tables for shared values have nothing to do with objects. -/
theorem PoolSync.create {n : Nat} {s s' : StorePool n}
    {Sync Sync' : StorePool n → LoadPool fields → Prop} {shared : Bool} {id : Nat}
    (h : PoolSync Sync s p) (hstrings : s'.inverseStringStorage = s.inverseStringStorage)
    (hlists : s'.inverseStringListStorage = s.inverseStringListStorage)
    (henvs : s'.inverseEnvStorage = s.inverseEnvStorage) (hsync : Sync' s' (p.create shared id)) :
    PoolSync Sync' s' (p.create shared id) := by
  rcases h with ⟨henv, hlist, hstring, -⟩
  rw [PoolSync, EnvSync, StringListSync, StringSync, hstrings, hlists, henvs]
  cases shared <;> exact ⟨henv, hlist, hstring, hsync⟩

@[simp]
theorem LoadPool.table_setContents (k : Nat) (c : Class) (x : (fields c).Val (Loaded Class))
    (shared : Bool) : (p.setContents k c x).table shared = p.table shared := by
  cases shared <;> rfl

end Create

variable {s : StorePool m.size} {p : LoadPool fields}

/-- An address is that of a loaded object. -/
theorem ObjectSync.index_lt (h : ObjectSync m isOpen s p) {a : Fin m.size} {k : Nat}
    (hk : s.index a = some k) : k < p.objects.length := by
  rcases Option.map_eq_some_iff.mp hk with ⟨id, hid, rfl⟩
  rcases h.stored a id hid with ⟨k, rfl, hlt, -⟩
  simpa using hlt

/-- An object that is stored for the first time is created under its id, and is open. -/
theorem ObjectSync.create (h : ObjectSync m isOpen s p) {a : Fin m.size}
    (ha : s.storageIndices.lookup a = none) :
    ObjectSync m (fun b => b = a ∨ isOpen b) (s.register a)
      (p.create (m.kind a).1 p.objects.length) := by
  have hindex := StorePool.index_register h.lastStoredObjectId a
  have hgrows := StorePool.grows_register ha
  have hlen : (p.create (m.kind a).1 p.objects.length).objects.length = p.objects.length + 1 := by
    simp
  constructor
  · rw [hlen]
    show s.lastStoredObjectId + 1 = _
    rw [h.lastStoredObjectId]
    push_cast
    rfl
  · intro b id hid
    rw [hlen, LoadPool.table_create]
    by_cases hb : b = a
    · subst hb
      have hid' : s.lastStoredObjectId = id := by
        rw [StorePool.register, AList.lookup_insert] at hid
        exact Option.some.inj hid
      refine ⟨p.objects.length, by rw [← hid', h.lastStoredObjectId], Nat.lt_succ_self _, ?_⟩
      rw [if_pos rfl, getElem?_resize_set_self (h.length_table_le _)]
    · rw [StorePool.register, AList.lookup_insert_ne hb] at hid
      rcases h.stored b id hid with ⟨k, rfl, hlt, hk⟩
      refine ⟨k, rfl, by omega, ?_⟩
      split <;> rename_i hshared
      · rw [hshared] at hk
        exact getElem?_resize_set_of_some (h.length_table_le _) hk
      · exact hk
  · intro shared
    rw [hlen, LoadPool.table_create]
    split
    · rw [length_resize_set (h.length_table_le _)]
    · exact Nat.le_succ_of_le (h.length_table_le shared)
  · intro b b' k hb hb'
    rw [hindex] at hb hb'
    split at hb <;> rename_i hba <;> split at hb' <;> rename_i hb'a
    · rw [hba, hb'a]
    · cases hb
      exact absurd (h.index_lt hb') (lt_irrefl _)
    · cases hb'
      exact absurd (h.index_lt hb) (lt_irrefl _)
    · exact h.injective b b' k hb hb'
  · intro k hk
    rw [hlen] at hk
    by_cases hlast : k = p.objects.length
    · exact ⟨a, by rw [hindex, if_pos rfl, hlast]⟩
    · rcases h.surjective k (by omega) with ⟨b, hb⟩
      exact ⟨b, StorePool.index_mono hgrows hb⟩
  · intro b k hb hk
    rw [not_or] at hb
    rw [hindex, if_neg hb.1] at hk
    rcases h.contents b k hb.2 hk with ⟨x, hx, hcorresponds⟩
    refine ⟨x, ?_, Ty.Corresponds.mono (fun _ _ _ _ =>
      SamePointer.mono fun _ _ => StorePool.index_mono hgrows) hcorresponds⟩
    rw [LoadPool.objects_create, List.getElem?_append_left (h.index_lt hk), hx]

/-- When its members have been loaded, an object is no longer open. -/
theorem ObjectSync.close {a : Fin m.size} (h : ObjectSync m (fun b => b = a ∨ isOpen b) s p)
    {k : Nat} (hk : s.index a = some k) {x : (fields (m.kind a).2).Val (Loaded Class)}
    (hx : (fields (m.kind a).2).Corresponds (SameObject m s.index) (m.contents a) x) :
    ObjectSync m isOpen s (p.setContents k (m.kind a).2 x) := by
  have hlen : (p.setContents k (m.kind a).2 x).objects.length = p.objects.length := by
    simp [LoadPool.setContents]
  constructor
  · rw [hlen, h.lastStoredObjectId]
  · intro b id hid
    rw [hlen, LoadPool.table_setContents]
    exact h.stored b id hid
  · intro shared
    rw [hlen, LoadPool.table_setContents]
    exact h.length_table_le shared
  · exact h.injective
  · rw [hlen]
    exact h.surjective
  · intro b j hb hj
    by_cases hba : b = a
    · subst hba
      have hjk : j = k := Option.some.inj (hj.symm.trans hk)
      subst hjk
      exact ⟨x, List.getElem?_set_self (h.index_lt hj), hx⟩
    · rcases h.contents b j (by simp [hba, hb]) hj with ⟨y, hy, hcorresponds⟩
      refine ⟨y, ?_, hcorresponds⟩
      have hne : k ≠ j := by
        rintro rfl
        exact hba (h.injective b a k hj hk)
      rw [LoadPool.setContents, List.getElem?_set_ne hne, hy]

/-! ## Loading objects -/

theorem writes_storePointer {storeObject : Fin n → Store n Unit} (h : ∀ a, Writes (storeObject a))
    (p : Option (Fin n)) :
    Writes (storePointer storeObject p) := by
  cases p with
  | none => exact writes_putInt _
  | some a => exact h a

theorem writes_storeObject (m : Memory fields) (fuel : Nat) (a : Fin m.size) :
    Writes (storeObject m fuel a) := by
  induction fuel generalizing a with
  | zero => exact fun s => WritesAt.fail s _
  | succ fuel ih =>
      apply Writes.current
      intro s
      cases hid : s.storageIndices.lookup a with
      | none =>
          apply WritesAt.update_bind
          · exact StorePool.grows_register hid
          · exact (writes_putInt _).bind
              (writes_storeValue (fun _ _ p => writes_storePointer ih (p.map Subtype.val)) _ _)
      | some id => exact writes_putInt id s

theorem mirrors_fail {β : Type} {Pre Post : StorePool m.size → LoadPool fields → Prop}
    {r : Load fields β} {P : StorePool m.size → β → Prop} (e : ErrorInfo) :
    Mirrors bound Pre Post (fail e) r P := by
  intro s out s' tokens hw
  cases hw

/-- Loading the pointers to objects mirrors storing them if it is so for the objects. -/
theorem pointersMirror {storeObject : Fin m.size → Store m.size Unit}
    {loadObject : Bool → Class → Load fields (Option Nat)}
    (hwrites : ∀ a, Writes (storeObject a))
    (hobject : ∀ a, Mirrors bound (PoolSync (ObjectSync m isOpen)) (PoolSync (ObjectSync m isOpen))
      (storeObject a) (loadObject (m.kind a).1 (m.kind a).2)
      fun s q => SamePointer s.index (some a) q)
    (hnull : ∀ shared c, Mirrors bound (PoolSync (ObjectSync m isOpen))
      (PoolSync (ObjectSync m isOpen)) (putInt (-1)) (loadObject shared c) fun _ q => q = none) :
    PointersMirror bound (ObjectSync m isOpen) (fun s => SameObject m s.index)
      (fun _ _ p => storePointer storeObject (p.map Subtype.val)) loadObject where
  free := tablesFree_objectSync
  writes := fun _ _ p => writes_storePointer hwrites (p.map Subtype.val)
  mirrors := by
    rintro shared c (_ | ⟨a, ha⟩)
    · exact hnull shared c
    · have h := hobject a
      rw [ha] at h
      exact h
  mono := fun s s' hgrows _ _ _ _ => SamePointer.mono fun _ _ => StorePool.index_mono hgrows
  leftUnique := fun s l h _ _ p p' q hp hp' =>
    Option.map_injective Subtype.val_injective (SamePointer.leftUnique h.injective hp hp')

theorem mirrors_null (shared : Bool) (c : Class) :
    Mirrors bound (PoolSync (ObjectSync m isOpen)) (PoolSync (ObjectSync m isOpen))
      (putInt (-1)) (loadObject fields bound shared c) fun _ q => q = none := by
  cases bound with
  | zero => exact Mirrors.zero
  | succ fuel =>
      apply mirrors_putInt
      rw [if_pos (by decide)]
      exact Mirrors.pure fun _ => rfl

/-- An object that is stored for the first time is created, and its members follow the id. -/
theorem mirrors_newObject {a : Fin m.size} {k : Nat} {s₀ : StorePool m.size}
    (hk : s₀.lastStoredObjectId = k) (hid : s₀.storageIndices.lookup a = none)
    {storeContents : Store m.size Unit}
    {loadContents : Load fields ((fields (m.kind a).2).Val (Loaded Class))}
    (hwrites : Writes storeContents)
    (hcontents : Mirrors bound (PoolSync (ObjectSync m fun b => b = a ∨ isOpen b))
      (PoolSync (ObjectSync m fun b => b = a ∨ isOpen b)) storeContents loadContents
      fun s x => (fields (m.kind a).2).Corresponds (SameObject m s.index) (m.contents a) x) :
    Mirrors (bound + 1) (fun s p => s = s₀.register a ∧ PoolSync (ObjectSync m isOpen) s₀ p)
      (PoolSync (ObjectSync m isOpen))
      (putInt s₀.lastStoredObjectId >>= fun _ => storeContents)
      (idLoad (m.kind a).1 (m.kind a).2 loadContents)
      fun s q => SamePointer s.index (some a) q := by
  rw [hk]
  apply mirrors_putInt_bind _ hwrites
  rw [if_neg (by omega), Int.toNat_natCast]
  apply Mirrors.current_reader
  intro p₀
  refine Mirrors.of_fact (Q := PoolSync (ObjectSync m isOpen) s₀ p₀) (fun s p hs => ?_)
    fun hsync => ?_
  · rcases hs with ⟨rfl, -, hsync⟩
    exact hsync
  have hlen : p₀.objects.length = k := by
    have hlast := hsync.2.2.2.lastStoredObjectId
    omega
  have htable := hsync.2.2.2.length_table_le (m.kind a).1
  rw [if_neg (by omega)]
  refine Mirrors.update_reader (M := fun s p => s.index a = some k ∧
    PoolSync (ObjectSync m fun b => b = a ∨ isOpen b) s p) ?_ ?_
  · -- the object keeps its address while its members are loaded
    refine Mirrors.then_update (g := fun _ => some p₀.objects.length)
      (hcontents.frame hwrites fun s s' hgrows => StorePool.index_mono hgrows) ?_
    rintro s p x ⟨hak, henv, hlist, hstring, hopen⟩ hx
    rw [hlen]
    exact ⟨⟨henv, hlist, hstring, hopen.close hak hx⟩, k, hak, rfl⟩
  · rintro s p ⟨rfl, rfl, hsync⟩
    refine ⟨?_, hsync.create rfl rfl rfl ?_⟩
    · rw [StorePool.index_register hk, if_pos rfl]
    · rw [← hlen]
      exact hsync.2.2.2.create hid

/-- An object that has been stored before has been created under its id. -/
theorem mirrors_storedObject {a : Fin m.size} {j : Nat} {s₀ : StorePool m.size}
    (hid : s₀.storageIndices.lookup a = some (j : Int))
    (loadContents : Load fields ((fields (m.kind a).2).Val (Loaded Class))) :
    Mirrors bound (fun s p => s = s₀ ∧ PoolSync (ObjectSync m isOpen) s p)
      (PoolSync (ObjectSync m isOpen)) (putInt j) (idLoad (m.kind a).1 (m.kind a).2 loadContents)
      fun s q => SamePointer s.index (some a) q := by
  apply mirrors_putInt
  rw [if_neg (by omega), Int.toNat_natCast]
  apply Mirrors.current_reader
  intro p₀
  refine Mirrors.of_fact (Q := (p₀.table (m.kind a).1)[j]? = some (some j)) (fun s p hs => ?_)
    fun hj => ?_
  · rcases hs with ⟨rfl, rfl, -, -, -, hsync⟩
    rcases hsync.stored a j hid with ⟨j', hj', -, hentry⟩
    have hsame : j' = j := by omega
    rwa [hsame] at hentry
  rw [if_pos (List.getElem?_eq_some_iff.mp hj).1]
  have hentry : (p₀.table (m.kind a).1).getD j none = some j := by
    rw [List.getD_eq_getElem?_getD, hj, Option.getD_some]
  have hindex : s₀.index a = some j := by
    rw [StorePool.index, hid]
    rfl
  rw [hentry]
  refine Mirrors.weaken (Mirrors.of_post (Q := fun s q => SamePointer s.index (some a) q)
    (Mirrors.pure fun _ => rfl) ?_) (fun _ _ hs => hs) ?_ fun _ _ hq => hq
  · rintro s p q ⟨rfl, rfl, -⟩ hq
    exact ⟨j, hindex, hq.symm⟩
  · rintro s p ⟨-, -, hs⟩
    exact hs

/-- Loading a shared object mirrors storing it if this is so for its members while it is
open. -/
theorem mirrors_sharedObject {a : Fin m.size} {storeContents : Fin m.size → Store m.size Unit}
    {loadContents : Load fields ((fields (m.kind a).2).Val (Loaded Class))}
    (hwrites : Writes (storeContents a))
    (hcontents : Mirrors bound (PoolSync (ObjectSync m fun b => b = a ∨ isOpen b))
      (PoolSync (ObjectSync m fun b => b = a ∨ isOpen b)) (storeContents a) loadContents
      fun s x => (fields (m.kind a).2).Corresponds (SameObject m s.index) (m.contents a) x) :
    Mirrors (bound + 1) (PoolSync (ObjectSync m isOpen)) (PoolSync (ObjectSync m isOpen))
      (storeSharedObject storeContents a) (idLoad (m.kind a).1 (m.kind a).2 loadContents)
      fun s q => SamePointer s.index (some a) q := by
  apply Mirrors.current_writer
  intro s₀
  refine Mirrors.of_fact (Q := (∃ k : Nat, s₀.lastStoredObjectId = k) ∧
    ∀ id, s₀.storageIndices.lookup a = some id → ∃ k : Nat, id = k) (fun s p hs => ?_) ?_
  · rcases hs with ⟨rfl, -, -, -, hsync⟩
    refine ⟨⟨_, hsync.lastStoredObjectId⟩, fun id hid => ?_⟩
    rcases hsync.stored a id hid with ⟨k, hk, -⟩
    exact ⟨k, hk⟩
  rintro ⟨⟨k, hk⟩, hids⟩
  cases hid : s₀.storageIndices.lookup a with
  | none =>
      apply Mirrors.update_writer (mirrors_newObject hk hid hwrites hcontents)
      rintro s p ⟨rfl, hsync⟩
      exact ⟨rfl, hsync⟩
  | some id =>
      rcases hids id hid with ⟨j, rfl⟩
      exact mirrors_storedObject hid loadContents

/-- Loading an object mirrors storing it, whatever other objects are open. -/
theorem mirrors_object (m : Memory fields) (fuel : Nat) (isOpen : Fin m.size → Prop) (bound : Nat)
    (a : Fin m.size) :
    Mirrors bound (PoolSync (ObjectSync m isOpen)) (PoolSync (ObjectSync m isOpen))
      (storeObject m fuel a) (loadObject fields bound (m.kind a).1 (m.kind a).2)
      fun s q => SamePointer s.index (some a) q := by
  induction fuel generalizing isOpen bound a with
  | zero => exact mirrors_fail _
  | succ fuel ih =>
      cases bound with
      | zero => exact Mirrors.zero
      | succ bound =>
          apply mirrors_sharedObject
          · exact writes_storeValue
              (fun _ _ p => writes_storePointer (writes_storeObject m fuel) (p.map Subtype.val)) _ _
          · exact mirrors_value (pointersMirror (writes_storeObject m fuel) (ih _ bound)
              mirrors_null) (fields (m.kind a).2) (m.contents a)

/-! ## Storing succeeds -/

/-- How many objects have not been stored. -/
def StorePool.unstored {n : Nat} (s : StorePool n) : Nat :=
  (Finset.univ.filter fun a => s.storageIndices.lookup a = none).card

theorem StorePool.unstored_le {s s' : StorePool n} (h : Grows s s') :
    s'.unstored ≤ s.unstored := by
  apply Finset.card_le_card
  intro a ha
  simp only [Finset.mem_filter, Finset.mem_univ, true_and] at ha ⊢
  cases hid : s.storageIndices.lookup a with
  | none => rfl
  | some id =>
      rw [h a id hid] at ha
      cases ha

theorem StorePool.unstored_register_lt {s : StorePool n} {a : Fin n}
    (ha : s.storageIndices.lookup a = none) : (s.register a).unstored < s.unstored := by
  apply Finset.card_lt_card
  refine ⟨fun b hb => ?_, fun hsub => ?_⟩
  · simp only [Finset.mem_filter, Finset.mem_univ, true_and] at hb ⊢
    cases hid : s.storageIndices.lookup b with
    | none => rfl
    | some id =>
        rw [StorePool.grows_register ha b id hid] at hb
        cases hb
  · have hmem := hsub (show a ∈ _ by simp [ha])
    simp [StorePool.register] at hmem

section Total

variable {n : Nat} {Pre : StorePool n → Prop}

theorem total_idStoreValue {α : Type} [DecidableEq α] {table : StoreTable n α}
    {isEmpty : α → Bool} {doStore : α → Store n Unit}
    (hmono : ∀ s s', Grows s s' → Pre s → Pre s')
    (hindices : ∀ m s, (table.setIdMap m s).storageIndices = s.storageIndices)
    (hstore : ∀ v, Total Pre (doStore v)) (v : α) :
    Total Pre (idStoreValue table isEmpty doStore v) := by
  unfold idStoreValue
  split
  · exact Total.put _
  · apply Total.current
    intro s₀
    dsimp only
    split
    · refine Total.update_bind (Total.bind hmono (Total.put _) (hstore v)) fun s hs => ?_
      have hgrows : Grows s (table.setIdMap ((table.idMap s).insert v) s) := by
        intro a id hid
        rw [hindices]
        exact hid
      exact ⟨hgrows, hmono s _ hgrows hs.2⟩
    · exact Total.put _

theorem total_storeString (hmono : ∀ s s', Grows s s' → Pre s → Pre s') (v : String) :
    Total Pre (storeString v) :=
  total_idStoreValue hmono (fun _ _ => rfl) (fun _ => Total.put _) v

theorem total_storeStringList (hmono : ∀ s s', Grows s s' → Pre s → Pre s') (v : List String) :
    Total Pre (storeStringList v) :=
  total_idStoreValue hmono (fun _ _ => rfl)
    (fun v => Total.bind hmono (Total.put _)
      (Total.putAll hmono v fun x _ => total_storeString hmono x)) v

theorem total_storeEnvironment (hmono : ∀ s s', Grows s s' → Pre s → Pre s')
    (v : QProcessEnvironment) : Total Pre (storeEnvironment v) := by
  have hstore : ∀ env, Total Pre (doStoreEnvironment env : Store n Unit) := by
    intro env
    exact Total.bind hmono (total_storeStringList hmono _)
      (Total.putAll hmono env.1 fun e _ => total_storeString hmono e.2)
  exact total_idStoreValue hmono (fun _ _ => rfl) hstore v

mutual

theorem total_storeVariant (hmono : ∀ s s', Grows s s' → Pre s → Pre s') :
    (v : VariantData) → Total Pre (storeVariant v)
  | .string s => Total.bind hmono (Total.put _) (total_storeString hmono s)
  | .stringList l => Total.bind hmono (Total.put _) (total_storeStringList hmono l)
  | .list l =>
      Total.bind hmono (Total.put _) (Total.bind hmono (Total.put _) (total_storeVariantList hmono l))
  | .map entries =>
      Total.bind hmono (Total.put _)
        (Total.bind hmono (Total.put _) (total_storeVariantMap hmono entries))
  | .other _ => Total.bind hmono (Total.put _) (Total.put _)

theorem total_storeVariantList (hmono : ∀ s s', Grows s s' → Pre s → Pre s') :
    (l : List VariantData) → Total Pre (storeVariantList l)
  | [] => Total.pure
  | v :: l => Total.bind hmono (total_storeVariant hmono v) (total_storeVariantList hmono l)

theorem total_storeVariantMap (hmono : ∀ s s', Grows s s' → Pre s → Pre s') :
    (entries : List (String × VariantData)) → Total Pre (storeVariantMap entries)
  | [] => Total.pure
  | (key, v) :: entries =>
      Total.bind hmono
        (Total.bind hmono (total_storeString hmono key) (total_storeVariant hmono v))
        (total_storeVariantMap hmono entries)

end

variable {Ref : Bool → Class → Type}
  {storePtr : (shared : Bool) → (c : Class) → Option (Ref shared c) → Store n Unit}

theorem total_storeKey (hmono : ∀ s s', Grows s s' → Pre s → Pre s')
    (h : ∀ shared c p, Total Pre (storePtr shared c p)) (k : KeyTy Class) (x : k.Val Ref) :
    Total Pre (storeKey storePtr k x) := by
  induction k with
  | int => exact Total.put _
  | string => exact total_storeString hmono _
  | stringList => exact total_storeStringList hmono _
  | pair a b iha ihb => exact Total.bind hmono (iha x.1) (ihb x.2)
  | pointer shared c => exact h shared c x

theorem total_storeValue (hmono : ∀ s s', Grows s s' → Pre s → Pre s')
    (h : ∀ shared c p, Total Pre (storePtr shared c p)) (t : Ty Class) (x : t.Val Ref) :
    Total Pre (storeValue storePtr t x) := by
  induction t with
  | unit => exact Total.pure
  | key k => exact total_storeKey hmono h k x
  | environment => exact total_storeEnvironment hmono _
  | variant => exact total_storeVariant hmono _
  | pair a b iha ihb => exact Total.bind hmono (iha x.1) (ihb x.2)
  | list a ih =>
      exact Total.bind hmono (Total.put _) (Total.putAll hmono x fun y _ => ih y)
  | map overwrites k v ih =>
      exact Total.bind hmono (Total.put _) (Total.putAll hmono _ fun e _ =>
        Total.bind hmono (total_storeKey hmono h k _) (ih _))
  | set a =>
      exact Total.bind hmono (Total.put _) (Total.putAll hmono x fun y _ =>
        total_storeKey hmono h a y)
  | sum a b iha ihb =>
      cases x with
      | inl x => exact Total.bind hmono (Total.put _) (iha x)
      | inr x => exact Total.bind hmono (Total.put _) (ihb x)

theorem total_storePointer {storeObject : Fin n → Store n Unit}
    (h : ∀ a, Total Pre (storeObject a)) (p : Option (Fin n)) :
    Total Pre (storePointer storeObject p) := by
  cases p with
  | none => exact Total.put _
  | some a => exact h a

end Total

/-- An object is stored if no more objects can be nested than the fuel allows. -/
theorem total_storeObject (m : Memory fields) (fuel : Nat) (a : Fin m.size) :
    Total (fun s => s.unstored < fuel) (storeObject m fuel a) := by
  induction fuel generalizing a with
  | zero =>
      intro s out hs
      exact absurd hs (Nat.not_lt_zero _)
  | succ fuel ih =>
      have hmono : ∀ s s' : StorePool m.size, Grows s s' → s.unstored < fuel →
          s'.unstored < fuel := by
        intro s s' hgrows hs
        exact lt_of_le_of_lt (StorePool.unstored_le hgrows) hs
      apply Total.current
      intro s₀
      cases hid : s₀.storageIndices.lookup a with
      | none =>
          refine Total.update_bind (Total.bind hmono (Total.put _) (total_storeValue hmono
            (fun _ _ p => total_storePointer ih (p.map Subtype.val)) _ _)) ?_
          rintro s ⟨rfl, hs⟩
          have hlt := StorePool.unstored_register_lt hid
          exact ⟨StorePool.grows_register hid, show (s.register a).unstored < fuel by omega⟩
      | some id => exact Total.put _

/-! ## The round trip -/

theorem StorePool.unstored_lt (s : StorePool n) : s.unstored < n + 1 := by
  have hle := Finset.card_le_univ (Finset.univ.filter fun a => s.storageIndices.lookup a = none)
  rw [Fintype.card_fin] at hle
  exact Nat.lt_succ_of_le hle

theorem tableSync_new {α : Type} [DecidableEq α] : TableSync (⟨∅, 0⟩ : IdMap α) [] where
  lastStoredId := rfl
  stored := by
    intro v id hid
    rw [AList.lookup_empty] at hid
    cases hid

/-- New pools are in step. -/
theorem poolSync_new (m : Memory fields) :
    PoolSync (ObjectSync m fun _ => False) (StorePool.new m.size) (LoadPool.new fields) := by
  have hindex : ∀ a, (StorePool.new m.size).index a = none := fun a => by
    rw [StorePool.index, StorePool.new, AList.lookup_empty]
    rfl
  refine ⟨tableSync_new, tableSync_new, tableSync_new, rfl, ?_, ?_, ?_, ?_, ?_⟩
  · intro a id hid
    rw [StorePool.new, AList.lookup_empty] at hid
    cases hid
  · intro shared
    cases shared <;> exact le_rfl
  · intro a b k hk
    rw [hindex] at hk
    cases hk
  · intro k hk
    exact absurd hk (Nat.not_lt_zero k)
  · intro a k _ hk
    rw [hindex] at hk
    cases hk

/-- When no object is open any more, what was loaded is the stored graph. -/
theorem isomorphic_of_sync {m : Memory fields} {s : StorePool m.size} {p : LoadPool fields}
    (h : ObjectSync m (fun _ => False) s p) {t : Ty Class} {v : t.Val m.Ref}
    {v' : t.Val (Loaded Class)} (hv : t.Corresponds (SameObject m s.index) v v') :
    Isomorphic m p t v v' s.index where
  root := hv
  contents := fun a k hk => h.contents a k id hk
  injective := h.injective
  surjective := h.surjective

/-- Loading what was stored with new pools gives an isomorphic graph and reads all that was
written. -/
theorem loadRoot_storeRoot (m : Memory fields) (t : Ty Class) (v : t.Val m.Ref) :
    ∃ s tokens, storeRoot m t v (StorePool.new m.size, []) = .ok ((), (s, tokens)) ∧
      ∃ v' p, loadRoot t (LoadPool.new fields, tokens) = .ok (v', p, []) ∧
        Isomorphic m p t v v' s.index := by
  have hstored : Total (fun s => s.unstored < m.size + 1) (storeRoot m t v) :=
    total_storeValue (fun s s' hgrows hs => lt_of_le_of_lt (StorePool.unstored_le hgrows) hs)
      (fun _ _ p => total_storePointer (total_storeObject m (m.size + 1)) (p.map Subtype.val)) t v
  rcases hstored (StorePool.new m.size) [] (StorePool.unstored_lt _) with ⟨s, tokens, hrun, -⟩
  have hroot : Mirrors (tokens.length + 1) (PoolSync (ObjectSync m fun _ => False))
      (PoolSync (ObjectSync m fun _ => False)) (storeRoot m t v) _
      fun s v' => t.Corresponds (SameObject m s.index) v v' :=
    mirrors_value (pointersMirror (writes_storeObject m (m.size + 1))
      (mirrors_object m (m.size + 1) _ _) mirrors_null) t v
  rcases hroot (StorePool.new m.size) [] s tokens hrun (Nat.lt_succ_self _) (LoadPool.new fields)
    [] (poolSync_new m) with ⟨v', p, hload, hsync, hv⟩
  rw [List.append_nil] at hload
  exact ⟨s, tokens, hrun, v', p, hload, isomorphic_of_sync hsync.2.2.2 hv⟩

/-- Loading a stored graph gives the configuration and an isomorphic graph, and reads all that
was written. -/
theorem loadGraph_storeGraph (m : Memory fields) (projectConfig : QVariantMap) (t : Ty Class)
    (v : t.Val m.Ref) :
    ∃ file, storeGraph m projectConfig t v = .ok file ∧
      ∃ v' p, loadGraph fields t file = .ok (projectConfig, v', p, []) ∧
        ∃ φ, Isomorphic m p t v v' φ := by
  rcases loadRoot_storeRoot m t v with ⟨s, tokens, hstart, v', p, hload, hiso⟩
  refine ⟨⟨persistenceMagic, projectConfig, tokens⟩, ?_, v', p, ?_, s.index, hiso⟩
  · unfold storeGraph
    exact Fallible.bind_eq_ok_iff.mpr ⟨_, hstart, rfl⟩
  · have hhead : loadHead ⟨persistenceMagic, projectConfig, tokens⟩ (LoadPool.new fields) =
        .ok (projectConfig, LoadPool.new fields) := by
      rw [loadHead, if_neg (fun h => h rfl)]
      rfl
    exact Fallible.bind_eq_ok_iff.mpr
      ⟨_, hhead, Fallible.bind_eq_ok_iff.mpr ⟨_, hload, rfl⟩⟩

/-- Two objects with a number that refer to each other. -/
def cycle : Memory fun _ : Unit => Ty.pair (.key .int) (.key (.pointer true ())) where
  size := 2
  kind := fun _ => (true, ())
  contents := fun a => ((a : Int), some ⟨1 - a, rfl⟩)

example : (storeGraph cycle .empty (.key (.pointer true ())) (some ⟨(1 : Fin 2), rfl⟩)).map
    (·.tokens) = .ok [.int 0, .int 1, .int 1, .int 0, .int 0] := by
  decide

end Serialization

end Qbs
