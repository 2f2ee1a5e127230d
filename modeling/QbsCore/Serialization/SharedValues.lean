import QbsCore.Serialization.PersistentPool

/-!
# Strings, environments and variants in lock step

The tables of the writer and the reader for strings, string lists and environments stay in
step: an id that the writer has given to a value is the place where the reader keeps it.

Main results:

- Theorem {lit}`Serialization.mirrors_idValue`: loading a shared value mirrors storing it.
- Theorem {lit}`Serialization.mirrors_variant`: the same for variants.

Current gaps:

- None.
-/

namespace Qbs

namespace Serialization

open Streams

variable {n : Nat} {Class : Type} {fields : Fields Class} {bound : Nat}

/-- Objects keep the ids that they have been given. -/
instance : Growth (StorePool n) where
  Grows s s' := ∀ a id, s.storageIndices.lookup a = some id → s'.storageIndices.lookup a = some id
  refl _ _ _ h := h
  trans _ _ _ h h' a id hs := h' a id (h a id hs)

/-- Each value that has an id is kept under it. -/
structure TableSync {α : Type} [DecidableEq α] (m : IdMap α) (l : List α) : Prop where
  lastStoredId : m.lastStoredId = l.length
  stored : ∀ v id, m.ids.lookup v = some id → ∃ k : Nat, id = k ∧ l[k]? = some v

/-! ## Numbers -/

theorem writes_putInt (i : Int) : Writes (putInt i : Store n Unit) :=
  Writes.put _

section Numbers

variable {β : Type} {Pre Post : StorePool n → LoadPool fields → Prop} {P : StorePool n → β → Prop}

/-- A number, and what the reader does with it. -/
theorem mirrors_putInt_bind (i : Int) {w : Store n Unit} {r : Int → Load fields β} (hw : Writes w)
    (h : Mirrors (bound - 1) Pre Post w (r i) P) :
    Mirrors bound Pre Post (putInt i >>= fun _ => w) (nextInt >>= r) P := by
  have hnext : (nextInt >>= r) = (next corrupt >>= fun t => intOf t >>= r) :=
    bind_assoc _ _ _
  rw [hnext]
  exact Mirrors.put_bind _ corrupt hw h

theorem mirrors_putInt (i : Int) {r : Int → Load fields β}
    (h : Mirrors (bound - 1) Pre Post (pure ()) (r i) P) :
    Mirrors bound Pre Post (putInt i) (nextInt >>= r) P :=
  mirrors_putInt_bind i Writes.pure h

end Numbers

/-! ## Shared values -/

section IdValue

variable {α : Type} {table : StoreTable n α} {loadTable : LoadTable fields α} {isEmpty : α → Bool}
  {empty : α} {doStore : α → Store n Unit} {doLoad : Load fields α}

theorem writes_idStoreValue [DecidableEq α]
    (hindices : ∀ m s, (table.setIdMap m s).storageIndices = s.storageIndices)
    (hstore : ∀ v, Writes (doStore v)) (v : α) : Writes (idStoreValue table isEmpty doStore v) := by
  unfold idStoreValue
  split
  · exact writes_putInt _
  · apply Writes.current
    intro s
    dsimp only
    split
    · apply WritesAt.update_bind
      · intro a id h
        rw [hindices]
        exact h
      · exact (writes_putInt _).bind (hstore v)
    · exact writes_putInt _ s

theorem length_resize_set {l : List α} {d v : α} {k : Nat} (hk : l.length ≤ k) :
    ((resize l (k + 1) d).set k v).length = k + 1 := by
  rw [List.length_set, resize, List.length_append, List.length_replicate]
  omega

theorem getElem?_resize_set_self {l : List α} {d v : α} {k : Nat} (hk : l.length ≤ k) :
    ((resize l (k + 1) d).set k v)[k]? = some v := by
  have hlen : (resize l (k + 1) d).length = k + 1 := by
    rw [resize, List.length_append, List.length_replicate]
    omega
  rw [List.getElem?_set_self (by omega)]

/-- What is in the table already stays there. -/
theorem getElem?_resize_set_of_some {l : List α} {d v w : α} {k j : Nat} (hk : l.length ≤ k)
    (hj : l[j]? = some w) : ((resize l (k + 1) d).set k v)[j]? = some w := by
  have hlt := (List.getElem?_eq_some_iff.mp hj).1
  rw [List.getElem?_set_ne (by omega), resize, List.getElem?_append_left hlt, hj]

/-- A value that gets the next id is kept behind all others. -/
theorem TableSync.insert [DecidableEq α] {m : IdMap α} {l : List α} (h : TableSync m l) (v d : α) :
    TableSync (m.insert v) ((resize l (l.length + 1) d).set l.length v) := by
  constructor
  · rw [IdMap.insert, length_resize_set le_rfl, h.lastStoredId]
    push_cast
    rfl
  · intro v' id hid
    change (AList.insert v m.lastStoredId m.ids).lookup v' = some id at hid
    by_cases hv : v' = v
    · subst hv
      rw [AList.lookup_insert, Option.some.injEq] at hid
      exact ⟨l.length, by rw [← hid, h.lastStoredId], getElem?_resize_set_self le_rfl⟩
    · rw [AList.lookup_insert_ne hv] at hid
      rcases h.stored v' id hid with ⟨k, rfl, hk⟩
      exact ⟨k, rfl, getElem?_resize_set_of_some le_rfl hk⟩

/-- Loading a shared value mirrors storing it. What else is in step must not depend on the
tables, which are left alone by the operations for the value itself. -/
theorem mirrors_idValue [DecidableEq α] (table : StoreTable n α) (loadTable : LoadTable fields α)
    (Sync : StorePool n → LoadPool fields → Prop)
    (htable : ∀ m s, table.idMap (table.setIdMap m s) = m)
    (hload : ∀ l p, loadTable.idStorage (loadTable.setIdStorage l p) = l)
    (hstored : ∀ m s p, Sync s p → Sync (table.setIdMap m s) p)
    (hloaded : ∀ l s p, Sync s p → Sync s (loadTable.setIdStorage l p))
    (hempty : ∀ v, isEmpty v = true → v = empty) (hwrites : ∀ v, Writes (doStore v))
    (hvalue : ∀ v m l, Mirrors bound
      (fun s p => (table.idMap s = m ∧ loadTable.idStorage p = l) ∧ Sync s p)
      (fun s p => (table.idMap s = m ∧ loadTable.idStorage p = l) ∧ Sync s p)
      (doStore v) doLoad fun _ b => v = b) (v : α) :
    Mirrors bound (fun s p => TableSync (table.idMap s) (loadTable.idStorage p) ∧ Sync s p)
      (fun s p => TableSync (table.idMap s) (loadTable.idStorage p) ∧ Sync s p)
      (idStoreValue table isEmpty doStore v) (idLoadValue loadTable empty doLoad)
      fun _ b => v = b := by
  unfold idStoreValue idLoadValue
  split <;> rename_i hv
  · apply mirrors_putInt
    rw [if_pos rfl]
    exact Mirrors.pure fun _ => hempty v hv
  · apply Mirrors.current_writer
    intro s₀
    refine Mirrors.of_fact
      (Q := ∃ k : Nat, (table.idMap s₀).lastStoredId = k ∧
        ∀ v id, (table.idMap s₀).ids.lookup v = some id → ∃ j : Nat, id = j)
      (fun s p hs => ?_) ?_
    · rcases hs with ⟨rfl, hsync, -⟩
      refine ⟨_, hsync.lastStoredId, fun v id hid => ?_⟩
      rcases hsync.stored v id hid with ⟨j, hj, -⟩
      exact ⟨j, hj⟩
    rintro ⟨k, hk, hids⟩
    cases hid : (table.idMap s₀).ids.lookup v with
    | none =>
        -- the value gets the next id and follows it
        simp only [Option.getD_none]
        rw [if_pos (by decide), hk]
        refine Mirrors.update_writer (M := fun s p =>
          table.idMap s = (table.idMap s₀).insert v ∧
          TableSync (table.idMap s₀) (loadTable.idStorage p) ∧ Sync s p) ?_ ?_
        · apply mirrors_putInt_bind _ (hwrites v)
          rw [if_neg (by unfold emptyValueId; omega), if_neg (by omega)]
          apply Mirrors.current_reader
          intro p₀
          refine Mirrors.of_fact (Q := TableSync (table.idMap s₀) (loadTable.idStorage p₀))
            (fun s p hs => ?_) fun hsync => ?_
          · rcases hs with ⟨rfl, -, hsync, -⟩
            exact hsync
          · have hlen : (loadTable.idStorage p₀).length = k := by
              have hlast := hsync.lastStoredId
              omega
            rw [if_pos (by simp [hlen])]
            have hinner := (hvalue v ((table.idMap s₀).insert v) (loadTable.idStorage p₀)).mono
              (Nat.sub_le bound 1)
            refine Mirrors.then_update (g := fun b => b) (hinner.weaken (fun s p hs => ?_)
              (fun _ _ hs => hs) fun _ _ hb => hb) ?_
            · rcases hs with ⟨rfl, hm, -, hs⟩
              exact ⟨⟨hm, rfl⟩, hs⟩
            · rintro s p b ⟨⟨hm, hl⟩, hs⟩ rfl
              refine ⟨⟨?_, hloaded _ s p hs⟩, rfl⟩
              rw [hload, hm, hl, Int.toNat_natCast, ← hlen]
              exact hsync.insert v empty
        · rintro s p ⟨rfl, hsync, hs⟩
          exact ⟨htable _ _, hsync, hstored _ _ _ hs⟩
    | some id =>
        -- the value has been stored before
        rcases hids v id hid with ⟨j, rfl⟩
        simp only [Option.getD_some]
        rw [if_neg (by omega)]
        apply mirrors_putInt
        rw [if_neg (by unfold emptyValueId; omega), if_neg (by omega)]
        apply Mirrors.current_reader
        intro p₀
        refine Mirrors.of_fact (Q := (loadTable.idStorage p₀)[j]? = some v) (fun s p hs => ?_)
          fun hj => ?_
        · rcases hs with ⟨rfl, rfl, hsync, -⟩
          rcases hsync.stored v j hid with ⟨k', hk', hv'⟩
          have hsame : k' = j := by omega
          rwa [hsame] at hv'
        · have hlt := (List.getElem?_eq_some_iff.mp hj).1
          rw [if_neg (by simpa using hlt)]
          have hvalue : (loadTable.idStorage p₀).getD j empty = v := by
            rw [List.getD_eq_getElem?_getD, hj, Option.getD_some]
          rw [Int.toNat_natCast, hvalue]
          refine Mirrors.weaken (Mirrors.pure fun _ => rfl) (fun s p hs => ?_) (fun _ _ hs => hs)
            fun _ _ hb => hb
          rcases hs with ⟨rfl, rfl, hsync, hs⟩
          exact ⟨hsync, hs⟩

end IdValue

/-! ## Strings, string lists and environments -/

def StringSync (s : StorePool n) (p : LoadPool fields) : Prop :=
  TableSync s.inverseStringStorage p.stringStorage

def StringListSync (s : StorePool n) (p : LoadPool fields) : Prop :=
  TableSync s.inverseStringListStorage p.stringListStorage

def EnvSync (s : StorePool n) (p : LoadPool fields) : Prop :=
  TableSync s.inverseEnvStorage p.envStorage

/-- What is in step does not depend on the tables for strings. -/
def StringFree (Sync : StorePool n → LoadPool fields → Prop) : Prop :=
  ∀ m l s p, Sync s p → Sync { s with inverseStringStorage := m } { p with stringStorage := l }

def StringListFree (Sync : StorePool n → LoadPool fields → Prop) : Prop :=
  ∀ m l s p, Sync s p →
    Sync { s with inverseStringListStorage := m } { p with stringListStorage := l }

def EnvFree (Sync : StorePool n → LoadPool fields → Prop) : Prop :=
  ∀ m l s p, Sync s p → Sync { s with inverseEnvStorage := m } { p with envStorage := l }

theorem writes_storeString (v : String) : Writes (storeString v : Store n Unit) :=
  writes_idStoreValue (fun _ _ => rfl) (fun _ => Writes.put _) v

theorem writes_doStoreStringList (v : List String) : Writes (doStoreStringList v : Store n Unit) :=
  (writes_putInt _).bind (Writes.putAll writes_storeString v)

theorem writes_storeStringList (v : List String) : Writes (storeStringList v : Store n Unit) :=
  writes_idStoreValue (fun _ _ => rfl) writes_doStoreStringList v

theorem writes_doStoreEnvironment (v : QProcessEnvironment) :
    Writes (doStoreEnvironment v : Store n Unit) :=
  (writes_storeStringList _).bind (Writes.putAll (fun e => writes_storeString e.2) v.1)

theorem writes_storeEnvironment (v : QProcessEnvironment) :
    Writes (storeEnvironment v : Store n Unit) :=
  writes_idStoreValue (fun _ _ => rfl) writes_doStoreEnvironment v

section Strings

variable {Sync : StorePool n → LoadPool fields → Prop}

theorem mirrors_string (hstring : StringFree Sync) (v : String) :
    Mirrors bound (fun s p => StringSync s p ∧ Sync s p) (fun s p => StringSync s p ∧ Sync s p)
      (storeString v) loadString fun _ b => v = b := by
  apply mirrors_idValue (storedStrings n) (loadedStrings fields) Sync
    (fun _ _ => rfl) (fun _ _ => rfl) (fun m s p => hstring m p.stringStorage s p)
    (fun l s p => hstring s.inverseStringStorage l s p)
  · intro v hv
    simpa using hv
  · exact fun _ => Writes.put _
  · exact fun v _ _ => Mirrors.put _ corrupt (Mirrors.pure fun _ => rfl)

/-- Items that are appended one by one give the list. -/
theorem foldl_concat {α : Type} (xs acc : List α) :
    xs.foldl (fun l x => l ++ [x]) acc = acc ++ xs := by
  induction xs generalizing acc with
  | nil => simp
  | cons x xs ih => simp [ih]

theorem mirrors_strings (hstring : StringFree Sync) (v : List String) :
    Mirrors bound (fun s p => StringSync s p ∧ Sync s p) (fun s p => StringSync s p ∧ Sync s p)
      (putAll storeString v) (readInto loadString (fun l s => l ++ [s]) v.length [])
      fun _ b => v = b := by
  refine (Mirrors.loop (R := fun x _ y => x = y) writes_storeString (fun _ _ _ _ _ h => h) v
    (fun x _ => mirrors_string hstring x) []).imp fun s c hc => ?_
  rcases hc with ⟨ys, hys, rfl⟩
  rw [List.forall₂_eq_eq_eq] at hys
  rw [foldl_concat, hys, List.nil_append]

theorem mirrors_doStringList (hstring : StringFree Sync) (v : List String) :
    Mirrors bound (fun s p => StringSync s p ∧ Sync s p) (fun s p => StringSync s p ∧ Sync s p)
      (doStoreStringList v) doLoadStringList fun _ b => v = b := by
  apply mirrors_putInt_bind _ (Writes.putAll writes_storeString v)
  rw [Int.toNat_natCast]
  exact mirrors_strings hstring v

theorem mirrors_stringList (hstring : StringFree Sync) (hlist : StringListFree Sync)
    (v : List String) :
    Mirrors bound (fun s p => StringListSync s p ∧ StringSync s p ∧ Sync s p)
      (fun s p => StringListSync s p ∧ StringSync s p ∧ Sync s p)
      (storeStringList v) loadStringList fun _ b => v = b := by
  apply mirrors_idValue (storedStringLists n) (loadedStringLists fields)
    (fun s p => StringSync s p ∧ Sync s p) (fun _ _ => rfl) (fun _ _ => rfl)
  · exact fun m s p h => ⟨h.1, hlist m p.stringListStorage s p h.2⟩
  · exact fun l s p h => ⟨h.1, hlist s.inverseStringListStorage l s p h.2⟩
  · intro v hv
    simpa using hv
  · exact writes_doStoreStringList
  · intro v m l
    have hinner : Mirrors bound
        (fun s p => StringSync s p ∧
          (s.inverseStringListStorage = m ∧ p.stringListStorage = l) ∧ Sync s p)
        (fun s p => StringSync s p ∧
          (s.inverseStringListStorage = m ∧ p.stringListStorage = l) ∧ Sync s p)
        (doStoreStringList v) doLoadStringList fun _ b => v = b :=
      mirrors_doStringList (fun m' l' s p h => ⟨h.1, hstring m' l' s p h.2⟩) v
    exact hinner.weaken (fun _ _ h => ⟨h.2.1, h.1, h.2.2⟩) (fun _ _ h => ⟨h.2.1, h.1, h.2.2⟩)
      fun _ _ h => h

/-- The variables of an environment, read for its keys. -/
theorem mirrors_variables (hstring : StringFree Sync) (vars : List (String × String))
    (env : QProcessEnvironment) :
    Mirrors bound (fun s p => StringSync s p ∧ Sync s p) (fun s p => StringSync s p ∧ Sync s p)
      (putAll (fun e => storeString e.2) vars) (loadVariables (vars.map Prod.fst) env)
      fun _ b => vars.foldl (fun env e => env.insert e) env = b := by
  induction vars generalizing env with
  | nil => exact Mirrors.pure fun _ => rfl
  | cons e vars ih =>
      have hseq := Mirrors.bind (writes_storeString e.2)
        (Writes.putAll (fun e => writes_storeString e.2) vars) (fun _ _ _ _ h => h)
        (mirrors_string hstring e.2) fun b _ => ih (env.insert (e.1, b))
      refine hseq.imp fun s c hc => ?_
      rcases hc with ⟨b, rfl, rfl⟩
      rfl

theorem foldl_insert_val (vars : List (String × String)) (env : QProcessEnvironment) :
    (vars.foldl (fun env e => env.insert e) env).1 =
      vars.foldl (fun m e => insertEntry m e.1 e.2) env.1 := by
  induction vars generalizing env with
  | nil => rfl
  | cons e vars ih => exact ih (env.insert e)

theorem mirrors_doEnvironment (hstring : StringFree Sync) (hlist : StringListFree Sync)
    (v : QProcessEnvironment) :
    Mirrors bound (fun s p => StringListSync s p ∧ StringSync s p ∧ Sync s p)
      (fun s p => StringListSync s p ∧ StringSync s p ∧ Sync s p)
      (doStoreEnvironment v) doLoadEnvironment fun _ b => v = b := by
  have hvars : Mirrors bound
      (fun s p => StringListSync s p ∧ StringSync s p ∧ Sync s p)
      (fun s p => StringListSync s p ∧ StringSync s p ∧ Sync s p)
      (putAll (fun e => storeString e.2) v.1) (loadVariables v.keys .empty) fun _ b => v = b := by
    have hinner : Mirrors bound
        (fun s p => StringSync s p ∧ StringListSync s p ∧ Sync s p)
        (fun s p => StringSync s p ∧ StringListSync s p ∧ Sync s p)
        (putAll (fun e => storeString e.2) v.1) (loadVariables v.keys .empty) _ :=
      mirrors_variables (fun m l s p h => ⟨h.1, hstring m l s p h.2⟩) v.1 .empty
    refine hinner.weaken (fun _ _ h => ⟨h.2.1, h.1, h.2.2⟩) (fun _ _ h => ⟨h.2.1, h.1, h.2.2⟩)
      fun _ b hb => ?_
    rw [← hb]
    apply Subtype.ext
    rw [foldl_insert_val]
    exact (foldl_insertEntry (show SortedKeys ([] ++ v.1) from v.2)).symm
  have hseq : Mirrors bound (fun s p => StringListSync s p ∧ StringSync s p ∧ Sync s p)
      (fun s p => StringListSync s p ∧ StringSync s p ∧ Sync s p)
      (doStoreEnvironment v) doLoadEnvironment fun _ b => ∃ keys, v.keys = keys ∧ v = b := by
    apply Mirrors.bind (writes_storeStringList _)
      (Writes.putAll (fun e => writes_storeString e.2) v.1) (fun _ _ _ _ h => h)
      (mirrors_stringList hstring hlist v.keys)
    rintro keys ⟨-, rfl⟩
    exact hvars
  refine hseq.imp fun _ _ hc => ?_
  rcases hc with ⟨keys, -, hv⟩
  exact hv

theorem mirrors_environment (hstring : StringFree Sync) (hlist : StringListFree Sync)
    (henv : EnvFree Sync) (v : QProcessEnvironment) :
    Mirrors bound (fun s p => EnvSync s p ∧ StringListSync s p ∧ StringSync s p ∧ Sync s p)
      (fun s p => EnvSync s p ∧ StringListSync s p ∧ StringSync s p ∧ Sync s p)
      (storeEnvironment v) loadEnvironment fun _ b => v = b := by
  apply mirrors_idValue (storedEnvironments n) (loadedEnvironments fields)
    (fun s p => StringListSync s p ∧ StringSync s p ∧ Sync s p)
    (fun _ _ => rfl) (fun _ _ => rfl)
  · exact fun m s p h => ⟨h.1, h.2.1, henv m p.envStorage s p h.2.2⟩
  · exact fun l s p h => ⟨h.1, h.2.1, henv s.inverseEnvStorage l s p h.2.2⟩
  · intro v hv
    exact Subtype.ext (List.isEmpty_iff.mp hv)
  · exact writes_doStoreEnvironment
  · intro v m l
    have hinner : Mirrors bound
        (fun s p => StringListSync s p ∧ StringSync s p ∧
          (s.inverseEnvStorage = m ∧ p.envStorage = l) ∧ Sync s p)
        (fun s p => StringListSync s p ∧ StringSync s p ∧
          (s.inverseEnvStorage = m ∧ p.envStorage = l) ∧ Sync s p)
        (doStoreEnvironment v) doLoadEnvironment fun _ b => v = b :=
      mirrors_doEnvironment (fun m' l' s p h => ⟨h.1, hstring m' l' s p h.2⟩)
        (fun m' l' s p h => ⟨h.1, hlist m' l' s p h.2⟩) v
    exact hinner.weaken (fun _ _ h => ⟨h.2.1, h.2.2.1, h.1, h.2.2.2⟩)
      (fun _ _ h => ⟨h.2.2.1, h.1, h.2.1, h.2.2.2⟩) fun _ _ h => h

end Strings

/-! ## All tables -/

/-- What is in step does not depend on the tables for shared values. -/
structure TablesFree (Sync : StorePool n → LoadPool fields → Prop) : Prop where
  string : StringFree Sync
  stringList : StringListFree Sync
  env : EnvFree Sync

/-- All tables for shared values are in step, and something else is. -/
def PoolSync (Sync : StorePool n → LoadPool fields → Prop) (s : StorePool n)
    (p : LoadPool fields) : Prop :=
  EnvSync s p ∧ StringListSync s p ∧ StringSync s p ∧ Sync s p

section Pool

variable {Sync : StorePool n → LoadPool fields → Prop}

theorem TablesFree.mirrors_string (h : TablesFree Sync) (v : String) :
    Mirrors bound (PoolSync Sync) (PoolSync Sync) (storeString v) loadString fun _ b => v = b := by
  have hinner : Mirrors bound (fun s p => StringSync s p ∧ EnvSync s p ∧ StringListSync s p ∧ Sync s p)
      (fun s p => StringSync s p ∧ EnvSync s p ∧ StringListSync s p ∧ Sync s p)
      (storeString v) loadString fun _ b => v = b :=
    Serialization.mirrors_string
      (fun m l s p hs => ⟨hs.1, hs.2.1, h.string m l s p hs.2.2⟩) v
  exact hinner.weaken (fun _ _ hs => ⟨hs.2.2.1, hs.1, hs.2.1, hs.2.2.2⟩)
    (fun _ _ hs => ⟨hs.2.1, hs.2.2.1, hs.1, hs.2.2.2⟩) fun _ _ hb => hb

theorem TablesFree.mirrors_stringList (h : TablesFree Sync) (v : List String) :
    Mirrors bound (PoolSync Sync) (PoolSync Sync) (storeStringList v) loadStringList
      fun _ b => v = b := by
  have hinner : Mirrors bound (fun s p => StringListSync s p ∧ StringSync s p ∧ EnvSync s p ∧ Sync s p)
      (fun s p => StringListSync s p ∧ StringSync s p ∧ EnvSync s p ∧ Sync s p)
      (storeStringList v) loadStringList fun _ b => v = b :=
    Serialization.mirrors_stringList (fun m l s p hs => ⟨hs.1, h.string m l s p hs.2⟩)
      (fun m l s p hs => ⟨hs.1, h.stringList m l s p hs.2⟩) v
  exact hinner.weaken (fun _ _ hs => ⟨hs.2.1, hs.2.2.1, hs.1, hs.2.2.2⟩)
    (fun _ _ hs => ⟨hs.2.2.1, hs.1, hs.2.1, hs.2.2.2⟩) fun _ _ hb => hb

theorem TablesFree.mirrors_environment (h : TablesFree Sync) (v : QProcessEnvironment) :
    Mirrors bound (PoolSync Sync) (PoolSync Sync) (storeEnvironment v) loadEnvironment
      fun _ b => v = b :=
  Serialization.mirrors_environment h.string h.stringList h.env v

/-! ## Variants -/

mutual

theorem writes_storeVariant : (v : VariantData) → Writes (storeVariant v : Store n Unit)
  | .string s => (writes_putInt _).bind (writes_storeString s)
  | .stringList l => (writes_putInt _).bind (writes_storeStringList l)
  | .list l => (writes_putInt _).bind ((writes_putInt _).bind (writes_storeVariantList l))
  | .map entries => (writes_putInt _).bind ((writes_putInt _).bind (writes_storeVariantMap entries))
  | .other _ => (writes_putInt _).bind (Writes.put _)

theorem writes_storeVariantList :
    (l : List VariantData) → Writes (storeVariantList l : Store n Unit)
  | [] => Writes.pure
  | v :: l => (writes_storeVariant v).bind (writes_storeVariantList l)

theorem writes_storeVariantMap :
    (entries : List (String × VariantData)) → Writes (storeVariantMap entries : Store n Unit)
  | [] => Writes.pure
  | (key, v) :: entries =>
      ((writes_storeString key).bind (writes_storeVariant v)).bind (writes_storeVariantMap entries)

end

/-- Inserting does not look at the values. -/
theorem insertEntry_map {α β : Type} (f : α → β) (entries : List (String × α)) (key : String)
    (value : α) :
    (insertEntry entries key value).map (fun e => (e.1, f e.2)) =
      insertEntry (entries.map fun e => (e.1, f e.2)) key (f value) := by
  induction entries with
  | nil => rfl
  | cons e rest ih =>
      rcases e with ⟨k, v⟩
      simp only [insertEntry, List.map_cons]
      split
      · rfl
      · split
        · rfl
        · rw [List.map_cons, ih]

mutual

/-- Loading a variant mirrors storing it: a nested one has fewer tokens. -/
theorem mirrors_variant (h : TablesFree Sync) :
    (v : VariantData) → v.sorted = true → (bound : Nat) →
      Mirrors bound (PoolSync Sync) (PoolSync Sync) (storeVariant v) (loadVariant bound)
        fun _ b => b.1 = v
  | _, _, 0 => Mirrors.zero
  | .string x, _, fuel + 1 => by
      apply mirrors_putInt_bind _ (writes_storeString x)
      rw [if_pos rfl]
      apply (h.mirrors_string x).map
      rintro _ b rfl
      rfl
  | .stringList x, _, fuel + 1 => by
      apply mirrors_putInt_bind _ (writes_storeStringList x)
      rw [if_neg (by decide), if_pos rfl]
      apply (h.mirrors_stringList x).map
      rintro _ b rfl
      rfl
  | .list l, hv, fuel + 1 => by
      apply mirrors_putInt_bind _ ((writes_putInt _).bind (writes_storeVariantList l))
      rw [if_neg (by decide), if_neg (by decide), if_pos rfl]
      apply mirrors_putInt_bind _ (writes_storeVariantList l)
      rw [Int.toNat_natCast]
      have hitems := (mirrors_variantList h l hv fuel []).mono (Nat.sub_le fuel 1)
      apply hitems.map
      exact fun _ c hc => congrArg VariantData.list hc
  | .map entries, hv, fuel + 1 => by
      rw [VariantData.sorted, Bool.and_eq_true, decide_eq_true_eq] at hv
      apply mirrors_putInt_bind _ ((writes_putInt _).bind (writes_storeVariantMap entries))
      rw [if_neg (by decide), if_neg (by decide), if_neg (by decide), if_pos rfl]
      apply mirrors_putInt_bind _ (writes_storeVariantMap entries)
      rw [Int.toNat_natCast]
      have hitems := (mirrors_variantMap h entries hv.2 fuel .empty).mono (Nat.sub_le fuel 1)
      apply hitems.map
      exact fun _ c hc => congrArg VariantData.map
        (hc.trans (foldl_insertEntry (show SortedKeys ([] ++ entries) from hv.1)))
  | .other value, _, fuel + 1 => by
      have htype := value.unhandled
      simp only [List.mem_cons, List.not_mem_nil, or_false, not_or] at htype
      apply mirrors_putInt_bind _ (Writes.put _)
      rw [if_neg (by omega), if_neg (by omega), if_neg (by omega), if_neg (by omega)]
      exact Mirrors.put _ corrupt (Mirrors.pure fun _ => rfl)

theorem mirrors_variantList (h : TablesFree Sync) :
    (l : List VariantData) → VariantData.sortedList l = true → (bound : Nat) →
      (acc : List QVariant) →
      Mirrors bound (PoolSync Sync) (PoolSync Sync) (storeVariantList l)
        (readInto (loadVariant bound) (fun l v => l ++ [v]) l.length acc)
        fun _ c => c.map Subtype.val = acc.map Subtype.val ++ l
  | [], _, _, acc => Mirrors.pure fun _ => (List.append_nil _).symm
  | v :: l, hl, bound, acc => by
      rw [VariantData.sortedList, Bool.and_eq_true] at hl
      have hseq := Mirrors.bind (writes_storeVariant v) (writes_storeVariantList l)
        (fun _ _ _ _ hb => hb) (mirrors_variant h v hl.1 bound)
        fun b _ => mirrors_variantList h l hl.2 bound (acc ++ [b])
      refine hseq.imp fun _ c hc => ?_
      rcases hc with ⟨b, rfl, hc⟩
      rw [hc, List.map_append, List.append_assoc]
      rfl

theorem mirrors_variantMap (h : TablesFree Sync) :
    (entries : List (String × VariantData)) → VariantData.sortedEntries entries = true →
      (bound : Nat) → (acc : QVariantMap) →
      Mirrors bound (PoolSync Sync) (PoolSync Sync) (storeVariantMap entries)
        (readInto (loadString >>= fun key => loadVariant bound >>= fun v => pure (key, v))
          QVariantMap.insert entries.length acc)
        fun _ c => c.1.map QVariant.plain =
          entries.foldl (fun m e => insertEntry m e.1 e.2) (acc.1.map QVariant.plain)
  | [], _, _, acc => Mirrors.pure fun _ => rfl
  | (key, v) :: entries, hl, bound, acc => by
      rw [VariantData.sortedEntries, Bool.and_eq_true] at hl
      have hentry : Mirrors bound (PoolSync Sync) (PoolSync Sync)
          (storeString key >>= fun _ => storeVariant v)
          (loadString >>= fun key => loadVariant bound >>= fun v => pure (key, v))
          fun _ e => ∃ k, key = k ∧ QVariant.plain e = (k, v) := by
        apply Mirrors.bind (writes_storeString key) (writes_storeVariant v) (fun _ _ _ _ hb => hb)
          (h.mirrors_string key)
        intro k _
        apply (mirrors_variant h v hl.1 bound).map
        rintro _ b rfl
        rfl
      have hseq := Mirrors.bind ((writes_storeString key).bind (writes_storeVariant v))
        (writes_storeVariantMap entries) (fun _ _ _ _ hb => hb) hentry
        fun e _ => mirrors_variantMap h entries hl.2 bound (acc.insert e)
      refine hseq.imp fun _ c hc => ?_
      rcases hc with ⟨e, ⟨k, rfl, he⟩, hc⟩
      rw [hc, List.foldl_cons, ← he]
      congr 1
      exact insertEntry_map Subtype.val acc.1 e.1 e.2

end

end Pool

end Serialization

end Qbs
