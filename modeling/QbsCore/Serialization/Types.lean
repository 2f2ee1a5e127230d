import QbsCore.Library.AssocMap
import Mathlib.Data.String.Basic
import Mathlib.Data.List.Pairwise

/-!
# Values that can be serialized

The types for which the persistent pool has load and store operations, and their values.

Main results:

- Definition {lit}`Serialization.Ty.Val`: the values of a type, over an arbitrary notion of
  references.
- Theorem {lit}`Serialization.insertEntry_of_forall_lt`: entries that arrive in key order are
  appended.

Current gaps:

- Bools, enumerations and flags are their numbers; regular expressions are their patterns.
- The type of the alternative that a class reads after a tag is a sum.
- The keys of maps and the elements of sets do not contain maps or sets.
-/

namespace Qbs

namespace Serialization

/-! ## Maps in key order -/

section Entries

variable {α : Type}

/-- The keys of a map are in order and there are no two equal ones. -/
def SortedKeys (entries : List (String × α)) : Prop :=
  (entries.map Prod.fst).Pairwise (· < ·)

instance (entries : List (String × α)) : Decidable (SortedKeys entries) :=
  inferInstanceAs (Decidable ((entries.map Prod.fst).Pairwise (· < ·)))

/-- Insert or replace the value of a key. -/
def insertEntry : List (String × α) → String → α → List (String × α)
  | [], key, value => [(key, value)]
  | (k, v) :: rest, key, value =>
      if key < k then (key, value) :: (k, v) :: rest
      else if key = k then (key, value) :: rest
      else (k, v) :: insertEntry rest key value

variable {entries : List (String × α)}

theorem mem_insertEntry {entries : List (String × α)} {key k : String} {value v : α}
    (h : (k, v) ∈ insertEntry entries key value) : (k, v) = (key, value) ∨ (k, v) ∈ entries := by
  induction entries with
  | nil => exact Or.inl (List.mem_singleton.mp h)
  | cons e rest ih =>
      rcases e with ⟨k', v'⟩
      simp only [insertEntry] at h
      split at h
      · exact List.mem_cons.mp h
      · split at h
        · rcases List.mem_cons.mp h with h | h
          · exact Or.inl h
          · exact Or.inr (List.mem_cons_of_mem _ h)
        · rcases List.mem_cons.mp h with h | h
          · exact Or.inr (h ▸ List.mem_cons_self)
          · rcases ih h with h | h
            · exact Or.inl h
            · exact Or.inr (List.mem_cons_of_mem _ h)

theorem sortedKeys_cons_iff {k : String} {v : α} {rest : List (String × α)} :
    SortedKeys ((k, v) :: rest) ↔ (∀ e, e ∈ rest → k < e.1) ∧ SortedKeys rest := by
  simp [SortedKeys, List.pairwise_cons]

theorem SortedKeys.insertEntry (h : SortedKeys entries) (key : String) (value : α) :
    SortedKeys (insertEntry entries key value) := by
  induction entries with
  | nil => simp [SortedKeys, Serialization.insertEntry]
  | cons e rest ih =>
      rcases e with ⟨k, v⟩
      rcases sortedKeys_cons_iff.mp h with ⟨hk, hrest⟩
      simp only [Serialization.insertEntry]
      split <;> rename_i hlt
      · refine sortedKeys_cons_iff.mpr ⟨fun e he => ?_, h⟩
        rcases List.mem_cons.mp he with rfl | he
        · exact hlt
        · exact lt_trans hlt (hk e he)
      · split <;> rename_i heq
        · subst heq
          exact sortedKeys_cons_iff.mpr ⟨hk, hrest⟩
        · refine sortedKeys_cons_iff.mpr ⟨fun e he => ?_, ih hrest⟩
          rcases mem_insertEntry he with he | he
          · rw [show e = (key, value) from he]
            exact lt_of_le_of_ne (le_of_not_gt hlt) (Ne.symm heq)
          · exact hk e he

/-- An entry with a key behind all others is appended. -/
theorem insertEntry_of_forall_lt {key : String} (h : ∀ e, e ∈ entries → e.1 < key) (value : α) :
    insertEntry entries key value = entries ++ [(key, value)] := by
  induction entries with
  | nil => rfl
  | cons e rest ih =>
      rcases e with ⟨k, v⟩
      have hk : k < key := h (k, v) List.mem_cons_self
      simp only [insertEntry, if_neg (not_lt_of_gt hk), if_neg (ne_of_gt hk),
        ih fun e he => h e (List.mem_cons_of_mem _ he), List.cons_append]

/-- Inserting the entries of a map in key order gives the map. -/
theorem foldl_insertEntry {acc : List (String × α)} (h : SortedKeys (acc ++ entries)) :
    entries.foldl (fun m e => insertEntry m e.1 e.2) acc = acc ++ entries := by
  induction entries generalizing acc with
  | nil => simp
  | cons e rest ih =>
      have hlt : ∀ a, a ∈ acc → a.1 < e.1 := by
        intro a ha
        unfold SortedKeys at h
        rw [List.map_append, List.pairwise_append] at h
        exact h.2.2 a.1 (List.mem_map_of_mem ha) e.1 (List.mem_map_of_mem List.mem_cons_self)
      rw [List.foldl_cons, insertEntry_of_forall_lt hlt, ih (by simpa using h)]
      simp

end Entries

/-! ## Variants -/

/-- A value that the stream writes and reads by itself, with the number of its type. -/
structure OtherVariant where
  userType : Nat
  unhandled : userType ∉ [8, 9, 10, 11]
  data : List UInt8
deriving DecidableEq

/-- The shape of a variant. -/
inductive VariantData where
  | string (s : String)
  | stringList (l : List String)
  | list (l : List VariantData)
  | map (entries : List (String × VariantData))
  | other (value : OtherVariant)

namespace VariantData

mutual

/-- All maps in a variant are in key order. -/
def sorted : VariantData → Bool
  | list l => sortedList l
  | map entries => decide (SortedKeys entries) && sortedEntries entries
  | string _ | stringList _ | other _ => true

def sortedList : List VariantData → Bool
  | [] => true
  | v :: l => v.sorted && sortedList l

def sortedEntries : List (String × VariantData) → Bool
  | [] => true
  | (_, v) :: l => v.sorted && sortedEntries l

end

theorem sortedList_iff (l : List VariantData) :
    sortedList l = true ↔ ∀ v, v ∈ l → v.sorted = true := by
  induction l with
  | nil => simp [sortedList]
  | cons v l ih => simp [sortedList, ih]

theorem sortedEntries_iff (l : List (String × VariantData)) :
    sortedEntries l = true ↔ ∀ e, e ∈ l → e.2.sorted = true := by
  induction l with
  | nil => simp [sortedEntries]
  | cons e l ih =>
      rcases e with ⟨k, v⟩
      rw [sortedEntries, Bool.and_eq_true, ih, List.forall_mem_cons]

end VariantData

/-- A variant. -/
abbrev QVariant :=
  {v : VariantData // v.sorted = true}

/-- A map from strings to variants, in key order. -/
abbrev QVariantMap :=
  {entries : List (String × QVariant) // SortedKeys entries}

namespace QVariant

def ofString (s : String) : QVariant :=
  ⟨.string s, rfl⟩

def ofStringList (l : List String) : QVariant :=
  ⟨.stringList l, rfl⟩

def ofOther (value : OtherVariant) : QVariant :=
  ⟨.other value, rfl⟩

def ofList (l : List QVariant) : QVariant :=
  ⟨.list (l.map Subtype.val), by
    simp only [VariantData.sorted, VariantData.sortedList_iff, List.mem_map]
    rintro v ⟨q, -, rfl⟩
    exact q.2⟩

/-- The entries of a map with plain values. -/
def plain (e : String × QVariant) : String × VariantData :=
  (e.1, e.2.1)

def ofMap (m : QVariantMap) : QVariant :=
  ⟨.map (m.1.map plain), by
    simp only [VariantData.sorted, Bool.and_eq_true, decide_eq_true_eq,
      VariantData.sortedEntries_iff, List.mem_map]
    constructor
    · have hkeys := m.2
      unfold SortedKeys at hkeys ⊢
      rw [List.map_map]
      exact hkeys
    · rintro e ⟨q, -, rfl⟩
      exact q.2.2⟩

end QVariant

namespace QVariantMap

def empty : QVariantMap :=
  ⟨[], by simp [SortedKeys]⟩

def insert (m : QVariantMap) (e : String × QVariant) : QVariantMap :=
  ⟨insertEntry m.1 e.1 e.2, m.2.insertEntry e.1 e.2⟩

/-- Maps in key order with the same entries are equal. -/
theorem eq_of_perm {m m' : QVariantMap} (h : m.1.Perm m'.1) : m = m' := by
  apply Subtype.ext
  have hsorted (m : QVariantMap) : m.1.Pairwise fun e e' => e.1 < e'.1 := List.pairwise_map.mp m.2
  exact h.eq_of_pairwise (fun e e' _ _ hlt hlt' => absurd hlt' (lt_asymm hlt)) (hsorted m)
    (hsorted m')

/-- The map with the entries of a container. -/
def ofAssocMap (m : AssocMap String QVariant) : QVariantMap :=
  ⟨(m.entries.map fun e => (e.1, e.2)).mergeSort fun e e' => e.1 ≤ e'.1, by
    have hkeys : (m.entries.map fun e => e.1).Nodup := m.nodupKeys
    have hperm := List.mergeSort_perm (m.entries.map fun e => (e.1, e.2)) fun e e' => e.1 ≤ e'.1
    have hnodup : (((m.entries.map fun e => (e.1, e.2)).mergeSort
        fun e e' => e.1 ≤ e'.1).map Prod.fst).Nodup := by
      rw [(hperm.map Prod.fst).nodup_iff, List.map_map]
      exact hkeys
    have hle := AssocMap.pairwise_mergeSort_key (fun e : String × QVariant => e.1)
      (m.entries.map fun e => (e.1, e.2))
    unfold SortedKeys
    rw [List.pairwise_map]
    exact (hle.and (List.pairwise_map.mp hnodup)).imp fun h => lt_of_le_of_ne h.1 h.2⟩

theorem ofAssocMap_perm (m : AssocMap String QVariant) :
    (ofAssocMap m).1.Perm (m.entries.map fun e => (e.1, e.2)) :=
  List.mergeSort_perm _ _

/-- The container with the entries of a map. -/
def toAssocMap (m : QVariantMap) : AssocMap String QVariant :=
  ⟨m.1.map fun e => ⟨e.1, e.2⟩, by
    have hkeys : (m.1.map Prod.fst).Nodup := m.2.imp fun h => ne_of_lt h
    rw [List.NodupKeys, List.keys, List.map_map]
    exact hkeys⟩

theorem ofAssocMap_eq_of_perm {m m' : AssocMap String QVariant} (h : m.entries.Perm m'.entries) :
    ofAssocMap m = ofAssocMap m' :=
  eq_of_perm (((ofAssocMap_perm m).trans (h.map _)).trans (ofAssocMap_perm m').symm)

@[simp]
theorem ofAssocMap_toAssocMap (m : QVariantMap) : ofAssocMap m.toAssocMap = m := by
  apply eq_of_perm
  have hentries : m.toAssocMap.entries.map (fun e => (e.1, e.2)) = m.1 := by
    rw [toAssocMap, List.map_map]
    exact List.map_id m.1
  rw [← hentries]
  exact ofAssocMap_perm m.toAssocMap

end QVariantMap

/-- The variables of an environment, in key order. -/
abbrev QProcessEnvironment :=
  {vars : List (String × String) // SortedKeys vars}

namespace QProcessEnvironment

def empty : QProcessEnvironment :=
  ⟨[], by simp [SortedKeys]⟩

def insert (env : QProcessEnvironment) (e : String × String) : QProcessEnvironment :=
  ⟨insertEntry env.1 e.1 e.2, env.2.insertEntry e.1 e.2⟩

def keys (env : QProcessEnvironment) : List String :=
  env.1.map Prod.fst

end QProcessEnvironment

/-! ## Types -/

/-- The types of the keys of maps and of the elements of sets. -/
inductive KeyTy (Class : Type) where
  | int
  | string
  | stringList
  | pair (a b : KeyTy Class)
  /-- A plain or a unique pointer to an object of a class, or a shared one. -/
  | pointer (shared : Bool) (c : Class)

/-- The types with load and store operations. A pair is two operations in sequence, which
is also what a class with two members does. -/
inductive Ty (Class : Type) where
  | unit
  | key (k : KeyTy Class)
  | environment
  | variant
  | pair (a b : Ty Class)
  | list (a : Ty Class)
  /-- A container with keys; inserting into it may overwrite the value of a key. -/
  | map (overwrites : Bool) (k : KeyTy Class) (v : Ty Class)
  | set (a : KeyTy Class)
  /-- A tag says which alternative follows. -/
  | sum (a b : Ty Class)

variable {Class : Type} {Ref : Bool → Class → Type}

/-- The values of a key type; a reference to an object is a plain or a shared one. -/
def KeyTy.Val (Ref : Bool → Class → Type) : KeyTy Class → Type
  | int => Int
  | string => String
  | stringList => List String
  | pair a b => a.Val Ref × b.Val Ref
  | pointer shared c => Option (Ref shared c)

/-- Decide whether two keys are equal. -/
def KeyTy.decEq [∀ shared c, DecidableEq (Ref shared c)] :
    (k : KeyTy Class) → DecidableEq (k.Val Ref)
  | int => inferInstanceAs (DecidableEq Int)
  | string => inferInstanceAs (DecidableEq String)
  | stringList => inferInstanceAs (DecidableEq (List String))
  | pair a b =>
      have := a.decEq
      have := b.decEq
      inferInstanceAs (DecidableEq (a.Val Ref × b.Val Ref))
  | pointer shared c => inferInstanceAs (DecidableEq (Option (Ref shared c)))

instance [∀ shared c, DecidableEq (Ref shared c)] (k : KeyTy Class) : DecidableEq (k.Val Ref) :=
  k.decEq

/-- The values of a type. -/
def Ty.Val (Ref : Bool → Class → Type) : Ty Class → Type
  | unit => Unit
  | key k => k.Val Ref
  | environment => QProcessEnvironment
  | variant => QVariant
  | pair a b => a.Val Ref × b.Val Ref
  | list a => List (a.Val Ref)
  | map _ k v => AssocMap (k.Val Ref) (v.Val Ref)
  | set a => List (a.Val Ref)
  | sum a b => a.Val Ref ⊕ b.Val Ref

end Serialization

end Qbs
