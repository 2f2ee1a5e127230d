import Mathlib.Data.List.AList
import Mathlib.Data.List.Sort

/-!
# Association maps

Finite maps with values of one type, and the two ways of inserting into them that
a hash map offers besides plain insertion.

Main results:

- Theorems {lit}`AssocMap.lookup_modify` and {lit}`AssocMap.lookup_insertNew`:
  lookup after each operation.
- Theorem {lit}`AssocMap.lookup_modifyAll`: lookup after the values of all keys of another map
  were changed.
- Theorem {lit}`AssocMap.lookup_foldl_insert_entries`: lookup after entries were inserted.
- Theorem {lit}`AssocMap.pairwise_mergeSort_key`: the order after sorting by a key.
- Theorem {lit}`AssocMap.forall_entries_iff`: all entries of a map satisfy a
  property exactly when all of its lookups do.

Current gaps:

- None.
-/

/-- A finite map with values of one type. -/
abbrev AssocMap (κ ν : Type*) := AList fun _ : κ => ν

namespace AssocMap

variable {κ ν : Type*} [DecidableEq κ]

/-- Change the value of a key, starting from a default value for a missing one. -/
def modify (m : AssocMap κ ν) (k : κ) (d : ν) (f : ν → ν) : AssocMap κ ν :=
  AList.insert k (f ((m.lookup k).getD d)) m

theorem lookup_modify (m : AssocMap κ ν) (k j : κ) (d : ν) (f : ν → ν) :
    (modify m k d f).lookup j = if j = k then some (f ((m.lookup k).getD d)) else m.lookup j := by
  unfold modify
  split <;> rename_i h
  · rw [h, AList.lookup_insert]
  · exact AList.lookup_insert_ne h

/-- Insertion that keeps the value of a key that is there already. -/
def insertNew (m : AssocMap κ ν) (k : κ) (v : ν) : AssocMap κ ν :=
  if (m.lookup k).isSome then m else AList.insert k v m

theorem lookup_insertNew (m : AssocMap κ ν) (k j : κ) (v : ν) :
    (insertNew m k v).lookup j = if j = k then some ((m.lookup k).getD v) else m.lookup j := by
  unfold insertNew
  cases hk : m.lookup k with
  | some w =>
      simp only [Option.isSome_some, if_true, Option.getD_some]
      split <;> rename_i h
      · rw [h, hk]
      · rfl
  | none =>
      simp only [Option.isSome_none, Bool.false_eq_true, if_false, Option.getD_none]
      split <;> rename_i h
      · rw [h, AList.lookup_insert]
      · exact AList.lookup_insert_ne h

/-- Lookup after a value was inserted for each key of a list. -/
theorem lookup_foldl_insert (f : κ → ν) (l : List κ) (m : AssocMap κ ν) (j : κ) :
    (l.foldl (fun m k => AList.insert k (f k) m) m).lookup j =
      if j ∈ l then some (f j) else m.lookup j := by
  induction l generalizing m with
  | nil => simp
  | cons k l ih =>
      rw [List.foldl_cons, ih]
      by_cases hj : j ∈ l
      · simp [hj]
      · by_cases hk : j = k
        · subst hk
          simp [hj]
        · simp [hj, hk, AList.lookup_insert_ne hk]

/-- Lookup after a value was inserted for each new key of a list. -/
theorem lookup_foldl_insertNew (f : κ → ν) (l : List κ) (m : AssocMap κ ν) (j : κ) :
    (l.foldl (fun m k => insertNew m k (f k)) m).lookup j =
      if j ∈ l then some ((m.lookup j).getD (f j)) else m.lookup j := by
  induction l generalizing m with
  | nil => simp
  | cons k l ih =>
      rw [List.foldl_cons, ih, lookup_insertNew]
      by_cases hk : j = k
      · subst hk
        simp
      · simp [hk]

/-- Lookup after the elements of a list were inserted under keys of their own: the first element
with a key counts. -/
theorem lookup_foldl_insertNew_key {α : Type*} (key : α → κ) (f : α → ν) (l : List α)
    (m : AssocMap κ ν) (j : κ) :
    (l.foldl (fun m a => insertNew m (key a) (f a)) m).lookup j =
      (m.lookup j).or ((l.find? fun a => key a = j).map f) := by
  induction l generalizing m with
  | nil => simp
  | cons a l ih =>
      rw [List.foldl_cons, ih, lookup_insertNew]
      by_cases hj : j = key a
      · subst hj
        cases m.lookup (key a) <;> simp
      · rw [if_neg hj, List.find?_cons_of_neg (by simpa using fun h => hj h.symm)]

/-- Lookup after entries with different keys were inserted. -/
theorem lookup_foldl_insert_entries {l : List (κ × ν)} (hl : (l.map Prod.fst).Nodup)
    (m : AssocMap κ ν) (j : κ) (v : ν) :
    (l.foldl (fun m e => AList.insert e.1 e.2 m) m).lookup j = some v ↔
      (j, v) ∈ l ∨ (j ∉ l.map Prod.fst ∧ m.lookup j = some v) := by
  induction l generalizing m with
  | nil => simp
  | cons e l ih =>
      rcases e with ⟨k, w⟩
      rw [List.map_cons, List.nodup_cons] at hl
      rw [List.foldl_cons, ih hl.2, List.map_cons, List.mem_cons, List.mem_cons]
      by_cases hj : j = k
      · subst hj
        have hnot : (j, v) ∉ l := fun h => hl.1 (List.mem_map.mpr ⟨_, h, rfl⟩)
        simp [hnot, hl.1, eq_comm]
      · rw [AList.lookup_insert_ne hj]
        simp [hj]

/-- Lookup after the keys of a list were erased. -/
theorem lookup_foldl_erase (l : List κ) (m : AssocMap κ ν) (j : κ) :
    (l.foldl (fun m k => AList.erase k m) m).lookup j = if j ∈ l then none else m.lookup j := by
  induction l generalizing m with
  | nil => simp
  | cons k l ih =>
      rw [List.foldl_cons, ih]
      by_cases hj : j ∈ l
      · simp [hj]
      · by_cases hk : j = k
        · subst hk
          simp
        · simp [hj, hk, AList.lookup_erase_ne hk]

/-- Lookup after the values of the keys of a list of entries were changed. -/
theorem lookup_foldl_modify {μ : Type*} (d : ν) (f : μ → ν → ν) {l : List (Sigma fun _ : κ => μ)}
    (hl : l.NodupKeys) (m : AssocMap κ ν) (j : κ) :
    (l.foldl (fun m e => modify m e.1 d (f e.2)) m).lookup j =
      (l.dlookup j).elim (m.lookup j) fun v => some (f v ((m.lookup j).getD d)) := by
  induction l generalizing m with
  | nil => rfl
  | cons e l ih =>
      rcases e with ⟨k, v⟩
      rw [List.nodupKeys_cons] at hl
      rw [List.foldl_cons, ih hl.2]
      by_cases hj : j = k
      · rw [hj, List.dlookup_cons_eq, List.dlookup_eq_none.mpr hl.1, lookup_modify]
        simp
      · rw [List.dlookup_cons_ne l ⟨k, v⟩ hj]
        simp only [lookup_modify, if_neg hj]

/-- Change the values of all keys of another map. -/
def modifyAll {μ : Type*} (m : AssocMap κ ν) (d : ν) (f : μ → ν → ν) (other : AssocMap κ μ) :
    AssocMap κ ν :=
  other.entries.foldl (fun m e => modify m e.1 d (f e.2)) m

theorem lookup_modifyAll {μ : Type*} (m : AssocMap κ ν) (d : ν) (f : μ → ν → ν)
    (other : AssocMap κ μ) (j : κ) :
    (modifyAll m d f other).lookup j =
      (other.lookup j).elim (m.lookup j) fun v => some (f v ((m.lookup j).getD d)) :=
  lookup_foldl_modify d f other.nodupKeys m j

/-- All entries satisfy a property exactly when all lookups do. -/
theorem forall_entries_iff {m : AssocMap κ ν} {P : κ → ν → Prop} :
    (∀ e ∈ m.entries, P e.1 e.2) ↔ ∀ k v, m.lookup k = some v → P k v := by
  constructor
  · intro h k v hkv
    exact h ⟨k, v⟩ (AList.mem_lookup_iff.mp hkv)
  · rintro h ⟨k, v⟩ hkv
    exact h k v (AList.mem_lookup_iff.mpr hkv)

/-- Some entry satisfies a property exactly when some lookup does. -/
theorem exists_entry_iff {m : AssocMap κ ν} {P : κ → ν → Prop} :
    (∃ e ∈ m.entries, P e.1 e.2) ↔ ∃ k v, m.lookup k = some v ∧ P k v := by
  constructor
  · rintro ⟨⟨k, v⟩, hkv, hP⟩
    exact ⟨k, v, AList.mem_lookup_iff.mpr hkv, hP⟩
  · rintro ⟨k, v, hkv, hP⟩
    exact ⟨⟨k, v⟩, AList.mem_lookup_iff.mp hkv, hP⟩

/-- Sorting by a key puts the keys in order. -/
theorem pairwise_mergeSort_key {α β : Type*} [LinearOrder β] (key : α → β) (l : List α) :
    (l.mergeSort fun a b => key a ≤ key b).Pairwise fun a b => key a ≤ key b := by
  have hsorted : (l.mergeSort fun a b => key a ≤ key b).Pairwise fun a b =>
      decide (key a ≤ key b) = true := by
    apply List.pairwise_mergeSort
    · intro a b c hab hbc
      rw [decide_eq_true_eq] at hab hbc ⊢
      exact le_trans hab hbc
    · intro a b
      rw [Bool.or_eq_true, decide_eq_true_eq, decide_eq_true_eq]
      exact le_total _ _
  exact hsorted.imp fun hle => of_decide_eq_true hle

end AssocMap
