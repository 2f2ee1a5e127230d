import Mathlib.Data.List.Infix

/-!
# Maps whose values can be maps again

A value of a map can be taken as a map; other values count as the empty map.  A path leads
through nested maps to a value.  Setting a value copies the maps on the path and writes them
back.

Main results:

- Theorem {lit}`NestedMaps.getAt_setAt_self`: what is set at a path is found there.
- Theorem {lit}`NestedMaps.getAt_setAt_of_unrelated`: other paths are not affected.
- Theorem {lit}`NestedMaps.setAt_setAt`: only the last value counts.
-/

/-- Maps from keys to values, and values that hold a map. -/
structure NestedMaps (K V M : Type*) [DecidableEq K] where
  value : M → K → V
  insert : M → K → V → M
  toMap : V → M
  ofMap : M → V
  value_insert : ∀ m k l v, value (insert m k v) l = if k = l then v else value m l
  insert_insert : ∀ m k v w, insert (insert m k v) k w = insert m k w
  toMap_ofMap : ∀ m, toMap (ofMap m) = m

namespace NestedMaps

variable {K V M : Type*}

/-- No path leads through the end of the other one. -/
def Unrelated (p q : List K) : Prop :=
  ¬ p <+: q ∧ ¬ q <+: p

theorem unrelated_cons {k : K} {p q : List K} :
    Unrelated (k :: p) (k :: q) ↔ Unrelated p q := by
  simp [Unrelated, List.cons_prefix_cons]

theorem Unrelated.tail_ne_nil {k : K} {p q : List K} (h : Unrelated (k :: p) (k :: q)) :
    p ≠ [] ∧ q ≠ [] := by
  constructor
  · intro hp
    exact h.1 (by simp [hp])
  · intro hq
    exact h.2 (by simp [hq])

variable [DecidableEq K] (maps : NestedMaps K V M)

/-- Set the value at a path that starts with a key. -/
def setAt (m : M) (k : K) : List K → V → M
  | [], v => maps.insert m k v
  | l :: path, v => maps.insert m k (maps.ofMap (setAt (maps.toMap (maps.value m k)) l path v))

/-- The value at a path that starts with a key. -/
def getAt (m : M) (k : K) : List K → V
  | [] => maps.value m k
  | l :: path => getAt (maps.toMap (maps.value m k)) l path

@[simp]
theorem getAt_setAt_self (m : M) (k : K) (path : List K) (v : V) :
    maps.getAt (maps.setAt m k path v) k path = v := by
  induction path generalizing m k with
  | nil => simp [setAt, getAt, maps.value_insert]
  | cons l path ih => simp [setAt, getAt, maps.value_insert, maps.toMap_ofMap, ih]

/-- A path that starts with another key does not see what is set. -/
theorem getAt_setAt_of_ne (m : M) {k l : K} (path others : List K) (v : V) (hne : k ≠ l) :
    maps.getAt (maps.setAt m k path v) l others = maps.getAt m l others := by
  have hvalue : maps.value (maps.setAt m k path v) l = maps.value m l := by
    cases path with
    | nil => simp [setAt, maps.value_insert, hne]
    | cons next path => simp [setAt, maps.value_insert, hne]
  cases others with
  | nil => simp [getAt, hvalue]
  | cons next others => simp [getAt, hvalue]

/-- The value at an unrelated path stays, also if a value on the way was not a map before. -/
theorem getAt_setAt_of_unrelated (m : M) {k l : K} {path others : List K} (v : V)
    (h : Unrelated (k :: path) (l :: others)) :
    maps.getAt (maps.setAt m k path v) l others = maps.getAt m l others := by
  induction path generalizing m k l others with
  | nil =>
      refine maps.getAt_setAt_of_ne m _ _ v fun heq => ?_
      subst heq
      exact h.tail_ne_nil.1 rfl
  | cons next path ih =>
      by_cases heq : k = l
      · subst heq
        cases others with
        | nil => exact absurd rfl h.tail_ne_nil.2
        | cons other others =>
            simp only [setAt, getAt, maps.value_insert, if_true, maps.toMap_ofMap]
            exact ih _ (unrelated_cons.mp h)
      · exact maps.getAt_setAt_of_ne m _ _ v heq

@[simp]
theorem setAt_setAt (m : M) (k : K) (path : List K) (v w : V) :
    maps.setAt (maps.setAt m k path v) k path w = maps.setAt m k path w := by
  induction path generalizing m k with
  | nil => simp [setAt, maps.insert_insert]
  | cons l path ih =>
      simp [setAt, maps.value_insert, maps.toMap_ofMap, maps.insert_insert, ih]

end NestedMaps
