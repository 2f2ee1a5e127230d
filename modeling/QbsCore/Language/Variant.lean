import Mathlib.Logic.Basic

/-!
# Variants and variant maps

The values that properties have and that scripts exchange with the build: a
{lit}`QVariant` is one of a few alternatives, a {lit}`QVariantMap` is the list of
its entries in key order.

Main results:

- Definition {lit}`VariantMap.moduleProperty`: lookup of a module's property in
  the nested map of all module properties.
- Theorem {lit}`VariantMap.value_insert`: lookup after an insertion.

Current gaps:

- Only the alternatives that properties can have are listed.
-/

namespace Qbs

/-- A value as stored in a property map. -/
inductive Variant where
  | invalid
  | bool (b : Bool)
  | int (i : Int)
  | string (s : String)
  | list (l : List Variant)
  | map (m : List (String × Variant))

namespace Variant

instance : Inhabited Variant where
  default := invalid

mutual

/-- Decide whether two values are equal. -/
def decEq : (a b : Variant) → Decidable (a = b)
  | invalid, invalid => isTrue rfl
  | bool a, bool b => if h : a = b then isTrue (by rw [h]) else isFalse (by simpa using h)
  | int a, int b => if h : a = b then isTrue (by rw [h]) else isFalse (by simpa using h)
  | string a, string b => if h : a = b then isTrue (by rw [h]) else isFalse (by simpa using h)
  | list a, list b =>
      match decEqList a b with
      | isTrue h => isTrue (by rw [h])
      | isFalse h => isFalse (by simpa using h)
  | map a, map b =>
      match decEqMap a b with
      | isTrue h => isTrue (by rw [h])
      | isFalse h => isFalse (by simpa using h)
  | invalid, bool _ | invalid, int _ | invalid, string _ | invalid, list _ | invalid, map _
  | bool _, invalid | bool _, int _ | bool _, string _ | bool _, list _ | bool _, map _
  | int _, invalid | int _, bool _ | int _, string _ | int _, list _ | int _, map _
  | string _, invalid | string _, bool _ | string _, int _ | string _, list _ | string _, map _
  | list _, invalid | list _, bool _ | list _, int _ | list _, string _ | list _, map _
  | map _, invalid | map _, bool _ | map _, int _ | map _, string _ | map _, list _ =>
      isFalse (by simp)

/-- Decide whether two lists of values are equal. -/
def decEqList : (a b : List Variant) → Decidable (a = b)
  | [], [] => isTrue rfl
  | [], _ :: _ | _ :: _, [] => isFalse (by simp)
  | a :: as, b :: bs =>
      match decEq a b, decEqList as bs with
      | isTrue h, isTrue hs => isTrue (by rw [h, hs])
      | isFalse h, _ => isFalse (by simp [h])
      | _, isFalse hs => isFalse (by simp [hs])

/-- Decide whether two maps are equal. -/
def decEqMap : (a b : List (String × Variant)) → Decidable (a = b)
  | [], [] => isTrue rfl
  | [], _ :: _ | _ :: _, [] => isFalse (by simp)
  | (k, a) :: as, (l, b) :: bs =>
      if hk : k = l then
        match decEq a b, decEqMap as bs with
        | isTrue h, isTrue hs => isTrue (by rw [hk, h, hs])
        | isFalse h, _ => isFalse (by simp [h])
        | _, isFalse hs => isFalse (by simp [hs])
      else isFalse (by simp [hk])

end

instance : DecidableEq Variant := decEq

/-- A list of strings as a value. -/
def ofStringList (l : List String) : Variant :=
  list (l.map string)

/-- The string in a string value, the empty string in any other. -/
def toString : Variant → String
  | string s => s
  | _ => ""

/-- The strings of a string list; a single string is a list with one element. -/
def toStringList : Variant → List String
  | string s => [s]
  | list l => l.map toString
  | _ => []

/-- A value taken as a truth value. -/
def toBool : Variant → Bool
  | bool b => b
  | int i => i ≠ 0
  | string s => s ≠ "" && s ≠ "0" && s.toLower ≠ "false"
  | _ => false

end Variant

/-- A map from names to values, as the list of its entries in key order. -/
abbrev VariantMap := List (String × Variant)

/-- The map in a map value, the empty map in any other. -/
def Variant.toMap : Variant → VariantMap
  | map m => m
  | _ => []

namespace VariantMap

/-- Compare two maps entry by entry, with some comparison of values. -/
def sameValues (sameVariant : Variant → Variant → Bool) : VariantMap → VariantMap → Bool
  | [], [] => true
  | (k, v) :: m, (k', v') :: m' => k = k' && sameVariant v v' && sameValues sameVariant m m'
  | _, _ => false

/-- The value of a key; invalid for a missing key. -/
def value : VariantMap → String → Variant
  | [], _ => .invalid
  | (k, v) :: m, key => if k = key then v else value m key

/-- Insert or replace the value of a key. -/
def insert : VariantMap → String → Variant → VariantMap
  | [], key, v => [(key, v)]
  | (k, w) :: m, key, v =>
      if k = key then (key, v) :: m
      else if key < k then (key, v) :: (k, w) :: m
      else (k, w) :: insert m key v

/-- Lookup after an insertion. -/
theorem value_insert (m : VariantMap) (key name : String) (v : Variant) :
    (m.insert key v).value name = if key = name then v else m.value name := by
  induction m with
  | nil => simp [insert, value]
  | cons e m ih =>
      rcases e with ⟨k, w⟩
      simp only [insert]
      split <;> rename_i hk
      · subst hk
        simp only [value]
        split <;> rfl
      · split
        · simp only [value]
        · simp only [value, ih]
          split <;> rename_i hkn
          · split <;> rename_i hn
            · exact absurd (hkn.trans hn.symm) hk
            · rfl
          · rfl

/-- The value of a property of a module in the map of all modules. -/
def moduleProperty (properties : VariantMap) (moduleName key : String) : Variant :=
  (properties.value moduleName).toMap.value key

/-- Set the value at a path of nested maps. -/
def setConfigProperty (cfg : VariantMap) : List String → Variant → VariantMap
  | [], _ => cfg
  | [name], v => cfg.insert name v
  | head :: path, v => cfg.insert head (.map (setConfigProperty (cfg.value head).toMap path v))

/-- The value at a path of nested maps; used for the parameters of a nested module. -/
def descend : VariantMap → List String → VariantMap
  | m, [] => m
  | m, name :: path => descend (m.value name).toMap path

end VariantMap

end Qbs
