import QbsCore.Language.Variant
import QbsCore.Library.NestedMaps

/-!
# Properties in nested configuration maps

The properties of modules are in nested maps, and a property is set or looked up by the names on
the way to it.  An artifact can have values of its own, which are set one after the other in a
copy of the properties of its product.

Main results:

- Theorem {lit}`VariantMap.setConfigProperty_spec`: what setting a property changes.
- Theorem {lit}`VariantMap.getConfigProperty_applyPerArtifactProperties`: the values of an
  artifact after all of its own ones are set.
-/

namespace Qbs

namespace VariantMap

open NestedMaps

/-- The value at a path of nested maps. -/
def getConfigProperty (cfg : VariantMap) : List String → Variant
  | [] => .invalid
  | [name] => cfg.value name
  | head :: path => getConfigProperty (cfg.value head).toMap path

@[simp]
theorem insert_insert (m : VariantMap) (key : String) (v w : Variant) :
    (m.insert key v).insert key w = m.insert key w := by
  induction m with
  | nil => simp [insert]
  | cons e m ih =>
      rcases e with ⟨k, u⟩
      by_cases hk : k = key
      · simp [insert, hk]
      · by_cases hlt : key < k
        · simp [insert, hk, hlt]
        · simp [insert, hk, hlt, ih]

/-- Variants with the maps that they can hold. -/
def nestedMaps : NestedMaps String Variant VariantMap where
  value := value
  insert := insert
  toMap := Variant.toMap
  ofMap := .map
  value_insert m k l v := value_insert m k l v
  insert_insert := insert_insert
  toMap_ofMap _ := rfl

theorem setConfigProperty_eq_setAt (cfg : VariantMap) (name : String) (path : List String)
    (v : Variant) : cfg.setConfigProperty (name :: path) v = nestedMaps.setAt cfg name path v := by
  induction path generalizing cfg name with
  | nil => rfl
  | cons next path ih => simp [setConfigProperty, setAt, ih, nestedMaps]

theorem getConfigProperty_eq_getAt (cfg : VariantMap) (name : String) (path : List String) :
    cfg.getConfigProperty (name :: path) = nestedMaps.getAt cfg name path := by
  induction path generalizing cfg name with
  | nil => rfl
  | cons next path ih => simp [getConfigProperty, getAt, ih, nestedMaps]

variable {p : List String}

theorem getConfigProperty_setConfigProperty_self (cfg : VariantMap) (v : Variant) (hp : p ≠ []) :
    (cfg.setConfigProperty p v).getConfigProperty p = v := by
  obtain ⟨name, path, rfl⟩ := List.exists_cons_of_ne_nil hp
  simp [setConfigProperty_eq_setAt, getConfigProperty_eq_getAt]

theorem getConfigProperty_setConfigProperty_of_unrelated (cfg : VariantMap) {q : List String}
    (v : Variant) (hp : p ≠ []) (hq : q ≠ []) (h : Unrelated p q) :
    (cfg.setConfigProperty p v).getConfigProperty q = cfg.getConfigProperty q := by
  obtain ⟨name, path, rfl⟩ := List.exists_cons_of_ne_nil hp
  obtain ⟨other, others, rfl⟩ := List.exists_cons_of_ne_nil hq
  rw [setConfigProperty_eq_setAt, getConfigProperty_eq_getAt, getConfigProperty_eq_getAt]
  exact nestedMaps.getAt_setAt_of_unrelated cfg v h

theorem setConfigProperty_setConfigProperty (cfg : VariantMap) (v w : Variant) (hp : p ≠ []) :
    (cfg.setConfigProperty p v).setConfigProperty p w = cfg.setConfigProperty p w := by
  obtain ⟨name, path, rfl⟩ := List.exists_cons_of_ne_nil hp
  simp [setConfigProperty_eq_setAt]

/-- A property that is set is found with its value, all properties at other paths keep theirs, and
setting it once more is the same as setting only the last value. -/
theorem setConfigProperty_spec (cfg : VariantMap) (p : List String) (v : Variant) (hp : p ≠ []) :
    (cfg.setConfigProperty p v).getConfigProperty p = v ∧
      (∀ q, q ≠ [] → ¬ q <+: p → ¬ p <+: q →
        (cfg.setConfigProperty p v).getConfigProperty q = cfg.getConfigProperty q) ∧
      ∀ w, (cfg.setConfigProperty p v).setConfigProperty p w = cfg.setConfigProperty p w := by
  refine ⟨getConfigProperty_setConfigProperty_self cfg v hp, fun q hq hqp hpq => ?_, fun w => ?_⟩
  · exact getConfigProperty_setConfigProperty_of_unrelated cfg v hp hq ⟨hpq, hqp⟩
  · exact setConfigProperty_setConfigProperty cfg v w hp

/-- A string on the way is replaced by a map, which the path next to it does not notice. -/
theorem setConfigProperty_spec_cpp :
    (VariantMap.getConfigProperty
      (VariantMap.setConfigProperty [("cpp", .string "x")] ["cpp", "defines"] (.int 1))
      ["cpp", "defines"] = .int 1) ∧
    (VariantMap.getConfigProperty
      (VariantMap.setConfigProperty [("cpp", .string "x")] ["cpp", "defines"] (.int 1))
      ["cpp", "flags"] = .invalid) ∧
    VariantMap.setConfigProperty
      (VariantMap.setConfigProperty [("cpp", .string "x")] ["cpp", "defines"] (.int 1))
      ["cpp", "defines"] (.int 2) =
        VariantMap.setConfigProperty [("cpp", .string "x")] ["cpp", "defines"] (.int 2) := by
  have h := setConfigProperty_spec [("cpp", .string "x")] ["cpp", "defines"] (.int 1) (by simp)
  exact ⟨h.1, h.2.1 ["cpp", "flags"] (by simp) (by decide) (by decide), h.2.2 _⟩

/-! ## The values of an artifact -/

/-- Set the values that an artifact has for itself, in their order. -/
def applyPerArtifactProperties (props : VariantMap)
    (pureProperties : List (List String × Variant)) : VariantMap :=
  pureProperties.foldl (fun props property => props.setConfigProperty property.1 property.2) props

/-- A property has the last of the values that are set for it, unless a later one is set at a path
through it or on the way to it; without such values it keeps the one of the product. -/
theorem getConfigProperty_applyPerArtifactProperties (props : VariantMap)
    (earlier later : List (List String × Variant)) (v : Variant) (hp : p ≠ [])
    (hlater : ∀ property ∈ later, property.1 ≠ [] ∧ Unrelated property.1 p) :
    (applyPerArtifactProperties props later).getConfigProperty p = props.getConfigProperty p ∧
      (applyPerArtifactProperties props (earlier ++ (p, v) :: later)).getConfigProperty p = v := by
  have hkept : ∀ props, (applyPerArtifactProperties props later).getConfigProperty p =
      props.getConfigProperty p := by
    induction later with
    | nil => simp [applyPerArtifactProperties]
    | cons property later ih =>
        intro props
        obtain ⟨hne, hunrelated⟩ := hlater property (by simp)
        have hrest := ih (fun e he => hlater e (by simp [he]))
          (props.setConfigProperty property.1 property.2)
        rw [getConfigProperty_setConfigProperty_of_unrelated props _ hne hp hunrelated] at hrest
        exact hrest
  refine ⟨hkept props, ?_⟩
  have hset := hkept ((applyPerArtifactProperties props earlier).setConfigProperty p v)
  rw [getConfigProperty_setConfigProperty_self _ v hp] at hset
  simpa [applyPerArtifactProperties] using hset

end VariantMap

end Qbs
