import Mathlib.Data.Char
import Mathlib.Data.List.Infix
import Mathlib.Data.List.Lex
import QbsCore.Language.Variant
import QbsCore.Library.BaseChain
import QbsCore.Tools.Error

/-!
# Profiles

A profile has values for the keys of properties and can have a base profile, whose values it
inherits.  The values of a profile are in the settings, in a map of profiles, or in both.

Main results:

- Definitions {lit}`Profile.possiblyInheritedValue` and {lit}`Profile.allKeysInternal`: both come
  to an end, whatever base profiles there are.

Current gaps:

- Slashes in names are left out; the settings store takes them for the dots between names.
-/

namespace Qbs

/-! ## Settings -/

/-- The settings of the user and of the system, as maps from full keys to values. -/
structure Settings where
  userScope : VariantMap
  systemScope : VariantMap

namespace Variant

/-- The elements of a list value. -/
def toList : Variant → List Variant
  | list l => l
  | _ => []

def isString : Variant → Bool
  | string _ => true
  | _ => false

end Variant

namespace Settings

/-- A list of the system is appended to one of the user, another value of the user hides the one of
the system. -/
def value (s : Settings) (key : String) : Variant :=
  match s.userScope.value key, s.systemScope.value key with
  | .invalid, systemValue => systemValue
  | userValue, .invalid => userValue
  | .list l, systemValue =>
      if l.all Variant.isString then
        .ofStringList ((Variant.list l).toStringList ++ systemValue.toStringList)
      else .list (l ++ systemValue.toList)
  | userValue, _ => userValue

/-- What follows a prefix. -/
def stripPrefix (start s : String) : Option String :=
  (start.toList.isPrefixOf? s.toList).map String.ofList

/-- The keys of a scope below a group, without the name of the group. -/
def keysWithPrefix (scope : VariantMap) (group : String) : List String :=
  scope.filterMap fun e => stripPrefix (group ++ ".") e.1

/-- The settings store separates names by slashes. -/
def internalRepresentation (externalKey : String) : List Char :=
  externalKey.toList.map fun c => if c = '.' then '/' else c

def fixupKeys (keys : List String) : List String :=
  (keys.mergeSort fun a b => decide (internalRepresentation a ≤ internalRepresentation b)).eraseDups

def allKeysWithPrefix (s : Settings) (group : String) : List String :=
  fixupKeys (keysWithPrefix s.userScope group ++ keysWithPrefix s.systemScope group)

end Settings

/-! ## Profiles -/

/-- A profile, with the two places where values of profiles are found. -/
structure Profile where
  name : String
  settings : Settings
  profiles : VariantMap

namespace Profile

/-- A profile without settings that always exists. -/
def fallbackName : String :=
  "none"

def baseProfileKey : String :=
  "baseProfile"

/-- Another profile from the same places. -/
def named (p : Profile) (name : String) : Profile :=
  { p with name := name }

@[simp]
theorem named_name (p : Profile) (name : String) : (p.named name).name = name :=
  rfl

@[simp]
theorem named_named (p : Profile) (name other : String) :
    (p.named name).named other = p.named other :=
  rfl

@[simp]
theorem named_self (p : Profile) : p.named p.name = p :=
  rfl

/-- The values of the profile in the map of profiles. -/
def values (p : Profile) : VariantMap :=
  (p.profiles.value p.name).toMap

def profileKey (p : Profile) : String :=
  "profiles." ++ p.name

def fullyQualifiedKey (p : Profile) (key : String) : String :=
  p.profileKey ++ "." ++ key

/-- The keys of the profile in the settings. -/
def settingsKeys (p : Profile) : List String :=
  p.settings.allKeysWithPrefix p.profileKey

/-- Whether the profile exists. -/
def isThere (p : Profile) : Bool :=
  p.name = fallbackName || !p.values.isEmpty || !p.settingsKeys.isEmpty

def localValue (p : Profile) (key : String) : Variant :=
  if p.values.value key = .invalid then p.settings.value (p.fullyQualifiedKey key)
  else p.values.value key

/-- A value as the name of a profile. A list of one string is taken as that string. -/
def nameFrom : Variant → String
  | .string s | .list [.string s] => s
  | .bool b => if b then "true" else "false"
  | .int i => toString i
  | _ => ""

def baseProfile (p : Profile) : String :=
  nameFrom (p.localValue baseProfileKey)

/-! ## Existing profiles -/

/-- All names that a key of a profile can start with. -/
def namesIn (key : String) : List String :=
  (key.toList.drop "profiles.".toList.length).inits.map String.ofList

/-- Names among which are those of all existing profiles. -/
def candidates (p : Profile) : List String :=
  fallbackName :: (p.profiles.map Prod.fst ++
    (p.settings.userScope ++ p.settings.systemScope).flatMap fun e => namesIn e.1)

/-- The base profiles of all profiles. -/
def bases (p : Profile) : BaseChain String where
  base name := if (p.named name).baseProfile = "" then none else some (p.named name).baseProfile
  members := p.candidates.toFinset.filter fun name => (p.named name).isThere

@[simp]
theorem bases_named (p : Profile) (name : String) : (p.named name).bases = p.bases :=
  rfl

theorem isPrefixOf?_eq_some {α : Type*} [DecidableEq α] {a b c : List α} :
    a.isPrefixOf? b = some c ↔ b = a ++ c := by
  induction a generalizing b with
  | nil => simp [List.isPrefixOf?, eq_comm]
  | cons x a ih =>
      cases b with
      | nil => simp [List.isPrefixOf?]
      | cons y b =>
          by_cases hxy : x = y
          · simp [List.isPrefixOf?, hxy, ih]
          · simp [List.isPrefixOf?, hxy, Ne.symm hxy]

variable {group rest : String}

theorem stripPrefix_eq_some {start s : String} :
    Settings.stripPrefix start s = some rest ↔ s = start ++ rest := by
  unfold Settings.stripPrefix
  rw [Option.map_eq_some_iff]
  constructor
  · intro ⟨chars, hchars, hrest⟩
    rw [isPrefixOf?_eq_some] at hchars
    rw [← hrest, ← String.toList_inj, hchars]
    simp
  · intro h
    refine ⟨rest.toList, ?_, by simp⟩
    rw [isPrefixOf?_eq_some, h]
    simp

variable {key name : String}

theorem mem_keysWithPrefix {scope : VariantMap} :
    key ∈ Settings.keysWithPrefix scope group ↔ group ++ "." ++ key ∈ scope.map Prod.fst := by
  simp only [Settings.keysWithPrefix, List.mem_filterMap, stripPrefix_eq_some, List.mem_map]

theorem mem_allKeysWithPrefix {s : Settings} :
    key ∈ s.allKeysWithPrefix group ↔
      group ++ "." ++ key ∈ (s.userScope ++ s.systemScope).map Prod.fst := by
  simp [Settings.allKeysWithPrefix, Settings.fixupKeys, List.mem_eraseDups, mem_keysWithPrefix]

theorem mem_namesIn : name ∈ namesIn ("profiles." ++ name ++ rest) := by
  unfold namesIn
  rw [List.mem_map]
  refine ⟨name.toList, ?_, by simp⟩
  rw [List.mem_inits]
  exact ⟨rest.toList, by simp⟩

theorem mem_map_fst_of_value {m : VariantMap} (h : m.value key ≠ .invalid) :
    key ∈ m.map Prod.fst := by
  induction m with
  | nil => simp [VariantMap.value] at h
  | cons e m ih =>
      rw [VariantMap.value] at h
      split_ifs at h with hkey
      · simp [hkey]
      · exact List.mem_cons_of_mem _ (ih h)

theorem mem_candidates {p : Profile} (h : (p.named name).isThere = true) :
    name ∈ p.candidates := by
  simp only [isThere, Bool.or_eq_true, Bool.not_eq_true', List.isEmpty_eq_false_iff,
    decide_eq_true_eq] at h
  rcases h with (hname | hvalues) | hkeys
  · exact List.mem_cons.mpr (.inl hname)
  · refine List.mem_cons_of_mem _ (List.mem_append_left _ (mem_map_fst_of_value fun hinvalid => ?_))
    have hvalue : p.profiles.value name = .invalid := hinvalid
    simp [values, named, hvalue, Variant.toMap] at hvalues
  · obtain ⟨key, hkey⟩ := List.exists_mem_of_ne_nil _ hkeys
    rw [settingsKeys, mem_allKeysWithPrefix, List.mem_map] at hkey
    obtain ⟨e, he, hfull⟩ := hkey
    refine List.mem_cons_of_mem _ (List.mem_append_right _ (List.mem_flatMap.mpr ⟨e, he, ?_⟩))
    rw [hfull, String.append_assoc]
    exact mem_namesIn

theorem mem_members {p : Profile} :
    name ∈ p.bases.members ↔ (p.named name).isThere = true := by
  simp only [bases, Finset.mem_filter, List.mem_toFinset, and_iff_right_iff_imp]
  exact mem_candidates

/-! ## Inherited values -/

def circularError (profileChain : List String) : ErrorInfo :=
  .message ("Circular profile inheritance. Cycle is '" ++ " -> ".intercalate profileChain ++ "'.")

def missingError (name baseName : String) : ErrorInfo :=
  .message ("Profile \"" ++ name ++ "\" has a non-existent base profile \"" ++ baseName ++ "\".")

/-- The value of the first profile on the way to the base profiles that has one for the key. -/
def possiblyInheritedValue (p : Profile) (key : String) (defaultValue : Variant)
    (profileChain : List String) : Except ErrorInfo Variant :=
  if _ : p.name ∈ profileChain then .error (circularError (profileChain ++ [p.name]))
  else if p.localValue key ≠ .invalid then .ok (p.localValue key)
  else if p.baseProfile = "" then .ok defaultValue
  else if _ : (p.named p.baseProfile).isThere = true then
    (p.named p.baseProfile).possiblyInheritedValue key defaultValue (profileChain ++ [p.name])
  else .error (missingError p.name p.baseProfile)
termination_by p.bases.pending profileChain p.name
decreasing_by exact p.bases.pending_lt (by assumption) (mem_members.mpr (by assumption))

def value (p : Profile) (key : String) (defaultValue : Variant) : Except ErrorInfo Variant :=
  p.possiblyInheritedValue key defaultValue []

inductive KeySelection where
  | recursive
  | nonRecursive
deriving DecidableEq

/-- The keys in the map of profiles; those in the settings only if there are none. -/
def listedKeys (p : Profile) : List String :=
  if p.values.isEmpty then p.settingsKeys else p.values.map Prod.fst

def allKeysInternal (p : Profile) (selection : KeySelection) (profileChain : List String) :
    Except ErrorInfo (List String) :=
  if _ : p.name ∈ profileChain then .error (circularError (profileChain ++ [p.name]))
  else if selection = .nonRecursive then .ok p.listedKeys
  else if p.baseProfile = "" then .ok p.listedKeys
  else if _ : (p.named p.baseProfile).isThere = true then do
    let parentKeys ←
      (p.named p.baseProfile).allKeysInternal .recursive (profileChain ++ [p.name])
    .ok (((p.listedKeys ++ parentKeys).eraseDups.erase baseProfileKey).mergeSort
      fun a b => decide (a ≤ b))
  else .error (missingError p.name p.baseProfile)
termination_by p.bases.pending profileChain p.name
decreasing_by exact p.bases.pending_lt (by assumption) (mem_members.mpr (by assumption))

def allKeys (p : Profile) (selection : KeySelection) : Except ErrorInfo (List String) :=
  p.allKeysInternal selection []

end Profile

end Qbs
