import QbsCore.Tools.Profile

/-!
# What profiles inherit

Both recursions over the base profiles follow the same chain.  They look for values in other
places, though: a value is looked up in the map of profiles and then in the settings, while the
keys in the settings count only if the profile has no values in the map.

Main results:

- Theorem {lit}`Profile.value_cases`: the value of a key is the closest one on the chain.
- Theorem {lit}`Profile.inheritsRight_iff`: for which profiles the keys are those that have a
  value.
-/

namespace Qbs

namespace Profile

open BaseChain

/-- A profile has a value of its own for a key. -/
def HasValue (p : Profile) (key name : String) : Prop :=
  (p.named name).localValue key ≠ .invalid

instance (p : Profile) (key : String) : DecidablePred (p.HasValue key) := fun name =>
  inferInstanceAs (Decidable ((p.named name).localValue key ≠ .invalid))

def describe : BaseChain.Failure String → ErrorInfo
  | .circular chain => circularError chain
  | .missing name base => missingError name base

/-- The value of the last profile of a chain. -/
def lastValue (p : Profile) (key : String) (defaultValue : Variant) (chain : List String) :
    Variant :=
  match chain.getLast? with
  | some last =>
      if p.HasValue key last then (p.named last).localValue key else defaultValue
  | none => defaultValue

theorem lastValue_cons (p : Profile) (key : String) (defaultValue : Variant) (name : String)
    {chain : List String} (h : chain ≠ []) :
    p.lastValue key defaultValue (name :: chain) = p.lastValue key defaultValue chain := by
  simp [lastValue, List.getLast?_cons, List.getLast?_eq_some_getLast h]

/-- The value that comes of following the bases. -/
def valueFrom (p : Profile) (key : String) (defaultValue : Variant) :
    Except (BaseChain.Failure String) (List String) → Except ErrorInfo Variant
  | .ok chain => .ok (p.lastValue key defaultValue chain)
  | .error failure => .error (describe failure)

theorem bases_base (p : Profile) (name : String) :
    p.bases.base name =
      if (p.named name).baseProfile = "" then none else some (p.named name).baseProfile :=
  rfl

/-- The value is that of the last profile of the chain up to the first value. -/
theorem possiblyInheritedValue_eq (p : Profile) (key : String) (defaultValue : Variant)
    (profileChain : List String) :
    p.possiblyInheritedValue key defaultValue profileChain =
      p.valueFrom key defaultValue (p.bases.follow (p.HasValue key) profileChain p.name) := by
  fun_induction possiblyInheritedValue p key defaultValue profileChain with
  | case1 p profileChain hseen => simp [follow, hseen, describe, valueFrom]
  | case2 p profileChain hnew hvalue =>
      simp [follow, hnew, HasValue, hvalue, lastValue, valueFrom]
  | case3 p profileChain hnew hvalue hbase =>
      have hvalue : p.localValue key = .invalid := not_not.mp hvalue
      simp [follow, hnew, HasValue, hvalue, lastValue, bases_base, hbase, valueFrom]
  | case4 p profileChain hnew hvalue hbase hthere ih =>
      have hvalue : p.localValue key = .invalid := not_not.mp hvalue
      have hmember := mem_members.mpr hthere
      have hparent : p.bases.base p.name = some p.baseProfile := by simp [bases_base, hbase]
      rw [ih, follow_step p.bases hnew (by simp [HasValue, hvalue]) hparent hmember]
      change p.valueFrom key defaultValue (p.bases.follow (p.HasValue key) _ p.baseProfile) = _
      cases hfollow : p.bases.follow (p.HasValue key) (profileChain ++ [p.name]) p.baseProfile with
      | error failure => simp [Except.map, valueFrom]
      | ok chain => simp [Except.map, valueFrom, lastValue_cons _ _ _ _ (follow_ne_nil _ hfollow)]
  | case5 p profileChain hnew hvalue hbase hmissing =>
      have hvalue : p.localValue key = .invalid := not_not.mp hvalue
      have hmember := mt mem_members.mp hmissing
      simp [follow, hnew, HasValue, hvalue, bases_base, hbase, hmember, describe, valueFrom]

/-- The keys are those that the profiles of the whole chain list. -/
theorem allKeysInternal_spec (p : Profile) (profileChain : List String) :
    match p.bases.follow (fun _ => False) profileChain p.name with
    | .ok chain => ∃ keys, p.allKeysInternal .recursive profileChain = .ok keys ∧
        ∀ key, key ≠ baseProfileKey →
          (key ∈ keys ↔ ∃ name ∈ chain, key ∈ (p.named name).listedKeys)
    | .error failure => p.allKeysInternal .recursive profileChain = .error (describe failure) := by
  generalize hselection : KeySelection.recursive = selection
  fun_induction allKeysInternal p selection profileChain with
  | case1 p selection profileChain hseen => simp [follow, hseen, describe]
  | case2 => cases hselection
  | case3 p selection profileChain hnew hnon hbase =>
      simp [follow, hnew, bases_base, hbase]
  | case4 p selection profileChain hnew hnon hbase hthere ih =>
      have hmember := mem_members.mpr hthere
      have hparent : p.bases.base p.name = some p.baseProfile := by simp [bases_base, hbase]
      rw [follow_step p.bases hnew (by simp) hparent hmember]
      have hrest := ih rfl
      simp only [bases_named, named_name, named_named] at hrest
      cases hfollow : p.bases.follow (fun _ => False) (profileChain ++ [p.name]) p.baseProfile with
      | error failure =>
          rw [hfollow] at hrest
          simp only at hrest
          simp [Except.map, hrest, bind, Except.bind]
      | ok chain =>
          rw [hfollow] at hrest
          obtain ⟨parentKeys, hkeys, hmem⟩ := hrest
          refine ⟨_, by rw [hkeys]; rfl, fun key hkey => ?_⟩
          rw [List.mem_mergeSort, List.mem_erase_of_ne hkey, List.mem_eraseDups, List.mem_append,
            hmem key hkey]
          simp
  | case5 p selection profileChain hnew hnon hbase hmissing =>
      have hmember := mt mem_members.mp hmissing
      simp [follow, hnew, bases_base, hbase, hmember, describe]

/-! ## The chain of base profiles -/

/-- The profile itself and the profiles that it inherits from. -/
def Inherits (p : Profile) (name : String) : Prop :=
  p.bases.InChain p.name name

/-- Before a profile with a value for the key, a base profile is met that does not exist or that
was met before. -/
def ValueFails (p : Profile) (key : String) : Prop :=
  p.bases.Fails (p.HasValue key) p.name

/-- A base profile is met that does not exist or that was met before. -/
def ChainFails (p : Profile) : Prop :=
  p.bases.Fails (fun _ => False) p.name

variable {p : Profile} {key : String}

theorem ValueFails.chainFails (h : p.ValueFails key) :
    p.ChainFails := by
  obtain ⟨j, name, hname, _, hwrong⟩ := h
  exact ⟨j, name, hname, fun _ _ _ _ => id, hwrong⟩

/-- There is an error if the chain fails, and otherwise the value is the closest one. -/
theorem value_cases (p : Profile) (key : String) (defaultValue : Variant) :
    ((∃ e, p.value key defaultValue = .error e) ∧ p.ValueFails key) ∨
      (¬ p.ValueFails key ∧
        ((∃ name, p.bases.IsFirst (p.HasValue key) p.name name ∧
            p.value key defaultValue = .ok ((p.named name).localValue key)) ∨
          ((∀ name, p.Inherits name → ¬ p.HasValue key name) ∧
            p.value key defaultValue = .ok defaultValue))) := by
  rw [value, possiblyInheritedValue_eq]
  rcases p.bases.follow_cases (p.HasValue key) p.name with
    ⟨l, last, hok, hcomplete⟩ | ⟨⟨failure, herror⟩, hfails⟩
  · refine .inr ⟨hcomplete.not_fails, ?_⟩
    simp only [hok, valueFrom, lastValue, List.getLast?_append, List.getLast?_singleton, Option.some_or]
    by_cases hlast : p.HasValue key last
    · exact .inl ⟨last, hcomplete.isFirst hlast, by rw [if_pos hlast]⟩
    · exact .inr ⟨fun name => hcomplete.not_stop hlast, by rw [if_neg hlast]⟩
  · exact .inl ⟨⟨describe failure, by rw [herror, valueFrom]⟩, hfails⟩

/-- There is an error if the chain fails, and otherwise the keys are those that are listed. -/
theorem allKeys_cases (p : Profile) :
    ((∃ e, p.allKeys .recursive = .error e) ∧ p.ChainFails) ∨
      (¬ p.ChainFails ∧ ∃ keys, p.allKeys .recursive = .ok keys ∧
        ∀ key, key ≠ baseProfileKey →
          (key ∈ keys ↔ ∃ name, p.Inherits name ∧ key ∈ (p.named name).listedKeys)) := by
  have hspec := p.allKeysInternal_spec []
  rcases p.bases.follow_cases (fun _ => False) p.name with
    ⟨l, last, hok, hcomplete⟩ | ⟨⟨failure, herror⟩, hfails⟩
  · rw [hok] at hspec
    obtain ⟨keys, hkeys, hmem⟩ := hspec
    refine .inr ⟨hcomplete.not_fails, keys, hkeys, fun key hkey => ?_⟩
    simp only [hmem key hkey, hcomplete.mem_iff (hcomplete.ends.resolve_left id), Inherits]
  · rw [herror] at hspec
    exact .inl ⟨⟨describe failure, hspec⟩, hfails⟩

/-- A key has a value exactly if a profile of the chain has one. -/
theorem exists_value_iff (h : ¬ p.ChainFails) (key : String) :
    (∃ v, v ≠ .invalid ∧ p.value key .invalid = .ok v) ↔
      ∃ name, p.Inherits name ∧ p.HasValue key name := by
  rcases p.value_cases key .invalid with ⟨_, hfails⟩ | ⟨_, ⟨name, hfirst, hvalue⟩ | ⟨hnone, hvalue⟩⟩
  · exact absurd hfails.chainFails h
  · obtain ⟨hname, j, hj, _⟩ := hfirst
    exact iff_of_true ⟨_, hname, hvalue⟩ ⟨name, ⟨j, hj⟩, hname⟩
  · refine iff_of_false ?_ fun ⟨name, hinherits, hname⟩ => hnone name hinherits hname
    intro ⟨v, hvalid, hv⟩
    rw [hvalue] at hv
    exact hvalid (Except.ok.inj hv).symm

/-! ## The two places of values -/

/-- A key that has a value in the settings is not listed because the profile has other values in
the map. -/
def HiddenKey (p : Profile) (key : String) : Prop :=
  p.values ≠ [] ∧ p.values.value key = .invalid ∧
    p.settings.value (p.fullyQualifiedKey key) ≠ .invalid

/-- A key is listed without a valid value. -/
def EmptyKey (p : Profile) (key : String) : Prop :=
  key ∈ p.listedKeys ∧ p.localValue key = .invalid

theorem settings_value_invalid {s : Settings}
    (h : key ∉ (s.userScope ++ s.systemScope).map Prod.fst) : s.value key = .invalid := by
  rw [List.map_append, List.mem_append, not_or] at h
  have huser : s.userScope.value key = .invalid := by_contra fun hv => h.1 (mem_map_fst_of_value hv)
  have hsystem : s.systemScope.value key = .invalid :=
    by_contra fun hv => h.2 (mem_map_fst_of_value hv)
  simp [Settings.value, huser, hsystem]

/-- A key with a value is listed or hidden. -/
theorem mem_listedKeys_or_hiddenKey (h : p.localValue key ≠ .invalid) :
    key ∈ p.listedKeys ∨ p.HiddenKey key := by
  unfold listedKeys
  by_cases hvalue : p.values.value key = .invalid
  · rw [localValue, if_pos hvalue] at h
    by_cases hempty : p.values = []
    · left
      have hkey : p.profileKey ++ "." ++ key ∈
          (p.settings.userScope ++ p.settings.systemScope).map Prod.fst :=
        by_contra fun hmissing => h (settings_value_invalid hmissing)
      simpa [hempty, settingsKeys, mem_allKeysWithPrefix] using hkey
    · exact .inr ⟨hempty, hvalue, h⟩
  · left
    have hkey := mem_map_fst_of_value hvalue
    rw [if_neg]
    · exact hkey
    · intro hempty
      rw [List.isEmpty_iff.mp hempty] at hkey
      simp at hkey

/-- On a chain that does not fail, each hidden key is listed somewhere and each listed key has a
value somewhere. -/
def SourcesAgree (p : Profile) : Prop :=
  ¬ p.ChainFails → ∀ name, p.Inherits name → ∀ key, key ≠ baseProfileKey →
    ((p.named name).HiddenKey key →
      ∃ other, p.Inherits other ∧ key ∈ (p.named other).listedKeys) ∧
    ((p.named name).EmptyKey key → ∃ other, p.Inherits other ∧ p.HasValue key other)

/-- How values and keys are inherited: with an error exactly if the chain of base profiles fails,
the closest value, and the keys that have a value. -/
structure InheritsRight (p : Profile) : Prop where
  valueError : ∀ key defaultValue,
    (∃ e, p.value key defaultValue = .error e) ↔ p.ValueFails key
  keysError : (∃ e, p.allKeys .recursive = .error e) ↔ p.ChainFails
  closest : ∀ key defaultValue v, p.value key defaultValue = .ok v →
    (∃ name, p.bases.IsFirst (p.HasValue key) p.name name ∧ v = (p.named name).localValue key) ∨
      ((∀ name, p.Inherits name → ¬ p.HasValue key name) ∧ v = defaultValue)
  keys : ∀ keys, p.allKeys .recursive = .ok keys → ∀ key, key ≠ baseProfileKey →
    (key ∈ keys ↔ ∃ v, v ≠ .invalid ∧ p.value key .invalid = .ok v)

theorem value_error_iff (p : Profile) (key : String) (defaultValue : Variant) :
    (∃ e, p.value key defaultValue = .error e) ↔ p.ValueFails key := by
  rcases p.value_cases key defaultValue with ⟨herror, hfails⟩ | ⟨hfails, hvalue⟩
  · exact iff_of_true herror hfails
  · refine iff_of_false (fun ⟨e, he⟩ => ?_) hfails
    rcases hvalue with ⟨_, _, hvalue⟩ | ⟨_, hvalue⟩
    · simp [hvalue] at he
    · simp [hvalue] at he

theorem allKeys_error_iff (p : Profile) :
    (∃ e, p.allKeys .recursive = .error e) ↔ p.ChainFails := by
  rcases p.allKeys_cases with ⟨herror, hfails⟩ | ⟨hfails, keys, hkeys, _⟩
  · exact iff_of_true herror hfails
  · refine iff_of_false (fun ⟨e, he⟩ => ?_) hfails
    simp [hkeys] at he

theorem value_closest {defaultValue v : Variant} (hv : p.value key defaultValue = .ok v) :
    (∃ name, p.bases.IsFirst (p.HasValue key) p.name name ∧ v = (p.named name).localValue key) ∨
      ((∀ name, p.Inherits name → ¬ p.HasValue key name) ∧ v = defaultValue) := by
  rcases p.value_cases key defaultValue with
    ⟨⟨e, he⟩, _⟩ | ⟨_, ⟨name, hfirst, hvalue⟩ | ⟨hnone, hvalue⟩⟩
  · simp [hv] at he
  · exact .inl ⟨name, hfirst, Except.ok.inj (hv.symm.trans hvalue)⟩
  · exact .inr ⟨hnone, Except.ok.inj (hv.symm.trans hvalue)⟩

/-- Inheritance is right exactly if both places of values agree on the keys. -/
theorem inheritsRight_iff (p : Profile) : p.InheritsRight ↔ p.SourcesAgree := by
  constructor
  · intro h hchain name hname key hkey
    rcases p.allKeys_cases with ⟨_, hfails⟩ | ⟨_, keys, hkeys, hmem⟩
    · exact absurd hfails hchain
    have hvalues := (hmem key hkey).symm.trans
      ((h.keys keys hkeys key hkey).trans (exists_value_iff hchain key))
    constructor
    · intro hhidden
      refine hvalues.mpr ⟨name, hname, ?_⟩
      rw [HasValue, localValue, if_pos hhidden.2.1]
      exact hhidden.2.2
    · intro hempty
      exact hvalues.mp ⟨name, hname, hempty.1⟩
  · intro hagree
    refine ⟨p.value_error_iff, p.allKeys_error_iff, fun _ _ _ => value_closest, ?_⟩
    intro keys hkeys key hkey
    rcases p.allKeys_cases with ⟨⟨e, he⟩, _⟩ | ⟨hchain, keys', hkeys', hmem⟩
    · simp [hkeys] at he
    obtain rfl : keys = keys' := Except.ok.inj (hkeys.symm.trans hkeys')
    rw [hmem key hkey, exists_value_iff hchain]
    constructor
    · intro ⟨name, hname, hlisted⟩
      by_cases hvalue : p.HasValue key name
      · exact ⟨name, hname, hvalue⟩
      · exact (hagree hchain name hname key hkey).2 ⟨hlisted, not_not.mp hvalue⟩
    · intro ⟨name, hname, hvalue⟩
      rcases mem_listedKeys_or_hiddenKey hvalue with hlisted | hhidden
      · exact ⟨name, hname, hlisted⟩
      · exact (hagree hchain name hname key hkey).1 hhidden

/-- A profile with one value in the map of profiles and another one in the settings. -/
def mixedProfile : Profile where
  name := "gcc"
  settings := ⟨[("profiles.gcc.qbs.architecture", .string "arm")], []⟩
  profiles := [("gcc", .map [("cpp.optimization", .string "fast")])]

/-- The key in the settings has a value but is not listed. -/
theorem not_inheritsRight_mixedProfile : ¬ mixedProfile.InheritsRight := by
  intro h
  have hkeys : mixedProfile.allKeys .recursive = .ok ["cpp.optimization"] := by
    rw [allKeys, allKeysInternal, dif_neg (by simp), if_neg (by simp), if_pos (by decide +kernel)]
    decide +kernel
  have hvalue : mixedProfile.value "qbs.architecture" .invalid = .ok (.string "arm") := by
    rw [value, possiblyInheritedValue, dif_neg (by simp), if_pos (by decide +kernel)]
    decide +kernel
  have hmem := (h.keys _ hkeys "qbs.architecture" (by decide)).mpr ⟨_, by simp, hvalue⟩
  simp at hmem

end Profile

end Qbs
