import QbsCore.Library.TransitionSystem
import QbsCore.Tools.ConfigValues
import QbsCore.Tools.Profile

/-!
# Parameters for setting up a project

The parameters have a build configuration and values that override it.  Both are also given out
as trees, which are made when they are needed for the first time and then kept.  Copies of the
parameters share their data until one of them is changed.

Main results:

- Theorem {lit}`SetupProjectParameters.returnsFresh_of_run`: in which runs all trees are those
  that belong to the current values.

Current gaps:

- Parameters that have nothing to do with the trees are left out; setting one of them counts as a
  change that detaches the data.
-/

namespace Qbs

/-- The shared data. A tree that is empty is made when it is needed. -/
structure SetupProjectParametersPrivate where
  topLevelProfile : String
  configurationName : String
  overriddenValues : ConfigValues
  buildConfiguration : ConfigValues
  buildConfigurationTree : VariantMap
  overriddenValuesTree : VariantMap
  finalBuildConfigTree : VariantMap

namespace SetupProjectParameters

open TransitionSystem ConfigValues

/-! ## The build configuration -/

def emptyProfileError (name : String) : ErrorInfo :=
  .message ("Unknown or empty profile '" ++ name ++ "'.")

def noConfigurationNameError : ErrorInfo :=
  .message "No build configuration name set."

/-- The values of a profile, unless there is none. -/
def profileValues (profile : Profile) : Except ErrorInfo ConfigValues :=
  if profile.isThere = true ∧ profile.name ≠ Profile.fallbackName then do
    let profileKeys ← profile.allKeys .recursive
    if profileKeys = [] then .error (emptyProfileError profile.name)
    else
      profileKeys.foldlM (fun buildConfig profileKey => do
        let value ← profile.value profileKey .invalid
        .ok (buildConfig.insert profileKey value)) .empty
  else .ok .empty

/-- The values of a profile and the name of the configuration. -/
def expandedBuildConfiguration (profile : Profile) (configurationName : String) :
    Except ErrorInfo ConfigValues := do
  let buildConfig ← profileValues profile
  if configurationName = "" then .error noConfigurationNameError
  else .ok (buildConfig.insert "qbs.configurationName" (.string configurationName))

/-! ## Changes -/

/-- Parameters that nothing was set for. -/
def initial : SetupProjectParametersPrivate where
  topLevelProfile := ""
  configurationName := "default"
  overriddenValues := .empty
  buildConfiguration := .empty
  buildConfigurationTree := []
  overriddenValuesTree := []
  finalBuildConfigTree := []

def setTopLevelProfile (profile : String) (d : SetupProjectParametersPrivate) :
    SetupProjectParametersPrivate :=
  { d with buildConfigurationTree := [], finalBuildConfigTree := [], topLevelProfile := profile }

def setConfigurationName (configurationName : String) (d : SetupProjectParametersPrivate) :
    SetupProjectParametersPrivate :=
  { d with
    buildConfigurationTree := []
    finalBuildConfigTree := []
    configurationName := configurationName }

def setOverriddenValues (values : ConfigValues) (d : SetupProjectParametersPrivate) :
    SetupProjectParametersPrivate :=
  { d with overriddenValues := values, overriddenValuesTree := [], finalBuildConfigTree := [] }

/-- The build configuration that the parameters are expanded to with some settings. -/
def expanded (settings : Settings) (d : SetupProjectParametersPrivate) :
    Except ErrorInfo ConfigValues :=
  expandedBuildConfiguration ⟨d.topLevelProfile, settings, []⟩ d.configurationName

/-- With an error nothing is changed. -/
def expandBuildConfiguration (settings : Settings) (d : SetupProjectParametersPrivate) :
    SetupProjectParametersPrivate :=
  match expanded settings d with
  | .error _ => d
  | .ok expandedConfig =>
      if d.buildConfiguration ≠ expandedConfig then
        { d with buildConfigurationTree := [], buildConfiguration := expandedConfig }
      else d

/-! ## Trees -/

/-- A tree that is there is kept. -/
def provideValuesTree (values : ConfigValues) (valueTree : VariantMap) : VariantMap :=
  if valueTree ≠ [] ∨ values.entries = [] then valueTree else valuesTree values

/-- The tree of the build configuration with the overridden values. -/
def finalTree (buildConfig overriddenValues : ConfigValues) : VariantMap :=
  provideValuesTree (buildConfig.overlay overriddenValues) []

/-- Provide a tree in the data and return it. -/
def overriddenValuesTree (d : SetupProjectParametersPrivate) :
    VariantMap × SetupProjectParametersPrivate :=
  let tree := provideValuesTree d.overriddenValues d.overriddenValuesTree
  (tree, { d with overriddenValuesTree := tree })

def buildConfigurationTree (d : SetupProjectParametersPrivate) :
    VariantMap × SetupProjectParametersPrivate :=
  let tree := provideValuesTree d.buildConfiguration d.buildConfigurationTree
  (tree, { d with buildConfigurationTree := tree })

def finalBuildConfigurationTree (d : SetupProjectParametersPrivate) :
    VariantMap × SetupProjectParametersPrivate :=
  let tree :=
    if d.finalBuildConfigTree = [] then finalTree d.buildConfiguration d.overriddenValues
    else d.finalBuildConfigTree
  (tree, { d with finalBuildConfigTree := tree })

/-! ## What the trees have to be -/

/-- The trees that are returned are those of the current values, where overridden values win. -/
structure ReturnsFresh (d : SetupProjectParametersPrivate) : Prop where
  overridden : (overriddenValuesTree d).1 = valuesTree d.overriddenValues
  build : (buildConfigurationTree d).1 = valuesTree d.buildConfiguration
  final : (finalBuildConfigurationTree d).1 =
    valuesTree (d.buildConfiguration.overlay d.overriddenValues)
  precedence : ∀ key, key ∈ d.overriddenValues.keys ∨ key ∈ d.buildConfiguration.keys →
    (∀ property, key ++ "." ++ property ∈ d.overriddenValues.keys ∨
      key ++ "." ++ property ∈ d.buildConfiguration.keys → nameElements key ≠ [key]) →
    (finalBuildConfigurationTree d).1.getConfigProperty (nameElements key) =
      if key ∈ d.overriddenValues.keys then d.overriddenValues.value key
      else d.buildConfiguration.value key

/-- The trees that are kept are those of the current values. -/
structure CachesFresh (d : SetupProjectParametersPrivate) : Prop where
  overridden : d.overriddenValuesTree ≠ [] →
    d.overriddenValuesTree = valuesTree d.overriddenValues
  build : d.buildConfigurationTree ≠ [] →
    d.buildConfigurationTree = valuesTree d.buildConfiguration
  final : d.finalBuildConfigTree ≠ [] →
    d.finalBuildConfigTree = valuesTree (d.buildConfiguration.overlay d.overriddenValues)

theorem provideValuesTree_eq {values : ConfigValues} {valueTree : VariantMap}
    (h : valueTree ≠ [] → valueTree = valuesTree values) :
    provideValuesTree values valueTree = valuesTree values := by
  unfold provideValuesTree
  by_cases hcached : valueTree = []
  · split_ifs with hempty
    · have hnone := hempty.resolve_left (not_not.mpr hcached)
      simp [hcached, valuesTree, hnone]
    · rfl
  · rw [if_pos (.inl hcached), h hcached]

theorem finalTree_eq (buildConfig overriddenValues : ConfigValues) :
    finalTree buildConfig overriddenValues =
      valuesTree (buildConfig.overlay overriddenValues) :=
  provideValuesTree_eq fun h => absurd rfl h

variable {d : SetupProjectParametersPrivate}

theorem finalBuildConfigurationTree_eq (h : CachesFresh d) :
    (finalBuildConfigurationTree d).1 =
      valuesTree (d.buildConfiguration.overlay d.overriddenValues) := by
  simp only [finalBuildConfigurationTree]
  split_ifs with hcached
  · exact finalTree_eq _ _
  · exact h.final hcached

/-- Fresh caches are enough for fresh trees. -/
theorem CachesFresh.returnsFresh (h : CachesFresh d) :
    ReturnsFresh d where
  overridden := provideValuesTree_eq h.overridden
  build := provideValuesTree_eq h.build
  final := finalBuildConfigurationTree_eq h
  precedence := by
    intro key hkey hmodule
    rw [finalBuildConfigurationTree_eq h, getConfigProperty_valuesTree, value_overlay]
    · exact (mem_keys_overlay _ _ key).mpr hkey
    · intro property hproperty
      exact hmodule property ((mem_keys_overlay _ _ _).mp hproperty)

/-! ## Changes and trees keep the caches fresh -/

theorem cachesFresh_initial : CachesFresh initial where
  overridden := by simp [initial]
  build := by simp [initial]
  final := by simp [initial]

theorem CachesFresh.setTopLevelProfile (h : CachesFresh d) (profile : String) :
    CachesFresh (setTopLevelProfile profile d) where
  overridden := h.overridden
  build := by simp [SetupProjectParameters.setTopLevelProfile]
  final := by simp [SetupProjectParameters.setTopLevelProfile]

theorem CachesFresh.setConfigurationName (h : CachesFresh d) (configurationName : String) :
    CachesFresh (setConfigurationName configurationName d) where
  overridden := h.overridden
  build := by simp [SetupProjectParameters.setConfigurationName]
  final := by simp [SetupProjectParameters.setConfigurationName]

theorem CachesFresh.setOverriddenValues (h : CachesFresh d) (values : ConfigValues) :
    CachesFresh (setOverriddenValues values d) where
  overridden := by simp [SetupProjectParameters.setOverriddenValues]
  build := h.build
  final := by simp [SetupProjectParameters.setOverriddenValues]

/-- Expanding leaves the build configuration as it is, or the final tree is not kept at the time. -/
def ExpandsRight (settings : Settings) (d : SetupProjectParametersPrivate) : Prop :=
  ∀ expandedConfig, expanded settings d = .ok expandedConfig →
    d.buildConfiguration ≠ expandedConfig → d.finalBuildConfigTree = []

theorem CachesFresh.expandBuildConfiguration (h : CachesFresh d) {settings : Settings}
    (hright : ExpandsRight settings d) :
    CachesFresh (expandBuildConfiguration settings d) := by
  unfold SetupProjectParameters.expandBuildConfiguration
  cases hexpanded : expanded settings d with
  | error e => exact h
  | ok expandedConfig =>
      simp only
      split_ifs with hchanged
      · exact {
          overridden := h.overridden
          build := by simp
          final := fun hcached => absurd (hright expandedConfig hexpanded hchanged) hcached
        }
      · exact h

theorem CachesFresh.overriddenValuesTree (h : CachesFresh d) :
    CachesFresh (overriddenValuesTree d).2 where
  overridden := fun _ => provideValuesTree_eq h.overridden
  build := h.build
  final := h.final

theorem CachesFresh.buildConfigurationTree (h : CachesFresh d) :
    CachesFresh (buildConfigurationTree d).2 where
  overridden := h.overridden
  build := fun _ => provideValuesTree_eq h.build
  final := h.final

theorem CachesFresh.finalBuildConfigurationTree (h : CachesFresh d) :
    CachesFresh (finalBuildConfigurationTree d).2 where
  overridden := h.overridden
  build := h.build
  final := fun _ => finalBuildConfigurationTree_eq h

/-! ## Objects that share data -/

/-- Calls on objects, which are counted in the order in which they are created. -/
inductive Call where
  | create
  | copy (o : ℕ)
  | assign (o other : ℕ)
  | setTopLevelProfile (o : ℕ) (profile : String)
  | setConfigurationName (o : ℕ) (configurationName : String)
  | setOverriddenValues (o : ℕ) (values : ConfigValues)
  | setOther (o : ℕ)
  | expandBuildConfiguration (o : ℕ) (settings : Settings)
  | overriddenValuesTree (o : ℕ)
  | buildConfigurationTree (o : ℕ)
  | finalBuildConfigurationTree (o : ℕ)

/-- All data, the number of data that were created, and the data of each object. -/
structure World where
  data : ℕ → SetupProjectParametersPrivate
  created : ℕ
  objects : List ℕ

namespace World

def initial : World where
  data := fun _ => SetupProjectParameters.initial
  created := 0
  objects := []

/-- Change the data of an object, which are copied first if another object has them, too. -/
def change (w : World) (o : ℕ) (f : SetupProjectParametersPrivate → SetupProjectParametersPrivate) :
    Option World :=
  w.objects[o]?.map fun i =>
    if w.objects.count i = 1 then { w with data := Function.update w.data i (f (w.data i)) }
    else
      { data := Function.update w.data w.created (f (w.data i))
        created := w.created + 1
        objects := w.objects.set o w.created }

/-- Provide a tree in the data of an object, for all objects that share them. -/
def provide (w : World) (o : ℕ)
    (f : SetupProjectParametersPrivate → VariantMap × SetupProjectParametersPrivate) :
    Option World :=
  w.objects[o]?.map fun i =>
    { w with data := Function.update w.data i (f (w.data i)).2 }

def perform (w : World) : Call → Option World
  | .create => some
      { data := Function.update w.data w.created SetupProjectParameters.initial
        created := w.created + 1
        objects := w.objects ++ [w.created] }
  | .copy o => w.objects[o]?.map fun i => { w with objects := w.objects ++ [i] }
  | .assign o other => w.objects[other]?.map fun i => { w with objects := w.objects.set o i }
  | .setTopLevelProfile o profile => w.change o (setTopLevelProfile profile)
  | .setConfigurationName o configurationName =>
      w.change o (setConfigurationName configurationName)
  | .setOverriddenValues o values => w.change o (setOverriddenValues values)
  | .setOther o => w.change o id
  | .expandBuildConfiguration o settings => w.change o (expandBuildConfiguration settings)
  | .overriddenValuesTree o => w.provide o overriddenValuesTree
  | .buildConfigurationTree o => w.provide o buildConfigurationTree
  | .finalBuildConfigurationTree o => w.provide o finalBuildConfigurationTree

def Step (w : World) (call : Call) (w' : World) : Prop :=
  w.perform call = some w'

/-- All objects return the trees that belong to their current values. -/
def TreesFresh (w : World) : Prop :=
  ∀ o i : ℕ, w.objects[o]? = some i → ReturnsFresh (w.data i)

/-- A call that expands the build configuration does not change it while the final tree is kept. -/
def CallsRight (w : World) : Call → Prop
  | .expandBuildConfiguration o settings =>
      ∀ i, w.objects[o]? = some i → ExpandsRight settings (w.data i)
  | _ => True

/-- All data have fresh caches. -/
def AllFresh (w : World) : Prop :=
  ∀ i, CachesFresh (w.data i)

variable {w w' : World}

theorem AllFresh.treesFresh (h : w.AllFresh) : w.TreesFresh :=
  fun _ i _ => (h i).returnsFresh

theorem AllFresh.update (h : w.AllFresh) (i : ℕ) {d : SetupProjectParametersPrivate}
    (hd : CachesFresh d) (j : ℕ) : CachesFresh (Function.update w.data i d j) := by
  by_cases hij : j = i
  · subst hij
    simpa using hd
  · simpa [Function.update_of_ne hij] using h j

theorem AllFresh.change {o : ℕ} {f : SetupProjectParametersPrivate → SetupProjectParametersPrivate}
    (h : w.AllFresh) (hf : ∀ i, w.objects[o]? = some i → CachesFresh (f (w.data i)))
    (hchange : w.change o f = some w') : w'.AllFresh := by
  obtain ⟨i, hi, rfl⟩ := Option.map_eq_some_iff.mp hchange
  split_ifs
  · exact h.update i (hf i hi)
  · exact h.update w.created (hf i hi)

theorem AllFresh.provide {o : ℕ}
    {f : SetupProjectParametersPrivate → VariantMap × SetupProjectParametersPrivate}
    (h : w.AllFresh) (hf : ∀ i, CachesFresh (f (w.data i)).2) (hprovide : w.provide o f = some w') :
    w'.AllFresh := by
  obtain ⟨i, _, rfl⟩ := Option.map_eq_some_iff.mp hprovide
  exact h.update i (hf i)

/-- A call of the right kind keeps all caches fresh. -/
theorem AllFresh.step {call : Call} (h : w.AllFresh) (hright : w.CallsRight call)
    (hstep : w.Step call w') : w'.AllFresh := by
  cases call with
  | create =>
      obtain rfl := Option.some.inj hstep
      exact h.update w.created cachesFresh_initial
  | copy o =>
      obtain ⟨i, _, rfl⟩ := Option.map_eq_some_iff.mp hstep
      exact h
  | assign o other =>
      obtain ⟨i, _, rfl⟩ := Option.map_eq_some_iff.mp hstep
      exact h
  | setTopLevelProfile o profile =>
      exact h.change (fun i _ => (h i).setTopLevelProfile profile) hstep
  | setConfigurationName o configurationName =>
      exact h.change (fun i _ => (h i).setConfigurationName configurationName) hstep
  | setOverriddenValues o values =>
      exact h.change (fun i _ => (h i).setOverriddenValues values) hstep
  | setOther o => exact h.change (fun i _ => h i) hstep
  | expandBuildConfiguration o settings =>
      exact h.change (fun i hi => (h i).expandBuildConfiguration (hright i hi)) hstep
  | overriddenValuesTree o => exact h.provide (fun i => (h i).overriddenValuesTree) hstep
  | buildConfigurationTree o => exact h.provide (fun i => (h i).buildConfigurationTree) hstep
  | finalBuildConfigurationTree o =>
      exact h.provide (fun i => (h i).finalBuildConfigurationTree) hstep

end World

open World

/-- In a run whose calls do not expand the build configuration to another one while the final tree
is kept, all objects return fresh trees at all times. -/
theorem returnsFresh_of_run {trace : List (World × Call)} {w : World}
    (hrun : Run Step World.initial trace w) (hright : ∀ e ∈ trace, e.1.CallsRight e.2) :
    (∀ e ∈ trace, e.1.TreesFresh) ∧ w.TreesFresh := by
  have hkeep : ∀ w call w', AllFresh w → w.CallsRight call → w.Step call w' → AllFresh w' :=
    fun _ _ _ h hright hstep => h.step hright hstep
  have hinitial : AllFresh World.initial := fun _ => cachesFresh_initial
  constructor
  · intro e he
    exact (hrun.invariant_trace CallsRight hkeep hinitial hright e he).treesFresh
  · exact (hrun.invariant CallsRight hkeep hinitial hright).treesFresh

/-- Expand the configuration of a new object, and then copy it. -/
theorem returnsFresh_of_run_expand :
    ∃ trace w, Run Step World.initial trace w ∧ trace.map Prod.snd =
      [.create, .expandBuildConfiguration 0 ⟨[], []⟩, .copy 0] ∧
      (∀ e ∈ trace, e.1.TreesFresh) ∧ w.TreesFresh := by
  obtain ⟨w1, h1⟩ : ∃ w1, World.initial.Step .create w1 := ⟨_, rfl⟩
  obtain ⟨w2, h2⟩ : ∃ w2, w1.Step (.expandBuildConfiguration 0 ⟨[], []⟩) w2 := by
    obtain rfl := Option.some.inj h1
    exact ⟨_, rfl⟩
  obtain ⟨w3, h3⟩ : ∃ w3, w2.Step (.copy 0) w3 := by
    obtain rfl := Option.some.inj h1
    obtain rfl := Option.some.inj h2
    exact ⟨_, rfl⟩
  have hrun := ((Run.nil.snoc h1).snoc h2).snoc h3
  have hright : ∀ e ∈ [(World.initial, Call.create),
      (w1, .expandBuildConfiguration 0 ⟨[], []⟩), (w2, .copy 0)], e.1.CallsRight e.2 := by
    have hexpand : w1.CallsRight (.expandBuildConfiguration 0 ⟨[], []⟩) := by
      obtain rfl := Option.some.inj h1
      intro i hi _ _ _
      obtain rfl : 0 = i := by simpa [World.initial] using hi
      rfl
    simpa [CallsRight] using hexpand
  exact ⟨_, w3, hrun, by simp, returnsFresh_of_run hrun hright⟩

def someValues : ConfigValues :=
  ConfigValues.empty.insert "project.debug" (.bool true)

/-- What is left of the parameters if their final tree was used before they were expanded. -/
def staleParameters : SetupProjectParametersPrivate :=
  expandBuildConfiguration ⟨[], []⟩
    (finalBuildConfigurationTree (setOverriddenValues someValues initial)).2

/-- After the final tree was used, the expanded values do not show up in it. -/
theorem not_treesFresh_of_run :
    ¬ ∀ trace w, Run Step World.initial trace w → w.TreesFresh := by
  intro hall
  obtain ⟨w1, h1⟩ : ∃ w1, World.initial.Step .create w1 := ⟨_, rfl⟩
  obtain ⟨w2, h2⟩ : ∃ w2, w1.Step (.setOverriddenValues 0 someValues) w2 := by
    obtain rfl := Option.some.inj h1
    exact ⟨_, rfl⟩
  obtain ⟨w3, h3⟩ : ∃ w3, w2.Step (.finalBuildConfigurationTree 0) w3 := by
    obtain rfl := Option.some.inj h1
    obtain rfl := Option.some.inj h2
    exact ⟨_, rfl⟩
  obtain ⟨w4, h4⟩ : ∃ w4, w3.Step (.expandBuildConfiguration 0 ⟨[], []⟩) w4 := by
    obtain rfl := Option.some.inj h1
    obtain rfl := Option.some.inj h2
    obtain rfl := Option.some.inj h3
    exact ⟨_, rfl⟩
  have hfresh := hall _ w4 ((((Run.nil.snoc h1).snoc h2).snoc h3).snoc h4) 0 0
  obtain rfl := Option.some.inj h1
  obtain rfl := Option.some.inj h2
  obtain rfl := Option.some.inj h3
  obtain rfl := Option.some.inj h4
  have hfinal : (finalBuildConfigurationTree staleParameters).1 = _ := (hfresh rfl).final
  exact absurd hfinal (by decide +kernel)

end SetupProjectParameters

end Qbs
