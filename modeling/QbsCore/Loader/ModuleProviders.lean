import QbsCore.Language.Variant
import QbsCore.Library.StateOp
import QbsCore.Library.TransitionSystem
import QbsCore.Tools.Error
import QbsCore.Tools.FileInfo

/-!
# Module providers

A module that is in no search path may come from a module provider.  A provider is looked
up in the search paths of the product, run with the configuration of the product, and then
adds search paths of its own.  What a provider has given, or that there is none, is stored
under its name, its configuration and the kind of the lookup.

Main results:

- Theorem {lit}`findModuleProvider_eq`: what a lookup gives if the stored results are still
  valid for it.
- Theorem {lit}`lookups_transparent`: in a run in which they are, each lookup gives what it
  gives with nothing stored.

Current gaps:

- The configuration of a product is given by its value.
-/

namespace Qbs

namespace ModuleProviders

/-- The name of a provider, split at the dots. -/
structure ProviderName where
  components : List PathText
  separated : Segments.Separated '.' components
  nonempty : components ≠ []

namespace ProviderName

def toString (name : ProviderName) : PathText :=
  ['.'].intercalate name.components

def fromString (text : PathText) : ProviderName where
  components := text.splitOn '.'
  separated := Segments.separated_splitOn text
  nonempty := List.splitOn_ne_nil '.' text

theorem toString_injective {m n : ProviderName} (h : m.toString = n.toString) : m = n := by
  have hsplit := congrArg (List.splitOn '.') h
  unfold toString at hsplit
  rw [List.splitOn_intercalate '.' m.separated m.nonempty,
    List.splitOn_intercalate '.' n.separated n.nonempty] at hsplit
  cases m
  cases n
  cases hsplit
  rfl

end ProviderName

inductive ModuleProviderLookup where
  | scoped
  | named
  | fallback
deriving DecidableEq

structure Provider where
  name : ProviderName
  lookup : ModuleProviderLookup

structure ModuleProviderInfo where
  name : ProviderName
  config : VariantMap
  providerFile : PathText
  searchPaths : List PathText

abbrev CacheKey := PathText × VariantMap × ModuleProviderLookup

/-- The results of providers that are stored, also between two runs of the program. -/
abbrev ModuleProvidersCache := List (CacheKey × ModuleProviderInfo)

/-- The search paths of a reader; the last extra ones come first. -/
structure ItemReader where
  searchPaths : List PathText
  extraSearchPaths : List (List PathText)

def ItemReader.allSearchPaths (reader : ItemReader) : List PathText :=
  (reader.extraSearchPaths.reverse.flatten ++ reader.searchPaths).eraseDups

/-- What is known of the files during a lookup. -/
structure FileSystem where
  homePath : PathText
  fileExists : PathText → Bool
  canonicalFilePath : PathText → PathText

def FileSystem.makePathsCanonical (files : FileSystem) (paths : List PathText) : List PathText :=
  (paths.map files.canonicalFilePath).filter fun p => p ≠ []

def ItemReader.pushExtraSearchPaths (reader : ItemReader) (files : FileSystem)
    (extraSearchPaths : List PathText) : ItemReader :=
  { reader with
    extraSearchPaths := reader.extraSearchPaths ++ [files.makePathsCanonical extraSearchPaths] }

/-- What lookups depend on but never change: when two configurations are taken as equal, and what
search paths a provider gives, which depends on its name, its file and its configuration. -/
structure Providers where
  sameConfig : VariantMap → VariantMap → Bool
  sameConfig_self : ∀ config, sameConfig config config = true
  getProviderSearchPaths : ProviderName → PathText → VariantMap →
    Except ErrorInfo (List PathText)

/-- The state of the loader. -/
structure LoaderState where
  files : FileSystem
  reader : ItemReader
  providers : ModuleProvidersCache

abbrev Op (α : Type) :=
  StateOp LoaderState ErrorInfo α

structure ModuleProviderResult where
  providerFound : Bool
  providerAddedSearchPaths : Bool
deriving DecidableEq

/-! ## Looking up provider files -/

/-- The file if it exists. -/
def FileSystem.existing (files : FileSystem) (path : PathText) : Option PathText :=
  if files.fileExists path then some path else none

/-- The provider file below a directory, in the directories that the name stands for. -/
def scopedFile (files : FileSystem) (name : ProviderName) (fullPath : PathText) : PathText :=
  FileInfo.resolvePath files.homePath
    (name.components.foldl (FileInfo.resolvePath files.homePath) fullPath) "provider.qbs".toList

/-- The provider file for a search path. -/
def providerFileIn (files : FileSystem) (provider : Provider) (path : PathText) :
    Option PathText :=
  let fullPath := FileInfo.resolvePath files.homePath path "module-providers".toList
  match provider.lookup with
  | .named =>
      let result := FileInfo.resolvePath files.homePath fullPath
        (provider.name.toString ++ ".qbs".toList)
      if files.fileExists result then some result
      else files.existing (scopedFile files provider.name fullPath)
  | .scoped => files.existing (scopedFile files provider.name fullPath)
  | .fallback =>
      files.existing
        (FileInfo.resolvePath files.homePath fullPath "__fallback/provider.qbs".toList)

/-- The first provider file in the search paths; without any the result is empty. -/
def findModuleProviderFile (files : FileSystem) (reader : ItemReader) (provider : Provider) :
    PathText :=
  (reader.allSearchPaths.findSome? (providerFileIn files provider)).getD []

/-! ## Providers and what is stored of them -/

/-- The configuration of a provider in that of all providers. -/
def configOf (moduleProviderConfig : VariantMap) (name : ProviderName) : VariantMap :=
  (moduleProviderConfig.value (String.ofList name.toString)).toMap

def keyOf (moduleProviderConfig : VariantMap) (provider : Provider) : CacheKey :=
  (provider.name.toString, configOf moduleProviderConfig provider.name, provider.lookup)

namespace Providers

variable (world : Providers)

def sameKey (k l : CacheKey) : Bool :=
  k.1 = l.1 && world.sameConfig k.2.1 l.2.1 && k.2.2 = l.2.2

/-- What is stored under a key. -/
def stored (providers : ModuleProvidersCache) (key : CacheKey) : Option ModuleProviderInfo :=
  (providers.find? fun e => world.sameKey e.1 key).map Prod.snd

/-- Run a provider that nothing is stored of. What is known of it is stored before it runs. -/
def runProvider (moduleProviderConfig : VariantMap) (provider : Provider) :
    Op ModuleProviderInfo :=
  StateOp.transform fun s =>
    let config := configOf moduleProviderConfig provider.name
    let info : ModuleProviderInfo :=
      ⟨provider.name, config, findModuleProviderFile s.files s.reader provider, []⟩
    let store (info : ModuleProviderInfo) : LoaderState :=
      { s with providers := (keyOf moduleProviderConfig provider, info) :: s.providers }
    if info.providerFile = [] then (.ok info, store info)
    else
      match world.getProviderSearchPaths provider.name info.providerFile config with
      | .error e => (.error e, store info)
      | .ok searchPaths =>
          (.ok { info with searchPaths := searchPaths },
            store { info with searchPaths := searchPaths })

/-- What is stored of a provider, which is run before if nothing is. -/
def providerInfo (moduleProviderConfig : VariantMap) (provider : Provider) :
    Op ModuleProviderInfo := do
  match ← StateOp.query fun s =>
      .ok (world.stored s.providers (keyOf moduleProviderConfig provider)) with
  | some info => pure info
  | none => world.runProvider moduleProviderConfig provider

/-- Take what is known of one more provider into account. -/
def useInfo (found : Bool × List PathText) (provider : Provider) (info : ModuleProviderInfo) :
    Except ErrorInfo (Bool × List PathText) :=
  if info.providerFile = [] then
    if provider.lookup = .named then
      .error (.message ("Unknown provider '" ++ String.ofList provider.name.toString ++ "'"))
    else .ok found
  else .ok (true, found.2 ++ info.searchPaths)

/-- Look at one more provider. -/
def addProvider (moduleProviderConfig : VariantMap) (found : Bool × List PathText)
    (provider : Provider) : Op (Bool × List PathText) := do
  let info ← world.providerInfo moduleProviderConfig provider
  StateOp.query fun _ => useInfo found provider info

def findModuleProvider (moduleProviderConfig : VariantMap) (providers : List Provider) :
    Op ModuleProviderResult :=
  if providers = [] then pure ⟨false, false⟩
  else do
    let found ← providers.foldlM (world.addProvider moduleProviderConfig) (false, [])
    if found.2 = [] then pure ⟨found.1, false⟩
    else
      StateOp.update fun s => { s with reader := s.reader.pushExtraSearchPaths s.files found.2 }
      pure ⟨found.1, true⟩

/-- The names that a qualified name starts with, itself first. -/
def enclosing (moduleName : ProviderName) : List ProviderName :=
  moduleName.components.inits.tail.reverse.map fun components =>
    ProviderName.fromString (['.'].intercalate components)

/-- The providers that may know a module: those that a product names or, if it names none, those
whose names the name of the module starts with. -/
def providersToRun (providerNames : Option (List ProviderName)) (moduleName : ProviderName) :
    List Provider :=
  match providerNames with
  | some names => names.map fun name => ⟨name, .named⟩
  | none => (enclosing moduleName).map fun name => ⟨name, .scoped⟩

/-- Look for a module in the providers that may know it, and then in the fallback provider. -/
def executeModuleProvider (moduleProviderConfig : VariantMap)
    (providerNames : Option (List ProviderName)) (moduleName : ProviderName)
    (fallbackEnabled : Bool) : Op ModuleProviderResult := do
  let result ← world.findModuleProvider moduleProviderConfig
    (providersToRun providerNames moduleName)
  if fallbackEnabled && !result.providerFound && providerNames.isNone then
    world.findModuleProvider moduleProviderConfig [⟨moduleName, .fallback⟩]
  else pure result

/-! ## Lookups with nothing stored -/

/-- What is known of a provider that is run now. -/
def freshInfo (files : FileSystem) (reader : ItemReader) (moduleProviderConfig : VariantMap)
    (provider : Provider) : Except ErrorInfo ModuleProviderInfo :=
  let config := configOf moduleProviderConfig provider.name
  let providerFile := findModuleProviderFile files reader provider
  if providerFile = [] then .ok ⟨provider.name, config, [], []⟩
  else
    (world.getProviderSearchPaths provider.name providerFile config).map fun searchPaths =>
      ⟨provider.name, config, providerFile, searchPaths⟩

/-- Look at one more provider, which is run now. -/
def addFresh (files : FileSystem) (reader : ItemReader) (moduleProviderConfig : VariantMap)
    (found : Bool × List PathText) (provider : Provider) :
    Except ErrorInfo (Bool × List PathText) :=
  (world.freshInfo files reader moduleProviderConfig provider).bind (useInfo found provider)

/-- The result of a lookup and the search paths after it, if all providers are run now. It depends
on the files, the search paths, the configuration and the providers only. -/
def freshResult (files : FileSystem) (reader : ItemReader) (moduleProviderConfig : VariantMap)
    (providers : List Provider) : Except ErrorInfo ModuleProviderResult × ItemReader :=
  if providers = [] then (.ok ⟨false, false⟩, reader)
  else
    match providers.foldlM (world.addFresh files reader moduleProviderConfig) (false, []) with
    | .error e => (.error e, reader)
    | .ok found =>
        if found.2 = [] then (.ok ⟨found.1, false⟩, reader)
        else (.ok ⟨found.1, true⟩, reader.pushExtraSearchPaths files found.2)

/-- What is stored of a provider is what running it now would give. -/
def Valid (s : LoaderState) (moduleProviderConfig : VariantMap) (provider : Provider) : Prop :=
  ∀ info, world.stored s.providers (keyOf moduleProviderConfig provider) = some info →
    world.freshInfo s.files s.reader moduleProviderConfig provider = .ok info

variable {world} {s : LoaderState} {moduleProviderConfig : VariantMap}

variable {l : List Provider} {p : Provider}

/-- Keys for the same configuration are only taken as equal for the same provider. -/
theorem eq_of_sameKey {q : Provider}
    (h : world.sameKey (keyOf moduleProviderConfig p) (keyOf moduleProviderConfig q) = true) :
    p = q := by
  unfold sameKey keyOf at h
  simp only [Bool.and_eq_true, decide_eq_true_eq] at h
  have hname := ProviderName.toString_injective h.1.1
  cases p
  cases q
  cases hname
  cases h.2
  rfl

/-- What is stored after one more provider was run. -/
theorem stored_cons (providers : ModuleProvidersCache) (p q : Provider)
    (info : ModuleProviderInfo) :
    world.stored ((keyOf moduleProviderConfig p, info) :: providers)
        (keyOf moduleProviderConfig q) =
      if world.sameKey (keyOf moduleProviderConfig p) (keyOf moduleProviderConfig q) then some info
      else world.stored providers (keyOf moduleProviderConfig q) := by
  unfold stored
  rw [List.find?_cons]
  cases world.sameKey (keyOf moduleProviderConfig p) (keyOf moduleProviderConfig q) <;> rfl

/-- What is known of a provider of which nothing is stored. -/
theorem runProvider_eq (p : Provider) :
    ((world.runProvider moduleProviderConfig p).outcome s).1 =
        world.freshInfo s.files s.reader moduleProviderConfig p ∧
      ∃ info, ((world.runProvider moduleProviderConfig p).outcome s).2 =
          { s with providers := (keyOf moduleProviderConfig p, info) :: s.providers } ∧
        ∀ info', world.freshInfo s.files s.reader moduleProviderConfig p = .ok info' →
          info = info' := by
  unfold runProvider freshInfo
  rw [StateOp.outcome_transform]
  dsimp only
  generalize findModuleProviderFile s.files s.reader p = file
  split_ifs with hfile
  · subst hfile
    exact ⟨rfl, _, rfl, fun info' h => Except.ok.inj h⟩
  · cases world.getProviderSearchPaths p.name file (configOf moduleProviderConfig p.name) with
    | error e => exact ⟨rfl, _, rfl, fun info' h => by cases h⟩
    | ok searchPaths => exact ⟨rfl, _, rfl, fun info' h => Except.ok.inj h⟩

/-- If what is stored of a provider is valid, it gives what running it now would give, and what is
stored of others stays valid. -/
theorem providerInfo_eq (hvalid : world.Valid s moduleProviderConfig p) :
    ∃ providers, (world.providerInfo moduleProviderConfig p).outcome s =
        (world.freshInfo s.files s.reader moduleProviderConfig p,
          { s with providers := providers }) ∧
      ∀ info, world.freshInfo s.files s.reader moduleProviderConfig p = .ok info →
        ∀ q, world.Valid s moduleProviderConfig q →
          world.Valid { s with providers := providers } moduleProviderConfig q := by
  unfold providerInfo
  rw [StateOp.outcome_bind, StateOp.outcome_query]
  dsimp only
  cases hstored : world.stored s.providers (keyOf moduleProviderConfig p) with
  | some info =>
      dsimp only
      rw [StateOp.outcome_pure, hvalid info hstored]
      exact ⟨s.providers, rfl, fun _ _ q hq => hq⟩
  | none =>
      dsimp only
      have hrun := @runProvider_eq world s moduleProviderConfig p
      rcases hrun with ⟨hfst, info, hsnd, hinfo⟩
      refine ⟨(keyOf moduleProviderConfig p, info) :: s.providers, Prod.ext hfst hsnd, ?_⟩
      intro info' hfresh q hq info'' hstored''
      rw [stored_cons] at hstored''
      split_ifs at hstored'' with hkey
      · rw [← Option.some.inj hstored'', ← eq_of_sameKey hkey, hinfo info' hfresh]
        exact hfresh
      · exact hq info'' hstored''

/-- Looking at a provider of which only valid results are stored. -/
theorem addProvider_eq (hvalid : world.Valid s moduleProviderConfig p)
    (found : Bool × List PathText) :
    ∃ providers, (world.addProvider moduleProviderConfig found p).outcome s =
        (world.addFresh s.files s.reader moduleProviderConfig found p,
          { s with providers := providers }) ∧
      ∀ found', world.addFresh s.files s.reader moduleProviderConfig found p = .ok found' →
        ∀ q, world.Valid s moduleProviderConfig q →
          world.Valid { s with providers := providers } moduleProviderConfig q := by
  rcases providerInfo_eq hvalid with ⟨providers, hinfo, hkeep⟩
  refine ⟨providers, ?_, ?_⟩
  · unfold addProvider addFresh
    rw [StateOp.outcome_bind, hinfo]
    cases world.freshInfo s.files s.reader moduleProviderConfig p <;> rfl
  · intro found' hfound
    unfold addFresh at hfound
    cases hfresh : world.freshInfo s.files s.reader moduleProviderConfig p with
    | error e =>
        rw [hfresh] at hfound
        cases hfound
    | ok info => exact hkeep info hfresh

/-- Looking at several providers. -/
theorem foldlM_addProvider_eq (hvalid : ∀ p, p ∈ l → world.Valid s moduleProviderConfig p)
    (found : Bool × List PathText) :
    ∃ providers, (l.foldlM (world.addProvider moduleProviderConfig) found).outcome s =
        (l.foldlM (world.addFresh s.files s.reader moduleProviderConfig) found,
          { s with providers := providers }) ∧
      ∀ found', l.foldlM (world.addFresh s.files s.reader moduleProviderConfig) found = .ok found' →
        ∀ q, world.Valid s moduleProviderConfig q →
          world.Valid { s with providers := providers } moduleProviderConfig q := by
  induction l generalizing s found with
  | nil => exact ⟨s.providers, rfl, fun _ _ _ hq => hq⟩
  | cons p l ih =>
      rcases addProvider_eq (hvalid p List.mem_cons_self) found with ⟨providers, hadd, hkeep⟩
      rw [List.foldlM_cons, List.foldlM_cons, StateOp.outcome_bind, hadd]
      cases hfound : world.addFresh s.files s.reader moduleProviderConfig found p with
      | error e => exact ⟨providers, rfl, fun _ h => by cases h⟩
      | ok found' =>
          have hkeep' := hkeep found' hfound
          rcases ih (s := { s with providers := providers })
            (fun q hq => hkeep' q (hvalid q (List.mem_cons_of_mem p hq))) found' with
            ⟨providers', hfold, hkeep''⟩
          exact ⟨providers', hfold, fun found'' h q hq => hkeep'' found'' h q (hkeep' q hq)⟩

/-- If what is stored of the providers is valid, a lookup gives what it gives if all providers are
run now, and what is stored stays valid as long as no search paths are added. -/
theorem findModuleProvider_eq {providers : List Provider}
    (hvalid : ∀ p, p ∈ providers → world.Valid s moduleProviderConfig p) :
    (((world.findModuleProvider moduleProviderConfig providers).outcome s).1,
        ((world.findModuleProvider moduleProviderConfig providers).outcome s).2.reader) =
      world.freshResult s.files s.reader moduleProviderConfig providers ∧
    ((world.findModuleProvider moduleProviderConfig providers).outcome s).2.files = s.files ∧
    ∀ result, world.freshResult s.files s.reader moduleProviderConfig providers =
        (.ok result, s.reader) →
      ∀ q, world.Valid s moduleProviderConfig q →
        world.Valid ((world.findModuleProvider moduleProviderConfig providers).outcome s).2
          moduleProviderConfig q := by
  unfold findModuleProvider freshResult
  split_ifs
  · exact ⟨rfl, rfl, fun _ _ _ hq => hq⟩
  · rcases foldlM_addProvider_eq hvalid (false, []) with ⟨stored, hfold, hkeep⟩
    rw [StateOp.outcome_bind, hfold]
    cases hfound : providers.foldlM (world.addFresh s.files s.reader moduleProviderConfig)
        (false, []) with
    | error e => exact ⟨rfl, rfl, fun result h => by cases (Prod.mk.inj h).1⟩
    | ok found =>
        dsimp only
        split_ifs
        · exact ⟨rfl, rfl, fun _ _ q hq => hkeep found hfound q hq⟩
        · rw [StateOp.outcome_bind, StateOp.outcome_update]
          refine ⟨rfl, rfl, fun result h => ?_⟩
          have hlength := congrArg (fun r => r.extraSearchPaths.length) (Prod.mk.inj h).2
          simp [ItemReader.pushExtraSearchPaths] at hlength

/-- As long as no provider is found, there are no search paths to add. -/
theorem foldlM_addFresh_notFound {files : FileSystem} {reader : ItemReader}
    {found found' : Bool × List PathText} (hbefore : found.1 = false → found.2 = [])
    (h : l.foldlM (world.addFresh files reader moduleProviderConfig) found = .ok found') :
    (found'.1 = false → found'.2 = []) ∧ (found.1 = true → found'.1 = true) ∧
      ((∃ p, p ∈ l ∧ findModuleProviderFile files reader p ≠ []) → found'.1 = true) := by
  induction l generalizing found with
  | nil =>
      cases h
      exact ⟨hbefore, id, fun ⟨p, hp, _⟩ => absurd hp List.not_mem_nil⟩
  | cons p l ih =>
      rw [List.foldlM_cons] at h
      rcases Fallible.bind_eq_ok_iff.mp h with ⟨found₁, hadd, hrest⟩
      unfold addFresh at hadd
      rcases Fallible.bind_eq_ok_iff.mp hadd with ⟨info, hinfo, huse⟩
      have hfile : info.providerFile = findModuleProviderFile files reader p := by
        unfold freshInfo at hinfo
        dsimp only at hinfo
        split_ifs at hinfo with hnone
        · rw [hnone, ← Except.ok.inj hinfo]
        · rcases Fallible.map_eq_ok_iff.mp hinfo with ⟨searchPaths, -, rfl⟩
          rfl
      unfold useInfo at huse
      split_ifs at huse with hnone hnamed
      · cases huse
        rcases ih hbefore hrest with ⟨hnotFound, hfound, hfiles⟩
        refine ⟨hnotFound, hfound, ?_⟩
        rintro ⟨q, hq, hqfile⟩
        rcases List.mem_cons.mp hq with rfl | hq
        · exact absurd (hfile.symm.trans hnone) hqfile
        · exact hfiles ⟨q, hq, hqfile⟩
      · cases huse
        rcases ih (by simp) hrest with ⟨hnotFound, hfound, -⟩
        exact ⟨hnotFound, fun _ => hfound rfl, fun _ => hfound rfl⟩

/-- No search paths are added as long as no provider is found, and a provider is found if there is
a file for it. -/
theorem freshResult_ok {files : FileSystem} {reader reader' : ItemReader}
    {result : ModuleProviderResult}
    (h : world.freshResult files reader moduleProviderConfig l = (.ok result, reader')) :
    (result.providerFound = false → reader' = reader) ∧
      ((∃ p, p ∈ l ∧ findModuleProviderFile files reader p ≠ []) →
        result.providerFound = true) := by
  unfold freshResult at h
  split_ifs at h with hnil
  · cases h
    exact ⟨fun _ => rfl, fun ⟨p, hp, _⟩ => absurd (hnil ▸ hp) List.not_mem_nil⟩
  · cases hfold : l.foldlM (world.addFresh files reader moduleProviderConfig) (false, []) with
    | error e =>
        rw [hfold] at h
        cases (Prod.mk.inj h).1
    | ok found =>
        rcases foldlM_addFresh_notFound (fun _ => rfl) hfold with ⟨hnotFound, -, hfiles⟩
        rw [hfold] at h
        dsimp only at h
        split_ifs at h with hpaths
        · cases h
          exact ⟨fun _ => rfl, hfiles⟩
        · cases h
          exact ⟨fun hfound => absurd (hnotFound hfound) hpaths, hfiles⟩

/-! ## Runs -/

/-- One lookup, with the files, the search paths and the configuration in effect at that time. -/
structure Lookup where
  files : FileSystem
  reader : ItemReader
  moduleProviderConfig : VariantMap
  providers : List Provider

/-- What a lookup gives and which search paths it leaves. -/
def result (world : Providers) (l : Lookup) (providers : ModuleProvidersCache) :
    Except ErrorInfo ModuleProviderResult × ItemReader :=
  let outcome := (world.findModuleProvider l.moduleProviderConfig l.providers).outcome
    ⟨l.files, l.reader, providers⟩
  (outcome.1, outcome.2.reader)

/-- One lookup after the other, of which the results are stored. -/
def Step (world : Providers) (providers : ModuleProvidersCache) (l : Lookup)
    (providers' : ModuleProvidersCache) : Prop :=
  providers' = ((world.findModuleProvider l.moduleProviderConfig l.providers).outcome
    ⟨l.files, l.reader, providers⟩).2.providers

/-- Whatever is stored under the key of a provider was stored for the same configuration, for the
file that is found now, and not after a failure of the provider. -/
structure StillApplies (world : Providers) (providers : ModuleProvidersCache) (l : Lookup) :
    Prop where
  config : ∀ p, p ∈ l.providers → ∀ info,
    world.stored providers (keyOf l.moduleProviderConfig p) = some info →
      info.config = configOf l.moduleProviderConfig p.name
  file : ∀ p, p ∈ l.providers → ∀ info,
    world.stored providers (keyOf l.moduleProviderConfig p) = some info →
      info.providerFile = findModuleProviderFile l.files l.reader p
  noFailure : ∀ p, p ∈ l.providers → ∀ info,
    world.stored providers (keyOf l.moduleProviderConfig p) = some info →
      info.providerFile ≠ [] →
        ∃ searchPaths, world.getProviderSearchPaths p.name info.providerFile info.config =
          .ok searchPaths

/-- What is stored of a provider that does not fail is what it gives. -/
def Recorded (world : Providers) (providers : ModuleProvidersCache) : Prop :=
  ∀ e, e ∈ providers →
    e.1.1 = e.2.name.toString ∧
      (e.2.providerFile = [] → e.2.searchPaths = []) ∧
      ∀ searchPaths, e.2.providerFile ≠ [] →
        world.getProviderSearchPaths e.2.name e.2.providerFile e.2.config = .ok searchPaths →
          e.2.searchPaths = searchPaths

theorem recorded_nil : Recorded world [] :=
  fun _ he => absurd he List.not_mem_nil

/-- Running a provider keeps the records right. -/
theorem keeps_runProvider (p : Provider) :
    StateOp.Keeps (fun s => Recorded world s.providers)
      (world.runProvider moduleProviderConfig p) := by
  apply StateOp.Keeps.transform
  intro s hs
  dsimp only
  split_ifs with hfile
  · intro e he
    rcases List.mem_cons.mp he with rfl | he
    · exact ⟨rfl, fun _ => rfl, fun _ h => absurd hfile h⟩
    · exact hs e he
  · cases hrun : world.getProviderSearchPaths p.name (findModuleProviderFile s.files s.reader p)
        (configOf moduleProviderConfig p.name) with
    | error error =>
        intro e he
        rcases List.mem_cons.mp he with rfl | he
        · refine ⟨rfl, fun _ => rfl, fun searchPaths _ h => ?_⟩
          dsimp only at h
          rw [hrun] at h
          cases h
        · exact hs e he
    | ok searchPaths =>
        intro e he
        rcases List.mem_cons.mp he with rfl | he
        · refine ⟨rfl, fun h => absurd h hfile, fun searchPaths' _ h => ?_⟩
          dsimp only at h
          rw [hrun] at h
          exact Except.ok.inj h
        · exact hs e he

theorem keeps_addProvider (found : Bool × List PathText) (p : Provider) :
    StateOp.Keeps (fun s => Recorded world s.providers)
      (world.addProvider moduleProviderConfig found p) := by
  refine StateOp.Keeps.bind (StateOp.Keeps.bind (StateOp.Keeps.query _) fun info => ?_)
    fun _ => StateOp.Keeps.query _
  cases info with
  | some info => exact StateOp.Keeps.pure info
  | none => exact keeps_runProvider p

theorem keeps_foldlM_addProvider (l : List Provider) (found : Bool × List PathText) :
    StateOp.Keeps (fun s => Recorded world s.providers)
      (l.foldlM (world.addProvider moduleProviderConfig) found) := by
  induction l generalizing found with
  | nil => exact StateOp.Keeps.pure found
  | cons p l ih =>
      rw [List.foldlM_cons]
      exact StateOp.Keeps.bind (keeps_addProvider found p) ih

theorem keeps_findModuleProvider (l : List Provider) :
    StateOp.Keeps (fun s => Recorded world s.providers)
      (world.findModuleProvider moduleProviderConfig l) := by
  unfold findModuleProvider
  split_ifs
  · exact StateOp.Keeps.pure _
  · refine StateOp.Keeps.bind (keeps_foldlM_addProvider l _) fun found => ?_
    split_ifs
    · exact StateOp.Keeps.pure _
    · exact StateOp.Keeps.bind (StateOp.Keeps.update fun _ hs => hs) fun _ => StateOp.Keeps.pure _

/-- What is stored under the key of a provider was recorded under its name. -/
theorem exists_of_stored {providers : ModuleProvidersCache} {info : ModuleProviderInfo}
    (h : world.stored providers (keyOf moduleProviderConfig p) = some info) :
    ∃ key, (key, info) ∈ providers ∧ key.1 = p.name.toString := by
  unfold stored at h
  rcases Option.map_eq_some_iff.mp h with ⟨e, he, rfl⟩
  have hkey := List.find?_some he
  unfold sameKey keyOf at hkey
  simp only [Bool.and_eq_true, decide_eq_true_eq] at hkey
  exact ⟨e.1, List.mem_of_find?_eq_some he, hkey.1.1⟩

/-- What is stored is valid if it still applies. -/
theorem valid_of_stillApplies {providers : ModuleProvidersCache} {l : Lookup}
    (hrecorded : Recorded world providers) (happlies : StillApplies world providers l)
    (hp : p ∈ l.providers) :
    world.Valid ⟨l.files, l.reader, providers⟩ l.moduleProviderConfig p := by
  intro info hstored
  have hconfig := happlies.config p hp info hstored
  have hfile := happlies.file p hp info hstored
  rcases exists_of_stored hstored with ⟨key, hmem, hkey⟩
  rcases hrecorded _ hmem with ⟨hkey', hempty, hpaths⟩
  have hname : info.name = p.name := ProviderName.toString_injective (hkey'.symm.trans hkey)
  unfold freshInfo
  dsimp only
  rw [← hfile, ← hconfig, ← hname]
  split_ifs with hnone
  · have hsearchPaths := hempty hnone
    cases info
    cases hnone
    cases hsearchPaths
    rfl
  · rcases happlies.noFailure p hp info hstored hnone with ⟨searchPaths, hrun⟩
    rw [← hname] at hrun
    rw [hrun, ← hpaths searchPaths hnone hrun]
    rfl

/-- In a run in which what is stored still applies at each lookup, each lookup gives what it gives
with nothing stored: it depends on the files, the search paths, the configuration and the providers
only, and it finds a provider if there is a file for one in the search paths. -/
theorem lookups_transparent {trace : List (ModuleProvidersCache × Lookup)}
    {providers : ModuleProvidersCache} (hrun : TransitionSystem.Run (Step world) [] trace providers)
    (happlies : ∀ e, e ∈ trace → StillApplies world e.1 e.2) :
    ∀ e, e ∈ trace →
      result world e.2 e.1 = result world e.2 [] ∧
        result world e.2 e.1 =
          world.freshResult e.2.files e.2.reader e.2.moduleProviderConfig e.2.providers ∧
        ((∃ p, p ∈ e.2.providers ∧ findModuleProviderFile e.2.files e.2.reader p ≠ []) →
          ∀ r, (result world e.2 e.1).1 = .ok r → r.providerFound = true) := by
  have hrecorded : ∀ e, e ∈ trace → Recorded world e.1 := by
    refine hrun.invariant_trace (fun _ _ => True) ?_ recorded_nil fun _ _ => trivial
    intro providers l providers' hproviders _ hstep
    rw [hstep]
    exact (keeps_findModuleProvider l.providers).outcome hproviders
  intro e he
  have hstored : result world e.2 e.1 =
      world.freshResult e.2.files e.2.reader e.2.moduleProviderConfig e.2.providers :=
    (findModuleProvider_eq fun p hp =>
      valid_of_stillApplies (hrecorded e he) (happlies e he) hp).1
  have hnothing : result world e.2 [] =
      world.freshResult e.2.files e.2.reader e.2.moduleProviderConfig e.2.providers :=
    (findModuleProvider_eq fun p _ info h => by cases h).1
  refine ⟨hstored.trans hnothing.symm, hstored, fun hfile r hr => ?_⟩
  have hfresh : world.freshResult e.2.files e.2.reader e.2.moduleProviderConfig e.2.providers =
      (.ok r, (result world e.2 e.1).2) := by
    rw [← hstored]
    exact Prod.ext hr rfl
  exact (freshResult_ok hfresh).2 hfile

end Providers

/-! ## A sample -/

open Providers

/-- A provider that gives one search path. -/
def sampleProviders : Providers where
  sameConfig config config' := config = config'
  sameConfig_self _ := decide_eq_true rfl
  getProviderSearchPaths _ _ _ := .ok ["/build/genmodules".toList]

/-- Only one directory has a provider. -/
def sampleFiles : FileSystem where
  homePath := "/home".toList
  fileExists path := path = "/b/module-providers/boost.qbs".toList
  canonicalFilePath := id

/-- A product that names one provider looks for a module in some search path. -/
def sampleLookup (searchPath : String) : Lookup where
  files := sampleFiles
  reader := ⟨[searchPath.toList], []⟩
  moduleProviderConfig := []
  providers := [⟨ProviderName.fromString "boost".toList, .named⟩]

/-- What is stored after the first product has looked for a module. -/
def storedAfter (l : Lookup) : ModuleProvidersCache :=
  ((sampleProviders.findModuleProvider l.moduleProviderConfig l.providers).outcome
    ⟨l.files, l.reader, []⟩).2.providers

theorem run_sampleLookup (l l' : Lookup) :
    ∃ providers, TransitionSystem.Run (Step sampleProviders) []
      [([], l), (storedAfter l, l')] providers :=
  ⟨_, (TransitionSystem.Run.nil.snoc rfl).snoc rfl⟩

/-- Two products with the same search path. -/
theorem lookups_transparent_sampleLookup :
    (result sampleProviders (sampleLookup "/b") (storedAfter (sampleLookup "/b"))).1 =
      .ok ⟨true, true⟩ := by
  rcases run_sampleLookup (sampleLookup "/b") (sampleLookup "/b") with ⟨providers, hrun⟩
  have h := lookups_transparent hrun (by
    intro e he
    rcases List.mem_cons.mp he with rfl | he
    · refine ⟨?_, ?_, ?_⟩ <;> intro p hp info hinfo <;> cases hinfo
    · rw [List.mem_singleton.mp he]
      refine ⟨?_, ?_, ?_⟩ <;> intro p hp info hinfo <;>
        rw [List.mem_singleton.mp hp] at hinfo ⊢ <;> cases hinfo
      · rfl
      · decide
      · exact fun _ => ⟨_, rfl⟩) _ (List.mem_cons_of_mem _ List.mem_cons_self)
  rw [h.1]
  decide

/-- That there is no provider for the first product is stored, and so none is found for the second
one, whose search path has it. -/
theorem notFound_stored :
    ∃ providers, TransitionSystem.Run (Step sampleProviders) []
        [([], sampleLookup "/a"), (storedAfter (sampleLookup "/a"), sampleLookup "/b")] providers ∧
      result sampleProviders (sampleLookup "/b") (storedAfter (sampleLookup "/a")) ≠
        result sampleProviders (sampleLookup "/b") [] := by
  rcases run_sampleLookup (sampleLookup "/a") (sampleLookup "/b") with ⟨providers, hrun⟩
  refine ⟨providers, hrun, fun h => ?_⟩
  have hresult : (result sampleProviders (sampleLookup "/b") []).1 = .ok ⟨true, true⟩ := by
    decide
  rw [← h] at hresult
  exact absurd hresult (by decide)

end ModuleProviders

end Qbs
