import QbsCore.Language.Evaluator
import QbsCore.Library.StateOp
import QbsCore.Library.TransitionSystem
import QbsCore.Tools.Error

/-!
# Probes

A probe runs a configure script and takes the values of its properties from the variables
that the script leaves.  The results are kept: those of the current run under the location of
the probe, and those of earlier runs under the name of the product or, for the probes of a
project, under the id of the probe.  A later probe takes a result that seems to fit.

Main results:

- Theorem {lit}`properties_eq`: when a stored result is what the script would give now.
- Theorem {lit}`probes_transparent`: in a run of resolve runs in which the results that are taken
  still apply, each probe gets the values that its script would give.

Current gaps:

- The initial values of a probe are given.
- What a configure script reads besides its variables and imports is left out.
-/

namespace Qbs

namespace JsValue

mutual

/-- The variant for a script value. -/
def toVariant : JsValue → Variant
  | undefined | null | item _ | error _ => .invalid
  | bool b => .bool b
  | number i => .int i
  | string s => .string s
  | array l | sharedArray _ l => .list (toVariantList l)
  | object l => .map (toVariantMap l)

def toVariantList : List JsValue → List Variant
  | [] => []
  | v :: l => toVariant v :: toVariantList l

def toVariantMap : List (String × JsValue) → List (String × Variant)
  | [] => []
  | (key, v) :: l => (key, toVariant v) :: toVariantMap l

end

end JsValue

namespace Probes

/-! ## Imports -/

/-- The files on disk: the text of a file, none if there is no such file, and its time stamp. -/
structure Files where
  content : String → Option String
  lastModified : String → Nat

def Files.read (files : Files) (filePath : String) : Except ErrorInfo String :=
  match files.content filePath with
  | none => .error (.message s!"Cannot open '{filePath}'.")
  | some text => .ok text

/-- An import of a project file: the name for it and the files. -/
structure JsImport where
  scopeName : String
  filePaths : List String
deriving DecidableEq

/-- What a name of an import stands for: a function, given by all that it can make use of, or any
other value. -/
inductive Imported where
  | function (code : String)
  | value (v : JsValue)

/-- The variables of a configure script. -/
abbrev Variables := String → Option JsValue

/-- The names in the imports that a configure script can use. -/
abbrev ImportedNames := String × String → Option Imported

/-- Running JavaScript: what imported files define, what a script gives, and which names of its
imports it asks for.  What it gives depends on those names only. -/
structure ScriptEngine where
  importFiles : List String → Except ErrorInfo (String → Option Imported)
  evaluate : String → Variables → ImportedNames → Except ErrorInfo (String → JsValue)
  requested : String → Variables → ImportedNames → List (String × String)
  evaluate_congr : ∀ code scope names names',
    (∀ n, n ∈ requested code scope names → names n = names' n) →
      evaluate code scope names = evaluate code scope names'
  sameVariant : Variant → Variant → Bool

/-- The imports that have been read in, each with its names. -/
abbrev ImportScope := List (JsImport × (String → Option Imported))

namespace ImportScope

def find (scope : ImportScope) (scopeName : String) :
    Option (JsImport × (String → Option Imported)) :=
  scope.find? fun e => e.1.scopeName = scopeName

def names (scope : ImportScope) : ImportedNames :=
  fun n => (scope.find n.1).bind fun e => e.2 n.2

/-- The files of the import that a function is from. -/
def filesOfFunction (scope : ImportScope) (n : String × String) : List String :=
  match scope.find n.1 with
  | none => []
  | some e =>
      match e.2 n.2 with
      | some (.function _) => e.1.filePaths
      | _ => []

end ImportScope

namespace ScriptEngine

variable (engine : ScriptEngine)

def importJs (files : Files) (jsImport : JsImport) :
    Except ErrorInfo (JsImport × (String → Option Imported)) := do
  let texts ← jsImport.filePaths.mapM files.read
  let names ← engine.importFiles texts
  .ok (jsImport, names)

/-- What a project file imports. Nothing can be used if there is an error. -/
def importScope (files : Files) (jsImports : List JsImport) : ImportScope :=
  match jsImports.mapM (engine.importJs files) with
  | .ok scope => scope
  | .error _ => []

end ScriptEngine

/-! ## Probe items -/

structure CodeLocation where
  filePath : String
  line : Int
  column : Int
deriving DecidableEq

/-- A probe item or one of its prototypes: its id and the names of its properties. -/
structure ProbeLevel where
  id : String
  properties : List String

/-- A probe item: the chain of its prototypes and what its properties evaluate to. -/
structure ProbeItem where
  levels : List ProbeLevel
  filePath : String
  location : CodeLocation
  value : String → JsValue
  propertyDeclaration : String → PropertyType
  configureScript : String
  jsImports : List JsImport

namespace ProbeItem

variable (probe : ProbeItem)

def probeGlobalId : String :=
  match probe.levels.find? fun level => level.id ≠ "" with
  | none => ""
  | some level => level.id ++ "_" ++ probe.filePath

/-- The names of the properties but for the script. -/
def probeBindings : List String :=
  probe.levels.flatMap fun level => level.properties.filter fun name => name ≠ "configure"

def condition : Bool :=
  (probe.value "condition").toBool

def initialProperties : VariantMap :=
  (probe.probeBindings.filter fun name => name ≠ "condition").foldl
    (fun m name => m.insert name (probe.value name).toVariant) []

/-- The variables that the configure script starts with. -/
def configureScope : Variables :=
  fun name => if name ∈ probe.probeBindings then some (probe.value name) else none

end ProbeItem

/-- The value of a property after the script has run. -/
def convertedValue (type : PropertyType) (name : String) (v : JsValue) :
    Except ErrorInfo Variant :=
  match Evaluator.convertToPropertyType (fun _ path => path) [] "" 0 name type v with
  | .error message => .error (.message message)
  | v => .ok v.toVariant

/-- The values of all properties after the script has run with the variables and imports. -/
def propertiesAfter (engine : ScriptEngine) (probe : ProbeItem) (scope : ImportScope) :
    Except ErrorInfo VariantMap := do
  let result ← engine.evaluate probe.configureScript probe.configureScope scope.names
  probe.probeBindings.foldlM
    (fun m name =>
      (convertedValue (probe.propertyDeclaration name) name (result name)).map (m.insert name)) []

/-- The files of the imports that the script has taken functions from. -/
def importedFilesUsedInScript (engine : ScriptEngine) (probe : ProbeItem) (scope : ImportScope) :
    List String :=
  ((engine.requested probe.configureScript probe.configureScope scope.names).flatMap
    scope.filesOfFunction).eraseDups

/-! ## Results -/

/-- The result of a probe. -/
structure Probe where
  globalId : String
  location : CodeLocation
  condition : Bool
  configureScript : String
  properties : VariantMap
  initialProperties : VariantMap
  importedFilesUsed : List String

/-- Some imported file is gone or newer than a time. -/
def Probe.needsReconfigure (probe : Probe) (files : Files) (referenceTime : Nat) : Bool :=
  probe.importedFilesUsed.any fun filePath =>
    (files.content filePath).isNone || decide (referenceTime < files.lastModified filePath)

/-- A result that is kept. The probe it was made for and the files at that time are known for
reasoning only. -/
structure StoredProbe extends Probe where
  origin : ProbeItem
  files : Files

/-- What is known in a resolve run: the files, the results of earlier runs, those of this run, and
those that are stored for later runs. -/
structure ResolverState where
  files : Files
  forceProbeExecution : Bool
  resolveTime : Nat
  oldProjectProbes : List StoredProbe
  oldProductProbes : List (String × StoredProbe)
  currentProbes : List StoredProbe
  projectProbes : List StoredProbe
  productProbes : List (String × StoredProbe)

/-- The time that imported files are compared with. Nothing sets it. -/
def lastResolveTime : Nat := 0

/-- What a probe is resolved for. -/
structure ProductContext where
  name : String
  uniqueName : String
  parentIsProject : Bool

inductive CompareScript where
  | no
  | yes
deriving DecidableEq

section

variable (engine : ScriptEngine)

/-- Whether two maps are taken as equal. -/
def sameProperties (m m' : VariantMap) : Bool :=
  m.length = m'.length &&
    (m.zip m').all fun e => e.1.1 = e.2.1 && engine.sameVariant e.1.2 e.2.2

def probeMatches (files : Files) (probe : Probe) (condition : Bool)
    (initialProperties : VariantMap) (configureScript : String) (compareScript : CompareScript) :
    Bool :=
  probe.condition = condition && sameProperties engine probe.initialProperties initialProperties &&
    (compareScript = .no ||
      (probe.configureScript = configureScript && !probe.needsReconfigure files lastResolveTime))

def findOldProjectProbe (s : ResolverState) (globalId : String) (condition : Bool)
    (initialProperties : VariantMap) (sourceCode : String) : Option StoredProbe :=
  if s.forceProbeExecution then none
  else
    s.oldProjectProbes.find? fun r => r.globalId = globalId &&
      probeMatches engine s.files r.toProbe condition initialProperties sourceCode .yes

def findOldProductProbe (s : ResolverState) (productName : String) (condition : Bool)
    (initialProperties : VariantMap) (sourceCode : String) : Option StoredProbe :=
  if s.forceProbeExecution then none
  else
    (s.oldProductProbes.find? fun e => e.1 = productName &&
      probeMatches engine s.files e.2.toProbe condition initialProperties sourceCode .yes).map
        Prod.snd

def findCurrentProbe (s : ResolverState) (location : CodeLocation) (condition : Bool)
    (initialProperties : VariantMap) : Option StoredProbe :=
  s.currentProbes.find? fun r => r.location = location &&
    probeMatches engine s.files r.toProbe condition initialProperties "" .no

def ProductContext.isForProject (product : ProductContext) : Bool :=
  product.parentIsProject || "__shadow__".toList.isPrefixOf product.name.toList

/-- The stored result that a probe takes. -/
def findResolvedProbe (s : ResolverState) (product : ProductContext) (probe : ProbeItem) :
    Option StoredProbe :=
  let old :=
    if product.isForProject then
      findOldProjectProbe engine s probe.probeGlobalId probe.condition probe.initialProperties
        probe.configureScript
    else
      findOldProductProbe engine s product.uniqueName probe.condition probe.initialProperties
        probe.configureScript
  match old with
  | some r => some r
  | none => findCurrentProbe engine s probe.location probe.condition probe.initialProperties

/-- The properties that are set on a probe: those whose new value is another one. -/
def changedProperties (probe : ProbeItem) (properties : VariantMap) : List (String × Variant) :=
  probe.probeBindings.filterMap fun name =>
    let newValue := properties.value name
    if engine.sameVariant newValue (probe.value name).toVariant then none
    else some (name, newValue)

/-- Add a result to those that are stored for the product or the project. -/
def ResolverState.addProbe (s : ResolverState) (product : ProductContext) (r : StoredProbe) :
    ResolverState :=
  if product.isForProject then { s with projectProbes := s.projectProbes ++ [r] }
  else { s with productProbes := s.productProbes ++ [(product.uniqueName, r)] }

/-- The properties of a probe for which there is no result, and the files it has used. -/
def newProperties (files : Files) (probe : ProbeItem) :
    Except ErrorInfo (VariantMap × List String) :=
  if probe.condition then
    let scope := engine.importScope files probe.jsImports
    (propertiesAfter engine probe scope).map fun properties =>
      (properties, importedFilesUsedInScript engine probe scope)
  else
    .ok (probe.probeBindings.foldl
      (fun m name => m.insert name (probe.initialProperties.value name)) [], [])

def StoredProbe.create (files : Files) (probe : ProbeItem) (properties : VariantMap)
    (importedFilesUsed : List String) : StoredProbe where
  globalId := probe.probeGlobalId
  location := probe.location
  condition := probe.condition
  configureScript := probe.configureScript
  properties := properties
  initialProperties := probe.initialProperties
  importedFilesUsed := importedFilesUsed
  origin := probe
  files := files

/-- Resolve a probe. The result are the properties that are set on it. -/
def resolveProbe (product : ProductContext) (probe : ProbeItem) :
    StateOp ResolverState ErrorInfo (List (String × Variant)) :=
  StateOp.transform fun s =>
    if probe.probeGlobalId = "" then (.error (.message "Probe.id must be set."), s)
    else if probe.configureScript = "undefined" then
      (.error (.message "Probe.configure must be set."), s)
    else
      match findResolvedProbe engine s product probe with
      | some r => (.ok (changedProperties engine probe r.properties), s.addProbe product r)
      | none =>
          match newProperties engine s.files probe with
          | .error e => (.error e, s)
          | .ok (properties, importedFilesUsed) =>
              let r := StoredProbe.create s.files probe properties importedFilesUsed
              (.ok (changedProperties engine probe properties),
                { s with currentProbes := s.currentProbes ++ [r] }.addProbe product r)

/-- What running the configure script of a probe gives. -/
def valuesOfRun (files : Files) (probe : ProbeItem) : Except ErrorInfo (List (String × Variant)) :=
  (propertiesAfter engine probe (engine.importScope files probe.jsImports)).map
    (changedProperties engine probe)

end

/-! ## The values of the properties -/

variable {engine : ScriptEngine}

/-- The values after a loop that converts the value of each property. -/
theorem value_of_foldlM_insert {value : String → Except ErrorInfo Variant} {names : List String}
    {m m' : VariantMap}
    (h : names.foldlM (fun m name => (value name).map (m.insert name)) m = .ok m')
    (name : String) :
    (name ∈ names → value name = .ok (m'.value name)) ∧
      (name ∉ names → m'.value name = m.value name) := by
  induction names generalizing m with
  | nil =>
      rw [List.foldlM_nil, Fallible.pure_eq_ok_iff] at h
      rw [h]
      exact ⟨fun hmem => absurd hmem List.not_mem_nil, fun _ => rfl⟩
  | cons a names ih =>
      rw [List.foldlM_cons, Fallible.bind_eq_ok_iff] at h
      rcases h with ⟨m₁, hm₁, hrest⟩
      rcases Fallible.map_eq_ok_iff.mp hm₁ with ⟨v, hv, rfl⟩
      rcases ih hrest with ⟨hin, hout⟩
      refine ⟨fun hmem => ?_, fun hnot => ?_⟩
      · by_cases hlater : name ∈ names
        · exact hin hlater
        · have hname : name = a := (List.mem_cons.mp hmem).resolve_right hlater
          rw [hout hlater, VariantMap.value_insert, if_pos hname.symm, hname, hv]
      · rw [List.mem_cons, not_or] at hnot
        rw [hout hnot.2, VariantMap.value_insert, if_neg fun h => hnot.1 h.symm]

/-- Two scripts with the same variables and imports, for properties of the same types, leave the
same values. -/
theorem properties_congr {probe probe' : ProbeItem} {scope scope' : ImportScope}
    {properties : VariantMap} (hvariables : probe.configureScope = probe'.configureScope)
    (hscript : probe.configureScript = probe'.configureScript)
    (htype : ∀ name, name ∈ probe'.probeBindings →
      probe.propertyDeclaration name = probe'.propertyDeclaration name)
    (hnames : ∀ n, n ∈ engine.requested probe.configureScript probe.configureScope scope.names →
      scope.names n = scope'.names n)
    (h : propertiesAfter engine probe scope = .ok properties) :
    ∃ properties', propertiesAfter engine probe' scope' = .ok properties' ∧
      ∀ name, name ∈ probe'.probeBindings → properties'.value name = properties.value name := by
  have hbindings : ∀ name, name ∈ probe'.probeBindings → name ∈ probe.probeBindings := by
    intro name hname
    have hvalue := congrFun hvariables name
    unfold ProbeItem.configureScope at hvalue
    rw [if_pos hname] at hvalue
    by_contra hnot
    rw [if_neg hnot] at hvalue
    cases hvalue
  unfold propertiesAfter at h
  rcases Fallible.bind_eq_ok_iff.mp h with ⟨result, hresult, hloop⟩
  rw [engine.evaluate_congr _ _ _ _ hnames, hvariables, hscript] at hresult
  have hconverted : ∀ name, name ∈ probe'.probeBindings →
      convertedValue (probe'.propertyDeclaration name) name (result name) =
        .ok (properties.value name) := by
    intro name hname
    rw [← htype name hname]
    exact (value_of_foldlM_insert hloop name).1 (hbindings name hname)
  rcases Fallible.foldlM_total (P := fun _ : VariantMap => True) (l := probe'.probeBindings)
      (s := []) (f := fun m name =>
        (convertedValue (probe'.propertyDeclaration name) name (result name)).map (m.insert name))
      (fun m name hname _ => ⟨m.insert name (properties.value name), by
        rw [hconverted name hname]
        rfl, trivial⟩) trivial with ⟨properties', hloop', -⟩
  refine ⟨properties', ?_, fun name hname => ?_⟩
  · unfold propertiesAfter
    exact Fallible.bind_eq_ok_iff.mpr ⟨result, hresult, hloop'⟩
  · have hvalue := (value_of_foldlM_insert hloop' name).1 hname
    rw [hconverted name hname] at hvalue
    exact (Except.ok.inj hvalue).symm

theorem changedProperties_congr {probe : ProbeItem} {m m' : VariantMap}
    (h : ∀ name, name ∈ probe.probeBindings → m.value name = m'.value name) :
    changedProperties engine probe m = changedProperties engine probe m' := by
  unfold changedProperties
  refine List.filterMap_congr fun name hname => ?_
  rw [h name hname]

/-! ## The imports of a script -/

/-- What is read in of an import whose files are unchanged is the same. -/
theorem importJs_congr {files files' : Files} {jsImport : JsImport}
    (h : ∀ filePath, filePath ∈ jsImport.filePaths →
      files.content filePath = files'.content filePath) :
    engine.importJs files jsImport = engine.importJs files' jsImport := by
  have hread : jsImport.filePaths.mapM files.read = jsImport.filePaths.mapM files'.read :=
    Fallible.mapM_congr fun filePath hfile => by
      unfold Files.read
      rw [h filePath hfile]
  unfold ScriptEngine.importJs
  rw [hread]

theorem importJs_of_mem {files : Files} {jsImports : List JsImport}
    {e : JsImport × (String → Option Imported)} (he : e ∈ engine.importScope files jsImports) :
    engine.importJs files e.1 = .ok e := by
  unfold ScriptEngine.importScope at he
  cases hscope : jsImports.mapM (engine.importJs files) with
  | error error =>
      rw [hscope] at he
      exact absurd he List.not_mem_nil
  | ok scope =>
      rw [hscope] at he
      rcases Fallible.exists_of_mem_mapM hscope he with ⟨jsImport, -, himport⟩
      have h := himport
      unfold ScriptEngine.importJs at h
      simp only [Fallible.bind_eq_ok_iff] at h
      rcases h with ⟨texts, -, names, -, h⟩
      cases h
      exact himport

def Imported.isFunction : Imported → Bool
  | .function _ => true
  | .value _ => false

/-- A name means the same in two scopes, provided that the files of functions are unchanged. -/
def SameName (before now : ImportScope) (n : String × String) : Prop :=
  if (before.names n).any Imported.isFunction then
    (now.find n.1).map Prod.fst = (before.find n.1).map Prod.fst
  else now.names n = before.names n

theorem names_eq {files files' : Files} {jsImports jsImports' : List JsImport} {n : String × String}
    (hsame : SameName (engine.importScope files jsImports) (engine.importScope files' jsImports') n)
    (hfiles : ∀ filePath, filePath ∈ (engine.importScope files jsImports).filesOfFunction n →
      files'.content filePath = files.content filePath) :
    (engine.importScope files jsImports).names n =
      (engine.importScope files' jsImports').names n := by
  generalize hbefore : engine.importScope files jsImports = before at *
  generalize hnow : engine.importScope files' jsImports' = now at *
  unfold SameName at hsame
  split_ifs at hsame with hfunction
  · -- A function comes from an import whose files are unchanged, and that import is still there.
    cases hfind : before.find n.1 with
    | none =>
        rw [ImportScope.names, hfind] at hfunction
        cases hfunction
    | some e =>
        rw [hfind] at hsame
        rcases Option.map_eq_some_iff.mp hsame with ⟨e', hfind', he'⟩
        rw [ImportScope.names, hfind, Option.bind_some] at hfunction
        unfold ImportScope.filesOfFunction at hfiles
        rw [hfind] at hfiles
        dsimp only at hfiles
        have hunchanged : ∀ filePath, filePath ∈ e.1.filePaths →
            files'.content filePath = files.content filePath := by
          cases hn : e.2 n.2 with
          | none =>
              rw [hn] at hfunction
              cases hfunction
          | some imported =>
              cases imported with
              | value v =>
                  rw [hn] at hfunction
                  cases hfunction
              | function code =>
                  rw [hn] at hfiles
                  exact hfiles
        have hmem : e ∈ engine.importScope files jsImports :=
          hbefore ▸ List.mem_of_find?_eq_some hfind
        have hmem' : e' ∈ engine.importScope files' jsImports' :=
          hnow ▸ List.mem_of_find?_eq_some hfind'
        have hread : engine.importJs files e.1 = .ok e := importJs_of_mem hmem
        have hread' : engine.importJs files' e'.1 = .ok e' := importJs_of_mem hmem'
        rw [he', importJs_congr hunchanged, hread] at hread'
        cases hread'
        rw [ImportScope.names, ImportScope.names, hfind, hfind']
  · exact hsame.symm

/-! ## Stored results -/

variable {s : ResolverState} {product : ProductContext} {probe : ProbeItem} {r : StoredProbe}

def ResolverState.oldProbes (s : ResolverState) : List StoredProbe :=
  s.oldProjectProbes ++ s.oldProductProbes.map Prod.snd

/-- The results that are stored for later runs. -/
def ResolverState.storedProbes (s : ResolverState) : List StoredProbe :=
  s.projectProbes ++ s.productProbes.map Prod.snd

/-- What the comparison makes sure of. -/
theorem findResolvedProbe_spec (h : findResolvedProbe engine s product probe = some r) :
    r.condition = probe.condition ∧
      ((r ∈ s.oldProbes ∧ r.needsReconfigure s.files lastResolveTime = false) ∨
        r ∈ s.currentProbes) := by
  have hmatches : ∀ {script : String},
      probeMatches engine s.files r.toProbe probe.condition probe.initialProperties script .yes =
        true → r.condition = probe.condition ∧
          r.needsReconfigure s.files lastResolveTime = false := by
    intro script h
    unfold probeMatches at h
    simp only [Bool.and_eq_true, Bool.or_eq_true, decide_eq_true_eq, Bool.not_eq_true',
      reduceCtorEq, false_or] at h
    exact ⟨h.1.1, h.2.2⟩
  unfold findResolvedProbe at h
  dsimp only at h
  split at h
  · rename_i r' hold
    cases h
    split_ifs at hold
    · unfold findOldProjectProbe at hold
      split_ifs at hold
      have hfound := List.find?_some hold
      rw [Bool.and_eq_true] at hfound
      rcases hmatches hfound.2 with ⟨hcondition, hreconfigure⟩
      exact ⟨hcondition, Or.inl
        ⟨List.mem_append_left _ (List.mem_of_find?_eq_some hold), hreconfigure⟩⟩
    · unfold findOldProductProbe at hold
      split_ifs at hold
      rcases Option.map_eq_some_iff.mp hold with ⟨e, he, rfl⟩
      have hfound := List.find?_some he
      rw [Bool.and_eq_true] at hfound
      rcases hmatches hfound.2 with ⟨hcondition, hreconfigure⟩
      exact ⟨hcondition, Or.inl ⟨List.mem_append_right _
        (List.mem_map_of_mem (List.mem_of_find?_eq_some he)), hreconfigure⟩⟩
  · unfold findCurrentProbe at h
    have hfound := List.find?_some h
    unfold probeMatches at hfound
    simp only [Bool.and_eq_true, decide_eq_true_eq] at hfound
    exact ⟨hfound.2.1.1, Or.inr (List.mem_of_find?_eq_some h)⟩

/-- A result was made by running the script of the probe, if that was enabled, with the files of
that time. -/
def Made (engine : ScriptEngine) (r : StoredProbe) : Prop :=
  ∃ properties importedFilesUsed,
    newProperties engine r.files r.origin = .ok (properties, importedFilesUsed) ∧
      r = StoredProbe.create r.files r.origin properties importedFilesUsed

/-- A result still applies to a probe: it was made for a probe with the same script, initial
values and types of properties, and each name that the script has asked its imports for means the
same.  For a function only the import has to be the same. -/
structure StillApplies (engine : ScriptEngine) (files : Files) (probe : ProbeItem)
    (r : StoredProbe) : Prop where
  configureScript : r.origin.configureScript = probe.configureScript
  configureScope : r.origin.configureScope = probe.configureScope
  propertyDeclaration : ∀ name, name ∈ probe.probeBindings →
    r.origin.propertyDeclaration name = probe.propertyDeclaration name
  names : ∀ n, n ∈ engine.requested r.origin.configureScript r.origin.configureScope
      (engine.importScope r.files r.origin.jsImports).names →
    SameName (engine.importScope r.files r.origin.jsImports)
      (engine.importScope files probe.jsImports) n

/-- A result that still applies is what running the script gives, provided that the files it has
recorded are unchanged. -/
theorem properties_eq {files : Files} (hmade : Made engine r)
    (hcondition : r.condition = true) (happlies : StillApplies engine files probe r)
    (hfiles : ∀ filePath, filePath ∈ r.importedFilesUsed →
      files.content filePath = r.files.content filePath) :
    valuesOfRun engine files probe = .ok (changedProperties engine probe r.properties) := by
  rcases hmade with ⟨properties, importedFilesUsed, hnew, hr⟩
  have hcondition' : r.origin.condition = true := by
    rw [hr] at hcondition
    exact hcondition
  have hproperties : r.properties = properties := by rw [hr]; rfl
  have hused : r.importedFilesUsed = importedFilesUsed := by rw [hr]; rfl
  unfold newProperties at hnew
  rw [if_pos hcondition'] at hnew
  rcases Fallible.map_eq_ok_iff.mp hnew with ⟨_, hrun, heq⟩
  cases heq
  have hnames : ∀ n, n ∈ engine.requested r.origin.configureScript r.origin.configureScope
        (engine.importScope r.files r.origin.jsImports).names →
      (engine.importScope r.files r.origin.jsImports).names n =
        (engine.importScope files probe.jsImports).names n := by
    intro n hn
    refine names_eq (happlies.names n hn) fun filePath hfile => hfiles filePath ?_
    rw [hused]
    exact List.mem_eraseDups.mpr (List.mem_flatMap.mpr ⟨n, hn, hfile⟩)
  rcases properties_congr happlies.configureScope happlies.configureScript
    happlies.propertyDeclaration hnames hrun with ⟨properties', hrun', hvalues⟩
  unfold valuesOfRun
  rw [hrun', hproperties]
  exact congrArg Except.ok (changedProperties_congr hvalues)

/-! ## Runs -/

/-- What is known before the first run. -/
def ResolverState.initial (files : Files) : ResolverState :=
  ⟨files, false, 0, [], [], [], [], []⟩

/-- A probe is resolved, or the next run begins. -/
inductive Event where
  | resolve (product : ProductContext) (probe : ProbeItem)
  | nextRun (files : Files) (forceProbeExecution : Bool) (resolveTime : Nat)
      (oldProjectProbes : List StoredProbe) (oldProductProbes : List (String × StoredProbe))

/-- The steps of a sequence of runs.  A run starts with results that are stored by the run before
or, if that has failed, were already there.  A file with another content than a result was made
with is newer than the start of the run before, which is the time results are compared with; the
start of the new run can be any time, before or after those of the files that it finds. -/
inductive Step (engine : ScriptEngine) : ResolverState → Event → ResolverState → Prop
  | resolve (s : ResolverState) (product : ProductContext) (probe : ProbeItem) :
      Step engine s (.resolve product probe) ((resolveProbe engine product probe).outcome s).2
  | nextRun {s : ResolverState} {files : Files} {oldProjectProbes : List StoredProbe}
      {oldProductProbes : List (String × StoredProbe)} (force : Bool) (resolveTime : Nat)
      (hproject : ∀ r, r ∈ oldProjectProbes → r ∈ s.oldProjectProbes ++ s.projectProbes)
      (hproduct : ∀ e, e ∈ oldProductProbes → e ∈ s.oldProductProbes ++ s.productProbes)
      (hnewer : ∀ r, r ∈ oldProjectProbes ++ oldProductProbes.map Prod.snd → ∀ filePath,
        files.content filePath ≠ r.files.content filePath →
          s.resolveTime < files.lastModified filePath) :
      Step engine s (.nextRun files force resolveTime oldProjectProbes oldProductProbes)
        ⟨files, force, resolveTime, oldProjectProbes, oldProductProbes, [], [], []⟩

/-- All results that are kept were made by running scripts, those of earlier runs with contents of
files that only newer files do not have any more, and those of this run with the current files. -/
structure Recorded (engine : ScriptEngine) (s : ResolverState) : Prop where
  old : ∀ r, r ∈ s.oldProbes → Made engine r ∧
    ∀ filePath, s.files.content filePath ≠ r.files.content filePath →
      lastResolveTime < s.files.lastModified filePath
  current : ∀ r, r ∈ s.currentProbes → Made engine r ∧ r.files = s.files
  stored : ∀ r, r ∈ s.storedProbes → Made engine r

theorem recorded_initial (files : Files) : Recorded engine (ResolverState.initial files) where
  old _ h := absurd h List.not_mem_nil
  current _ h := absurd h List.not_mem_nil
  stored _ h := absurd h List.not_mem_nil

theorem recorded_addProbe (hs : Recorded engine s) (hr : Made engine r) :
    Recorded engine (s.addProbe product r) := by
  unfold ResolverState.addProbe
  split_ifs
  · refine ⟨hs.old, hs.current, fun r' hr' => ?_⟩
    rcases List.mem_append.mp hr' with hr' | hr'
    · rcases List.mem_append.mp hr' with hr' | hr'
      · exact hs.stored r' (List.mem_append_left _ hr')
      · rwa [List.mem_singleton.mp hr']
    · exact hs.stored r' (List.mem_append_right _ hr')
  · refine ⟨hs.old, hs.current, fun r' hr' => ?_⟩
    rcases List.mem_append.mp hr' with hr' | hr'
    · exact hs.stored r' (List.mem_append_left _ hr')
    · rw [List.map_append] at hr'
      rcases List.mem_append.mp hr' with hr' | hr'
      · exact hs.stored r' (List.mem_append_right _ hr')
      · rwa [List.mem_singleton.mp hr']

/-- The result that a probe takes was made by running a script. -/
theorem made_of_found (hs : Recorded engine s)
    (h : findResolvedProbe engine s product probe = some r) : Made engine r := by
  rcases (findResolvedProbe_spec h).2 with ⟨hold, -⟩ | hcurrent
  · exact (hs.old r hold).1
  · exact (hs.current r hcurrent).1

theorem recorded_resolveProbe (hs : Recorded engine s) :
    Recorded engine ((resolveProbe engine product probe).outcome s).2 := by
  unfold resolveProbe
  rw [StateOp.outcome_transform]
  split_ifs
  · exact hs
  · exact hs
  · cases hfound : findResolvedProbe engine s product probe with
    | some r => exact recorded_addProbe hs (made_of_found hs hfound)
    | none =>
        cases hnew : newProperties engine s.files probe with
        | error e => exact hs
        | ok result =>
            rcases result with ⟨properties, importedFilesUsed⟩
            have hmade : Made engine
                (StoredProbe.create s.files probe properties importedFilesUsed) :=
              ⟨properties, importedFilesUsed, hnew, rfl⟩
            refine recorded_addProbe ⟨hs.old, fun r hr => ?_, hs.stored⟩ hmade
            rcases List.mem_append.mp hr with hr | hr
            · exact hs.current r hr
            · rw [List.mem_singleton.mp hr]
              exact ⟨hmade, rfl⟩

theorem recorded_step {s' : ResolverState} {event : Event} (hs : Recorded engine s)
    (hstep : Step engine s event s') : Recorded engine s' := by
  cases hstep with
  | resolve product probe => exact recorded_resolveProbe hs
  | nextRun force resolveTime hproject hproduct hnewer =>
      refine ⟨fun r hr => ⟨?_, fun filePath hfile => ?_⟩, fun _ h => absurd h List.not_mem_nil,
        fun _ h => absurd h List.not_mem_nil⟩
      · rcases List.mem_append.mp hr with hr | hr
        · rcases List.mem_append.mp (hproject r hr) with hr | hr
          · exact (hs.old r (List.mem_append_left _ hr)).1
          · exact hs.stored r (List.mem_append_left _ hr)
        · rcases List.mem_map.mp hr with ⟨e, he, rfl⟩
          rcases List.mem_append.mp (hproduct e he) with he | he
          · exact (hs.old _ (List.mem_append_right _ (List.mem_map_of_mem he))).1
          · exact hs.stored _ (List.mem_append_right _ (List.mem_map_of_mem he))
      · exact Nat.lt_of_le_of_lt (Nat.zero_le _) (hnewer r hr filePath hfile)

/-- The files that a result has recorded are unchanged when a probe takes it. -/
theorem unchanged_of_found (hs : Recorded engine s)
    (h : findResolvedProbe engine s product probe = some r) {filePath : String}
    (hfile : filePath ∈ r.importedFilesUsed) :
    s.files.content filePath = r.files.content filePath := by
  rcases (findResolvedProbe_spec h).2 with ⟨hold, hreconfigure⟩ | hcurrent
  · by_contra hchanged
    have hnewer := (hs.old r hold).2 filePath hchanged
    have hcriterion := List.any_eq_false.mp hreconfigure filePath hfile
    rw [decide_eq_true hnewer, Bool.or_true] at hcriterion
    exact hcriterion rfl
  · rw [(hs.current r hcurrent).2]

/-- The properties that are set on a probe. -/
def result (engine : ScriptEngine) (product : ProductContext) (probe : ProbeItem)
    (s : ResolverState) : Except ErrorInfo (List (String × Variant)) :=
  ((resolveProbe engine product probe).outcome s).1

/-- A probe takes a stored result. -/
structure Takes (engine : ScriptEngine) (s : ResolverState) (product : ProductContext)
    (probe : ProbeItem) (r : StoredProbe) : Prop where
  id : probe.probeGlobalId ≠ ""
  script : probe.configureScript ≠ "undefined"
  found : findResolvedProbe engine s product probe = some r

/-- In a sequence of runs in which each result that an enabled probe takes still applies, the
properties that are set on the probe are those that running its script would give. -/
theorem probes_transparent {files : Files} {trace : List (ResolverState × Event)}
    (hrun : TransitionSystem.Run (Step engine) (ResolverState.initial files) trace s)
    (happlies : ∀ e, e ∈ trace → ∀ product probe r, e.2 = .resolve product probe →
      probe.condition = true → Takes engine e.1 product probe r →
        StillApplies engine e.1.files probe r) :
    ∀ e, e ∈ trace → ∀ product probe r, e.2 = .resolve product probe →
      probe.condition = true → Takes engine e.1 product probe r →
        result engine product probe e.1 = valuesOfRun engine e.1.files probe := by
  have hrecorded : ∀ e, e ∈ trace → Recorded engine e.1 :=
    hrun.invariant_trace (fun _ _ => True)
      (fun _ _ _ hs _ hstep => recorded_step hs hstep) (recorded_initial files)
      fun _ _ => trivial
  intro e he product probe r hevent hcondition htakes
  have hcondition' : r.condition = true :=
    (findResolvedProbe_spec htakes.found).1.trans hcondition
  have hvalues := properties_eq (made_of_found (hrecorded e he) htakes.found) hcondition'
    (happlies e he product probe r hevent hcondition htakes)
    fun filePath hfile => unchanged_of_found (hrecorded e he) htakes.found hfile
  unfold result resolveProbe
  rw [StateOp.outcome_transform, if_neg htakes.id, if_neg htakes.script, htakes.found, hvalues]

/-! ## A sample -/

/-- A script that takes a value from its import. -/
def sampleEngine : ScriptEngine where
  importFiles texts := .ok fun name =>
    if name = "version" then some (.value (.string (String.join texts))) else none
  evaluate _ scope names := .ok fun name =>
    match name, names ("Helper", "version") with
    | "version", some (.value v) => v
    | _, _ => (scope name).getD .undefined
  requested _ _ _ := [("Helper", "version")]
  evaluate_congr _ _ _ _ h := by
    rw [h _ (List.mem_singleton_self _)]
  sameVariant v v' := v = v'

def sampleProbe : ProbeItem where
  levels := [⟨"probe", ["configure", "version"]⟩, ⟨"", ["condition"]⟩]
  filePath := "/p/p.qbs"
  location := ⟨"/p/p.qbs", 4, 5⟩
  value name := if name = "condition" then .bool true else .undefined
  propertyDeclaration name := if name = "condition" then .boolean else .string
  configureScript := "version = Helper.version"
  jsImports := [⟨"Helper", ["/p/helper.js"]⟩]

def sampleProduct : ProductContext :=
  ⟨"p", "p", false⟩

/-- The imported file has some text. -/
def sampleFiles (version : String) (time : Nat) : Files where
  content filePath := if filePath = "/p/helper.js" then some version else none
  lastModified _ := time

/-- What is known after the first run, in which the file has one text. -/
def afterFirstRun : ResolverState :=
  ((resolveProbe sampleEngine sampleProduct sampleProbe).outcome
    (ResolverState.initial (sampleFiles "1" 3))).2

/-- What is known when the second run begins. -/
def atSecondRun (version : String) : ResolverState :=
  ⟨sampleFiles version 7, false, 8, [], afterFirstRun.productProbes, [], [], []⟩

def sampleTrace (version : String) : List (ResolverState × Event) :=
  [(ResolverState.initial (sampleFiles "1" 3), .resolve sampleProduct sampleProbe),
    (afterFirstRun, .nextRun (sampleFiles version 7) false 8 [] afterFirstRun.productProbes),
    (atSecondRun version, .resolve sampleProduct sampleProbe)]

theorem run_sampleTrace (version : String) :
    ∃ s, TransitionSystem.Run (Step sampleEngine) (ResolverState.initial (sampleFiles "1" 3))
      (sampleTrace version) s :=
  ⟨_, ((TransitionSystem.Run.nil.snoc (.resolve _ _ _)).snoc
    (.nextRun false 8 (fun _ h => absurd h List.not_mem_nil)
      (fun _ h => List.mem_append_right _ h) fun _ _ _ _ => Nat.zero_lt_succ 6)).snoc
        (.resolve _ _ _)⟩

/-- The result that the probe takes in the second run. -/
theorem takes_sampleTrace (version : String) :
    ∃ r, Takes sampleEngine (atSecondRun version) sampleProduct sampleProbe r ∧
      r.origin = sampleProbe ∧ r.files = sampleFiles "1" 3 ∧
        changedProperties sampleEngine sampleProbe r.properties = [("version", .string "1")] :=
  ⟨_, ⟨by decide, by decide, rfl⟩, rfl, rfl, rfl⟩

/-- The imported file is unchanged. -/
theorem probes_transparent_sampleTrace :
    result sampleEngine sampleProduct sampleProbe (atSecondRun "1") =
      valuesOfRun sampleEngine (atSecondRun "1").files sampleProbe := by
  rcases run_sampleTrace "1" with ⟨s, hrun⟩
  rcases takes_sampleTrace "1" with ⟨r, htakes, horigin, hfiles, -⟩
  refine probes_transparent hrun ?_ _
    (List.mem_cons_of_mem _ (List.mem_cons_of_mem _ List.mem_cons_self)) sampleProduct sampleProbe
    r rfl rfl htakes
  intro e he product probe r' hevent _ htakes'
  rcases List.mem_cons.mp he with rfl | he
  · -- Nothing is stored before the first run.
    cases hevent
    cases htakes'.found
  · rcases List.mem_cons.mp he with rfl | he
    · cases hevent
    · rw [List.mem_singleton.mp he] at hevent htakes' ⊢
      cases hevent
      have hr : r' = r := Option.some.inj (htakes'.found.symm.trans htakes.found)
      rw [hr]
      refine ⟨by rw [horigin], by rw [horigin], fun _ _ => by rw [horigin], fun n hn => ?_⟩
      rw [List.mem_singleton.mp hn, horigin, hfiles]
      rfl

/-- The imported file has changed and is newer, but only a value was taken from it and it was not
recorded as used. -/
theorem changedImport_unnoticed :
    ∃ s, TransitionSystem.Run (Step sampleEngine) (ResolverState.initial (sampleFiles "1" 3))
        (sampleTrace "2") s ∧
      sampleProbe.condition = true ∧
      (∃ r, Takes sampleEngine (atSecondRun "2") sampleProduct sampleProbe r) ∧
      result sampleEngine sampleProduct sampleProbe (atSecondRun "2") ≠
        valuesOfRun sampleEngine (atSecondRun "2").files sampleProbe := by
  rcases run_sampleTrace "2" with ⟨s, hrun⟩
  rcases takes_sampleTrace "2" with ⟨r, htakes, -⟩
  refine ⟨s, hrun, rfl, ⟨r, htakes⟩, ?_⟩
  have hresult : result sampleEngine sampleProduct sampleProbe (atSecondRun "2") =
      .ok [("version", .string "1")] := rfl
  have hvalues : valuesOfRun sampleEngine (atSecondRun "2").files sampleProbe =
      .ok [("version", .string "2")] := rfl
  rw [hresult, hvalues]
  intro h
  simp at h

end Probes

end Qbs
