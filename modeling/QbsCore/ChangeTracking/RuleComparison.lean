import QbsCore.ChangeTracking.ListComparison
import QbsCore.Rules.OutputArtifacts

/-!
# Comparing rules and artifact properties

When a project is resolved again, the rules and the artifact properties of each
product are compared with the restored ones.  If they are equal, the build data of
the product is kept: its nodes get the new rules, and the properties of its
artifacts stay as they are.

Main results:

- Theorem {lit}`RuleComparison.rulesMatch_iff`: when lists of rules that compare
  equal have the same rules.
- Theorem {lit}`RuleComparison.sameArtifacts_iff`: when lists of artifact properties
  that compare equal give the artifacts the same file tags and properties.
- Theorem {lit}`RuleComparison.comparisons_right_iff`: both together.

The comparison of property maps, which takes some values of different types for equal,
is a parameter.

Current gaps:

- The compiled script functions are left out.
-/

namespace Qbs

namespace RuleComparison

/-! ## Rules -/

/-- A place in a project file; an invalid one has no line. -/
structure CodeLocation where
  filePath : FilePath
  line : Int
  column : Int
deriving DecidableEq

structure JsImport where
  scopeName : String
  filePaths : List FilePath

structure ResolvedFileContext where
  filePath : FilePath
  jsImports : List JsImport
  jsExtensions : List String

structure ScriptFunction where
  sourceCode : String
  location : CodeLocation
  fileContext : Option ResolvedFileContext

def ScriptFunction.isValid (f : ScriptFunction) : Bool :=
  f.location.line ≠ -1

/-- A property assignment in an Artifact item of a rule. -/
structure Binding where
  name : List String
  code : String
  location : CodeLocation
deriving DecidableEq

structure RuleArtifact where
  filePath : FilePath
  fileTags : FileTags
  alwaysUpdated : Bool
  bindings : List Binding

structure Rule where
  moduleName : String
  prepareScript : ScriptFunction
  outputFileTags : FileTags
  outputArtifactsScript : ScriptFunction
  inputs : FileTags
  auxiliaryInputs : FileTags
  excludedInputs : FileTags
  inputsFromDependencies : FileTags
  explicitlyDependsOn : FileTags
  explicitlyDependsOnFromDependencies : FileTags
  multiplex : Bool
  requiresInputs : Bool
  artifacts : List RuleArtifact
  alwaysRun : Bool

/-- The part of a rule that is used when it is applied. -/
def Rule.toRule (r : Rule) : Qbs.Rule where
  outputFileTags := r.outputFileTags
  hasOutputArtifactsScript := r.outputArtifactsScript.isValid
  inputs := r.inputs
  auxiliaryInputs := r.auxiliaryInputs
  excludedInputs := r.excludedInputs
  inputsFromDependencies := r.inputsFromDependencies
  explicitlyDependsOn := r.explicitlyDependsOn
  explicitlyDependsOnFromDependencies := r.explicitlyDependsOnFromDependencies
  multiplex := r.multiplex
  requiresInputs := r.requiresInputs
  artifacts := r.artifacts.map fun a => ⟨a.fileTags, a.alwaysUpdated⟩
  alwaysRun := r.alwaysRun

/-- The text for a rule: its sorted output and input tags. -/
def Rule.toString (product : ResolvedProduct) (r : Rule) : String :=
  "[" ++ ",".intercalate (r.toRule.collectedOutputFileTags product).elems ++ "][" ++
    ",".intercalate (r.inputs.unite r.inputsFromDependencies).elems ++ "]"

/-! ## Equality -/

/-- Two vectors of the same length with equal elements. -/
def vectorsAreEqual {V : Type} (equals : V → V → Bool) : List V → List V → Bool
  | [], [] => true
  | a :: as, b :: bs => equals a b && vectorsAreEqual equals as bs
  | _, _ => false

/-- Two pointers that are both null or point to equal objects. -/
def pointersAreEqual {V : Type} (equals : V → V → Bool) : Option V → Option V → Bool
  | none, none => true
  | some a, some b => equals a b
  | _, _ => false

def JsImport.equals (a b : JsImport) : Bool :=
  a.scopeName = b.scopeName && SortedSet.ofList a.filePaths = SortedSet.ofList b.filePaths

/-- Imports in the order of their scope names. -/
def sortedImports (l : List JsImport) : List JsImport :=
  l.mergeSort fun a b => a.scopeName ≤ b.scopeName

def ResolvedFileContext.equals (a b : ResolvedFileContext) : Bool :=
  a.filePath = b.filePath && SortedSet.ofList a.jsExtensions = SortedSet.ofList b.jsExtensions &&
    vectorsAreEqual JsImport.equals (sortedImports a.jsImports) (sortedImports b.jsImports)

def ScriptFunction.equals (a b : ScriptFunction) : Bool :=
  a.sourceCode = b.sourceCode && a.location = b.location &&
    pointersAreEqual ResolvedFileContext.equals a.fileContext b.fileContext

/-- Locations of assignments are not compared. -/
def Binding.equals (a b : Binding) : Bool :=
  a.code = b.code && a.name = b.name

/-- The set of the assignments of an artifact, ordered by name and code. -/
def RuleArtifact.bindingSet (a : RuleArtifact) : List Binding :=
  a.bindings.dedup.mergeSort fun b c => b.name < c.name ∨ b.name = c.name ∧ b.code ≤ c.code

def RuleArtifact.equals (a b : RuleArtifact) : Bool :=
  a.filePath = b.filePath && a.fileTags = b.fileTags && a.alwaysUpdated = b.alwaysUpdated &&
    vectorsAreEqual Binding.equals a.bindingSet b.bindingSet

def Rule.equals (r₁ r₂ : Rule) : Bool :=
  vectorsAreEqual RuleArtifact.equals r₁.artifacts r₂.artifacts &&
    r₁.moduleName = r₂.moduleName && r₁.prepareScript.equals r₂.prepareScript &&
    r₁.outputArtifactsScript.equals r₂.outputArtifactsScript && r₁.inputs = r₂.inputs &&
    r₁.outputFileTags = r₂.outputFileTags && r₁.auxiliaryInputs = r₂.auxiliaryInputs &&
    r₁.excludedInputs = r₂.excludedInputs &&
    r₁.inputsFromDependencies = r₂.inputsFromDependencies &&
    r₁.explicitlyDependsOn = r₂.explicitlyDependsOn &&
    r₁.explicitlyDependsOnFromDependencies = r₂.explicitlyDependsOnFromDependencies &&
    r₁.multiplex = r₂.multiplex && r₁.requiresInputs = r₂.requiresInputs &&
    r₁.alwaysRun = r₂.alwaysRun

/-- The key of a rule in the list of its product. -/
def Rule.keyFromElem (product : ResolvedProduct) (r : Rule) : String :=
  r.toString product ++ r.prepareScript.sourceCode ++
    (if r.outputArtifactsScript.isValid then r.outputArtifactsScript.sourceCode else "") ++
    String.join (r.artifacts.map RuleArtifact.filePath)

/-- Compare the rules of a restored product with those of the newly resolved one. -/
def ruleListsAreEqual (restored resolved : ResolvedProduct) (l₁ l₂ : List Rule) : Bool :=
  ListComparison.listsAreEqual (Rule.keyFromElem restored) (Rule.keyFromElem resolved) Rule.equals
    l₁ l₂

/-- The rule of the new product for an old rule of a node. -/
def findNewRule (newRules : List Rule) (oldRule : Rule) : Except ErrorInfo Rule :=
  match newRules.find? fun r => r.equals oldRule with
  | some r => .ok r
  | none => .error (.check "false")

/-! ### Equality is reflexive and symmetric -/

theorem vectorsAreEqual_refl {V : Type} {equals : V → V → Bool} (h : ∀ a, equals a a = true)
    (l : List V) : vectorsAreEqual equals l l = true := by
  induction l with
  | nil => rfl
  | cons a l ih => rw [vectorsAreEqual, h a, ih, Bool.and_self]

theorem vectorsAreEqual_symm {V : Type} {equals : V → V → Bool} (h : ∀ a b, equals a b = equals b a)
    (l l' : List V) : vectorsAreEqual equals l l' = vectorsAreEqual equals l' l := by
  induction l generalizing l' with
  | nil => cases l' <;> rfl
  | cons a l ih =>
      cases l' with
      | nil => rfl
      | cons b l' => rw [vectorsAreEqual, vectorsAreEqual, h a b, ih l']

theorem pointersAreEqual_refl {V : Type} {equals : V → V → Bool} (h : ∀ a, equals a a = true)
    (p : Option V) : pointersAreEqual equals p p = true := by
  cases p with
  | none => rfl
  | some a => exact h a

theorem pointersAreEqual_symm {V : Type} {equals : V → V → Bool}
    (h : ∀ a b, equals a b = equals b a) (p q : Option V) :
    pointersAreEqual equals p q = pointersAreEqual equals q p := by
  cases p with
  | none => cases q <;> rfl
  | some a =>
      cases q with
      | none => rfl
      | some b => exact h a b

theorem decide_eq_symm {V : Type} [DecidableEq V] (a b : V) : decide (a = b) = decide (b = a) :=
  decide_eq_decide.mpr eq_comm

theorem JsImport.equals_refl (a : JsImport) : a.equals a = true := by
  simp [JsImport.equals]

theorem JsImport.equals_symm (a b : JsImport) : a.equals b = b.equals a := by
  simp only [JsImport.equals, decide_eq_symm a.scopeName, decide_eq_symm (SortedSet.ofList a.filePaths)]

theorem ResolvedFileContext.equals_refl (a : ResolvedFileContext) : a.equals a = true := by
  simp [ResolvedFileContext.equals, vectorsAreEqual_refl JsImport.equals_refl]

theorem ResolvedFileContext.equals_symm (a b : ResolvedFileContext) : a.equals b = b.equals a := by
  simp only [ResolvedFileContext.equals, decide_eq_symm a.filePath,
    decide_eq_symm (SortedSet.ofList a.jsExtensions),
    vectorsAreEqual_symm JsImport.equals_symm (sortedImports a.jsImports)]

theorem ScriptFunction.equals_refl (a : ScriptFunction) : a.equals a = true := by
  simp [ScriptFunction.equals, pointersAreEqual_refl ResolvedFileContext.equals_refl]

theorem ScriptFunction.equals_symm (a b : ScriptFunction) : a.equals b = b.equals a := by
  simp only [ScriptFunction.equals, decide_eq_symm a.sourceCode, decide_eq_symm a.location,
    pointersAreEqual_symm ResolvedFileContext.equals_symm a.fileContext]

theorem RuleArtifact.equals_refl (a : RuleArtifact) : a.equals a = true := by
  have hbinding : ∀ b : Binding, b.equals b = true := by simp [Binding.equals]
  simp [RuleArtifact.equals, vectorsAreEqual_refl hbinding]

theorem RuleArtifact.equals_symm (a b : RuleArtifact) : a.equals b = b.equals a := by
  have hbinding : ∀ b c : Binding, b.equals c = c.equals b := by
    intro b c
    simp only [Binding.equals, decide_eq_symm b.code, decide_eq_symm b.name]
  simp only [RuleArtifact.equals, decide_eq_symm a.filePath, decide_eq_symm a.fileTags,
    decide_eq_symm a.alwaysUpdated, vectorsAreEqual_symm hbinding a.bindingSet]

theorem Rule.equals_refl (r : Rule) : r.equals r = true := by
  simp [Rule.equals, vectorsAreEqual_refl RuleArtifact.equals_refl, ScriptFunction.equals_refl]

theorem Rule.equals_symm (r₁ r₂ : Rule) : r₁.equals r₂ = r₂.equals r₁ := by
  simp only [Rule.equals, vectorsAreEqual_symm RuleArtifact.equals_symm r₁.artifacts,
    ScriptFunction.equals_symm r₁.prepareScript, ScriptFunction.equals_symm r₁.outputArtifactsScript,
    decide_eq_symm r₁.moduleName, decide_eq_symm r₁.inputs, decide_eq_symm r₁.outputFileTags,
    decide_eq_symm r₁.auxiliaryInputs, decide_eq_symm r₁.excludedInputs,
    decide_eq_symm r₁.inputsFromDependencies, decide_eq_symm r₁.explicitlyDependsOn,
    decide_eq_symm r₁.explicitlyDependsOnFromDependencies, decide_eq_symm r₁.multiplex,
    decide_eq_symm r₁.requiresInputs, decide_eq_symm r₁.alwaysRun]

/-! ## Rules of a product that is kept -/

/-- The rules of two lists correspond: each has an equal one in the other list, and a new rule is
found for each old one. -/
structure RulesMatch (oldRules newRules : List Rule) : Prop where
  old : ∀ r, r ∈ oldRules → ∃ r', r' ∈ newRules ∧ r.equals r' = true
  new : ∀ r', r' ∈ newRules → ∃ r, r ∈ oldRules ∧ r.equals r' = true
  found : ∀ r, r ∈ oldRules → ∃ r', findNewRule newRules r = .ok r'

theorem findNewRule_ok {newRules : List Rule} {r r' : Rule} (hmem : r' ∈ newRules)
    (h : r.equals r' = true) : ∃ r'', findNewRule newRules r = .ok r'' := by
  have hsome : (newRules.find? fun x => x.equals r).isSome = true := by
    rw [List.find?_isSome]
    exact ⟨r', hmem, by rwa [Rule.equals_symm]⟩
  rcases Option.isSome_iff_exists.mp hsome with ⟨r'', hr''⟩
  exact ⟨r'', by rw [findNewRule, hr'']⟩

theorem exists_length_bound {V : Type} (f : V → String) (l : List V) :
    ∃ n, ∀ e, e ∈ l → (f e).length < n := by
  induction l with
  | nil => exact ⟨0, by simp⟩
  | cons e l ih =>
      rcases ih with ⟨n, hn⟩
      refine ⟨max n ((f e).length + 1), ?_⟩
      intro e' he'
      rcases List.mem_cons.mp he' with rfl | he'
      · omega
      · have := hn e' he'
        omega

/-- A string of a certain length. -/
def longString (n : Nat) : String :=
  String.ofList (List.replicate n 'x')

@[simp]
theorem length_longString (n : Nat) : (longString n).length = n := by
  simp [longString]

/-- A rule with a prepare script of a certain length and nothing else. -/
def ruleWithScript (n : Nat) : Rule where
  moduleName := ""
  prepareScript := ⟨longString n, ⟨"", 1, 1⟩, none⟩
  outputFileTags := ∅
  outputArtifactsScript := ⟨"", ⟨"", -1, -1⟩, none⟩
  inputs := ∅
  auxiliaryInputs := ∅
  excludedInputs := ∅
  inputsFromDependencies := ∅
  explicitlyDependsOn := ∅
  explicitlyDependsOnFromDependencies := ∅
  multiplex := false
  requiresInputs := false
  artifacts := []
  alwaysRun := false

theorem length_script_le (product : ResolvedProduct) (r : Rule) :
    r.prepareScript.sourceCode.length ≤ (r.keyFromElem product).length := by
  simp only [Rule.keyFromElem, String.length_append]
  omega

/-- A rule with a long script is in no list. -/
theorem exists_foreign_rule (product : ResolvedProduct) (l : List Rule) :
    ∃ x : Rule, ∀ r, r ∈ l → r.keyFromElem product ≠ x.keyFromElem product ∧ r.equals x = false := by
  rcases exists_length_bound (Rule.keyFromElem product) l with ⟨n, hn⟩
  refine ⟨ruleWithScript n, ?_⟩
  intro r hr
  have hlt := hn r hr
  have hscript : (ruleWithScript n).prepareScript.sourceCode.length = n := length_longString n
  have hle := length_script_le product (ruleWithScript n)
  have hle' := length_script_le product r
  constructor
  · intro heq
    rw [heq] at hlt
    omega
  · have hne : r.prepareScript.sourceCode ≠ (ruleWithScript n).prepareScript.sourceCode := by
      intro heq
      rw [heq] at hle'
      omega
    have hscripts : r.prepareScript.equals (ruleWithScript n).prepareScript = false := by
      simp [ScriptFunction.equals, hne]
    simp [Rule.equals, hscripts]

/-- Lists of rules that compare equal correspond, whatever the second list is, exactly if the
keys of the restored rules are distinct. -/
theorem rulesMatch_iff (restored : ResolvedProduct) (l₁ : List Rule) :
    (∀ resolved l₂, ruleListsAreEqual restored resolved l₁ l₂ = true → RulesMatch l₁ l₂) ↔
      (l₁.map (Rule.keyFromElem restored)).Nodup := by
  constructor
  · intro hmatch
    by_contra hrepeated
    rcases exists_foreign_rule restored l₁ with ⟨x, hx⟩
    rcases ListComparison.exists_equal_of_not_nodup (f := id) (fun _ => rfl)
      (fun _ r _ => Rule.equals_refl r) hrepeated (fun r hr => (hx r hr).1) with ⟨l₂, hequal, hmem, -⟩
    rcases (hmatch restored l₂ hequal).new x hmem with ⟨r, hr, hrx⟩
    rw [(hx r hr).2] at hrx
    cases hrx
  · intro hnodup resolved l₂ hequal
    have hold : ∀ r, r ∈ l₁ → ∃ r', r' ∈ l₂ ∧ r.equals r' = true := by
      intro r hr
      rcases ListComparison.exists_right hequal hnodup hr with ⟨r', hr', -, heq⟩
      exact ⟨r', hr', heq⟩
    constructor
    · exact hold
    · intro r' hr'
      rcases ListComparison.exists_left hequal hnodup hr' with ⟨r, hr, -, heq⟩
      exact ⟨r, hr, heq⟩
    · intro r hr
      rcases hold r hr with ⟨r', hr', heq⟩
      exact findNewRule_ok hr' heq

/-! ## Artifact properties -/

section SameValues

variable (sameValues : VariantMap → VariantMap → Bool)

def artifactPropertiesEquals (ap₁ ap₂ : ArtifactProperties) : Bool :=
  ap₁.fileTagsFilter = ap₂.fileTagsFilter && ap₁.extraFileTags = ap₂.extraFileTags &&
    sameValues ap₁.propertyMap ap₂.propertyMap

/-- The key of artifact properties: the sorted tags of the filter. -/
def artifactPropertiesKey (ap : ArtifactProperties) : String :=
  ",".intercalate ap.fileTagsFilter.elems

def artifactPropertyListsAreEqual (l₁ l₂ : List ArtifactProperties) : Bool :=
  ListComparison.listsAreEqual artifactPropertiesKey artifactPropertiesKey
    (artifactPropertiesEquals sameValues) l₁ l₂

end SameValues

variable {ap : ArtifactProperties} {tags : FileTags} {l : List ArtifactProperties}
  {sameValues : VariantMap → VariantMap → Bool}

theorem artifactPropertiesEquals_iff {ap₁ ap₂ : ArtifactProperties} :
    artifactPropertiesEquals sameValues ap₁ ap₂ = true ↔
      ∃ m, sameValues ap₁.propertyMap m = true ∧ ap₂ = { ap₁ with propertyMap := m } := by
  cases ap₁
  cases ap₂
  simp only [artifactPropertiesEquals, Bool.and_eq_true, decide_eq_true_eq,
    ArtifactProperties.mk.injEq]
  constructor
  · rintro ⟨⟨rfl, rfl⟩, h⟩
    exact ⟨_, h, rfl, rfl, rfl⟩
  · rintro ⟨m, h, rfl, rfl, rfl⟩
    exact ⟨⟨rfl, rfl⟩, h⟩

/-- File tags and properties, with the tag that a property implies. -/
def withInstallable (r : FileTags × VariantMap) : FileTags × VariantMap :=
  (if (VariantMap.moduleProperty r.2 "qbs" "install").toBool then insert "installable" r.1 else r.1,
    r.2)

/-- What an artifact with certain tags gets from artifact properties that it matches. -/
def applied (ap : ArtifactProperties) (tags : FileTags) : FileTags × VariantMap :=
  withInstallable (tags.unite ap.extraFileTags, ap.propertyMap)

/-- The first artifact properties in a list with a filter that certain tags pass. -/
def firstMatch (l : List ArtifactProperties) (tags : FileTags) : Option ArtifactProperties :=
  l.find? fun ap => tags.intersects ap.fileTagsFilter

/-- What artifact properties in a certain order give to an artifact with certain tags. -/
def assigned (l : List ArtifactProperties) (tags : FileTags) (moduleProperties : VariantMap) :
    FileTags × VariantMap :=
  ((firstMatch l tags).map fun ap => applied ap tags).getD
    (withInstallable (tags, moduleProperties))

/-- A generated artifact gets the same file tags and properties from two lists of artifact
properties. -/
def SameArtifacts (l₁ l₂ : List ArtifactProperties) : Prop :=
  ∀ (g : BuildGraph) (p : ResolvedProduct) (a : NodeId),
    (g.artifact a).artifactType = .generated →
    ((g.provideFullFileTagsAndProperties { p with artifactProperties := l₁ } a).artifact a).fileTags =
        ((g.provideFullFileTagsAndProperties { p with artifactProperties := l₂ } a).artifact
          a).fileTags ∧
      ((g.provideFullFileTagsAndProperties { p with artifactProperties := l₁ } a).artifact
          a).properties =
        ((g.provideFullFileTagsAndProperties { p with artifactProperties := l₂ } a).artifact
          a).properties

/-- Artifact properties that give the same to an artifact that matches both of their filters. -/
def Interchangeable (ap₁ ap₂ : ArtifactProperties) : Prop :=
  ∀ t₁, t₁ ∈ ap₁.fileTagsFilter → ∀ t₂, t₂ ∈ ap₂.fileTagsFilter →
    applied ap₁ {t₁, t₂} = applied ap₂ {t₁, t₂}

/-- Nothing compares equal to some artifact properties that the comparison looks at: the last ones
in the list with their key. -/
def ComparedWithoutEqual (sameValues : VariantMap → VariantMap → Bool)
    (l : List ArtifactProperties) : Prop :=
  ∃ k ap, (ListComparison.listToMap artifactPropertiesKey l).lookup k = some ap ∧
    ∀ m, sameValues ap.propertyMap m = false

/-- Artifact properties of a list give the same to artifacts with one tag of their filter and one
other tag as the first ones in the list with one of these tags do, also with a property map that
compares equal to their own. -/
def LikeFirst (sameValues : VariantMap → VariantMap → Bool) (l : List ArtifactProperties)
    (ap : ArtifactProperties) : Prop :=
  ∀ m, sameValues ap.propertyMap m = true → ∀ t₁, t₁ ∈ ap.fileTagsFilter → ∀ t₂ first,
    firstMatch l {t₁, t₂} = some first →
      applied { ap with propertyMap := m } {t₁, t₂} = applied first {t₁, t₂}

section Provided

variable (g : BuildGraph) (product : ResolvedProduct) (a : NodeId)

theorem addFileTag_artifact (t : FileTag) : (g.addFileTag product a t).artifact a =
    { g.artifact a with fileTags := insert t (g.artifact a).fileTags } := by
  show Function.update g.artifact a _ a = _
  rw [Function.update_self]

theorem removeFileTag_artifact (t : FileTag) : (g.removeFileTag product a t).artifact a =
    { g.artifact a with fileTags := (g.artifact a).fileTags.remove t } := by
  show Function.update g.artifact a _ a = _
  rw [Function.update_self]

theorem foldl_addFileTag (tags : List FileTag) :
    ((tags.foldl (fun g t => g.addFileTag product a t) g).artifact a).properties =
        (g.artifact a).properties ∧
      ∀ t, t ∈ ((tags.foldl (fun g t => g.addFileTag product a t) g).artifact a).fileTags ↔
        t ∈ tags ∨ t ∈ (g.artifact a).fileTags := by
  induction tags generalizing g with
  | nil => simp
  | cons u tags ih =>
      have h := ih (g.addFileTag product a u)
      rw [addFileTag_artifact] at h
      refine ⟨h.1, fun t => ?_⟩
      rw [List.foldl_cons, h.2, SortedSet.mem_insert, List.mem_cons]
      tauto

theorem foldl_removeFileTag (tags : List FileTag) :
    ((tags.foldl (fun g t => g.removeFileTag product a t) g).artifact a).properties =
        (g.artifact a).properties ∧
      ∀ t, t ∈ ((tags.foldl (fun g t => g.removeFileTag product a t) g).artifact a).fileTags ↔
        t ∉ tags ∧ t ∈ (g.artifact a).fileTags := by
  induction tags generalizing g with
  | nil => simp
  | cons u tags ih =>
      have h := ih (g.removeFileTag product a u)
      rw [removeFileTag_artifact] at h
      refine ⟨h.1, fun t => ?_⟩
      rw [List.foldl_cons, h.2, SortedSet.mem_remove, List.mem_cons]
      tauto

theorem setFileTags_artifact (tags : FileTags) :
    ((g.setFileTags product a tags).artifact a).properties = (g.artifact a).properties ∧
      ((g.setFileTags product a tags).artifact a).fileTags = tags := by
  unfold BuildGraph.setFileTags
  have hadd := foldl_addFileTag g product a (tags.subtract (g.artifact a).fileTags).elems
  have hremove := foldl_removeFileTag
    ((tags.subtract (g.artifact a).fileTags).elems.foldl (fun g t => g.addFileTag product a t) g)
    product a ((g.artifact a).fileTags.subtract tags).elems
  refine ⟨hremove.1.trans hadd.1, ?_⟩
  ext t
  rw [hremove.2, hadd.2, ← SortedSet.mem_def, ← SortedSet.mem_def, SortedSet.mem_subtract,
    SortedSet.mem_subtract]
  tauto

/-- What an artifact of a product gets. -/
theorem provideFullFileTagsAndProperties_artifact :
    (((g.provideFullFileTagsAndProperties product a).artifact a).fileTags,
        ((g.provideFullFileTagsAndProperties product a).artifact a).properties) =
      withInstallable (product.fullFileTagsAndProperties (g.artifact a)) := by
  unfold BuildGraph.provideFullFileTagsAndProperties
  generalize product.fullFileTagsAndProperties (g.artifact a) = full
  have h := setFileTags_artifact (g.modifyArtifact a fun d => { d with properties := full.2 })
    product a full.1
  have hproperties :
      ((g.modifyArtifact a fun d => { d with properties := full.2 }).artifact a).properties =
        full.2 := by
    show (Function.update g.artifact a _ a).properties = _
    rw [Function.update_self]
  unfold withInstallable
  dsimp only
  split_ifs
  · rw [addFileTag_artifact]
    simp only [h.1, h.2, hproperties]
  · rw [h.1, h.2, hproperties]

end Provided

/-- The tags of an artifact before artifact properties are considered. -/
def tagsOf (p : ResolvedProduct) (a : Artifact) : FileTags :=
  if a.pureFileTags.isEmpty then p.fileTagsForFileName (FilePath.fileName a.filePath)
  else a.pureFileTags

theorem withInstallable_full (p : ResolvedProduct) (l : List ArtifactProperties) (a : Artifact) :
    withInstallable (ResolvedProduct.fullFileTagsAndProperties { p with artifactProperties := l } a) =
      assigned l (tagsOf p a) p.moduleProperties := by
  unfold ResolvedProduct.fullFileTagsAndProperties assigned firstMatch tagsOf
  dsimp only
  generalize (if a.pureFileTags.isEmpty = true then p.fileTagsForFileName (FilePath.fileName a.filePath)
    else a.pureFileTags) = tags
  cases l.find? fun ap => tags.intersects ap.fileTagsFilter <;> rfl

theorem firstMatch_some (h : firstMatch l tags = some ap) :
    ap ∈ l ∧ tags.intersects ap.fileTagsFilter = true := by
  unfold firstMatch at h
  exact ⟨List.mem_of_find?_eq_some h,
    List.find?_some (p := fun ap : ArtifactProperties => tags.intersects ap.fileTagsFilter) h⟩

theorem firstMatch_eq_none :
    firstMatch l tags = none ↔ ∀ ap, ap ∈ l → ¬tags.intersects ap.fileTagsFilter = true := by
  unfold firstMatch
  rw [List.find?_eq_none]

theorem exists_firstMatch (hap : ap ∈ l) (hmeets : tags.intersects ap.fileTagsFilter = true) :
    ∃ ap', firstMatch l tags = some ap' := by
  rw [← Option.isSome_iff_exists, Option.isSome_iff_ne_none]
  exact fun hnone => firstMatch_eq_none.mp hnone ap hap hmeets

/-- Two lists give the same to all artifacts exactly if they give the same for all file tags. -/
theorem sameArtifacts_iff_assigned {l₁ l₂ : List ArtifactProperties} :
    SameArtifacts l₁ l₂ ↔
      ∀ tags moduleProperties,
        assigned l₁ tags moduleProperties = assigned l₂ tags moduleProperties := by
  constructor
  · intro h tags moduleProperties
    by_cases htags : tags.isEmpty = true
    · rw [SortedSet.isEmpty_iff.mp htags]
      have hnone : ∀ l : List ArtifactProperties, firstMatch l ∅ = none := by
        intro l
        rw [firstMatch_eq_none]
        intro ap _ hmeets
        rcases SortedSet.intersects_iff.mp hmeets with ⟨t, ht, -⟩
        exact SortedSet.not_mem_empty t ht
      simp only [assigned, hnone]
    · let p : ResolvedProduct :=
        ⟨"", "", [], true, ∅, [], moduleProperties, [], fun _ => ∅, [], [], [], [], default,
          fun _ => ""⟩
      let a : Artifact := { Artifact.create .generated "" with pureFileTags := tags }
      let g : BuildGraph := { BuildGraph.empty with artifact := fun _ => a }
      have htagsOf : tagsOf p a = tags := if_neg htags
      rcases h g p 0 rfl with ⟨hfileTags, hproperties⟩
      have h₁ := provideFullFileTagsAndProperties_artifact g { p with artifactProperties := l₁ } 0
      have h₂ := provideFullFileTagsAndProperties_artifact g { p with artifactProperties := l₂ } 0
      rw [withInstallable_full p, show g.artifact 0 = a from rfl, htagsOf] at h₁ h₂
      rw [show moduleProperties = p.moduleProperties from rfl, ← h₁, ← h₂, hfileTags, hproperties]
  · intro h g p a _
    have h₁ := provideFullFileTagsAndProperties_artifact g { p with artifactProperties := l₁ } a
    have h₂ := provideFullFileTagsAndProperties_artifact g { p with artifactProperties := l₂ } a
    rw [withInstallable_full] at h₁ h₂
    rw [h, ← h₂] at h₁
    exact Prod.mk.inj h₁

/-! ## When the order does not matter -/

theorem intersects_pair {t t₁ t₂ : FileTag} (ht : t ∈ ap.fileTagsFilter) (hmem : t = t₁ ∨ t = t₂) :
    ({t₁, t₂} : FileTags).intersects ap.fileTagsFilter = true := by
  refine SortedSet.intersects_iff.mpr ⟨t, ?_, ht⟩
  rw [SortedSet.mem_insert, SortedSet.mem_singleton]
  exact hmem

/-- What gives the same for two tags of an artifact gives the same to the artifact. -/
theorem applied_eq_of_pair {ap₁ ap₂ : ArtifactProperties} {t₁ t₂ : FileTag} (ht₁ : t₁ ∈ tags)
    (ht₂ : t₂ ∈ tags) (hpair : applied ap₁ {t₁, t₂} = applied ap₂ {t₁, t₂}) :
    applied ap₁ tags = applied ap₂ tags := by
  have hmap : ap₁.propertyMap = ap₂.propertyMap := congrArg Prod.snd hpair
  have htags := congrArg Prod.fst hpair
  have hmem : ∀ t, t ∈ ({t₁, t₂} : FileTags) → t ∈ tags := by
    intro t ht
    rcases SortedSet.mem_insert.mp ht with rfl | ht
    · exact ht₁
    · rw [SortedSet.mem_singleton.mp ht]
      exact ht₂
  clear hpair
  generalize ({t₁, t₂} : FileTags) = pair at htags hmem
  unfold applied withInstallable at htags ⊢
  simp only [hmap] at htags ⊢
  refine Prod.ext ?_ rfl
  dsimp only
  ext t
  have ht := Iff.of_eq (congrArg (fun s : FileTags => t ∈ s) htags)
  by_cases hold : t ∈ tags
  · split_ifs <;> simp [hold]
  · have hpair : t ∉ pair := fun h => hold (hmem t h)
    split_ifs at ht ⊢
    · simpa [hold, hpair] using ht
    · simpa [hold, hpair] using ht

/-- Interchangeable artifact properties are like the first ones if maps that compare equal are the
same. -/
theorem likeFirst_of_interchangeable
    (hsame : ∀ m, sameValues ap.propertyMap m = true → m = ap.propertyMap)
    (h : ∀ ap', ap' ∈ l → Interchangeable ap ap') : LikeFirst sameValues l ap := by
  intro m hm t₁ ht₁ t₂ first hfirst
  rw [hsame m hm]
  rcases firstMatch_some hfirst with ⟨hmem, hmeets⟩
  rcases SortedSet.intersects_iff.mp hmeets with ⟨t, ht, htf⟩
  have hpair := h first hmem t₁ ht₁ t htf
  refine applied_eq_of_pair (SortedSet.mem_insert_self t₁ _) ht hpair

theorem assigned_of_some {moduleProperties : VariantMap} (h : firstMatch l tags = some ap) :
    assigned l tags moduleProperties = applied ap tags := by
  rw [assigned, h, Option.map_some, Option.getD_some]

theorem assigned_of_none {moduleProperties : VariantMap} (h : firstMatch l tags = none) :
    assigned l tags moduleProperties = withInstallable (tags, moduleProperties) := by
  rw [assigned, h, Option.map_none, Option.getD_none]

/-- The first artifact properties that match some tags also match first two of the tags, one of
which they have in their filter. -/
theorem firstMatch_pair {first : ArtifactProperties} (h : firstMatch l tags = some first)
    {t₁ : FileTag} (ht₁ : t₁ ∈ tags) :
    ∃ t₂, t₂ ∈ tags ∧ firstMatch l {t₁, t₂} = some first := by
  rcases SortedSet.intersects_iff.mp (firstMatch_some h).2 with ⟨t₂, ht₂, hfilter⟩
  refine ⟨t₂, ht₂, ?_⟩
  unfold firstMatch at h ⊢
  rw [List.find?_eq_some_iff_append] at h ⊢
  rcases h with ⟨-, before, after, rfl, hbefore⟩
  refine ⟨intersects_pair hfilter (Or.inr rfl), before, after, rfl, ?_⟩
  intro ap hap
  have hnot := hbefore ap hap
  rw [Bool.not_eq_true', Bool.eq_false_iff, ne_eq, SortedSet.intersects_iff] at hnot ⊢
  rintro ⟨t, ht, htf⟩
  refine hnot ⟨t, ?_, htf⟩
  rcases SortedSet.mem_insert.mp ht with rfl | ht
  · exact ht₁
  · rw [SortedSet.mem_singleton.mp ht]
    exact ht₂

/-- A list of elements that compare equal to those of a list gives the same if all elements of this
list are like the first ones. -/
theorem assigned_eq {l₁ l₂ : List ArtifactProperties}
    (hright : ∀ ap, ap ∈ l₁ → ∃ ap', ap' ∈ l₂ ∧ artifactPropertiesEquals sameValues ap ap' = true)
    (hleft : ∀ ap', ap' ∈ l₂ → ∃ ap, ap ∈ l₁ ∧ artifactPropertiesEquals sameValues ap ap' = true)
    (h : ∀ ap, ap ∈ l₁ → LikeFirst sameValues l₁ ap) (tags : FileTags)
    (moduleProperties : VariantMap) :
    assigned l₁ tags moduleProperties = assigned l₂ tags moduleProperties := by
  cases h₁ : firstMatch l₁ tags with
  | none =>
      have h₂ : firstMatch l₂ tags = none := by
        rw [firstMatch_eq_none] at h₁ ⊢
        intro ap' hap'
        rcases hleft ap' hap' with ⟨ap, hap, hequals⟩
        rcases artifactPropertiesEquals_iff.mp hequals with ⟨m, -, rfl⟩
        exact h₁ ap hap
      rw [assigned_of_none h₁, assigned_of_none h₂]
  | some first =>
      rcases firstMatch_some h₁ with ⟨hfirst, hmeets₁⟩
      rcases hright first hfirst with ⟨first', hfirst', hequals⟩
      have hmeets' : tags.intersects first'.fileTagsFilter = true := by
        rcases artifactPropertiesEquals_iff.mp hequals with ⟨m, -, rfl⟩
        exact hmeets₁
      rcases exists_firstMatch hfirst' hmeets' with ⟨ap₂, h₂⟩
      rcases firstMatch_some h₂ with ⟨hap₂, hmeets₂⟩
      rcases hleft ap₂ hap₂ with ⟨ap, hap, hequals⟩
      rcases artifactPropertiesEquals_iff.mp hequals with ⟨m, hm, rfl⟩
      rcases SortedSet.intersects_iff.mp hmeets₂ with ⟨t₁, ht₁, hf₁⟩
      rcases firstMatch_pair h₁ ht₁ with ⟨t₂, ht₂, hpair⟩
      rw [assigned_of_some h₁, assigned_of_some h₂]
      exact (applied_eq_of_pair ht₁ ht₂ (h ap hap m hm t₁ hf₁ t₂ first hpair)).symm

/-- Artifact properties with a long tag in their filter are in no list and match none of the tags
of a list. -/
theorem exists_foreign_properties (l : List ArtifactProperties) :
    ∃ tag : FileTag, ∀ ap, ap ∈ l → artifactPropertiesKey ap ≠ tag ∧ tag ∉ ap.fileTagsFilter := by
  rcases exists_length_bound artifactPropertiesKey l with ⟨n, hn⟩
  rcases exists_length_bound id (l.flatMap fun ap => ap.fileTagsFilter.elems) with ⟨m, hm⟩
  refine ⟨longString (max n m), ?_⟩
  intro ap hap
  constructor
  · intro heq
    have hlt := hn ap hap
    rw [heq, length_longString] at hlt
    omega
  · intro hmem
    have hlt := hm _ (List.mem_flatMap.mpr ⟨ap, hap, hmem⟩)
    rw [id, length_longString] at hlt
    omega

section Comparison

variable {sameValues : VariantMap → VariantMap → Bool} {l₁ : List ArtifactProperties}

open Classical in
/-- Artifact properties that compare equal to some others, if there are any. -/
noncomputable def equalProperties (sameValues : VariantMap → VariantMap → Bool)
    (ap : ArtifactProperties) : ArtifactProperties :=
  if h : ∃ m, sameValues ap.propertyMap m = true then { ap with propertyMap := h.choose } else ap

theorem equalProperties_filter (ap : ArtifactProperties) :
    (equalProperties sameValues ap).fileTagsFilter = ap.fileTagsFilter := by
  unfold equalProperties
  split <;> rfl

theorem key_equalProperties (ap : ArtifactProperties) :
    artifactPropertiesKey (equalProperties sameValues ap) = artifactPropertiesKey ap := by
  rw [artifactPropertiesKey, equalProperties_filter, artifactPropertiesKey]

/-- If something compares equal to all artifact properties that the comparison looks at, these
do. -/
theorem equals_equalProperties (hequal : ¬ComparedWithoutEqual sameValues l₁) (k : String)
    (ap : ArtifactProperties)
    (hlookup : (ListComparison.listToMap artifactPropertiesKey l₁).lookup k = some ap) :
    artifactPropertiesEquals sameValues ap (equalProperties sameValues ap) = true := by
  have hex : ∃ m, sameValues ap.propertyMap m = true := by
    by_contra hnone
    exact hequal ⟨k, ap, hlookup, fun m => by simpa using fun hm => hnone ⟨m, hm⟩⟩
  rw [artifactPropertiesEquals_iff]
  exact ⟨hex.choose, hex.choose_spec, dif_pos hex⟩

theorem nodup_of_sameArtifacts (hequal : ¬ComparedWithoutEqual sameValues l₁)
    (h : ∀ l₂, artifactPropertyListsAreEqual sameValues l₁ l₂ = true → SameArtifacts l₁ l₂) :
    (l₁.map artifactPropertiesKey).Nodup := by
  by_contra hrepeated
  rcases exists_foreign_properties l₁ with ⟨tag, htag⟩
  let x : ArtifactProperties := ⟨{tag}, ∅, []⟩
  have hkey : artifactPropertiesKey x = tag := by
    show ",".intercalate [tag] = tag
    simp
  rcases ListComparison.exists_equal_of_not_nodup key_equalProperties
    (equals_equalProperties hequal) hrepeated (x := x)
    (fun ap hap => hkey.symm ▸ (htag ap hap).1) with ⟨l₂, hequal₂, hx, hmem⟩
  have hsame := sameArtifacts_iff_assigned.mp (h l₂ hequal₂) {tag}
    (("", .invalid) :: (equalProperties sameValues x).propertyMap)
  have hmeets : ∀ ap : ArtifactProperties, ({tag} : FileTags).intersects ap.fileTagsFilter = true →
      tag ∈ ap.fileTagsFilter := by
    intro ap hap
    rcases SortedSet.intersects_iff.mp hap with ⟨t, ht, htf⟩
    rwa [SortedSet.mem_singleton.mp ht] at htf
  have hnone : firstMatch l₁ {tag} = none := by
    rw [firstMatch_eq_none]
    exact fun ap hap hm => (htag ap hap).2 (hmeets ap hm)
  have hmatch : ({tag} : FileTags).intersects
      (equalProperties sameValues x).fileTagsFilter = true := by
    rw [equalProperties_filter]
    exact SortedSet.intersects_iff.mpr
      ⟨tag, SortedSet.mem_singleton.mpr rfl, SortedSet.mem_singleton.mpr rfl⟩
  rcases exists_firstMatch hx hmatch with ⟨y, hy⟩
  rcases firstMatch_some hy with ⟨hymem, hymeets⟩
  have hyx : y = equalProperties sameValues x := by
    rcases hmem y hymem with hyx | ⟨e, he, rfl⟩
    · exact hyx
    · have htagmem := hmeets _ hymeets
      rw [equalProperties_filter] at htagmem
      exact absurd htagmem (htag e he).2
  rw [assigned_of_none hnone, assigned_of_some hy, hyx] at hsame
  exact absurd (congrArg Prod.snd hsame) (List.cons_ne_self _ _)

/-- Moving one element to the front, with a property map that compares equal, gives an equal
list. -/
theorem applied_eq_assigned (hequal : ¬ComparedWithoutEqual sameValues l₁)
    (h : ∀ l₂, artifactPropertyListsAreEqual sameValues l₁ l₂ = true → SameArtifacts l₁ l₂)
    {ap : ArtifactProperties} (hap : ap ∈ l₁) {m : VariantMap}
    (hm : sameValues ap.propertyMap m = true) {tags : FileTags}
    (hmeets : tags.intersects ap.fileTagsFilter = true) (moduleProperties : VariantMap) :
    applied { ap with propertyMap := m } tags = assigned l₁ tags moduleProperties := by
  classical
  have hnodup := nodup_of_sameArtifacts hequal h
  let f := Function.update (equalProperties sameValues) ap { ap with propertyMap := m }
  have hfap : f ap = { ap with propertyMap := m } := Function.update_self ..
  have hkey : ∀ e, artifactPropertiesKey (f e) = artifactPropertiesKey e := by
    intro e
    by_cases he : e = ap
    · rw [he, hfap]
      rfl
    · rw [show f e = equalProperties sameValues e from Function.update_of_ne he ..,
        key_equalProperties]
  have hf : ∀ k e, (ListComparison.listToMap artifactPropertiesKey l₁).lookup k = some e →
      artifactPropertiesEquals sameValues e (f e) = true := by
    intro k e hlookup
    by_cases he : e = ap
    · rw [he, hfap]
      exact artifactPropertiesEquals_iff.mpr ⟨m, hm, rfl⟩
    · rw [show f e = equalProperties sameValues e from Function.update_of_ne he ..]
      exact equals_equalProperties hequal k e hlookup
  rcases List.append_of_mem hap with ⟨before, after, hsplit⟩
  have hperm : (l₁.map f).Perm ((ap :: (before ++ after)).map f) := by
    rw [hsplit]
    exact List.perm_middle.map f
  have hnodup₂ : ((l₁.map f).map artifactPropertiesKey).Nodup := by
    rwa [List.map_map, show artifactPropertiesKey ∘ f = artifactPropertiesKey from funext hkey]
  have hlists : artifactPropertyListsAreEqual sameValues l₁ ((ap :: (before ++ after)).map f) = true :=
    ListComparison.listsAreEqual_of_perm hnodup₂ hperm (ListComparison.listsAreEqual_map hkey hf)
  have hfirst : firstMatch ((ap :: (before ++ after)).map f) tags =
      some { ap with propertyMap := m } := by
    unfold firstMatch
    rw [List.map_cons, hfap, List.find?_cons]
    simp only [hmeets]
  rw [sameArtifacts_iff_assigned.mp (h _ hlists) tags moduleProperties, assigned_of_some hfirst]

/-- Lists of artifact properties that compare equal give the same to all generated artifacts,
whatever the second list is, exactly if nothing compares equal to the restored list, or the restored
filters have distinct keys and all restored artifact properties are like the first ones. -/
theorem sameArtifacts_iff (sameValues : VariantMap → VariantMap → Bool)
    (l₁ : List ArtifactProperties) :
    (∀ l₂, artifactPropertyListsAreEqual sameValues l₁ l₂ = true → SameArtifacts l₁ l₂) ↔
      ComparedWithoutEqual sameValues l₁ ∨
        (l₁.map artifactPropertiesKey).Nodup ∧ ∀ ap, ap ∈ l₁ → LikeFirst sameValues l₁ ap := by
  constructor
  · intro h
    by_cases hequal : ComparedWithoutEqual sameValues l₁
    · exact Or.inl hequal
    · refine Or.inr ⟨nodup_of_sameArtifacts hequal h, ?_⟩
      intro ap hap m hm t₁ ht₁ t₂ first hfirst
      rw [applied_eq_assigned hequal h hap hm (intersects_pair ht₁ (Or.inl rfl)) [],
        assigned_of_some hfirst]
  · rintro (⟨k, ap, hlookup, hnone⟩ | ⟨hnodup, hfirst⟩) l₂ hequal
    · rcases (ListComparison.listsAreEqual_iff.mp hequal).2 k ap hlookup with ⟨ap', -, hequals⟩
      rcases artifactPropertiesEquals_iff.mp hequals with ⟨m, hm, -⟩
      rw [hnone m] at hm
      cases hm
    · rw [sameArtifacts_iff_assigned]
      have hright : ∀ ap, ap ∈ l₁ →
          ∃ ap', ap' ∈ l₂ ∧ artifactPropertiesEquals sameValues ap ap' = true := by
        intro ap hap
        rcases ListComparison.exists_right hequal hnodup hap with ⟨ap', hap', -, heq⟩
        exact ⟨ap', hap', heq⟩
      refine assigned_eq hright ?_ hfirst
      intro ap' hap'
      rcases ListComparison.exists_left hequal hnodup hap' with ⟨ap, hap, -, heq⟩
      exact ⟨ap, hap, heq⟩

end Comparison

/-! ## Both comparisons -/

/-- When the comparison of the rules and of the artifact properties of a restored product can be
relied on, whatever was newly resolved. Artifact properties are like the first ones in particular
if they are interchangeable and maps that compare equal are the same. -/
theorem comparisons_right_iff (sameValues : VariantMap → VariantMap → Bool)
    (restored : ResolvedProduct) (rules : List Rule) (properties : List ArtifactProperties) :
    ((∀ resolved l₂, ruleListsAreEqual restored resolved rules l₂ = true → RulesMatch rules l₂) ↔
        (rules.map (Rule.keyFromElem restored)).Nodup) ∧
      ((∀ l₂, artifactPropertyListsAreEqual sameValues properties l₂ = true →
          SameArtifacts properties l₂) ↔
        ComparedWithoutEqual sameValues properties ∨
          (properties.map artifactPropertiesKey).Nodup ∧
            ∀ ap, ap ∈ properties → LikeFirst sameValues properties ap) ∧
      ∀ ap, ap ∈ properties →
        (∀ m, sameValues ap.propertyMap m = true → m = ap.propertyMap) →
        (∀ ap', ap' ∈ properties → Interchangeable ap ap') → LikeFirst sameValues properties ap :=
  ⟨rulesMatch_iff restored rules, sameArtifacts_iff sameValues properties,
    fun _ _ hsame h => likeFirst_of_interchangeable hsame h⟩

/-- A product without artifact properties. -/
def sampleProduct : ResolvedProduct :=
  ⟨"p", "", [], true, ∅, [], [], [], fun _ => ∅, [], [], [], [], default, fun _ => ""⟩

/-- A rule that compiles a file, with some auxiliary inputs. -/
def sampleRule (auxiliaryInputs : FileTags) : Rule where
  moduleName := "compiler"
  prepareScript := ⟨"return [];", ⟨"compiler.qbs", 5, 9⟩, none⟩
  outputFileTags := {"obj"}
  outputArtifactsScript := ⟨"return outputs();", ⟨"compiler.qbs", 4, 9⟩, none⟩
  inputs := {"src"}
  auxiliaryInputs := auxiliaryInputs
  excludedInputs := ∅
  inputsFromDependencies := ∅
  explicitlyDependsOn := ∅
  explicitlyDependsOnFromDependencies := ∅
  multiplex := false
  requiresInputs := true
  artifacts := []
  alwaysRun := false

/-- The properties of the artifacts with a tag. -/
def sampleProperties (tag : FileTag) : ArtifactProperties :=
  ⟨{tag}, ∅, [("tag", .string tag)]⟩

/-- The first of two rules with the same tags and scripts gets other auxiliary inputs, and two
groups with file tag filters change places: both changes go unnoticed. -/
theorem comparisons_sample :
    (ruleListsAreEqual sampleProduct sampleProduct [sampleRule {"a"}, sampleRule ∅]
          [sampleRule {"b"}, sampleRule ∅] = true ∧
        ¬RulesMatch [sampleRule {"a"}, sampleRule ∅] [sampleRule {"b"}, sampleRule ∅]) ∧
      artifactPropertyListsAreEqual (fun m m' => m = m')
          [sampleProperties "x", sampleProperties "y"]
          [sampleProperties "y", sampleProperties "x"] = true ∧
        ¬SameArtifacts [sampleProperties "x", sampleProperties "y"]
          [sampleProperties "y", sampleProperties "x"] := by
  refine ⟨⟨by rfl, ?_⟩, by rfl, ?_⟩
  · intro h
    rcases h.old (sampleRule {"a"}) (by simp) with ⟨r, hr, heq⟩
    rcases List.mem_cons.mp hr with rfl | hr
    · exact absurd heq (by decide)
    · rw [List.mem_singleton.mp hr] at heq
      exact absurd heq (by decide)
  · intro h
    have hsame := sameArtifacts_iff_assigned.mp h {"x", "y"} []
    have hproperties : ([("tag", .string "x")] : VariantMap) = [("tag", .string "y")] :=
      congrArg Prod.snd hsame
    exact absurd hproperties (by decide)

end RuleComparison

end Qbs
