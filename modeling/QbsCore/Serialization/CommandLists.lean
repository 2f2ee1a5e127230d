import QbsCore.Executor.CommandExecutors
import QbsCore.Serialization.RoundTrip

/-!
# Stored lists of commands

The pool stores a list of commands as their number and then, for each command, its type and a
shared pointer.

Main results:

- Definition {lit}`RuleCommands.fields`: what is stored for a command.
- Theorem {lit}`RuleCommands.load_store`: a stored list of commands is loaded again.
- Theorem {lit}`RuleCommands.commandLists_right_iff`: when equal lists do the same and a list is equal
  to itself after it was stored and loaded.

Current gaps:

- None.
-/

namespace Qbs

namespace RuleCommands

open Serialization

inductive CommandType where
  | process
  | javaScript
deriving DecidableEq

/-! ## What is stored -/

abbrev intTy : Ty CommandType :=
  .key .int

abbrev stringTy : Ty CommandType :=
  .key .string

/-- A location; whether it is valid comes first. -/
abbrev codeLocationTy : Ty CommandType :=
  .sum .unit (.pair stringTy (.pair intTy intTy))

abbrev abstractCommandTy : Ty CommandType :=
  .pair stringTy (.pair stringTy (.pair stringTy (.pair intTy (.pair intTy (.pair codeLocationTy
    (.pair stringTy (.pair intTy (.map true .string .variant))))))))

abbrev processCommandTy : Ty CommandType :=
  .pair abstractCommandTy (.pair stringTy (.pair (.key .stringList) (.pair .environment
    (.pair stringTy (.pair stringTy (.pair stringTy (.pair stringTy (.pair stringTy (.pair intTy
      (.pair intTy (.pair intTy (.pair (.key .stringList) (.pair .environment
        (.pair stringTy stringTy))))))))))))))

abbrev javaScriptCommandTy : Ty CommandType :=
  .pair abstractCommandTy (.pair stringTy stringTy)

/-- The members of a command in the order in which they are stored. -/
def fields : Fields CommandType
  | .process => processCommandTy
  | .javaScript => javaScriptCommandTy

abbrev CommandPointerTy : Ty CommandType :=
  .sum (.key (.pointer true .process)) (.key (.pointer true .javaScript))

abbrev commandListTy : Ty CommandType :=
  .list CommandPointerTy

variable {Ref : Bool → CommandType → Type}

def boolOf (i : Int) : Bool :=
  i ≠ 0

def codeLocationOf : codeLocationTy.Val Ref → Option CodeLocation
  | .inl () => none
  | .inr (filePath, line, column) => some ⟨filePath, line, column⟩

def abstractCommandOf : abstractCommandTy.Val Ref → AbstractCommand
  | (description, extendedDescription, highlight, ignoreDryRun, silent, codeLocation, jobPool,
      timeout, properties) =>
      { description, extendedDescription, highlight
        ignoreDryRun := boolOf ignoreDryRun
        silent := boolOf silent
        codeLocation := codeLocationOf codeLocation
        jobPool, timeout
        properties := .ofAssocMap properties }

def processCommandOf : processCommandTy.Val Ref → ProcessCommand
  | (base, program, arguments, environment, workingDir, stdoutFilterFunction,
      stderrFilterFunction, responseFileUsagePrefix, responseFileSeparator, maxExitCode,
      responseFileThreshold, responseFileArgumentIndex, relevantEnvVars, relevantEnvValues,
      stdoutFilePath, stderrFilePath) =>
      { abstractCommandOf base with
        program, arguments, workingDir, maxExitCode, stdoutFilterFunction, stderrFilterFunction
        responseFileThreshold, responseFileArgumentIndex, responseFileUsagePrefix
        responseFileSeparator, environment, relevantEnvVars, relevantEnvValues, stdoutFilePath
        stderrFilePath }

def javaScriptCommandOf : javaScriptCommandTy.Val Ref → JavaScriptCommand
  | (base, scopeName, sourceCode) => { abstractCommandOf base with scopeName, sourceCode }

/-- The command with some members. -/
def commandOf : (c : CommandType) → (fields c).Val Ref → Command
  | .process, x => .process (processCommandOf x)
  | .javaScript, x => .javaScript (javaScriptCommandOf x)

section

variable {R : PointerRel Ref}

theorem codeLocationOf_eq {x : codeLocationTy.Val Ref} {y : codeLocationTy.Val (Loaded CommandType)}
    (h : codeLocationTy.Corresponds R x y) : codeLocationOf x = codeLocationOf y := by
  cases x with
  | inl x =>
      cases y with
      | inl y => rfl
      | inr y => cases h
  | inr x =>
      cases y with
      | inl y => cases h
      | inr y =>
          rcases x with ⟨filePath, line, column⟩
          rcases y with ⟨filePath', line', column'⟩
          rcases h with ⟨hfilePath, hline, hcolumn⟩
          cases hfilePath
          cases hline
          cases hcolumn
          rfl

theorem abstractCommandOf_eq {x : abstractCommandTy.Val Ref}
    {y : abstractCommandTy.Val (Loaded CommandType)} (h : abstractCommandTy.Corresponds R x y) :
    abstractCommandOf x = abstractCommandOf y := by
  rcases x with ⟨d, e, hl, i, s, loc, pool, timeout, props⟩
  rcases y with ⟨d', e', hl', i', s', loc', pool', timeout', props'⟩
  rcases h with ⟨hd, he, hhl, hi, hs, hloc, hpool, htimeout, hprops⟩
  have hproperties : QVariantMap.ofAssocMap props = QVariantMap.ofAssocMap props' := by
    rcases hprops with ⟨l, hperm, hl⟩
    apply QVariantMap.ofAssocMap_eq_of_perm
    have heq : AList.entries props = l := by
      apply List.forall₂_eq_eq_eq ▸ hl.imp
      intro a b hab
      exact Sigma.ext hab.1 (heq_of_eq hab.2)
    rw [heq]
    exact hperm
  have hlocation := codeLocationOf_eq hloc
  cases hd
  cases he
  cases hhl
  cases hi
  cases hs
  cases hpool
  cases htimeout
  simp only [abstractCommandOf, hproperties, hlocation]

theorem processCommandOf_eq {x : processCommandTy.Val Ref}
    {y : processCommandTy.Val (Loaded CommandType)} (h : processCommandTy.Corresponds R x y) :
    processCommandOf x = processCommandOf y := by
  rcases x with ⟨base, x⟩
  rcases y with ⟨base', y⟩
  rcases h with ⟨hbase, h₁, h₂, h₃, h₄, h₅, h₆, h₇, h₈, h₉, h₁₀, h₁₁, h₁₂, h₁₃, h₁₄, h₁₅⟩
  have hrest : x = y :=
    Prod.ext h₁ (Prod.ext h₂ (Prod.ext h₃ (Prod.ext h₄ (Prod.ext h₅ (Prod.ext h₆
      (Prod.ext h₇ (Prod.ext h₈ (Prod.ext h₉ (Prod.ext h₁₀ (Prod.ext h₁₁ (Prod.ext h₁₂
        (Prod.ext h₁₃ (Prod.ext h₁₄ h₁₅)))))))))))))
  cases hrest
  have hmembers : processCommandOf (base, x) =
      { processCommandOf (base', x) with toAbstractCommand := abstractCommandOf base } := rfl
  rw [hmembers, abstractCommandOf_eq hbase]
  rfl

theorem javaScriptCommandOf_eq {x : javaScriptCommandTy.Val Ref}
    {y : javaScriptCommandTy.Val (Loaded CommandType)}
    (h : javaScriptCommandTy.Corresponds R x y) : javaScriptCommandOf x = javaScriptCommandOf y := by
  rcases x with ⟨base, x⟩
  rcases y with ⟨base', y⟩
  rcases h with ⟨hbase, hscopeName, hsourceCode⟩
  have hrest : x = y := Prod.ext hscopeName hsourceCode
  cases hrest
  have hmembers : javaScriptCommandOf (base, x) =
      { javaScriptCommandOf (base', x) with toAbstractCommand := abstractCommandOf base } := rfl
  rw [hmembers, abstractCommandOf_eq hbase]
  rfl

/-- Corresponding members are those of the same command. -/
theorem commandOf_eq {c : CommandType} {x : (fields c).Val Ref}
    {y : (fields c).Val (Loaded CommandType)} (h : (fields c).Corresponds R x y) :
    commandOf c x = commandOf c y := by
  cases c with
  | process => exact congrArg Command.process (processCommandOf_eq h)
  | javaScript => exact congrArg Command.javaScript (javaScriptCommandOf_eq h)

end

/-! ## Commands in a memory -/

/-- The command that a pointer of a list refers to; there are no null pointers in lists. -/
def pointedCommand (m : Memory fields) :
    CommandPointerTy.Val m.Ref → Option Command
  | .inl (p : Option (m.Ref true .process)) =>
      p.map fun a => commandOf (m.kind a.1).2 (m.contents a.1)
  | .inr (p : Option (m.Ref true .javaScript)) =>
      p.map fun a => commandOf (m.kind a.1).2 (m.contents a.1)

/-- The commands of a list in a memory. -/
def commandsOf (m : Memory fields) (v : commandListTy.Val m.Ref) : Option CommandList :=
  List.mapM (pointedCommand m) v

/-- The command that was loaded under a number. -/
def loadedObject (pool : LoadPool fields) (address : Nat) : Option Command :=
  (pool.objects[address]?).join.map fun x => commandOf x.1 x.2

def loadedCommand (pool : LoadPool fields) :
    CommandPointerTy.Val (Loaded CommandType) → Option Command
  | .inl (p : Option Nat) => p.bind (loadedObject pool)
  | .inr (p : Option Nat) => p.bind (loadedObject pool)

/-- The commands of a loaded list. -/
def loadedCommands (pool : LoadPool fields) (v : commandListTy.Val (Loaded CommandType)) :
    Option CommandList :=
  List.mapM (loadedCommand pool) v

/-! ## Loading what was stored -/

variable {m : Memory fields} {pool : LoadPool fields} {φ : Fin m.size → Option Nat}

/-- An object that was loaded for a command is the same command. -/
theorem loadedObject_eq {t : Ty CommandType} {v : t.Val m.Ref} {v' : t.Val (Loaded CommandType)}
    (h : Isomorphic m pool t v v' φ) {a : Fin m.size} {k : Nat} (hk : φ a = some k) :
    loadedObject pool k = some (commandOf (m.kind a).2 (m.contents a)) := by
  rcases h.contents a k hk with ⟨x, hx, hcorresponds⟩
  rw [loadedObject, hx]
  exact congrArg some (commandOf_eq hcorresponds).symm

theorem loadedCommand_eq {t : Ty CommandType} {v : t.Val m.Ref} {v' : t.Val (Loaded CommandType)}
    (h : Isomorphic m pool t v v' φ) {x : CommandPointerTy.Val m.Ref}
    {y : CommandPointerTy.Val (Loaded CommandType)}
    (hxy : CommandPointerTy.Corresponds (SameObject m φ) x y) {c : Command}
    (hc : pointedCommand m x = some c) : loadedCommand pool y = some c := by
  cases x with
  | inl x =>
      cases y with
      | inl y =>
          rcases Option.map_eq_some_iff.mp hc with ⟨a, rfl, rfl⟩
          rcases hxy with ⟨k, hk, rfl⟩
          exact loadedObject_eq h hk
      | inr y => cases hxy
  | inr x =>
      cases y with
      | inl y => cases hxy
      | inr y =>
          rcases Option.map_eq_some_iff.mp hc with ⟨a, rfl, rfl⟩
          rcases hxy with ⟨k, hk, rfl⟩
          exact loadedObject_eq h hk

/-- If what is found for single items is the same, so is what is found for lists. -/
theorem mapM_eq_of_forall₂ {α β γ : Type} {r : α → β → Prop} {f : α → Option γ} {g : β → Option γ}
    (h : ∀ x y c, r x y → f x = some c → g y = some c) {xs : List α} {ys : List β} {l : List γ}
    (hr : List.Forall₂ r xs ys) (hf : xs.mapM f = some l) : ys.mapM g = some l := by
  induction hr generalizing l with
  | nil => exact hf
  | @cons x y xs ys hxy hrest ih =>
      rw [List.mapM_cons] at hf ⊢
      rcases Option.bind_eq_some_iff.mp hf with ⟨c, hc, hf⟩
      rcases Option.bind_eq_some_iff.mp hf with ⟨cs, hcs, hl⟩
      rw [h x y c hxy hc, ih hcs]
      exact hl

/-- A list of commands is loaded as it was stored. -/
theorem load_store (m : Memory fields) (v : commandListTy.Val m.Ref) {l : CommandList}
    (hl : commandsOf m v = some l) :
    ∃ s tokens, storeRoot m commandListTy v (StorePool.new m.size, []) = .ok ((), (s, tokens)) ∧
      ∃ v' pool, loadRoot commandListTy (LoadPool.new fields, tokens) = .ok (v', pool, []) ∧
        loadedCommands pool v' = some l := by
  rcases loadRoot_storeRoot m commandListTy v with ⟨s, tokens, hstore, v', pool, hload, hiso⟩
  refine ⟨s, tokens, hstore, v', pool, hload, ?_⟩
  have hcommand : ∀ x y c, CommandPointerTy.Corresponds (SameObject m s.index) x y →
      pointedCommand m x = some c → loadedCommand pool y = some c :=
    fun x y c hxy hc => loadedCommand_eq hiso hxy hc
  exact mapM_eq_of_forall₂ hcommand hiso.root hl

/-! ## A memory for each list -/

def Command.type : Command → CommandType
  | .process _ => .process
  | .javaScript _ => .javaScript

def ofBool (b : Bool) : Int :=
  if b then 1 else 0

@[simp]
theorem boolOf_ofBool (b : Bool) : boolOf (ofBool b) = b := by
  cases b <;> rfl

def codeLocationFields : Option CodeLocation → codeLocationTy.Val Ref
  | none => .inl ()
  | some ⟨filePath, line, column⟩ => .inr (filePath, line, column)

def abstractCommandFields (c : AbstractCommand) : abstractCommandTy.Val Ref :=
  (c.description, c.extendedDescription, c.highlight, ofBool c.ignoreDryRun, ofBool c.silent,
    codeLocationFields c.codeLocation, c.jobPool, c.timeout, c.properties.toAssocMap)

/-- The members of a command. -/
def Command.fields : (c : Command) → (RuleCommands.fields c.type).Val Ref
  | .process c =>
      (abstractCommandFields c.toAbstractCommand, c.program, c.arguments, c.environment,
        c.workingDir, c.stdoutFilterFunction, c.stderrFilterFunction, c.responseFileUsagePrefix,
        c.responseFileSeparator, c.maxExitCode, c.responseFileThreshold,
        c.responseFileArgumentIndex, c.relevantEnvVars, c.relevantEnvValues, c.stdoutFilePath,
        c.stderrFilePath)
  | .javaScript c => (abstractCommandFields c.toAbstractCommand, c.scopeName, c.sourceCode)

theorem abstractCommandOf_fields (c : AbstractCommand) :
    abstractCommandOf (abstractCommandFields c : abstractCommandTy.Val Ref) = c := by
  have hlocation (loc : Option CodeLocation) :
      codeLocationOf (codeLocationFields loc : codeLocationTy.Val Ref) = loc := by
    cases loc <;> rfl
  simp only [abstractCommandOf, abstractCommandFields, boolOf_ofBool, hlocation,
    QVariantMap.ofAssocMap_toAssocMap]

theorem commandOf_fields (c : Command) :
    commandOf c.type (c.fields : (RuleCommands.fields c.type).Val Ref) = c := by
  cases c with
  | process c =>
      show Command.process { c with toAbstractCommand := abstractCommandOf _ } = _
      rw [abstractCommandOf_fields]
  | javaScript c =>
      show Command.javaScript { c with toAbstractCommand := abstractCommandOf _ } = _
      rw [abstractCommandOf_fields]

/-- A memory with the commands of a list. -/
def memoryOf (l : CommandList) : Memory fields where
  size := l.length
  kind := fun i => (true, (l.get i).type)
  contents := fun i => (l.get i).fields

/-- The pointer to a command of a list. -/
def pointerTo (l : CommandList) (i : Fin l.length) : CommandPointerTy.Val (memoryOf l).Ref :=
  match h : (l.get i).type with
  | .process => .inl (some ⟨i, congrArg (Prod.mk true) h⟩)
  | .javaScript => .inr (some ⟨i, congrArg (Prod.mk true) h⟩)

theorem pointedCommand_pointerTo (l : CommandList) (i : Fin l.length) :
    pointedCommand (memoryOf l) (pointerTo l i) = some (l.get i) := by
  unfold pointerTo
  split
  · exact congrArg some (commandOf_fields (l.get i))
  · exact congrArg some (commandOf_fields (l.get i))

/-- Every list of commands is the one of some pointers. -/
theorem exists_commandsOf (l : CommandList) :
    commandsOf (memoryOf l) ((List.finRange l.length).map (pointerTo l)) = some l := by
  have hmapM : ∀ is : List (Fin l.length),
      (is.map (pointerTo l)).mapM (pointedCommand (memoryOf l)) = some (is.map l.get) := by
    intro is
    induction is with
    | nil => rfl
    | cons i is ih =>
        rw [List.map_cons, List.mapM_cons, pointedCommand_pointerTo, ih]
        rfl
  unfold commandsOf
  rw [hmapM, List.map_get_finRange]

/-! ## When the comparison is right -/

/-- Lists that are equal are executed in the same way, and a list is equal to what is loaded
after it was stored. -/
structure Right (sameValues : QVariantMap → QVariantMap → Bool) (l₁ l₂ : CommandList) : Prop where
  readData : isEqual sameValues l₁ l₂ = true → l₁.map Command.readData = l₂.map Command.readData
  execute : isEqual sameValues l₁ l₂ = true →
    ∀ ctx, l₁.map (Command.execute ctx) = l₂.map (Command.execute ctx)
  jobPools : isEqual sameValues l₁ l₂ = true → jobPools l₁ = jobPools l₂
  loaded : ∀ (m : Memory fields) v, commandsOf m v = some l₁ →
    ∃ s tokens, storeRoot m commandListTy v (StorePool.new m.size, []) = .ok ((), (s, tokens)) ∧
      ∃ v' pool, loadRoot commandListTy (LoadPool.new fields, tokens) = .ok (v', pool, []) ∧
        ∃ l, loadedCommands pool v' = some l ∧ isEqual sameValues l₁ l = true

/-- The data that the comparison leaves out or takes for equal agree. -/
structure OtherDataAgree (c c' : Command) : Prop where
  properties : c.base.properties = c'.base.properties
  scopeName : c.scopeName = c'.scopeName

variable {sameValues : QVariantMap → QVariantMap → Bool} {l₁ l₂ : CommandList}

/-- Commands with the same compared data have the same data for executors if the others agree. -/
theorem readData_eq_iff {c c' : Command} (h : ComparedDataAgree sameValues c c') :
    c.readData = c'.readData ↔ OtherDataAgree c c' := by
  constructor
  · intro hread
    constructor
    · rw [← c.properties_readData, hread, c'.properties_readData]
    · rw [← c.scopeName_readData, hread, c'.scopeName_readData]
  · rintro ⟨hproperties, hscopeName⟩
    cases c with
    | process c =>
        cases c' with
        | process c' =>
            have hmembers : ({ c with codeLocation := none, relevantEnvValues := .empty } :
                ProcessCommand) = { c' with codeLocation := none, relevantEnvValues := .empty } := by
              have hcompared := h.2
              simp only [ProcessCommand.mk.injEq, AbstractCommand.mk.injEq] at hcompared ⊢
              grind [Command.base]
            exact congrArg Command.process hmembers
        | javaScript c' => exact h.elim
    | javaScript c =>
        cases c' with
        | process c' => exact h.elim
        | javaScript c' =>
            have hmembers : ({ c with codeLocation := none } : JavaScriptCommand) =
                { c' with codeLocation := none } := by
              have hcompared := h.2
              simp only [JavaScriptCommand.mk.injEq, AbstractCommand.mk.injEq] at hcompared ⊢
              grind [Command.base, Command.scopeName]
            exact congrArg Command.javaScript hmembers

theorem map_readData_eq_iff (h : List.Forall₂ (ComparedDataAgree sameValues) l₁ l₂) :
    l₁.map Command.readData = l₂.map Command.readData ↔ List.Forall₂ OtherDataAgree l₁ l₂ := by
  induction h with
  | nil => exact iff_of_true rfl List.Forall₂.nil
  | @cons c c' l₁ l₂ hc _ ih =>
      rw [List.map_cons, List.map_cons, List.cons.injEq, List.forall₂_cons, ih, readData_eq_iff hc]

/-- A command equals itself exactly if its properties do. -/
theorem comparedDataAgree_self_iff (c : Command) :
    ComparedDataAgree sameValues c c ↔ sameValues c.base.properties c.base.properties = true := by
  cases c with
  | process c => exact and_iff_left rfl
  | javaScript c => exact and_iff_left rfl

theorem isEqual_self_iff (l : CommandList) :
    isEqual sameValues l l = true ↔
      ∀ c, c ∈ l → sameValues c.base.properties c.base.properties = true := by
  rw [isEqual_iff, List.forall₂_same]
  exact forall₂_congr fun c _ => comparedDataAgree_self_iff c

/-- The comparison is right exactly if the data it leaves out agree wherever lists are equal, and
the properties of commands are equal to themselves. -/
theorem commandLists_right_iff (sameValues : QVariantMap → QVariantMap → Bool)
    (l₁ l₂ : CommandList) :
    Right sameValues l₁ l₂ ↔
      (List.Forall₂ (ComparedDataAgree sameValues) l₁ l₂ → List.Forall₂ OtherDataAgree l₁ l₂) ∧
        ∀ c, c ∈ l₁ → sameValues c.base.properties c.base.properties = true := by
  constructor
  · intro h
    constructor
    · intro hcompared
      exact (map_readData_eq_iff hcompared).mp (h.readData (isEqual_iff.mpr hcompared))
    · rcases h.loaded (memoryOf l₁) _ (exists_commandsOf l₁) with
        ⟨s, tokens, hstore, v', pool, hload, l, hl, hequal⟩
      rcases load_store (memoryOf l₁) _ (exists_commandsOf l₁) with
        ⟨s', tokens', hstore', v'', pool', hload', hl'⟩
      rw [hstore, Except.ok.injEq, Prod.mk.injEq, Prod.mk.injEq] at hstore'
      rw [← hstore'.2.2, hload, Except.ok.injEq, Prod.mk.injEq, Prod.mk.injEq] at hload'
      rw [← hload'.1, ← hload'.2.1, hl] at hl'
      rw [Option.some.inj hl'] at hequal
      exact (isEqual_self_iff l₁).mp hequal
  · rintro ⟨hother, hself⟩
    have hread : isEqual sameValues l₁ l₂ = true →
        l₁.map Command.readData = l₂.map Command.readData := by
      intro hequal
      have hcompared := isEqual_iff.mp hequal
      exact (map_readData_eq_iff hcompared).mpr (hother hcompared)
    refine ⟨hread, fun hequal => map_execute_eq (hread hequal), fun hequal => ?_, ?_⟩
    · rw [← jobPools_readData, hread hequal, jobPools_readData]
    · intro m v hl
      rcases load_store m v hl with ⟨s, tokens, hstore, v', pool, hload, hl'⟩
      exact ⟨s, tokens, hstore, v', pool, hload, l₁, hl', (isEqual_self_iff l₁).mpr hself⟩

/-! ## A name of an import that is left out -/

/-- A script that calls a function of an import. -/
def callIn (scopeName : String) : Command :=
  .javaScript {
    description := "generating"
    extendedDescription := ""
    highlight := ""
    ignoreDryRun := false
    silent := false
    codeLocation := none
    jobPool := ""
    timeout := -1
    properties := .empty
    scopeName := scopeName
    sourceCode := "generate()" }

mutual

/-- Compare variants of the same type. -/
def sameVariant : VariantData → VariantData → Bool
  | .string s, .string s' => s = s'
  | .stringList l, .stringList l' => l = l'
  | .list l, .list l' => sameVariants l l'
  | .map entries, .map entries' => sameEntries entries entries'
  | .other value, .other value' => value = value'
  | _, _ => false

def sameVariants : List VariantData → List VariantData → Bool
  | [], [] => true
  | v :: l, v' :: l' => sameVariant v v' && sameVariants l l'
  | _, _ => false

def sameEntries : List (String × VariantData) → List (String × VariantData) → Bool
  | [], [] => true
  | (k, v) :: l, (k', v') :: l' => k = k' && sameVariant v v' && sameEntries l l'
  | _, _ => false

end

/-- Two lists are equal although their scripts see different imports. -/
theorem scopeName_left_out :
    ¬∀ l₁ l₂, Right (fun m m' => sameVariant (QVariant.ofMap m).1 (QVariant.ofMap m').1) l₁ l₂ := by
  intro h
  have hread := (h [callIn "A"] [callIn "B"]).readData (by decide)
  have hscope : (callIn "A").readData.scopeName = (callIn "B").readData.scopeName :=
    congrArg Command.scopeName (List.cons.inj hread).1
  exact absurd hscope (by decide)

end RuleCommands

end Qbs
