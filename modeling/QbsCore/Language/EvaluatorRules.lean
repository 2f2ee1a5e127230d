import QbsCore.Language.Evaluator

/-!
# Rules for computations of the evaluator

Evaluations are put together from few operations.  A relation that all of these keep holds of
the same evaluation for two ways to do the nested ones, and a property that they keep holds of
every evaluation, however deep it is nested.

Main results:

- Theorem {lit}`Evaluator.Closed.handle`: converting a value keeps the relation.
- Theorem {lit}`Evaluator.ClosedReading.evaluator`: all evaluations keep it.

Current gaps:

- None.
-/

namespace Qbs

namespace Evaluator

variable {α β : Type}

@[simp]
theorem EvalM.state_bind (m : EvalM α) (f : α → EvalM β) (s : EvaluatorState) :
    (m >>= f).state s = (f (m.result s)).state (m.state s) :=
  rfl

@[simp]
theorem EvalM.events_bind (m : EvalM α) (f : α → EvalM β) (s : EvaluatorState) :
    (m >>= f).events s = m.events s ++ (f (m.result s)).events (m.state s) :=
  rfl

@[simp]
theorem EvalM.result_bind (m : EvalM α) (f : α → EvalM β) (s : EvaluatorState) :
    (m >>= f).result s = (f (m.result s)).result (m.state s) :=
  rfl

@[simp]
theorem EvalM.pure_bind (a : α) (f : α → EvalM β) : (Pure.pure a >>= f : EvalM β) = f a :=
  rfl

theorem EvalM.bind_assoc {γ : Type} (m : EvalM α) (f : α → EvalM β) (g : β → EvalM γ) :
    m >>= f >>= g = m >>= fun a => f a >>= g := by
  funext s
  exact congrArg (fun l => (_, _, l)) (List.append_assoc _ _ _)

/-- A computation after another one whose outcome is known. -/
theorem EvalM.bind_apply {m : EvalM α} {s s' : EvaluatorState} {a : α} {l : List Event}
    (h : m s = (a, s', l)) (f : α → EvalM β) :
    (m >>= f) s = ((f a).result s', (f a).state s', l ++ (f a).events s') := by
  show ((f (m s).1) (m s).2.1 |>.1, (f (m s).1) (m s).2.1 |>.2.1, _) = _
  rw [h]
  rfl

/-- The operations that evaluations are put together from keep a relation of computations. -/
structure Closed (R : ∀ {α : Type}, EvalM α → EvalM α → Prop) : Prop where
  pure : ∀ {α : Type} (a : α), R (Pure.pure a : EvalM α) (Pure.pure a)
  bind : ∀ {α β : Type} {m m' : EvalM α} {f f' : α → EvalM β}, R m m' → (∀ a, R (f a) (f' a)) →
    R (m >>= f) (m' >>= f')
  current : R current current
  scopes : ∀ {α : Type} {m m' : EvalM α} (scopes : List Scope), R m m' →
    R (withScopes scopes m) (withScopes scopes m')
  exclusive : ∀ {α : Type} (id : ValueId) (a : α),
    R (update (fun s => { s with exclusiveListValues := id :: s.exclusiveListValues }) >>= fun _ =>
        emit (.exclusiveListValue id) >>= fun _ => Pure.pure a)
      (update (fun s => { s with exclusiveListValues := id :: s.exclusiveListValues }) >>= fun _ =>
        emit (.exclusiveListValue id) >>= fun _ => Pure.pure a)

/-- Reading a property keeps the relation, too. -/
structure ClosedReading (R : ∀ {α : Type}, EvalM α → EvalM α → Prop) : Prop extends Closed R where
  sharedArray : ∀ (id : ArrayId) (l : List JsValue), R (writeSharedArray id l) (writeSharedArray id l)
  nextChain : ∀ {nested : Nested} {name : String} {value : Value},
    R (collectLoop nested name value.nextChain []) (collectLoop nested name value.nextChain []) →
      R (collectValuesFromNextChain nested name value)
        (collectValuesFromNextChain nested name value)
  read : ∀ {resolvePath : String → String → String} {nested : Nested} {object : ItemId}
    {name : String},
    (∀ foundInParent data itemOfProperty value,
      R (evaluateValue resolvePath nested object foundInParent data itemOfProperty name value)
        (evaluateValue resolvePath nested object foundInParent data itemOfProperty name value)) →
      R (step resolvePath nested object name) (step resolvePath nested object name)

/-- The nested operations are related. -/
structure Related (R : ∀ {α : Type}, EvalM α → EvalM α → Prop) (nested nested' : Nested) :
    Prop where
  property : ∀ i name, R (nested.property i name) (nested'.property i name)
  convert : ∀ c v, R (nested.convert c v) (nested'.convert c v)

/-- The nested operations have a property. -/
abbrev Nested.All (P : ∀ {α : Type}, EvalM α → Prop) (nested : Nested) : Prop :=
  Related (fun m _ => P m) nested nested

namespace Closed

variable {R : ∀ {α : Type}, EvalM α → EvalM α → Prop} {nested nested' : Nested}

theorem lookupName (hR : Closed R) (h : Related R nested nested') (name : String)
    (scopes : List Scope) : R (lookupName nested name scopes) (lookupName nested' name scopes) := by
  induction scopes with
  | nil => exact hR.pure _
  | cons scope rest ih =>
      cases scope with
      | item i =>
          apply hR.bind (h.property i name)
          intro v
          cases v with
          | none => exact ih
          | some v => exact hR.pure v
      | object properties =>
          unfold Evaluator.lookupName
          cases properties.lookup name with
          | none => exact ih
          | some v => exact hR.bind hR.current fun s => hR.pure _

theorem evaluate (hR : Closed R) (h : Related R nested nested') (script : Script) :
    R (evaluate nested script) (evaluate nested' script) := by
  induction script with
  | done v => exact hR.bind hR.current fun s => hR.pure _
  | lookup name k ih =>
      apply hR.bind hR.current
      intro s
      exact hR.bind (hR.lookupName h name s.scopes) ih
  | get object name k ih => exact hR.bind (h.property object name) fun v => ih _

open SVConverter

section Converter

variable (c : SVConverter)

theorem originalValue (hR : Closed R) (h : Related R nested nested') :
    R (originalValue nested c) (originalValue nested' c) := by
  apply hR.bind hR.current
  intro s
  dsimp only
  split_ifs
  · exact hR.pure _
  · exact hR.pure _
  · cases (s.items.prototypes c.itemOfProperty).find? fun j =>
        (s.items.item j).type ≠ .moduleInstance with
    | none => exact hR.pure _
    | some item =>
        dsimp only
        split_ifs
        · exact hR.pure _
        · cases s.items.property item c.propertyName with
          | none => exact hR.pure _
          | some v => exact hR.bind (h.convert _ _) fun v => hR.pure _
  · exact hR.pure _

theorem baseProperty (hR : Closed R) (h : Related R nested nested') (source : SourceCode)
    (baseValue : Option Value) :
    R (baseProperty nested c source baseValue) (baseProperty nested' c source baseValue) := by
  unfold SVConverter.baseProperty
  split_ifs
  · cases baseValue with
    | none => exact hR.bind hR.current fun s => hR.pure _
    | some v => exact hR.bind (h.convert _ _) fun v => hR.bind hR.current fun s => hR.pure _
  · exact hR.pure _

theorem outerProperty (hR : Closed R) (h : Related R nested nested') (source : SourceCode)
    (outerItem : Option ItemId) (outerScriptValue : Option JsValue) :
    R (outerProperty nested c source outerItem outerScriptValue)
      (outerProperty nested' c source outerItem outerScriptValue) := by
  unfold SVConverter.outerProperty
  split_ifs
  · cases outerItem with
    | some outerItem =>
        apply hR.bind (h.property _ _)
        intro v
        cases v with
        | none => exact hR.pure _
        | some v =>
            cases v with
            | error e => exact hR.pure _
            | _ => exact hR.bind hR.current fun s => hR.pure _
    | none =>
        cases outerScriptValue with
        | some v => exact hR.bind hR.current fun s => hR.pure _
        | none => exact hR.pure _
  · exact hR.pure _

theorem originalProperty (hR : Closed R) (h : Related R nested nested') (source : SourceCode) :
    R (originalProperty nested c source) (originalProperty nested' c source) := by
  unfold SVConverter.originalProperty
  split_ifs
  · apply hR.bind (hR.originalValue c h)
    intro v
    cases v with
    | error e => exact hR.pure _
    | ok v => exact hR.bind hR.current fun s => hR.pure _
  · exact hR.pure _

theorem createExtraScope (hR : Closed R) (h : Related R nested nested') (source : SourceCode)
    (baseValue : Option Value) (outerItem : Option ItemId) (outerScriptValue : Option JsValue) :
    R (createExtraScope nested c source baseValue outerItem outerScriptValue)
      (createExtraScope nested' c source baseValue outerItem outerScriptValue) := by
  apply hR.bind (hR.baseProperty c h source baseValue)
  intro base
  apply hR.bind (hR.outerProperty c h source outerItem outerScriptValue)
  intro outer
  cases outer with
  | error e => exact hR.pure _
  | ok outer =>
      apply hR.bind (hR.originalProperty c h source)
      intro original
      cases original with
      | error e => exact hR.pure _
      | ok original => exact hR.pure _

theorem checkAlternative (hR : Closed R) (h : Related R nested nested')
    (condition overrideListProperties : Script) (elseCaseId : ValueId) :
    R (checkAlternative nested condition overrideListProperties elseCaseId)
      (checkAlternative nested' condition overrideListProperties elseCaseId) := by
  apply hR.bind (hR.evaluate h condition)
  intro sv
  split_ifs
  · exact hR.pure _
  · apply hR.bind (hR.evaluate h overrideListProperties)
    intro sv
    split_ifs
    · exact hR.pure _
    · exact hR.exclusive elseCaseId none
    · exact hR.pure _
  · exact hR.pure _

theorem evaluateJSSourceValue (hR : Closed R) (h : Related R nested nested') (value : Value)
    (outerItem : Option ItemId) (alternative : Option (Script × Script × ValueId))
    (outerScriptValue : Option JsValue) :
    R (evaluateJSSourceValue nested c value outerItem alternative outerScriptValue)
      (evaluateJSSourceValue nested' c value outerItem alternative outerScriptValue) := by
  cases value with
  | item head i => exact hR.pure _
  | variant head v => exact hR.pure _
  | jsSource head source baseValue alternatives next =>
      apply hR.bind (hR.createExtraScope c h _ _ _ _)
      intro extraScope
      cases extraScope with
      | error e => exact hR.pure _
      | ok extraScope =>
          cases source.file.importScope with
          | error e => exact hR.pure _
          | ok importScope =>
              apply hR.bind hR.current
              intro s
              apply hR.scopes
              rcases alternative with _ | ⟨condition, overrideListProperties, elseCaseId⟩
              · exact hR.bind (hR.evaluate h _) fun v => hR.pure _
              · apply hR.bind (hR.checkAlternative h _ _ _)
                intro r
                cases r with
                | some r => exact hR.pure _
                | none => exact hR.bind (hR.evaluate h _) fun v => hR.pure _

theorem outerValue (hR : Closed R) (h : Related R nested nested') (value alternative : Value)
    (outerItem : Option ItemId) (outerScriptValue : Option JsValue) :
    R (outerValue nested c value alternative outerItem outerScriptValue)
      (outerValue nested' c value alternative outerItem outerScriptValue) := by
  unfold SVConverter.outerValue
  split_ifs
  · exact hR.bind (hR.evaluateJSSourceValue c h _ _ _ _) fun r => hR.pure _
  · exact hR.pure _

theorem handleAlternatives (hR : Closed R) (h : Related R nested nested') (value : Value)
    (outerItem : Option ItemId) (alternatives : List (Script × Script × Value))
    (outerScriptValue : Option JsValue) :
    R (handleAlternatives nested c value outerItem alternatives outerScriptValue)
      (handleAlternatives nested' c value outerItem alternatives outerScriptValue) := by
  induction alternatives generalizing outerScriptValue with
  | nil => exact hR.bind (hR.evaluateJSSourceValue c h _ _ _ _) fun r => hR.pure _
  | cons alternative rest ih =>
      rcases alternative with ⟨condition, overrideListProperties, alternative⟩
      apply hR.bind (hR.outerValue c h _ _ _ _)
      intro outerScriptValue
      cases outerScriptValue with
      | error e => exact hR.pure _
      | ok outerScriptValue =>
          apply hR.bind (hR.evaluateJSSourceValue c h _ _ _ _)
          intro r
          split_ifs
          · exact hR.pure _
          · exact ih _

theorem handle (hR : Closed R) (h : Related R nested nested') (value : Value) :
    R (handle nested c value) (handle nested' c value) := by
  cases value with
  | jsSource head source baseValue alternatives next =>
      exact hR.bind hR.current fun s => hR.handleAlternatives c h _ _ _ _
  | item head i => exact hR.pure _
  | variant head v => exact hR.pure _

end Converter

end Closed

/-- Updates that leave the flags of values alone, and the events of the code, have a property
together with everything that is put together from them. -/
structure ClosedSteps (P : ∀ {α : Type}, EvalM α → Prop) : Prop where
  pure : ∀ {α : Type} (a : α), P (Pure.pure a : EvalM α)
  bind : ∀ {α β : Type} {m : EvalM α} {f : α → EvalM β}, P m → (∀ a, P (f a)) → P (m >>= f)
  current : P current
  update : ∀ {f : EvaluatorState → EvaluatorState},
    (∀ s, (f s).exclusiveListValues = s.exclusiveListValues) → P (update f)
  emit : ∀ {e : Event}, (∀ id, e ≠ .exclusiveListValue id) → (∀ depth, e ≠ .deviation depth) →
    P (emit e)
  exclusive : ∀ {α : Type} (id : ValueId) (a : α),
    P (Evaluator.update (fun s => { s with exclusiveListValues := id :: s.exclusiveListValues })
      >>= fun _ => Evaluator.emit (.exclusiveListValue id) >>= fun _ => Pure.pure a)

namespace ClosedSteps

variable {P : ∀ {α : Type}, EvalM α → Prop}

theorem nextChain (hP : ClosedSteps P) {nested : Nested} {name : String} {value : Value}
    (h : P (collectLoop nested name value.nextChain [])) :
    P (collectValuesFromNextChain nested name value) := by
  apply hP.bind hP.current
  intro s
  refine hP.bind (hP.update fun _ => rfl) fun _ => hP.bind h fun lst => ?_
  cases lst with
  | error e =>
      exact hP.bind (hP.emit (fun _ h => by cases h) fun _ h => by cases h) fun _ => hP.pure _
  | ok lst => exact hP.bind (hP.update fun _ => rfl) fun _ => hP.pure _

theorem withPropertyStack (hP : ClosedSteps P) {m : EvalM α} (h : P m) (itemOfProperty : ItemId)
    (name : String) (value : Value) : P (withPropertyStack itemOfProperty name value m) := by
  apply hP.bind hP.current
  intro s
  split
  · exact h
  · apply hP.bind
    · split
      · exact hP.pure _
      · exact hP.emit (fun _ h => by cases h) fun _ h => by cases h
    · exact fun _ => hP.bind (hP.update fun _ => rfl) fun _ => hP.bind h fun _ =>
        hP.bind (hP.update fun _ => rfl) fun _ => hP.pure _

theorem cachedValue (hP : ClosedSteps P) {m : EvalM JsValue} (h : P m) (data : ItemId)
    (name : String) : P (cachedValue data name m) := by
  apply hP.bind hP.current
  intro s
  split
  · exact hP.pure _
  · refine hP.bind h fun v => hP.bind (hP.update fun s => ?_) fun _ => hP.pure _
    split_ifs
    · rfl
    · rfl

theorem read (hP : ClosedSteps P) {resolvePath : String → String → String} {nested : Nested}
    {object : ItemId} {name : String}
    (h : ∀ foundInParent data itemOfProperty value,
      P (evaluateValue resolvePath nested object foundInParent data itemOfProperty name value)) :
    P (step resolvePath nested object name) := by
  apply hP.bind
  · apply hP.bind hP.current
    intro s
    split
    · exact hP.pure _
    · split
      · exact hP.bind (hP.update fun _ => rfl) fun _ => hP.pure _
      · split
        · exact hP.pure _
        · exact hP.bind (hP.update fun _ => rfl) fun _ => hP.pure _
  · intro type
    split
    · exact hP.pure _
    · refine hP.bind (hP.bind hP.current fun s => hP.bind (hP.update fun _ => rfl) fun _ => ?_)
        fun _ => hP.pure _
      split
      · exact hP.pure _
      · exact hP.pure _
      · split
        · exact hP.withPropertyStack (hP.cachedValue (h _ _ _ _) _ _) _ _ _
        · exact hP.pure _

theorem reading (hP : ClosedSteps P) : ClosedReading fun m _ => P m where
  pure := hP.pure
  bind := hP.bind
  current := hP.current
  scopes := fun _ h => hP.bind (hP.update fun _ => rfl) fun _ => hP.bind h fun _ =>
    hP.bind (hP.update fun _ => rfl) fun _ => hP.pure _
  exclusive := hP.exclusive
  sharedArray := fun _ _ => hP.bind (hP.update fun _ => rfl) fun _ =>
    hP.emit (fun _ h => by cases h) fun _ h => by cases h
  nextChain := hP.nextChain
  read := hP.read

end ClosedSteps

namespace ClosedReading

variable {R : ∀ {α : Type}, EvalM α → EvalM α → Prop} {nested : Nested}

theorem collectLoop (hR : ClosedReading R) (h : Related R nested nested) (name : String)
    (values : List Value) (lst : List JsValue) :
    R (collectLoop nested name values lst) (collectLoop nested name values lst) := by
  induction values generalizing lst with
  | nil => exact hR.pure _
  | cons next rest ih =>
      unfold Evaluator.collectLoop
      apply hR.bind
      · split
        · exact hR.pure _
        · exact h.property _ _
      · intro v
        split
        · exact hR.pure _
        · exact ih _
        · apply hR.bind hR.current
          intro s
          split
          · exact hR.pure _
          · exact ih _

variable (resolvePath : String → String → String)

theorem writeElements (hR : ClosedReading R) (items : Items) (baseDir : String) (i : ItemId)
    (type : PropertyType) (v : JsValue) :
    R (writeElements resolvePath items baseDir i type v)
      (writeElements resolvePath items baseDir i type v) := by
  unfold Evaluator.writeElements
  split
  · dsimp only
    split_ifs
    · exact hR.sharedArray _ _
    · exact hR.pure _
  · exact hR.pure _

theorem evaluateValue (hR : ClosedReading R) (h : Related R nested nested) (object : ItemId)
    (foundInParent : Bool) (data itemOfProperty : ItemId) (name : String) (value : Value) :
    R (evaluateValue resolvePath nested object foundInParent data itemOfProperty name value)
      (evaluateValue resolvePath nested object foundInParent data itemOfProperty name value) := by
  apply hR.bind hR.current
  intro s
  split
  · exact hR.nextChain (hR.collectLoop h name value.nextChain [])
  · refine hR.bind (hR.handle _ h value) fun v => hR.bind hR.current fun s => ?_
    dsimp only
    split_ifs
    · exact hR.pure _
    · exact hR.bind (hR.writeElements resolvePath _ _ _ _ _) fun _ => hR.pure _

/-- What the operations keep holds of all evaluations. The induction is on how deep they are
nested. -/
theorem evaluator (hR : ClosedReading R) (n : Nat) :
    Related R (evaluator resolvePath n) (evaluator resolvePath n) := by
  induction n with
  | zero => exact ⟨fun _ _ => hR.pure _, fun _ _ => hR.pure _⟩
  | succ n ih =>
      exact ⟨fun i name => hR.read fun foundInParent data itemOfProperty value =>
        hR.evaluateValue resolvePath ih i foundInParent data itemOfProperty name value,
        fun c v => hR.handle c ih v⟩

end ClosedReading

end Evaluator

end Qbs
