import QbsCore.Language.EvaluatorMemory
import QbsCore.Tools.Error

/-!
# Properties items

A Properties item sets properties under a condition.  What the Properties items of an item
say about one property are alternatives to the unconditional value of that property.  They
are meant like the branches of an if-else-chain with the unconditional value at its end, and so
are those of the value that is inherited.  The documented evaluation records where the code does
something else.

Main results:

- Theorem {lit}`handlePropertiesItems_eq_ok`: the value that the Properties items of an item lead
  to.
- Theorem {lit}`evaluated_as_documented_iff`: when it is evaluated like the if-else-chain.

Current gaps:

- A property that is set in an inner item is not distinguished from one of the item itself.
-/

namespace Qbs

namespace Evaluator

variable {α β : Type}

/-! ## Setting up the alternatives -/

/-- A binding: its source code, and the item that has it. -/
structure Binding where
  head : ValueHead
  source : SourceCode

/-- The value of a binding, with a value that is inherited. -/
def Binding.value (b : Binding) (baseValue : Option Value) : Value :=
  .jsSource b.head b.source baseValue [] none

/-- A Properties item, with its binding of one property. -/
structure PropertiesItem where
  condition : Option Script
  overrideListProperties : Option Script
  isInProduct : Bool
  binding : Option Binding

/-- What is known of a Properties item that sets the property. -/
structure Alternative where
  condition : Script
  overrideListProperties : Script
  binding : Binding

/-- The value of a property without an unconditional binding is the inherited one. -/
def baseSource (file : FileContext) : SourceCode :=
  ⟨.ofName "base", file, true, false, false⟩

/-- Add an alternative to the value of a property, which is created if there is none. -/
def addAlternative (newHead : ValueHead) (value : Option Value) (a : Alternative) : Option Value :=
  match value with
  | some (.jsSource head source base alternatives next) =>
      some (.jsSource head source base (alternatives ++
        [(a.condition, a.overrideListProperties, a.binding.value none)]) next)
  | some v => some v
  | none =>
      some (.jsSource newHead (baseSource a.binding.source.file) none
        [(a.condition, a.overrideListProperties, a.binding.value none)] none)

/-- The condition of a Properties item, and whether it overrides list properties. -/
def getPropertyData (p : PropertiesItem) : Except ErrorInfo (Script × Script) :=
  match p.condition, p.overrideListProperties with
  | none, _ => .error (.message "Properties.condition must be provided.")
  | some condition, none => .ok (condition, .done (.bool false))
  | some condition, some overrideListProperties =>
      if p.isInProduct then .ok (condition, overrideListProperties)
      else
        .error (.message "Properties.overrideListProperties can only be set in a Product item.")

def handlePropertiesBlock (newHead : ValueHead) (value : Option Value) (p : PropertiesItem) :
    Except ErrorInfo (Option Value) :=
  (getPropertyData p).map fun data =>
    match p.binding with
    | none => value
    | some binding => addAlternative newHead value ⟨data.1, data.2, binding⟩

/-- The value of a property with a binding and Properties items, in their order. -/
def handlePropertiesItems (newHead : ValueHead) (binding : Option Binding)
    (items : List PropertiesItem) : Except ErrorInfo (Option Value) :=
  items.foldlM (handlePropertiesBlock newHead) (binding.map fun b => b.value none)

/-- Set the inherited value of a value and of its alternatives. -/
def setBaseValue (baseValue : Value) : Value → Value
  | .jsSource head source _ alternatives next =>
      .jsSource head source (some baseValue)
        (alternatives.map fun a =>
          (a.1, a.2.1, match a.2.2 with
            | .jsSource head source _ alternatives next =>
                .jsSource head source (some baseValue) alternatives next
            | v => v)) next
  | v => v

/-- Inherit a property from the base item. -/
def inheritItem (value baseValue : Option Value) : Option Value :=
  match value, baseValue with
  | none, baseValue => baseValue
  | some value, none => some value
  | some value, some baseValue =>
      if value.isJSSource ∧ baseValue.isJSSource then some (setBaseValue baseValue value)
      else some value

/-- The alternatives that Properties items are meant to be, in their order. -/
def alternativesOf (items : List PropertiesItem) : List Alternative :=
  items.filterMap fun p =>
    match getPropertyData p, p.binding with
    | .ok data, some binding => some ⟨data.1, data.2, binding⟩
    | _, _ => none

def Alternative.toValue (a : Alternative) (baseValue : Option Value) : Script × Script × Value :=
  (a.condition, a.overrideListProperties, a.binding.value baseValue)

/-- The unconditional binding, or the one that stands for the inherited value. -/
def unconditional (newHead : ValueHead) (binding : Option Binding)
    (alternatives : List Alternative) : Option Binding :=
  match binding, alternatives with
  | some b, _ => some b
  | none, [] => none
  | none, a :: _ => some ⟨newHead, baseSource a.binding.source.file⟩

/-- The value with some alternatives. -/
def Binding.valueWith (b : Binding) (baseValue : Option Value) (alternatives : List Alternative) :
    Value :=
  .jsSource b.head b.source baseValue (alternatives.map fun a => a.toValue baseValue) none

variable {newHead : ValueHead}

theorem foldlM_handlePropertiesBlock (b : Binding) (before : List Alternative)
    {items : List PropertiesItem} {value : Option Value}
    (h : items.foldlM (handlePropertiesBlock newHead) (some (b.valueWith none before)) =
      .ok value) :
    value = some (b.valueWith none (before ++ alternativesOf items)) := by
  induction items generalizing before with
  | nil =>
      rw [List.foldlM_nil, Fallible.pure_eq_ok_iff] at h
      rw [← h, alternativesOf, List.filterMap_nil, List.append_nil]
  | cons p items ih =>
      rw [List.foldlM_cons] at h
      rcases Fallible.bind_eq_ok_iff.mp h with ⟨value', hvalue', hrest⟩
      unfold handlePropertiesBlock at hvalue'
      rcases Fallible.map_eq_ok_iff.mp hvalue' with ⟨data, hdata, rfl⟩
      unfold alternativesOf
      rw [List.filterMap_cons, hdata]
      cases hbinding : p.binding with
      | none =>
          rw [hbinding] at hrest
          exact ih before hrest
      | some binding =>
          rw [hbinding] at hrest
          have hadded : addAlternative newHead (some (b.valueWith none before))
              ⟨data.1, data.2, binding⟩ =
                some (b.valueWith none (before ++ [⟨data.1, data.2, binding⟩])) := by
            unfold addAlternative Binding.valueWith
            dsimp only
            rw [List.map_append]
            rfl
          dsimp only at hrest ⊢
          rw [hadded] at hrest
          rw [ih _ hrest, List.append_assoc]
          rfl

/-- The Properties items that set a property are the alternatives of its value, in their order. -/
theorem handlePropertiesItems_eq_ok {binding : Option Binding} {items : List PropertiesItem}
    {value : Option Value} (h : handlePropertiesItems newHead binding items = .ok value) :
    value = (unconditional newHead binding (alternativesOf items)).map fun b =>
      b.valueWith none (alternativesOf items) := by
  unfold handlePropertiesItems at h
  cases binding with
  | some b => exact foldlM_handlePropertiesBlock b [] h
  | none =>
      induction items with
      | nil =>
          rw [List.foldlM_nil, Fallible.pure_eq_ok_iff] at h
          exact h.symm
      | cons p items ih =>
          rw [List.foldlM_cons] at h
          rcases Fallible.bind_eq_ok_iff.mp h with ⟨value', hvalue', hrest⟩
          unfold handlePropertiesBlock at hvalue'
          rcases Fallible.map_eq_ok_iff.mp hvalue' with ⟨data, hdata, rfl⟩
          unfold alternativesOf
          rw [List.filterMap_cons, hdata]
          cases hbinding : p.binding with
          | none =>
              rw [hbinding] at hrest
              exact ih hrest
          | some b =>
              rw [hbinding] at hrest
              exact foldlM_handlePropertiesBlock ⟨newHead, baseSource b.source.file⟩
                [⟨data.1, data.2, b⟩] hrest

/-- Inheriting sets the inherited value of the value and of all alternatives. -/
theorem inheritItem_valueWith (b : Binding) (alternatives : List Alternative)
    (inherited : Option Value) :
    inheritItem (some (b.valueWith none alternatives)) inherited =
      some (b.valueWith (inherited.filter Value.isJSSource) alternatives) := by
  cases inherited with
  | none => rfl
  | some baseValue =>
      unfold inheritItem
      dsimp only
      cases hbase : baseValue.isJSSource with
      | false =>
          rw [if_neg fun h => Bool.false_ne_true h.2, Option.filter_some, hbase]
          rfl
      | true =>
          rw [if_pos ⟨rfl, rfl⟩, Option.filter_some, hbase]
          unfold Binding.valueWith setBaseValue
          dsimp only
          rw [List.map_map]
          rfl

/-! ## The if-else-chain -/

/-- A computation records that something is not done as documented. -/
def Deviates (m : EvalM α) (s : EvaluatorState) (depth : Nat) : Prop :=
  .deviation depth ∈ m.events s

namespace SVConverter

section Documented

variable (nested : Nested) (c : SVConverter)

/-- Set up the names that an alternative uses. -/
def prepare (value alternative : Value) (source : SourceCode) (baseValue : Option Value)
    (outerItem : Option ItemId) (outerScriptValue : Option JsValue) :
    EvalM (Option JsValue × Except JsValue (List Scope)) :=
  outerValue nested c value alternative outerItem outerScriptValue >>= fun outer =>
    match outer with
    | .error e => pure (outerScriptValue, .error e)
    | .ok outer =>
        createExtraScope nested c source baseValue outerItem outer >>= fun extraScope =>
        pure (outer, extraScope.mapError .error)

variable (depth : Nat)

/-- The value of an alternative if its condition is true. That it cannot be told whether the
alternative overrides list properties does not matter for the value. -/
def choose (condition overrideListProperties code : Script) (elseCaseId : ValueId) :
    EvalM (Option JsValue) :=
  evaluate nested condition >>= fun sv =>
    if sv.isError then pure (some sv)
    else if sv.toBool then
      evaluate nested overrideListProperties >>= fun sv =>
      (if sv.isError then emit (.deviation depth)
      else if sv.toBool then
        update (fun s => { s with exclusiveListValues := elseCaseId :: s.exclusiveListValues })
          >>= fun _ =>
        emit (.exclusiveListValue elseCaseId) >>= fun _ => pure ()
      else pure ()) >>= fun _ =>
      evaluate nested code >>= fun v => pure (some v)
    else pure none

/-- The documented function for the alternatives: the value of the first one whose condition is
true, and the value without alternatives if there is none. That the names of an alternative
cannot be set up matters only if its condition is true. -/
def documentedAlternatives (value : Value) (outerItem : Option ItemId) :
    List (Script × Script × Value) → Option JsValue → EvalM JsValue
  | [], _ =>
      evaluateJSSourceValue nested c value outerItem none none >>= fun r => pure r.scriptValue
  | (condition, overrideListProperties, alternative) :: rest, outerScriptValue =>
      match alternative with
      | .item _ _ | .variant _ _ => documentedAlternatives value outerItem rest outerScriptValue
      | .jsSource head source baseValue _ _ =>
          prepare nested c value alternative source baseValue outerItem outerScriptValue
            >>= fun p =>
            match source.file.importScope, p.2 with
            | .error e, .ok _ => pure (.error e)
            | .error e, .error _ => emit (.deviation depth) >>= fun _ => pure (.error e)
            | .ok importScope, .ok extraScope =>
                current >>= fun s =>
                withScopes (c.scopesFor s.items head source.file extraScope importScope)
                  (choose nested depth condition overrideListProperties source.code value.head.id)
                  >>= fun r =>
                  match r with
                  | some v => pure v
                  | none => documentedAlternatives value outerItem rest p.1
            | .ok importScope, .error e =>
                current >>= fun s =>
                let v := (withScopes (c.scopesFor s.items head source.file [] importScope)
                  (evaluate nested condition)).result s
                if v.isError then emit (.deviation depth) >>= fun _ => pure v
                else if v.toBool then pure e
                else
                  emit (.deviation depth) >>= fun _ =>
                  documentedAlternatives value outerItem rest p.1

/-- The documented function. -/
def documented : Value → EvalM JsValue
  | .jsSource head source baseValue alternatives next =>
      current >>= fun s =>
      documentedAlternatives nested c depth (.jsSource head source baseValue alternatives next)
        (s.items.item c.data).outerItem alternatives none
  | .item _ i => pure (.item i)
  | .variant _ v => pure (.ofVariant v)

end Documented

end SVConverter

open SVConverter

/-- Properties are evaluated by the code, but what a value inherits is evaluated as
documented, too. -/
def documentedEvaluator (resolvePath : String → String → String) : Nat → Nested
  | 0 => evaluator resolvePath 0
  | n + 1 =>
      ⟨(evaluator resolvePath (n + 1)).property,
        fun c => documented (documentedEvaluator resolvePath n) c n⟩

/-! ## Deviations -/

/-- All deviations that are recorded are below some depth. -/
def Below (n : Nat) (m : EvalM α) : Prop :=
  ∀ s k, Deviates m s k → k < n

theorem Below.mono {n k : Nat} {m : EvalM α} (h : Below n m) (hnk : n ≤ k) : Below k m :=
  fun s i hi => Nat.lt_of_lt_of_le (h s i hi) hnk

theorem Below.update {n : Nat} (f : EvaluatorState → EvaluatorState) : Below n (update f) :=
  fun _ _ h => nomatch h

theorem Below.emit {n : Nat} {e : Event} (he : ∀ depth, e ≠ .deviation depth) :
    Below n (emit e) :=
  fun _ k h => absurd (List.mem_singleton.mp h).symm (he k)

theorem Below.bind {n : Nat} {m : EvalM α} {f : α → EvalM β} (hm : Below n m)
    (hf : ∀ a, Below n (f a)) : Below n (m >>= f) := by
  intro s k h
  rcases List.mem_append.mp h with h | h
  · exact hm s k h
  · exact hf _ _ k h

theorem closed_below (n : Nat) : ClosedSteps (Below n) where
  pure := fun _ _ _ h => nomatch h
  bind := Below.bind
  current := fun _ _ h => nomatch h
  update := fun _ => Below.update _
  emit := fun _ => Below.emit
  exclusive := fun _ _ => (Below.update _).bind fun _ =>
    (Below.emit fun _ h => by cases h).bind fun _ _ _ h => nomatch h

/-- Where no deviation below some depth is recorded, both computations are the same. -/
def Follows (n : Nat) (m m' : EvalM α) : Prop :=
  ∀ s, (∀ k < n, ¬ Deviates m' s k) → m s = m' s

theorem Follows.refl (n : Nat) (m : EvalM α) : Follows n m m :=
  fun _ _ => rfl

theorem Follows.bind {n : Nat} {m m' : EvalM α} {f f' : α → EvalM β} (hm : Follows n m m')
    (hf : ∀ a, Follows n (f a) (f' a)) : Follows n (m >>= f) (m' >>= f') := by
  intro s h
  have hm := hm s fun k hk hmem => h k hk (List.mem_append_left _ hmem)
  have hf := hf (m'.result s) (m'.state s) fun k hk hmem =>
    h k hk (List.mem_append_right _ hmem)
  rw [EvalM.bind_apply hm f, EvalM.bind_apply (m := m') rfl f']
  unfold EvalM.result EvalM.state at hf ⊢
  rw [EvalM.events, EvalM.events, hf]

theorem closed_follows (n : Nat) : Closed (Follows n) where
  pure := fun _ => Follows.refl n _
  bind := Follows.bind
  current := Follows.refl n _
  scopes := fun _ hm => (Follows.refl n _).bind fun _ => hm.bind fun _ => Follows.refl n _
  exclusive := fun _ _ => Follows.refl n _

/-- A computation does what is documented, or it ends in an error where it deviates from that
at some depth. -/
structure Departs (n : Nat) (m m' : EvalM JsValue) : Prop where
  below : Below (n + 1) m'
  same_or_error : ∀ s, (¬ Deviates m' s n ∧ m s = m' s) ∨
    (Deviates m' s n ∧ (m.result s).isError = true ∧ m.events s ⊆ m'.events s)

namespace Departs

variable {n : Nat}

theorem refl {m : EvalM JsValue} (h : Below n m) : Departs n m m where
  below := h.mono (Nat.le_succ n)
  same_or_error := fun s => Or.inl ⟨fun hn => Nat.lt_irrefl n (h s n hn), rfl⟩

/-- What is done before is the same. -/
theorem bind {q : EvalM α} {f f' : α → EvalM JsValue} (hq : Below n q)
    (hf : ∀ s, Departs n (f (q.result s)) (f' (q.result s))) :
    Departs n (q >>= f) (q >>= f') := by
  constructor
  · intro s k hk
    rcases List.mem_append.mp hk with hk | hk
    · exact Nat.lt_succ_of_lt (hq s k hk)
    · exact (hf s).below _ k hk
  · intro s
    rcases (hf s).same_or_error (q.state s) with ⟨hnot, heq⟩ | ⟨hmem, herror, hsubset⟩
    · refine Or.inl ⟨fun h => ?_, ?_⟩
      · rcases List.mem_append.mp h with h | h
        · exact Nat.lt_irrefl n (hq s n h)
        · exact hnot h
      · rw [EvalM.bind_apply (m := q) rfl f, EvalM.bind_apply (m := q) rfl f']
        unfold EvalM.result EvalM.state at heq ⊢
        rw [EvalM.events, EvalM.events, heq]
    · exact Or.inr ⟨List.mem_append_right _ hmem, herror,
        List.append_subset.mpr ⟨List.subset_append_left _ _,
          List.Subset.trans hsubset (List.subset_append_right _ _)⟩⟩

/-- An error where something else is documented. -/
theorem error {m m' : EvalM JsValue} (herror : ∀ s, (m.result s).isError = true)
    (hevents : ∀ s, m.events s = []) (hm' : Below (n + 1) m') :
    Departs n m (emit (.deviation n) >>= fun _ => m') where
  below := by
    intro s k hk
    rcases List.mem_cons.mp hk with hk | hk
    · cases hk
      exact Nat.lt_succ_self n
    · exact hm' s k hk
  same_or_error := fun s => Or.inr ⟨List.mem_cons_self, herror s,
    (hevents s).symm ▸ List.nil_subset _⟩

end Departs

namespace SVConverter

section Departs

variable {nested : Nested} {c : SVConverter} {n : Nat} {value : Value}
  {outerItem : Option ItemId}

/-- Source code fails without being run only with an error. -/
theorem isError_of_hasError {outerScriptValue : Option JsValue} {s : EvaluatorState}
    (h : ((evaluateJSSourceValue nested c value outerItem none
      outerScriptValue).result s).hasError = true) :
    ((evaluateJSSourceValue nested c value outerItem none
      outerScriptValue).result s).scriptValue.isError = true := by
  cases value with
  | item head i => cases h
  | variant head v => cases h
  | jsSource head source baseValue alternatives next =>
      revert h
      unfold evaluateJSSourceValue
      dsimp only
      rw [EvalM.result_bind]
      cases (createExtraScope nested c source baseValue outerItem outerScriptValue).result s with
      | error e => exact fun _ => rfl
      | ok extraScope =>
          cases source.file.importScope with
          | error e => exact fun _ => rfl
          | ok importScope => exact fun h => nomatch h

theorem isError_of_outerValue {alternative : Value} {outerScriptValue : Option JsValue}
    {s : EvaluatorState} {e : JsValue}
    (h : (outerValue nested c value alternative outerItem outerScriptValue).result s = .error e) :
    e.isError = true := by
  unfold outerValue at h
  split_ifs at h with huses
  · have h : (if _ then Except.error _ else Except.ok _) = Except.error e := h
    split_ifs at h with herror
    cases h
    exact isError_of_hasError herror
  · cases h

/-- If names cannot be set up, there is an error. -/
theorem isError_of_prepare (alternative : Value) (source : SourceCode) (baseValue : Option Value)
    (outerScriptValue : Option JsValue) (s : EvaluatorState) {e : JsValue}
    (h : ((prepare nested c value alternative source baseValue outerItem
      outerScriptValue).result s).2 = .error e) : e.isError = true := by
  unfold prepare at h
  rw [EvalM.result_bind] at h
  cases houter : (outerValue nested c value alternative outerItem outerScriptValue).result s with
  | error e' =>
      rw [houter] at h
      cases h
      exact isError_of_outerValue houter
  | ok outer =>
      rw [houter] at h
      dsimp only at h
      rw [EvalM.result_bind] at h
      cases hscope : (createExtraScope nested c source baseValue outerItem outer).result
          ((outerValue nested c value alternative outerItem outerScriptValue).state s) with
      | error e' =>
          rw [hscope] at h
          cases h
          rfl
      | ok extraScope =>
          rw [hscope] at h
          cases h

theorem below_prepare (h : nested.All (Below n)) (alternative : Value) (source : SourceCode)
    (baseValue : Option Value) (outerScriptValue : Option JsValue) :
    Below n (prepare nested c value alternative source baseValue outerItem
      outerScriptValue) := by
  apply (closed_below n).bind ((closed_below n).reading.outerValue c h _ _ _ _)
  intro outer
  cases outer with
  | error e => exact (closed_below n).pure _
  | ok outer =>
      exact (closed_below n).bind ((closed_below n).reading.createExtraScope c h _ _ _ _)
        fun extraScope => (closed_below n).pure _

/-- One step of the code: once the names are set up, the alternative is evaluated. -/
theorem handleAlternatives_cons (condition overrideListProperties : Script) (head : ValueHead)
    (source : SourceCode) (baseValue : Option Value) (alternatives : List (Script × Script × Value))
    (next : Option Value) (rest : List (Script × Script × Value))
    (outerScriptValue : Option JsValue) :
    handleAlternatives nested c value outerItem
        ((condition, overrideListProperties, .jsSource head source baseValue alternatives next)
          :: rest) outerScriptValue =
      (prepare nested c value (.jsSource head source baseValue alternatives next) source baseValue
          outerItem outerScriptValue >>= fun p =>
        match source.file.importScope, p.2 with
        | _, .error e => pure e
        | .error e, .ok _ => pure (.error e)
        | .ok importScope, .ok extraScope =>
            current >>= fun s =>
            withScopes (c.scopesFor s.items head source.file extraScope importScope)
              (checkAlternative nested condition overrideListProperties value.head.id >>= fun r =>
                match r with
                | some r => pure r
                | none => evaluate nested source.code >>= fun v => pure ⟨v, false, false⟩)
              >>= fun r =>
              if ¬ r.tryNextAlternative ∨ r.hasError then pure r.scriptValue
              else handleAlternatives nested c value outerItem rest p.1) := by
  unfold prepare
  rw [handleAlternatives, EvalM.bind_assoc]
  congr 1
  funext outer
  cases outer with
  | error e =>
      cases source.file.importScope with
      | error e' => rfl
      | ok importScope => rfl
  | ok outer =>
      dsimp only
      unfold evaluateJSSourceValue
      dsimp only
      rw [EvalM.bind_assoc, EvalM.bind_assoc]
      congr 1
      funext extraScope
      cases extraScope with
      | error e =>
          cases source.file.importScope with
          | error e' => rfl
          | ok importScope => rfl
      | ok extraScope =>
          cases source.file.importScope with
          | error e => rfl
          | ok importScope => exact EvalM.bind_assoc _ _ _

/-- What comes after some scopes have been popped. -/
theorem withScopes_bind {scopes : List Scope} (m : EvalM α) (f : α → EvalM β) :
    withScopes scopes m >>= f =
      update (fun s => { s with scopes := scopes ++ s.scopes }) >>= fun _ =>
      m >>= fun a =>
      update (fun s => { s with scopes := s.scopes.drop scopes.length }) >>= fun _ =>
      f a := by
  unfold withScopes
  rw [EvalM.bind_assoc]
  congr 1
  funext _
  rw [EvalM.bind_assoc]
  congr 1

/-- An alternative whose names have been set up. -/
theorem departs_choose (h : nested.All (Below n)) (scopes : List Scope)
    (condition overrideListProperties code : Script) (elseCaseId : ValueId)
    {rest rest' : EvalM JsValue} (hrest : Departs n rest rest') :
    Departs n
      (withScopes scopes
        (checkAlternative nested condition overrideListProperties elseCaseId >>= fun r =>
          match r with
          | some r => pure r
          | none => evaluate nested code >>= fun v => pure ⟨v, false, false⟩) >>= fun r =>
        if ¬ r.tryNextAlternative ∨ r.hasError then pure r.scriptValue else rest)
      (withScopes scopes
        (choose nested n condition overrideListProperties code elseCaseId) >>= fun r =>
        match r with
        | some v => pure v
        | none => rest') := by
  have hP := closed_below n
  have hpop := hP.update (f := fun s => { s with scopes := s.scopes.drop scopes.length })
    fun _ => rfl
  rw [withScopes_bind, withScopes_bind]
  refine Departs.bind (hP.update fun _ => rfl) fun _ => ?_
  unfold checkAlternative choose
  rw [EvalM.bind_assoc, EvalM.bind_assoc, EvalM.bind_assoc]
  refine Departs.bind (hP.reading.evaluate h condition) fun s => ?_
  generalize (evaluate nested condition).result s = sv
  cases hsv : sv.isError with
  | true =>
      simp only [if_true, EvalM.pure_bind, or_true]
      exact Departs.refl (hP.bind hpop fun _ => hP.pure _)
  | false =>
      cases hbool : sv.toBool with
      | false =>
          simp only [Bool.false_eq_true, if_false, EvalM.pure_bind, not_true_eq_false, or_self]
          exact Departs.bind hpop fun _ => hrest
      | true =>
          have hcode : Below n (evaluate nested code >>= fun v =>
              update (fun s => { s with scopes := s.scopes.drop scopes.length }) >>= fun _ =>
              (pure v : EvalM JsValue)) :=
            hP.bind (hP.reading.evaluate h code) fun _ => hP.bind hpop fun _ => hP.pure _
          simp only [Bool.false_eq_true, if_false, if_true, EvalM.bind_assoc]
          refine Departs.bind (hP.reading.evaluate h overrideListProperties) fun s => ?_
          generalize (evaluate nested overrideListProperties).result s = lists
          cases hlists : lists.isError with
          | true =>
              simp only [if_true, EvalM.pure_bind, or_true]
              exact Departs.error (fun _ => hlists) (fun _ => rfl) (hcode.mono (Nat.le_succ n))
          | false =>
              cases lists.toBool with
              | false =>
                  simp only [Bool.false_eq_true, if_false, EvalM.bind_assoc, EvalM.pure_bind,
                    not_false_eq_true, true_or, if_true]
                  exact Departs.refl hcode
              | true =>
                  simp only [Bool.false_eq_true, if_false, if_true, EvalM.bind_assoc,
                    EvalM.pure_bind, not_false_eq_true, true_or]
                  exact Departs.refl ((Below.update _).bind fun _ =>
                    (Below.emit fun _ h => by cases h).bind fun _ => hcode)

/-- The alternatives are evaluated as documented, or there is an error. The induction is on the
alternatives. -/
theorem departs_alternatives (h : nested.All (Below n))
    (alternatives : List (Script × Script × Value)) (outerScriptValue : Option JsValue) :
    Departs n (handleAlternatives nested c value outerItem alternatives outerScriptValue)
      (documentedAlternatives nested c n value outerItem alternatives outerScriptValue) := by
  have hP := closed_below n
  induction alternatives generalizing outerScriptValue with
  | nil => exact Departs.refl (hP.reading.handleAlternatives c h value outerItem [] _)
  | cons a rest ih =>
      rcases a with ⟨condition, overrideListProperties, alternative⟩
      cases alternative with
      | item head i => exact ih outerScriptValue
      | variant head v => exact ih outerScriptValue
      | jsSource head source baseValue alternatives next =>
          rw [handleAlternatives_cons, documentedAlternatives]
          refine Departs.bind (below_prepare h _ _ _ _) fun s => ?_
          generalize hp : (prepare nested c value
            (.jsSource head source baseValue alternatives next) source baseValue outerItem
            outerScriptValue).result s = p
          rcases p with ⟨outer, e | extraScope⟩
          · have he : e.isError = true := isError_of_prepare _ _ _ _ s (congrArg Prod.snd hp)
            cases source.file.importScope with
            | error e' => exact Departs.error (fun _ => he) (fun _ => rfl) ((closed_below _).pure _)
            | ok importScope =>
                -- the condition decides whether the error is what is documented
                refine Departs.bind (f := fun _ => pure e) hP.current fun s => ?_
                dsimp only
                split_ifs
                · exact Departs.error (fun _ => he) (fun _ => rfl) ((closed_below _).pure _)
                · exact Departs.refl (hP.pure e)
                · exact Departs.error (fun _ => he) (fun _ => rfl) (ih outer).below
          · cases source.file.importScope with
            | error e => exact Departs.refl (hP.pure _)
            | ok importScope =>
                exact Departs.bind hP.current fun s => departs_choose h _ _ _ _ _ (ih outer)

theorem departs_handle (h : nested.All (Below n)) (v : Value) :
    Departs n (handle nested c v) (documented nested c n v) := by
  cases v with
  | jsSource head source baseValue alternatives next =>
      exact Departs.bind (closed_below n).current fun s => departs_alternatives h _ _
  | item head i => exact Departs.refl ((closed_below n).pure _)
  | variant head v => exact Departs.refl ((closed_below n).pure _)

end Departs

end SVConverter

/-- The nested evaluations are done as documented where no deviation is recorded. The induction is
on how deep they are nested. -/
theorem follows_documentedEvaluator (resolvePath : String → String → String) (n : Nat) :
    Related (Follows n) (evaluator resolvePath n) (documentedEvaluator resolvePath n) ∧
      (documentedEvaluator resolvePath n).All (Below n) := by
  induction n with
  | zero =>
      exact ⟨⟨fun _ _ => Follows.refl 0 _, fun _ _ => Follows.refl 0 _⟩,
        (closed_below 0).reading.evaluator resolvePath 0⟩
  | succ n ih =>
      rcases ih with ⟨hfollows, hbelow⟩
      refine ⟨⟨fun _ _ => Follows.refl _ _, fun c v s h => ?_⟩,
        ⟨((closed_below (n + 1)).reading.evaluator resolvePath (n + 1)).property,
          fun c v => (departs_handle hbelow v).below⟩⟩
      rcases (departs_handle hbelow v).same_or_error s with ⟨_, hsame⟩ | ⟨hdeviates, _⟩
      · refine ((closed_follows n).handle c hfollows v s fun k hk hdeviates => ?_).trans hsame
        refine h k (Nat.lt_succ_of_lt hk) ?_
        unfold Deviates EvalM.events at hdeviates
        rw [hsame] at hdeviates
        exact hdeviates
      · exact absurd hdeviates (h n (Nat.lt_succ_self n))

section Claim

variable {newHead : ValueHead} {binding : Option Binding} {items : List PropertiesItem}
  {ownValue inherited : Option Value} {v : Value} {b : Binding}

/-- The value that comes from a property's unconditional binding and its Properties items is
evaluated like the if-else-chain if no deviation is recorded. Where the documented value is not
an error and what is inherited is evaluated as documented, it is only then. -/
theorem evaluated_as_documented_iff
    (hown : handlePropertiesItems newHead binding items = .ok ownValue)
    (hb : unconditional newHead binding (alternativesOf items) = some b)
    (hvalue : inheritItem ownValue inherited = some v) (resolvePath : String → String → String)
    (n : Nat) (c : SVConverter) (s : EvaluatorState) :
    let m := handle (evaluator resolvePath n) c v
    let m' := documented (documentedEvaluator resolvePath n) c n
      (b.valueWith (inherited.filter Value.isJSSource) (alternativesOf items))
    ((∀ k ≤ n, ¬ Deviates m' s k) → m.result s = m'.result s) ∧
      ((m'.result s).isError = false → (∀ k < n, ¬ Deviates m' s k) →
        (m.result s = m'.result s ↔ ¬ Deviates m' s n)) := by
  rw [handlePropertiesItems_eq_ok hown, hb, Option.map_some, inheritItem_valueWith,
    Option.some.injEq] at hvalue
  subst hvalue
  generalize b.valueWith (inherited.filter Value.isJSSource) (alternativesOf items) = v
  intro m m'
  have hfollows : Follows (n + 1) m m' :=
    (follows_documentedEvaluator resolvePath (n + 1)).1.convert c v
  have hsame : (∀ k ≤ n, ¬ Deviates m' s k) → m.result s = m'.result s :=
    fun h => congrArg Prod.fst (hfollows s fun k hk => h k (Nat.le_of_lt_succ hk))
  refine ⟨hsame, fun hvalue h => ⟨fun heq hdeviates => ?_, fun hnot => hsame fun k hk => ?_⟩⟩
  · rcases follows_documentedEvaluator resolvePath n with ⟨hnested, hbelow⟩
    rcases (departs_handle hbelow v).same_or_error s with ⟨hnot, _⟩ | ⟨_, herror, hsubset⟩
    · exact hnot hdeviates
    · have hm := (closed_follows n).handle c hnested v s fun k hk hk' => h k hk (hsubset hk')
      rw [EvalM.result, ← hm] at herror
      rw [← heq] at hvalue
      exact Bool.false_ne_true (hvalue.symm.trans herror)
  · rcases Nat.lt_or_eq_of_le hk with hk | rfl
    · exact h k hk
    · exact hnot

end Claim

/-! ## A sample -/

namespace ConditionalSample

def file : FileContext :=
  ⟨"/project/app.qbs", "/project", none, .ok []⟩

def binding : Binding :=
  ⟨⟨1, none⟩, .done (.string "a"), file, false, false, false⟩

/-- It holds, and what it sets builds upon the unconditional value. -/
def appending : PropertiesItem :=
  ⟨some (.done (.bool true)), none, true, some
    ⟨⟨2, none⟩, .lookup "outer" fun v => .done (.array [v, .string "b"]), file, false, true, false⟩⟩

/-- It holds, and what it sets builds upon the inherited value. -/
def extending : PropertiesItem :=
  ⟨some (.done (.bool true)), none, true, some
    ⟨⟨5, none⟩, .lookup "base" fun v => .done (.array [v, .string "c"]), file, true, false, false⟩⟩

/-- It does not hold, and what it sets asks for what there is in modules only. -/
def misplaced : PropertiesItem :=
  ⟨some (.done (.bool false)), none, true, some
    ⟨⟨3, none⟩, .ofName "original", file, false, false, true⟩⟩

/-- A product with a property. -/
def start : EvaluatorState :=
  .fresh [⟨.product, none, none, none, none, [], [("p", .string)], []⟩] 3

abbrev converter : SVConverter :=
  ⟨0, 0, "p", 0⟩

def valueOf (items : List PropertiesItem) : Value :=
  binding.valueWith none (alternativesOf items)

/-- What a property evaluates to, and what is documented. -/
abbrev evaluated (v : Value) : JsValue :=
  (handle (evaluator (fun _ path => path) 8) converter v).result start

abbrev documentedValue (v : Value) : JsValue :=
  (documented (documentedEvaluator (fun _ path => path) 8) converter 8 v).result start

end ConditionalSample

open ConditionalSample in
/-- The inherited value is extended under the condition, and is itself made of alternatives. -/
theorem evaluated_as_documented_iff_extending :
    evaluated (binding.valueWith (some (valueOf [appending])) (alternativesOf [extending])) =
        .array [.array [.string "a", .string "b"], .string "c"] ∧
      evaluated (binding.valueWith (some (valueOf [appending])) (alternativesOf [extending])) =
        documentedValue (binding.valueWith (some (valueOf [appending]))
          (alternativesOf [extending])) := by
  have hown : handlePropertiesItems ⟨4, none⟩ (some binding) [extending] =
      .ok (some (valueOf [extending])) := rfl
  have hb : unconditional ⟨4, none⟩ (some binding) (alternativesOf [extending]) = some binding :=
    rfl
  have hvalue : inheritItem (some (valueOf [extending])) (some (valueOf [appending])) =
      some (binding.valueWith (some (valueOf [appending])) (alternativesOf [extending])) := rfl
  refine ⟨rfl, (evaluated_as_documented_iff hown hb hvalue (fun _ path => path) 8 converter
    start).1 fun k _ h => ?_⟩
  have hevents : (documented (documentedEvaluator (fun _ path => path) 8) converter 8
      (binding.valueWith (some (valueOf [appending])) (alternativesOf [extending]))).events start =
        [] := rfl
  rw [Deviates, Option.filter_some_pos rfl, hevents] at h
  cases h

open ConditionalSample in
/-- A Properties item that does not hold makes the evaluation of the property fail. -/
theorem not_evaluated_as_documented_misplaced :
    handlePropertiesItems ⟨4, none⟩ (some binding) [misplaced] = .ok (some (valueOf [misplaced])) ∧
      evaluated (valueOf [misplaced]) ≠ documentedValue (valueOf [misplaced]) := by
  refine ⟨rfl, fun h => ?_⟩
  have hevaluated : evaluated (valueOf [misplaced]) =
      .error "The special value 'original' can only be used with module properties." := rfl
  have hdocumented : documentedValue (valueOf [misplaced]) = .string "a" := rfl
  rw [hevaluated, hdocumented] at h
  cases h

open ConditionalSample in
example : documentedValue (binding.valueWith (some (valueOf [misplaced]))
    (alternativesOf [extending])) = .array [.string "a", .string "c"] := by
  rfl

end Evaluator

end Qbs
