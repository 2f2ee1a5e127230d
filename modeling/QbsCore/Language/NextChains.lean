import QbsCore.Language.EvaluatorMemory
import Mathlib.Data.List.Basic

/-!
# Lists that modules contribute to

The values that a product and modules assign to a list property form a next-chain.  Reading
the property collects them.  An alternative that overrides list properties makes the value
that it belongs to exclusive.

Main results:

- Theorem {lit}`closed_marks`: evaluations make exactly those values exclusive that they
  record.
- Theorem {lit}`collected_as_documented_iff`: when what is collected is what is documented.

Current gaps:

- None.
-/

namespace Qbs

namespace Evaluator

variable {α β : Type}

/-! ## Exclusive values -/

/-- A computation makes exactly those values exclusive that it records. -/
def Marks (m : EvalM α) : Prop :=
  ∀ s id, id ∈ (m.state s).exclusiveListValues ↔
    id ∈ s.exclusiveListValues ∨ .exclusiveListValue id ∈ m.events s

namespace Marks

theorem bind {m : EvalM α} {f : α → EvalM β} (hm : Marks m) (hf : ∀ a, Marks (f a)) :
    Marks (m >>= f) := by
  intro s id
  rw [EvalM.state_bind, EvalM.events_bind, List.mem_append, hf _ _ id, hm s id, or_assoc]

/-- A computation that does not touch the flags. -/
theorem of_unchanged {m : EvalM α}
    (hstate : ∀ s, (m.state s).exclusiveListValues = s.exclusiveListValues)
    (hevents : ∀ s id, .exclusiveListValue id ∉ m.events s) : Marks m := by
  intro s id
  rw [hstate, or_iff_left (hevents s id)]

theorem pure (a : α) : Marks (Pure.pure a : EvalM α) :=
  of_unchanged (fun _ => rfl) fun _ _ => List.not_mem_nil

theorem current : Marks current :=
  of_unchanged (fun _ => rfl) fun _ _ => List.not_mem_nil

theorem update {f : EvaluatorState → EvaluatorState}
    (hf : ∀ s, (f s).exclusiveListValues = s.exclusiveListValues) : Marks (update f) :=
  of_unchanged hf fun _ _ => List.not_mem_nil

theorem emit {e : Event} (he : ∀ id, .exclusiveListValue id ≠ e) : Marks (emit e) :=
  of_unchanged (fun _ => rfl) fun _ id h => he id (List.mem_singleton.mp h)

theorem exclusive (id : ValueId) (a : α) :
    Marks (Evaluator.update (fun s => { s with
      exclusiveListValues := id :: s.exclusiveListValues }) >>= fun _ =>
        Evaluator.emit (.exclusiveListValue id) >>= fun _ => Pure.pure a) := by
  intro s id'
  show id' ∈ id :: s.exclusiveListValues ↔
    id' ∈ s.exclusiveListValues ∨ .exclusiveListValue id' ∈ [Event.exclusiveListValue id]
  rw [List.mem_cons, List.mem_singleton, Event.exclusiveListValue.injEq, or_comm]

end Marks

/-- Evaluations make exactly those values exclusive that they record. -/
theorem closed_marks : ClosedSteps Marks where
  pure := Marks.pure
  bind := Marks.bind
  current := Marks.current
  update := Marks.update
  emit := fun he _ => Marks.emit fun id h => he id h.symm
  exclusive := Marks.exclusive

/-! ## The members of a next-chain -/

section Members

variable (nested : Nested) (name : String)

/-- Evaluate a member of a next-chain in the item that has set it. -/
def memberValue (next : Value) : EvalM JsValue :=
  (match next.head.definingItem with
  | none => pure (some (.error "No item has set the value."))
  | some i => nested.property i name) >>= fun v => pure (v.getD .undefined)

/-- The values of some members that are evaluated one after the other, and whether each of them
is exclusive then. -/
def memberRuns : List Value → EvaluatorState → List (JsValue × Bool)
  | [], _ => []
  | next :: rest, s =>
      let t := (memberValue nested name next).state s
      ((memberValue nested name next).result s,
        next.isJSSource && decide (next.head.id ∈ t.exclusiveListValues)) :: memberRuns rest t

/-- The state in which the members are evaluated: they count as being on the current chain. -/
def chainState (value : Value) (s : EvaluatorState) : EvaluatorState :=
  { s with currentNextChain := value.nextChain.map (fun v => v.head.id) ++ s.currentNextChain }

def chainRuns (value : Value) (s : EvaluatorState) : List (JsValue × Bool) :=
  memberRuns nested name value.nextChain (chainState value s)

/-- The members that have a value. -/
def definedRuns (runs : List (JsValue × Bool)) : List (JsValue × Bool) :=
  runs.filter fun r => !r.1.isUndefined

/-- The first member is defined, and takes its value from an alternative that overrides list
properties. -/
def HeadOverrides (value : Value) (s : EvaluatorState) : Prop :=
  .exclusiveListValue value.head.id ∈ (memberValue nested name value).events (chainState value s) ∧
    ((memberValue nested name value).result (chainState value s)).isUndefined = false

instance (value : Value) (s : EvaluatorState) : Decidable (HeadOverrides nested name value s) :=
  inferInstanceAs (Decidable (_ ∧ _))

/-- The documented function: all values that are defined in one list, or only the first one if
it overrides the others. -/
def documentedList (value : Value) (s : EvaluatorState) : JsValue :=
  if HeadOverrides nested name value s then
    joinCollected [(memberValue nested name value).result (chainState value s)]
  else joinCollected ((definedRuns (chainRuns nested name value s)).map Prod.fst)

end Members

/-- What the loop collects. -/
def collected : List (JsValue × Bool) → List JsValue → List JsValue
  | [], lst => lst
  | r :: rest, lst =>
      if r.1.isUndefined then collected rest lst
      else if r.2 then (lst ++ [r.1]).drop ((lst ++ [r.1]).length - 2)
      else collected rest (lst ++ [r.1])

/-- No value gets lost: next to the first exclusive one and its predecessor there are no values
with elements. -/
def NothingLost (runs : List (JsValue × Bool)) : Prop :=
  ∀ before r after, definedRuns runs = before ++ r :: after → (∀ b ∈ before, b.2 = false) →
    r.2 = true → ∀ v ∈ before.dropLast ++ after, asArray v.1 = []

section Collect

variable {nested : Nested} {name : String}

theorem collectLoop_bind (next : Value) (rest : List Value) (lst : List JsValue)
    (s : EvaluatorState) :
    (collectLoop nested name (next :: rest) lst).result s =
      (memberValue nested name next >>= fun v =>
        match v with
        | .error e => pure (.error (.error e))
        | .undefined => collectLoop nested name rest lst
        | v =>
            let lst := lst ++ [v]
            current >>= fun s =>
              if next.isJSSource ∧ next.head.id ∈ s.exclusiveListValues then
                pure (.ok (lst.drop (lst.length - 2)))
              else collectLoop nested name rest lst).result s :=
  rfl

/-- One step of the loop. -/
theorem collectLoop_cons (next : Value) (rest : List Value) (lst : List JsValue)
    (s : EvaluatorState) {v : JsValue} (hv : (memberValue nested name next).result s = v)
    (herror : v.isError = false) :
    (collectLoop nested name (next :: rest) lst).result s =
      let t := (memberValue nested name next).state s
      if v.isUndefined then (collectLoop nested name rest lst).result t
      else if next.isJSSource && decide (next.head.id ∈ t.exclusiveListValues) then
        .ok ((lst ++ [v]).drop ((lst ++ [v]).length - 2))
      else (collectLoop nested name rest (lst ++ [v])).result t := by
  rw [collectLoop_bind, EvalM.result_bind, hv]
  generalize (memberValue nested name next).state s = t
  have hdefined : (current >>= fun s =>
      if next.isJSSource ∧ next.head.id ∈ s.exclusiveListValues then
        pure (.ok ((lst ++ [v]).drop ((lst ++ [v]).length - 2)))
      else collectLoop nested name rest (lst ++ [v])).result t =
      if next.isJSSource && decide (next.head.id ∈ t.exclusiveListValues) then
        .ok ((lst ++ [v]).drop ((lst ++ [v]).length - 2))
      else (collectLoop nested name rest (lst ++ [v])).result t := by
    show EvalM.result (if next.isJSSource ∧ next.head.id ∈ t.exclusiveListValues then _ else _) t
      = _
    by_cases hexclusive : next.isJSSource ∧ next.head.id ∈ t.exclusiveListValues
    · rw [if_pos hexclusive, if_pos]
      · rfl
      · rw [hexclusive.1, decide_eq_true hexclusive.2]
        rfl
    · rw [if_neg hexclusive, if_neg]
      rwa [Bool.and_eq_true, decide_eq_true_iff]
  cases v with
  | error e => cases herror
  | undefined => rfl
  | null => exact hdefined
  | bool b => exact hdefined
  | number i => exact hdefined
  | string text => exact hdefined
  | array l => exact hdefined
  | sharedArray id l => exact hdefined
  | object l => exact hdefined
  | item i => exact hdefined

/-- Without errors the loop collects the values of the members. -/
theorem collectLoop_eq {values : List Value} {s : EvaluatorState}
    (h : ∀ r ∈ memberRuns nested name values s, r.1.isError = false) (lst : List JsValue) :
    (collectLoop nested name values lst).result s =
      .ok (collected (memberRuns nested name values s) lst) := by
  induction values generalizing s lst with
  | nil => rfl
  | cons next rest ih =>
      unfold memberRuns at h ⊢
      dsimp only at h ⊢
      rw [List.forall_mem_cons] at h
      rcases h with ⟨hnext, hrest⟩
      rw [collectLoop_cons next rest lst s rfl hnext]
      unfold collected
      dsimp only
      rw [ih hrest, ih hrest]
      split_ifs
      · rfl
      · rfl
      · rfl

theorem collectValuesFromNextChain_bind (value : Value) (s : EvaluatorState) :
    (collectValuesFromNextChain nested name value).result s =
      (collectLoop nested name value.nextChain [] >>= fun lst =>
        match lst with
        | .error e => emit .errorExit >>= fun _ => pure e
        | .ok lst =>
            update (fun t => { t with currentNextChain := s.currentNextChain }) >>= fun _ =>
            pure (joinCollected lst)).result (chainState value s) :=
  rfl

theorem collectValuesFromNextChain_eq {value : Value} {s : EvaluatorState}
    (h : ∀ r ∈ chainRuns nested name value s, r.1.isError = false) :
    (collectValuesFromNextChain nested name value).result s =
      joinCollected (collected (chainRuns nested name value s) []) := by
  rw [collectValuesFromNextChain_bind, EvalM.result_bind, collectLoop_eq h]
  rfl

end Collect

/-! ## What gets lost -/

theorem definedRuns_cons (r : JsValue × Bool) (runs : List (JsValue × Bool)) :
    definedRuns (r :: runs) =
      if r.1.isUndefined then definedRuns runs else r :: definedRuns runs := by
  unfold definedRuns
  rw [List.filter_cons]
  cases r.1.isUndefined with
  | true => rfl
  | false => rfl

variable {runs : List (JsValue × Bool)}

/-- Without an exclusive value everything is collected. -/
theorem collected_of_none (h : ∀ r ∈ definedRuns runs, r.2 = false) (lst : List JsValue) :
    collected runs lst = lst ++ (definedRuns runs).map Prod.fst := by
  induction runs generalizing lst with
  | nil => exact (List.append_nil lst).symm
  | cons r runs ih =>
      unfold collected
      rw [definedRuns_cons] at h ⊢
      split_ifs at h ⊢ with hundefined hexclusive
      · exact ih h lst
      · rw [h r List.mem_cons_self] at hexclusive
        cases hexclusive
      · rw [ih fun r' hr' => h r' (List.mem_cons_of_mem _ hr'), List.map_cons, List.append_assoc]
        rfl

/-- Of the values before an exclusive one, only the last one is collected. -/
theorem collected_of_exclusive {before after : List (JsValue × Bool)} {r : JsValue × Bool}
    (hruns : definedRuns runs = before ++ r :: after) (hbefore : ∀ b ∈ before, b.2 = false)
    (hr : r.2 = true) (lst : List JsValue) :
    collected runs lst =
      (lst ++ before.map Prod.fst ++ [r.1]).drop
        ((lst ++ before.map Prod.fst ++ [r.1]).length - 2) := by
  induction runs generalizing lst before with
  | nil =>
      unfold definedRuns at hruns
      exact absurd hruns.symm (List.append_ne_nil_of_right_ne_nil _ (List.cons_ne_nil _ _))
  | cons r' runs ih =>
      unfold collected
      rw [definedRuns_cons] at hruns
      split_ifs at hruns ⊢ with hundefined hexclusive
      · exact ih hruns hbefore lst
      · cases before with
        | nil =>
            rw [List.nil_append, List.cons.injEq] at hruns
            rw [hruns.1, List.map_nil, List.append_nil]
        | cons b before =>
            rw [List.cons_append, List.cons.injEq] at hruns
            rw [hruns.1, hbefore b List.mem_cons_self] at hexclusive
            cases hexclusive
      · cases before with
        | nil =>
            rw [List.nil_append, List.cons.injEq] at hruns
            rw [hruns.1] at hexclusive
            exact absurd hr hexclusive
        | cons b before =>
            rw [List.cons_append, List.cons.injEq] at hruns
            rw [ih hruns.2 (fun b' hb' => hbefore b' (List.mem_cons_of_mem _ hb')), hruns.1,
              List.map_cons, List.append_assoc lst [b.1]]
            rfl

/-- Lists of which a part is left out are the same only if it is empty. -/
theorem append_eq_middle_iff {γ : Type} {l m r : List γ} : m = l ++ m ++ r ↔ l = [] ∧ r = [] := by
  constructor
  · intro h
    have hlength := congrArg List.length h
    rw [List.length_append, List.length_append] at hlength
    exact ⟨List.length_eq_zero_iff.mp (by omega), List.length_eq_zero_iff.mp (by omega)⟩
  · rintro ⟨rfl, rfl⟩
    rw [List.nil_append, List.append_nil]

/-- The elements of some members. -/
def elements (runs : List (JsValue × Bool)) : List JsValue :=
  (runs.map Prod.fst).flatMap asArray

theorem elements_append (runs runs' : List (JsValue × Bool)) :
    elements (runs ++ runs') = elements runs ++ elements runs' := by
  unfold elements
  rw [List.map_append, List.flatMap_append]

theorem elements_eq_nil_iff :
    elements runs = [] ↔ ∀ v ∈ runs, asArray v.1 = [] := by
  unfold elements
  rw [List.flatMap_eq_nil_iff, List.forall_mem_map]

/-- What gets lost next to an exclusive value. -/
theorem joinCollected_eq_iff_of_exclusive {before after : List (JsValue × Bool)}
    {r : JsValue × Bool} (hruns : definedRuns runs = before ++ r :: after)
    (hbefore : ∀ b ∈ before, b.2 = false) (hr : r.2 = true) :
    joinCollected (collected runs []) = joinCollected ((definedRuns runs).map Prod.fst) ↔
      ∀ v ∈ before.dropLast ++ after, asArray v.1 = [] := by
  have hlength : ((before ++ [r]).map Prod.fst).length - 2 = before.length - 1 := by
    rw [List.length_map, List.length_append, List.length_singleton]
    omega
  have hcollected : collected runs [] =
      (before.drop (before.length - 1) ++ [r]).map Prod.fst := by
    have hmap : before.map Prod.fst ++ [r.1] = (before ++ [r]).map Prod.fst := by
      rw [List.map_append]
      rfl
    rw [collected_of_exclusive hruns hbefore hr, List.nil_append, hmap, hlength, ← List.map_drop,
      List.drop_append_of_le_length (Nat.sub_le _ _)]
  have hdefined : definedRuns runs =
      before.dropLast ++ (before.drop (before.length - 1) ++ [r]) ++ after := by
    rw [hruns, List.dropLast_eq_take, ← List.append_assoc, List.take_append_drop,
      List.append_assoc]
    rfl
  rw [hcollected, hdefined]
  generalize before.drop (before.length - 1) ++ [r] = kept
  show JsValue.array (elements _) = JsValue.array (elements _) ↔ _
  rw [JsValue.array.injEq, elements_append, elements_append, append_eq_middle_iff,
    elements_eq_nil_iff, elements_eq_nil_iff, ← List.forall_mem_append]

/-- All values are collected exactly if none gets lost. -/
theorem joinCollected_eq_iff (runs : List (JsValue × Bool)) :
    joinCollected (collected runs []) = joinCollected ((definedRuns runs).map Prod.fst) ↔
      NothingLost runs := by
  constructor
  · intro h before r after hruns hbefore hr
    exact (joinCollected_eq_iff_of_exclusive hruns hbefore hr).mp h
  · intro h
    cases hfind : (definedRuns runs).find? Prod.snd with
    | none =>
        have hnone : ∀ r ∈ definedRuns runs, r.2 = false :=
          fun r hr => Bool.eq_false_iff.mpr (List.find?_eq_none.mp hfind r hr)
        rw [collected_of_none hnone, List.nil_append]
    | some r =>
        rcases List.find?_eq_some_iff_append.mp hfind with ⟨hr, before, after, hruns, hbefore⟩
        have hbefore : ∀ b ∈ before, b.2 = false := by
          intro b hb
          have hnot := hbefore b hb
          rwa [Bool.not_eq_true'] at hnot
        exact (joinCollected_eq_iff_of_exclusive hruns hbefore hr).mpr
          (h before r after hruns hbefore hr)

theorem marks_memberValue {nested : Nested} (h : nested.All Marks) (name : String)
    (next : Value) : Marks (memberValue nested name next) := by
  refine Marks.bind ?_ fun v => Marks.pure _
  split
  · exact Marks.pure _
  · exact h.property _ _

/-- A first member that overrides the others is the only one that is collected. -/
theorem collected_of_headOverrides {nested : Nested} (h : nested.All Marks) {name : String}
    {value : Value} {s : EvaluatorState} (hnext : value.next.isSome = true)
    (hoverrides : HeadOverrides nested name value s) :
    collected (chainRuns nested name value s) [] =
      [(memberValue nested name value).result (chainState value s)] := by
  rcases hoverrides with ⟨hevent, hdefined⟩
  have hmark := (marks_memberValue h name value (chainState value s) value.head.id).mpr
    (Or.inr hevent)
  cases value with
  | item head i => cases hnext
  | variant head v => cases hnext
  | jsSource head source base alternatives next =>
      unfold chainRuns Value.nextChain memberRuns collected
      rw [if_neg (by rw [hdefined]; exact Bool.false_ne_true), if_pos]
      · rfl
      · exact decide_eq_true hmark

section Claim

variable (resolvePath : String → String → String) (n : Nat) (name : String)

/-- The list that is collected from a next-chain is the documented one exactly if the first
member overrides the others, or nothing gets lost next to a member that is exclusive. -/
theorem collected_as_documented_iff (value : Value) (s : EvaluatorState)
    (hnext : value.next.isSome = true)
    (hok : ∀ r ∈ chainRuns (evaluator resolvePath n) name value s, r.1.isError = false) :
    (collectValuesFromNextChain (evaluator resolvePath n) name value).result s =
      documentedList (evaluator resolvePath n) name value s ↔
    (HeadOverrides (evaluator resolvePath n) name value s ∨
      NothingLost (chainRuns (evaluator resolvePath n) name value s)) := by
  rw [collectValuesFromNextChain_eq hok]
  unfold documentedList
  split_ifs with hoverrides
  · rw [collected_of_headOverrides (closed_marks.reading.evaluator resolvePath n) hnext hoverrides]
    exact iff_of_true rfl (Or.inl hoverrides)
  · rw [or_iff_right hoverrides]
    exact joinCollected_eq_iff _

end Claim

/-! ## A sample -/

namespace OverridingSample

/-- Some code overrides what modules contribute as long as nothing has been found. -/
def head : Value :=
  .jsSource ⟨1, some 0⟩ (Sample.source (.done (.string "own"))) none
    [(.lookup "found" fun v => .done (.bool !v.toBool), .done (.bool true),
      .jsSource ⟨2, some 0⟩ (Sample.source (.done (.string "special"))) none [] none)]
    (some (.jsSource ⟨3, some 1⟩ (Sample.source (.done (.string "default"))) none [] none))

/-- A module and its instance for a product, the product, and a probe that finds something. -/
def items : Items :=
  [⟨.moduleInstance, some 1, some 2, none, none, [("list", head)], [], []⟩,
    Sample.item .module none
      [("list", .jsSource ⟨3, some 1⟩ (Sample.source (.done (.string "default"))) none [] none)],
    Sample.item .product none [("found", .variant ⟨4, none⟩ (.bool false))],
    Sample.item .other none [("found", .variant ⟨5, none⟩ (.bool true))]]

abbrev nested : Nested :=
  evaluator (fun _ path => path) 8

abbrev after (steps : List Step) : EvaluatorState :=
  run (fun _ path => path) 8 (.fresh items 5) steps

end OverridingSample

open OverridingSample in
/-- As long as nothing has been found, the list is what the product sets. -/
theorem collected_as_documented_iff_sample :
    (collectValuesFromNextChain nested "list" head).result (after []) =
      documentedList nested "list" head (after []) := by
  have hruns : chainRuns nested "list" head (after []) =
      [(.string "special", true), (.string "default", false)] := rfl
  refine (collected_as_documented_iff (fun _ path => path) 8 "list" head (after []) rfl ?_).mpr
    (Or.inl ⟨?_, rfl⟩)
  · rw [hruns]
    intro r hr
    rw [List.mem_cons, List.mem_singleton] at hr
    rcases hr with rfl | rfl
    · rfl
    · rfl
  · exact List.mem_singleton_self _

open OverridingSample in
/-- If the list is read before a probe finds something, it stays without the value of the module
after that. -/
theorem not_collected_as_documented_sample :
    (∀ r ∈ chainRuns nested "list" head (after [.evaluate 0 "list", .copyProperty 3 "found" 2]),
      r.1.isError = false) ∧
      (collectValuesFromNextChain nested "list" head).result
          (after [.evaluate 0 "list", .copyProperty 3 "found" 2]) ≠
        documentedList nested "list" head
          (after [.evaluate 0 "list", .copyProperty 3 "found" 2]) := by
  have hruns : chainRuns nested "list" head
      (after [.evaluate 0 "list", .copyProperty 3 "found" 2]) =
        [(.string "own", true), (.string "default", false)] := rfl
  have hcollected : (collectValuesFromNextChain nested "list" head).result
      (after [.evaluate 0 "list", .copyProperty 3 "found" 2]) = .array [.string "own"] := rfl
  have hdocumented : documentedList nested "list" head
      (after [.evaluate 0 "list", .copyProperty 3 "found" 2]) =
        .array [.string "own", .string "default"] := rfl
  constructor
  · rw [hruns]
    intro r hr
    rw [List.mem_cons, List.mem_singleton] at hr
    rcases hr with rfl | rfl
    · rfl
    · rfl
  · rw [hcollected, hdocumented, Ne, JsValue.array.injEq]
    intro h
    cases h

end Evaluator

end Qbs
