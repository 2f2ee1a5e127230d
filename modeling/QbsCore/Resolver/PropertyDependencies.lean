import QbsCore.Library.Fuel
import QbsCore.Resolver.ModuleProperties

/-!
# What the value of a module property depends on

The value of a module property by itself, without the cache and the records of the evaluator, and
what is read for it.

Main results:

- Definition {lit}`ModuleProperties.valueOf`: the value of a property by itself.
- Theorem {lit}`ModuleProperties.property_computes`: with the cache a property has this value.
- Theorem {lit}`ModuleProperties.valueOf_eq_of_reads`: a property has the same value in two
  instances if what is read for it is the same.

Current gaps:

- None.
-/

namespace Qbs

namespace ModuleProperties

variable (product : ProductItem)

/-! ## Values without a cache -/

/-- What a script returns, given the values of the properties that it reads. -/
def evalScript (value : Path → QualifiedId → Option Result) (path : Path) (name : QualifiedId) :
    PropertyScript → Option Result
  | .done r => some r
  | .read read k => (value path read).bind fun r => evalScript value path name (k r)
  | .readOuter k =>
      match path with
      | [] => evalScript value path name (k (.ok .invalid))
      | _ :: outer => (value outer name).bind fun r => evalScript value path name (k r)
  | .readItem item k => evalScript value path name (k (product.itemProperty path item))

/-- The value of a property if its evaluation is not nested too deeply. -/
def eval : Nat → Path → QualifiedId → Option Result
  | 0, _, _ => none
  | n + 1, path, name =>
      match product.value path name with
      | none => some (.ok .invalid)
      | some (.variant v) => some (.ok v)
      | some (.source s) => evalScript product (eval n) path name s

/-- The value of a property. -/
noncomputable def valueOf (path : Path) (name : QualifiedId) : Option Result :=
  Fuel.limit fun n => eval product n path name

variable {product}

variable {m : EvalM Result} {path : Path} {value : Path → QualifiedId → Option Result}
  {s : PropertyScript} {name : QualifiedId} {r : Result}

/-- More values give more results. -/
theorem evalScript_mono {value' : Path → QualifiedId → Option Result}
    (h : ∀ path name r, value path name = some r → value' path name = some r)
    (hr : evalScript product value path name s = some r) :
    evalScript product value' path name s = some r := by
  induction s with
  | done r' => exact hr
  | read read k ih =>
      simp only [evalScript, Option.bind_eq_some_iff] at hr ⊢
      rcases hr with ⟨v, hv, hk⟩
      exact ⟨v, h path read v hv, ih v hk⟩
  | readOuter k ih =>
      cases path with
      | nil =>
          simp only [evalScript] at hr ⊢
          exact ih _ hr
      | cons i outer =>
          simp only [evalScript, Option.bind_eq_some_iff] at hr ⊢
          rcases hr with ⟨v, hv, hk⟩
          exact ⟨v, h outer name v hv, ih v hk⟩
  | readItem item k ih =>
      simp only [evalScript] at hr ⊢
      exact ih _ hr

theorem eval_monotone (path : Path) (name : QualifiedId) :
    Fuel.Monotone fun n => eval product n path name := by
  intro n r hr
  induction n generalizing path name r with
  | zero => cases hr
  | succ n ih =>
      simp only [eval] at hr ⊢
      cases hv : product.value path name with
      | none => simpa [hv] using hr
      | some value =>
          cases value with
          | variant v => simpa [hv] using hr
          | source s =>
              simp only [hv] at hr ⊢
              exact evalScript_mono (fun path name r h => ih path name r h) hr

theorem valueOf_eq_some_iff :
    valueOf product path name = some r ↔ ∃ n, eval product n path name = some r :=
  Fuel.limit_eq_some_iff (eval_monotone path name)

/-- A script that returns a result has read finitely many properties. -/
theorem exists_evalScript_eval (hr : evalScript product (valueOf product) path name s = some r) :
    ∃ n, evalScript product (eval product n) path name s = some r := by
  have hmono {n m : Nat} (hnm : n ≤ m) {s : PropertyScript} {r : Result}
      (h : evalScript product (eval product n) path name s = some r) :
      evalScript product (eval product m) path name s = some r :=
    evalScript_mono (fun path name _ h => (eval_monotone path name).le h hnm) h
  induction s with
  | done r' => exact ⟨0, hr⟩
  | read read k ih =>
      simp only [evalScript, Option.bind_eq_some_iff] at hr ⊢
      rcases hr with ⟨v, hv, hk⟩
      rcases valueOf_eq_some_iff.mp hv with ⟨n, hn⟩
      rcases ih v hk with ⟨m, hm⟩
      refine ⟨max n m, v, ?_, hmono (Nat.le_max_right n m) hm⟩
      exact (eval_monotone path read).le hn (Nat.le_max_left n m)
  | readOuter k ih =>
      cases path with
      | nil =>
          simp only [evalScript] at hr ⊢
          exact ih _ hr
      | cons i outer =>
          simp only [evalScript, Option.bind_eq_some_iff] at hr ⊢
          rcases hr with ⟨v, hv, hk⟩
          rcases valueOf_eq_some_iff.mp hv with ⟨n, hn⟩
          rcases ih v hk with ⟨m, hm⟩
          refine ⟨max n m, v, ?_, hmono (Nat.le_max_right n m) hm⟩
          exact (eval_monotone outer name).le hn (Nat.le_max_left n m)
  | readItem item k ih =>
      simp only [evalScript] at hr ⊢
      exact ih _ hr

theorem valueOf_of_none (h : product.value path name = none) :
    valueOf product path name = some (.ok .invalid) :=
  valueOf_eq_some_iff.mpr ⟨1, by simp [eval, h]⟩

theorem valueOf_of_variant {v : Variant} (h : product.value path name = some (.variant v)) :
    valueOf product path name = some (.ok v) :=
  valueOf_eq_some_iff.mpr ⟨1, by simp [eval, h]⟩

/-- The value of source code is what its script returns. -/
theorem valueOf_of_source (h : product.value path name = some (.source s)) :
    valueOf product path name = evalScript product (valueOf product) path name s := by
  apply Option.ext
  intro r
  rw [valueOf_eq_some_iff]
  constructor
  · rintro ⟨n, hn⟩
    cases n with
    | zero => cases hn
    | succ n =>
        simp only [eval, h] at hn
        exact evalScript_mono (fun _ _ _ hr => valueOf_eq_some_iff.mpr ⟨n, hr⟩) hn
  · intro hr
    rcases exists_evalScript_eval hr with ⟨n, hn⟩
    exact ⟨n + 1, by simpa [eval, h] using hn⟩

/-! ## Values from the cache -/

variable (product) in
/-- The cache holds values of properties. -/
def Sound (s : EvaluatorState) : Prop :=
  ∀ path name r, s.valueCache.lookup (path, name) = some r → valueOf product path name = some r

theorem sound_initial : Sound product .initial := by
  intro path name r h
  simp [EvaluatorState.initial] at h

theorem sound_insertValue {s : EvaluatorState} (hs : Sound product s)
    (hr : valueOf product path name = some r) :
    Sound product (insertValue path name r s) := by
  unfold insertValue
  split
  · intro path' name' r' h
    by_cases hkey : (path', name') = (path, name)
    · cases hkey
      simp only [AList.lookup_insert, Option.some.injEq] at h
      rwa [← h]
    · simp only [AList.lookup_insert_ne hkey] at h
      exact hs path' name' r' h
  · exact hs

section Rules

variable {α : Type} {Inv : EvaluatorState → Prop} {m : EvalM α} {o : Option α}

/-- A change of the state before a computation. -/
theorem yields_updateThen {f : EvaluatorState → EvaluatorState} (hf : ∀ s, Inv s → Inv (f s))
    (hm : Fuel.Yields Inv m o) : Fuel.Yields Inv (update f >>= fun _ => m) o :=
  fun s a t hs h => hm (f s) a t (hf s hs) h

theorem reaches_updateThen {f : EvaluatorState → EvaluatorState} (hf : ∀ s, Inv s → Inv (f s))
    {a : α} (hm : Fuel.Reaches Inv m a) : Fuel.Reaches Inv (update f >>= fun _ => m) a :=
  fun s hs => hm (f s) (hf s hs)

/-- A change of the state after a computation, which may depend on the result. -/
theorem yields_thenUpdate {f : α → EvaluatorState → EvaluatorState}
    (hf : ∀ a s, o = some a → Inv s → Inv (f a s)) (hm : Fuel.Yields Inv m o) :
    Fuel.Yields Inv (m >>= fun a => update (f a) >>= fun _ => pure a) o := by
  have hbind := hm.bind fun a ha => yields_updateThen (hf a · ha) (Fuel.Yields.pure a)
  rwa [Option.bind_fun_some] at hbind

theorem reaches_thenUpdate {f : α → EvaluatorState → EvaluatorState} {a : α}
    (hm : Fuel.Yields Inv m o) (hr : Fuel.Reaches Inv m a) :
    Fuel.Reaches Inv (m >>= fun a => update (f a) >>= fun _ => pure a) a :=
  hr.bind hm fun s _ => ⟨f a s, rfl⟩

/-- A computation that looks at the state first. -/
theorem yields_current {k : EvaluatorState → EvalM α}
    (hk : ∀ s, Inv s → Fuel.Yields Inv (k s) o) : Fuel.Yields Inv (current >>= k) o :=
  fun s a t hs h => hk s hs s a t hs h

theorem reaches_current {k : EvaluatorState → EvalM α} {a : α}
    (hk : ∀ s, Inv s → Fuel.Reaches Inv (k s) a) : Fuel.Reaches Inv (current >>= k) a :=
  fun s hs => hk s hs s hs

end Rules

theorem sound_recordDependency {s : EvaluatorState} (hs : Sound product s) :
    Sound product (recordDependency name s) := by
  unfold recordDependency
  split
  · exact hs
  · exact hs

theorem sound_pushProperty {s : EvaluatorState} (hs : Sound product s) :
    Sound product (pushProperty name s) :=
  hs

theorem sound_popProperty {s : EvaluatorState} (hs : Sound product s) :
    Sound product (popProperty s) :=
  hs

theorem withPropertyStack_yields {o : Option Result} (hm : Fuel.Yields (Sound product) m o) :
    Fuel.Yields (Sound product) (withPropertyStack name m) o := by
  apply yields_updateThen fun s hs => sound_recordDependency hs
  apply yields_updateThen fun s hs => sound_pushProperty hs
  exact yields_thenUpdate (fun _ s _ hs => sound_popProperty hs) hm

theorem withPropertyStack_reaches {o : Option Result} (hm : Fuel.Yields (Sound product) m o)
    (hr : Fuel.Reaches (Sound product) m r) :
    Fuel.Reaches (Sound product) (withPropertyStack name m) r := by
  apply reaches_updateThen fun s hs => sound_recordDependency hs
  apply reaches_updateThen fun s hs => sound_pushProperty hs
  exact reaches_thenUpdate hm hr

/-- A value that is found in the cache is the value of the property. -/
theorem valueOf_of_cached {s : EvaluatorState} (hs : Sound product s)
    (h : (if s.valueCacheEnabled then s.valueCache.lookup (path, name) else none) = some r) :
    valueOf product path name = some r := by
  split at h
  · exact hs path name r h
  · cases h

theorem cachedValue_yields (hm : Fuel.Yields (Sound product) m (valueOf product path name)) :
    Fuel.Yields (Sound product) (cachedValue path name m) (valueOf product path name) := by
  apply yields_current
  intro s hs
  split <;> rename_i hfound
  · rw [valueOf_of_cached hs hfound]
    exact Fuel.Yields.pure _
  · exact yields_thenUpdate (fun r t hr ht => sound_insertValue ht hr) hm

theorem cachedValue_reaches (hm : Fuel.Yields (Sound product) m (valueOf product path name))
    (hr : Fuel.Reaches (Sound product) m r) (hvalue : valueOf product path name = some r) :
    Fuel.Reaches (Sound product) (cachedValue path name m) r := by
  apply reaches_current
  intro s hs
  split <;> rename_i hfound
  · rw [valueOf_of_cached hs hfound, Option.some.injEq] at hvalue
    rw [hvalue]
    exact Fuel.Reaches.pure _
  · exact reaches_thenUpdate hm hr

/-! ## Evaluating a property -/

/-- A script that is run with an evaluator returns what it returns for the values. -/
theorem run_yields {evaluate : Path → QualifiedId → EvalM Result}
    (h : ∀ path name, Fuel.Yields (Sound product) (evaluate path name)
      (valueOf product path name)) (path : Path) (name : QualifiedId) (s : PropertyScript) :
    Fuel.Yields (Sound product) (run product evaluate path name s)
      (evalScript product (valueOf product) path name s) := by
  induction s with
  | done r => exact Fuel.Yields.pure r
  | read read k ih => exact (h path read).bind fun r _ => ih r
  | readOuter k ih =>
      cases path with
      | nil => exact ih _
      | cons i outer => exact (h outer name).bind fun r _ => ih r
  | readItem item k ih => exact ih _

theorem run_reaches {evaluate : Path → QualifiedId → EvalM Result} {value : Path → QualifiedId →
    Option Result} (h : ∀ path name, Fuel.Yields (Sound product) (evaluate path name)
      (valueOf product path name))
    (hreach : ∀ path name r, value path name = some r →
      Fuel.Reaches (Sound product) (evaluate path name) r) {path : Path} {name : QualifiedId}
    {s : PropertyScript} {r : Result} (hr : evalScript product value path name s = some r) :
    Fuel.Reaches (Sound product) (run product evaluate path name s) r := by
  induction s with
  | done r' =>
      cases hr
      exact Fuel.Reaches.pure _
  | read read k ih =>
      simp only [evalScript, Option.bind_eq_some_iff] at hr
      rcases hr with ⟨v, hv, hk⟩
      exact (hreach path read v hv).bind (h path read) (ih v hk)
  | readOuter k ih =>
      cases path with
      | nil => exact ih _ hr
      | cons i outer =>
          simp only [evalScript, Option.bind_eq_some_iff] at hr
          rcases hr with ⟨v, hv, hk⟩
          exact (hreach outer name v hv).bind (h outer name) (ih v hk)
  | readItem item k ih => exact ih _ hr

theorem property_yields (n : Nat) (path : Path) (name : QualifiedId) :
    Fuel.Yields (Sound product) (property product n path name) (valueOf product path name) := by
  induction n generalizing path name with
  | zero =>
      intro s a t _ h
      cases h
  | succ n ih =>
      simp only [property]
      split <;> rename_i hvalue
      · rw [valueOf_of_none hvalue]
        exact Fuel.Yields.pure _
      · rw [valueOf_of_variant hvalue]
        exact Fuel.Yields.pure _
      · apply withPropertyStack_yields
        apply cachedValue_yields
        rw [valueOf_of_source hvalue]
        exact run_yields ih path name _

theorem property_script_yields (n : Nat) (h : product.value path name = some (.source s)) :
    Fuel.Yields (Sound product) (run product (property product n) path name s)
      (valueOf product path name) := by
  rw [valueOf_of_source h]
  exact run_yields (property_yields n) path name s

theorem property_reaches {n m : Nat} (hnm : n ≤ m) (hr : eval product n path name = some r) :
    Fuel.Reaches (Sound product) (property product m path name) r := by
  induction n generalizing m path name r with
  | zero => cases hr
  | succ n ih =>
      cases m with
      | zero => omega
      | succ m =>
          have hof := valueOf_eq_some_iff.mpr ⟨n + 1, hr⟩
          simp only [eval] at hr
          simp only [property]
          split <;> rename_i hvalue
          · rw [hvalue] at hr
            cases hr
            exact Fuel.Reaches.pure _
          · rw [hvalue] at hr
            cases hr
            exact Fuel.Reaches.pure _
          · rw [hvalue] at hr
            have hyields := property_script_yields m hvalue
            have hreaches := run_reaches (property_yields m) (fun _ _ _ h => ih (by omega) h) hr
            apply withPropertyStack_reaches (cachedValue_yields hyields)
            exact cachedValue_reaches hyields hreaches hof

/-- With the cache a property has the value that it has by itself. -/
theorem property_computes (path : Path) (name : QualifiedId) :
    Fuel.Computes (Sound product) (fun n => property product n path name)
      (valueOf product path name) := by
  refine ⟨fun n => property_yields n path name, ?_⟩
  intro r hr
  rcases valueOf_eq_some_iff.mp hr with ⟨n, hn⟩
  exact ⟨n, fun m hm => property_reaches hm hn⟩

/-! ## What is read -/

/-- Something that a script looks at. -/
inductive Access where
  | property (name : QualifiedId)
  | outer
  | item (name : String)

/-- What a script looks at, given the values of the properties that it reads. -/
def accesses (product : ProductItem) (value : Path → QualifiedId → Option Result) (path : Path)
    (name : QualifiedId) : PropertyScript → List Access
  | .done _ => []
  | .read read k =>
      .property read :: match value path read with
        | none => []
        | some r => accesses product value path name (k r)
  | .readOuter k =>
      .outer :: match path with
        | [] => accesses product value path name (k (.ok .invalid))
        | _ :: outer =>
            match value outer name with
            | none => []
            | some r => accesses product value path name (k r)
  | .readItem item k =>
      .item item :: accesses product value path name (k (product.itemProperty path item))

variable (product) in
/-- The source code of a property looks at something while it is evaluated. -/
def Reads (path : Path) (name : QualifiedId) (a : Access) : Prop :=
  ∃ n s, product.value path name = some (.source s) ∧
    a ∈ accesses product (eval product n) path name s

/-- A script returns the same in two instances if what it looks at is the same. -/
theorem evalScript_eq_of_accesses {value : Path → QualifiedId → Option Result} {path path' : Path}
    {name : QualifiedId} {s : PropertyScript}
    (hproperty : ∀ read, .property read ∈ accesses product value path name s →
      value path read = value path' read)
    (houter : .outer ∉ accesses product value path name s)
    (hitem : ∀ item, .item item ∈ accesses product value path name s →
      product.itemProperty path item = product.itemProperty path' item) :
    evalScript product value path name s = evalScript product value path' name s := by
  induction s with
  | done r => rfl
  | read read k ih =>
      simp only [accesses, List.mem_cons] at hproperty houter hitem
      simp only [evalScript]
      rw [← hproperty read (Or.inl rfl)]
      cases hv : value path read with
      | none => rfl
      | some v =>
          simp only [hv] at hproperty houter hitem
          simp only [Option.bind_some]
          apply ih
          · exact fun read' h => hproperty read' (Or.inr h)
          · exact fun h => houter (Or.inr h)
          · exact fun item h => hitem item (Or.inr h)
  | readOuter k ih =>
      apply absurd _ houter
      unfold accesses
      exact List.mem_cons_self
  | readItem item k ih =>
      simp only [accesses, List.mem_cons] at hproperty houter hitem
      simp only [evalScript]
      rw [← hitem item (Or.inl rfl)]
      apply ih
      · exact fun read h => hproperty read (Or.inr h)
      · exact fun h => houter (Or.inr h)
      · exact fun item' h => hitem item' (Or.inr h)

/-- The properties outside of a set have the same values in two instances if they are the same
there and what is read for them is the same. -/
theorem valueOf_eq_of_reads {path path' : Path} {names : List QualifiedId}
    (hvalue : ∀ name, name ∉ names → product.value path name = product.value path' name)
    (hproperty : ∀ name, name ∉ names → ∀ read, Reads product path name (.property read) →
      read ∉ names)
    (houter : ∀ name, name ∉ names → ¬Reads product path name .outer)
    (hitem : ∀ name, name ∉ names → ∀ item, Reads product path name (.item item) →
      product.itemProperty path item = product.itemProperty path' item)
    {name : QualifiedId} (hname : name ∉ names) :
    valueOf product path name = valueOf product path' name := by
  apply Fuel.limit_congr
  intro n
  induction n generalizing name with
  | zero => rfl
  | succ n ih =>
      simp only [eval, ← hvalue name hname]
      cases hv : product.value path name with
      | none => rfl
      | some value =>
          cases value with
          | variant v => rfl
          | source s =>
              apply evalScript_eq_of_accesses
              · intro read hread
                exact ih (hproperty name hname read ⟨n, s, hv, hread⟩)
              · exact fun h => houter name hname ⟨n, s, hv, h⟩
              · exact fun item h => hitem name hname item ⟨n, s, hv, h⟩

end ModuleProperties

end Qbs
