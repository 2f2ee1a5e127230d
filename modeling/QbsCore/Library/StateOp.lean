import Mathlib.Logic.Basic

/-!
# Operations on a state that may throw

An operation on a state may be left by an exception, and an exception does not take back
what the operation has changed before.  Triples say what holds after an operation that
returns and after one that throws.

Main results:

- Theorems {lit}`StateOp.outcome_bind` and {lit}`StateOp.outcome_bind_eq_ok`: the outcome of two
  operations in a row.
- Theorems {lit}`StateOp.Triple.bind`, {lit}`StateOp.Triple.attempt` and
  {lit}`StateOp.Triple.weaken`: the rules for sequences, handlers and consequences.
- Theorem {lit}`StateOp.Within.bind`: the rule for sequences of operations that stay within
  a relation.

Current gaps:

- None.
-/

/-- An operation on a state that returns a value or throws. -/
abbrev StateOp (σ ε α : Type) :=
  ExceptT ε (StateM σ) α

namespace StateOp

variable {σ ε α β : Type} {s : σ}

/-- The result of an operation and the state it leaves. -/
def outcome (op : StateOp σ ε α) (s : σ) : Except ε α × σ :=
  StateT.run (ExceptT.run op) s

/-- Compute from the current state. -/
def query (f : σ → Except ε α) : StateOp σ ε α :=
  ExceptT.mk fun s => (f s, s)

/-- Change the state. -/
def update (f : σ → σ) : StateOp σ ε Unit :=
  ExceptT.mk fun s => (.ok (), f s)

/-- Compute a value and a new state. -/
def transform (f : σ → Except ε α × σ) : StateOp σ ε α :=
  ExceptT.mk f

/-- Throw. -/
def fail (e : ε) : StateOp σ ε α :=
  ExceptT.mk fun s => (.error e, s)

/-- Perform an operation and handle its exception. -/
def attempt (op : StateOp σ ε α) (handler : ε → StateOp σ ε α) : StateOp σ ε α :=
  ExceptT.mk fun s =>
    match op.outcome s with
    | (.ok a, t) => (.ok a, t)
    | (.error e, t) => (handler e).outcome t

theorem outcome_bind (op : StateOp σ ε α) (next : α → StateOp σ ε β) :
    outcome (op >>= next) s =
      match outcome op s with
      | (.ok a, t) => outcome (next a) t
      | (.error e, t) => (.error e, t) := by
  change (StateT.run (ExceptT.run op) s >>= fun x => StateT.run (ExceptT.bindCont next x.1) x.2) = _
  rcases h : StateT.run (ExceptT.run op) s with ⟨_ | a, t⟩
  · simp only [outcome, h]
    rfl
  · simp only [outcome, h]
    rfl

@[simp]
theorem outcome_pure (a : α) : outcome (pure a : StateOp σ ε α) s = (.ok a, s) :=
  rfl

@[simp]
theorem outcome_query (f : σ → Except ε α) : outcome (query f) s = (f s, s) :=
  rfl

@[simp]
theorem outcome_update (f : σ → σ) : outcome (update f : StateOp σ ε Unit) s = (.ok (), f s) :=
  rfl

@[simp]
theorem outcome_transform (f : σ → Except ε α × σ) : outcome (transform f) s = f s :=
  rfl

@[simp]
theorem outcome_fail (e : ε) : outcome (fail e : StateOp σ ε α) s = (.error e, s) :=
  rfl

/-- Two operations in a row return if both return. -/
theorem outcome_bind_eq_ok {op : StateOp σ ε α} {next : α → StateOp σ ε β} {b : β} {s' : σ} :
    outcome (op >>= next) s = (.ok b, s') ↔
      ∃ a t, outcome op s = (.ok a, t) ∧ outcome (next a) t = (.ok b, s') := by
  rw [outcome_bind]
  rcases outcome op s with ⟨_ | a, t⟩
  · simp
  · simp only [Prod.mk.injEq, Except.ok.injEq]
    constructor
    · exact fun h => ⟨a, t, ⟨rfl, rfl⟩, h⟩
    · intro h
      rcases h with ⟨_, _, ⟨rfl, rfl⟩, h⟩
      exact h

theorem outcome_query_bind (f : σ → α) (next : α → StateOp σ ε β) :
    outcome (query (fun s => .ok (f s)) >>= next) s = outcome (next (f s)) s := by
  rw [outcome_bind, outcome_query]

theorem outcome_update_bind (f : σ → σ) (next : Unit → StateOp σ ε β) :
    outcome (update f >>= next) s = outcome (next ()) (f s) := by
  rw [outcome_bind, outcome_update]

/-- A loop that returns is a sequence of operations that return. -/
theorem forM_eq_ok {ι : Type} {op : ι → StateOp σ ε Unit} {R : List ι → σ → σ → Prop}
    (hnil : ∀ s, R [] s s)
    (hcons : ∀ i l s t u, outcome (op i) s = (.ok (), t) → R l t u → R (i :: l) s u)
    {l : List ι} {s s' : σ} (h : outcome (l.forM op) s = (.ok (), s')) : R l s s' := by
  induction l generalizing s with
  | nil =>
      have heq : s = s' := (Prod.mk.inj h).2
      rw [← heq]
      exact hnil s
  | cons i l ih =>
      rcases outcome_bind_eq_ok.mp h with ⟨_, t, hi, hl⟩
      exact hcons i l s t s' hi (ih hl)

theorem outcome_attempt (op : StateOp σ ε α) (handler : ε → StateOp σ ε α) :
    outcome (attempt op handler) s =
      match outcome op s with
      | (.ok a, t) => (.ok a, t)
      | (.error e, t) => outcome (handler e) t :=
  rfl

/-! ## Triples -/

/-- From each state of a kind an operation returns into the states of one kind or throws
into those of another. -/
def Triple (P : σ → Prop) (op : StateOp σ ε α) (Q : α → σ → Prop) (E : ε → σ → Prop) : Prop :=
  ∀ s, P s →
    match outcome op s with
    | (.ok a, t) => Q a t
    | (.error e, t) => E e t

/-- What an operation keeps whether it returns or throws. -/
abbrev Keeps (P : σ → Prop) (op : StateOp σ ε α) : Prop :=
  Triple P op (fun _ => P) (fun _ => P)

namespace Triple

variable {P P' : σ → Prop} {op : StateOp σ ε α} {Q Q' : α → σ → Prop} {E E' : ε → σ → Prop}

theorem weaken (h : Triple P' op Q' E') (hP : ∀ s, P s → P' s) (hQ : ∀ a s, Q' a s → Q a s)
    (hE : ∀ e s, E' e s → E e s) : Triple P op Q E := by
  intro s hs
  have h' := h s (hP s hs)
  rcases hout : outcome op s with ⟨_ | a, t⟩
  · rw [hout] at h'
    exact hE _ t h'
  · rw [hout] at h'
    exact hQ a t h'

theorem query (f : σ → Except ε α) :
    Triple P (StateOp.query f) (fun a s => P s ∧ f s = .ok a) (fun e s => P s ∧ f s = .error e) := by
  intro s hs
  rw [outcome_query]
  rcases hf : f s with e | a
  · exact ⟨hs, hf⟩
  · exact ⟨hs, hf⟩

/-- Two operations in a row. -/
theorem bind {next : α → StateOp σ ε β} {R : β → σ → Prop} (h : Triple P op Q E)
    (hnext : ∀ a, Triple (Q a) (next a) R E) : Triple P (op >>= next) R E := by
  intro s hs
  rw [outcome_bind]
  have h' := h s hs
  rcases hout : outcome op s with ⟨_ | a, t⟩
  · rw [hout] at h'
    exact h'
  · rw [hout] at h'
    exact hnext a t h'

/-- An operation with a handler for its exceptions. -/
theorem attempt {handler : ε → StateOp σ ε α} (h : Triple P op Q E')
    (hhandler : ∀ e, Triple (E' e) (handler e) Q E) :
    Triple P (StateOp.attempt op handler) Q E := by
  intro s hs
  rw [outcome_attempt]
  have h' := h s hs
  rcases hout : outcome op s with ⟨_ | a, t⟩
  · rw [hout] at h'
    exact hhandler _ t h'
  · rw [hout] at h'
    exact h'

end Triple

namespace Keeps

variable {P : σ → Prop} {op : StateOp σ ε α}

theorem pure (a : α) : Keeps P (Pure.pure a : StateOp σ ε α) :=
  fun _ hs => hs

theorem fail (e : ε) : Keeps P (StateOp.fail e : StateOp σ ε α) :=
  fun _ hs => hs

theorem query (f : σ → Except ε α) : Keeps P (StateOp.query f) :=
  (Triple.query f).weaken (fun _ hs => hs) (fun _ _ h => h.1) fun _ _ h => h.1

theorem update {f : σ → σ} (hf : ∀ s, P s → P (f s)) :
    Keeps P (StateOp.update f : StateOp σ ε Unit) :=
  fun s hs => hf s hs

theorem transform {f : σ → Except ε α × σ} (hf : ∀ s, P s → P (f s).2) :
    Keeps P (StateOp.transform f) := by
  intro s hs
  have h' := hf s hs
  rw [outcome_transform]
  rcases hout : f s with ⟨_ | a, t⟩
  · rwa [hout] at h'
  · rwa [hout] at h'

theorem bind {next : α → StateOp σ ε β} (h : Keeps P op) (hnext : ∀ a, Keeps P (next a)) :
    Keeps P (op >>= next) :=
  Triple.bind h hnext

theorem forM {ι : Type} {op : ι → StateOp σ ε Unit} {l : List ι}
    (h : ∀ i, i ∈ l → Keeps P (op i)) : Keeps P (l.forM op) := by
  induction l with
  | nil => exact pure ()
  | cons i l ih =>
      exact bind (h i List.mem_cons_self) fun _ => ih fun j hj => h j (List.mem_cons_of_mem i hj)

theorem attempt {handler : ε → StateOp σ ε α} (h : Keeps P op)
    (hhandler : ∀ e, Keeps P (handler e)) : Keeps P (StateOp.attempt op handler) :=
  Triple.attempt h hhandler

/-- What an operation keeps holds of the state it leaves. -/
theorem outcome (h : Keeps P op) (hs : P s) : P (op.outcome s).2 := by
  have h' := h s hs
  rcases hout : op.outcome s with ⟨_ | a, t⟩
  · rw [hout] at h'
    exact h'
  · rw [hout] at h'
    exact h'

end Keeps

/-! ## Operations that stay within a relation -/

/-- The state that an operation leaves is related to the state before, whether the operation returns
or throws. -/
def Within (R : σ → σ → Prop) (op : StateOp σ ε α) : Prop :=
  ∀ s, R s (op.outcome s).2

namespace Within

variable {R : σ → σ → Prop} {op : StateOp σ ε α}

theorem pure (hrefl : ∀ s, R s s) (a : α) : Within R (Pure.pure a : StateOp σ ε α) :=
  fun s => hrefl s

theorem fail (hrefl : ∀ s, R s s) (e : ε) : Within R (StateOp.fail e : StateOp σ ε α) :=
  fun s => hrefl s

theorem query (hrefl : ∀ s, R s s) (f : σ → Except ε α) : Within R (StateOp.query f) :=
  fun s => hrefl s

theorem update {f : σ → σ} (hf : ∀ s, R s (f s)) :
    Within R (StateOp.update f : StateOp σ ε Unit) :=
  fun s => hf s

theorem transform {f : σ → Except ε α × σ} (hf : ∀ s, R s (f s).2) :
    Within R (StateOp.transform f) :=
  fun s => hf s

/-- Two operations in a row. -/
theorem bind {next : α → StateOp σ ε β} (htrans : ∀ s t u, R s t → R t u → R s u)
    (h : Within R op) (hnext : ∀ a, Within R (next a)) : Within R (op >>= next) := by
  intro s
  have hs := h s
  rw [outcome_bind]
  rcases hout : outcome op s with ⟨_ | a, t⟩
  · rw [hout] at hs
    exact hs
  · rw [hout] at hs
    exact htrans s t _ hs (hnext a t)

theorem mono {R' : σ → σ → Prop} (h : Within R op) (hR : ∀ s t, R s t → R' s t) : Within R' op :=
  fun s => hR s _ (h s)

/-- What holds of all states within the relation is kept. -/
theorem keeps {P : σ → Prop} (h : Within R op) (hP : ∀ s t, P s → R s t → P t) : Keeps P op := by
  intro s hs
  have ht := hP s _ hs (h s)
  rcases hout : outcome op s with ⟨_ | a, t⟩
  · rwa [hout] at ht
  · rwa [hout] at ht

end Within

end StateOp
