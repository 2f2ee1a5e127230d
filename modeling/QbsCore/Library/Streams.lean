import QbsCore.Library.Fallible
import Mathlib.Data.List.Forall2

/-!
# Writing and reading streams in lock step

A writer appends tokens to a stream, a reader takes them from its front.  Both carry a state
of their own.  A reader mirrors a writer if it takes exactly the tokens the writer has put,
whatever comes after them, and the states still belong together afterwards.  A reader whose
recursion is bounded only has to cope with fewer tokens than a given number.

Main results:

- Theorem {lit}`Streams.Mirrors.bind`: mirrored steps in sequence.
- Theorem {lit}`Streams.Mirrors.loop`: a loop over a list and a loop that is told how often
  to run.

Current gaps:

- None.
-/

namespace Streams

variable {τ σ ρ ε : Type}

/-- Computations that append tokens to a stream. -/
abbrev Writer (τ σ ε : Type) :=
  StateT (σ × List τ) (Except ε)

/-- Computations that take tokens from the front of a stream. -/
abbrev Reader (τ ρ ε : Type) :=
  StateT (ρ × List τ) (Except ε)

theorem bind_apply {σ α β : Type} (w : StateT (σ × List τ) (Except ε) α)
    (f : α → StateT (σ × List τ) (Except ε) β) (s : σ × List τ) :
    (w >>= f) s = (w s >>= fun p => f p.1 p.2) :=
  rfl

/-- A sequence succeeds exactly when both of its parts do. -/
theorem bind_eq_ok_iff {σ α β : Type} {w : StateT (σ × List τ) (Except ε) α}
    {f : α → StateT (σ × List τ) (Except ε) β} {s : σ × List τ} {r : β × σ × List τ} :
    (w >>= f) s = .ok r ↔ ∃ p, w s = .ok p ∧ f p.1 p.2 = .ok r := by
  rw [bind_apply]
  exact Fallible.bind_eq_ok_iff

/-- Append a token. -/
def put (t : τ) : Writer τ σ ε Unit :=
  fun s => .ok ((), (s.1, s.2 ++ [t]))

/-- Change the state of a writer or reader. -/
def update {σ : Type} (f : σ → σ) : StateT (σ × List τ) (Except ε) Unit :=
  fun s => .ok ((), (f s.1, s.2))

/-- The state of a writer or reader. -/
def current {σ : Type} : StateT (σ × List τ) (Except ε) σ :=
  fun s => .ok (s.1, s)

def fail {σ α : Type} (e : ε) : StateT (σ × List τ) (Except ε) α :=
  fun _ => .error e

/-- Take the next token; it is an error if there is none. -/
def next (e : ε) : Reader τ ρ ε τ :=
  fun s =>
    match s.2 with
    | [] => .error e
    | t :: rest => .ok (t, (s.1, rest))

/-- Write each item of a list. -/
def putAll {α : Type} (w : α → Writer τ σ ε Unit) : List α → Writer τ σ ε Unit
  | [] => pure ()
  | a :: as => w a >>= fun _ => putAll w as

/-- Read a number of items, and add each to what has been read. -/
def readInto {β γ : Type} (r : Reader τ ρ ε β) (add : γ → β → γ) : Nat → γ → Reader τ ρ ε γ
  | 0, acc => pure acc
  | n + 1, acc => r >>= fun b => readInto r add n (add acc b)

/-! ## Writers -/

/-- How the state of a writer may grow. -/
class Growth (σ : Type) where
  Grows : σ → σ → Prop
  refl : ∀ s, Grows s s
  trans : ∀ s s' s'', Grows s s' → Grows s' s'' → Grows s s''

open Growth (Grows)

section Writes

variable [Growth σ] {α : Type} {w w₁ w₂ : Writer τ σ ε Unit}

/-- From a state, a writer only appends tokens and lets the state grow. -/
def WritesAt (s : σ) (w : Writer τ σ ε Unit) : Prop :=
  ∀ out s' out', w (s, out) = .ok ((), (s', out')) → Grows s s' ∧ ∃ tokens, out' = out ++ tokens

/-- A writer only appends tokens and lets the state grow. -/
def Writes (w : Writer τ σ ε Unit) : Prop :=
  ∀ s, WritesAt s w

theorem WritesAt.fail (s : σ) (e : ε) : WritesAt s (fail e : Writer τ σ ε Unit) := by
  intro out s' out' hw
  cases hw

theorem WritesAt.update_bind {s : σ} {f : σ → σ} (hf : Grows s (f s)) (h : Writes w) :
    WritesAt s (update f >>= fun _ => w) := by
  intro out s' out' hw
  rcases bind_eq_ok_iff.mp hw with ⟨p, hp, hw⟩
  cases hp
  rcases h (f s) out s' out' hw with ⟨hgrows, htokens⟩
  exact ⟨Growth.trans s (f s) s' hf hgrows, htokens⟩

namespace Writes

theorem pure : Writes (pure () : Writer τ σ ε Unit) := by
  intro s out s' out' hw
  cases hw
  exact ⟨Growth.refl s, [], by simp⟩

theorem put (t : τ) : Writes (put t : Writer τ σ ε Unit) := by
  intro s out s' out' hw
  cases hw
  exact ⟨Growth.refl s, [t], rfl⟩

theorem bind (h₁ : Writes w₁) (h₂ : Writes w₂) : Writes (w₁ >>= fun _ => w₂) := by
  intro s out s' out' hw
  rcases bind_eq_ok_iff.mp hw with ⟨⟨u, s₁, out₁⟩, hw₁, hw₂⟩
  rcases h₁ s out s₁ out₁ hw₁ with ⟨hgrows₁, tokens₁, rfl⟩
  rcases h₂ s₁ (out ++ tokens₁) s' out' hw₂ with ⟨hgrows₂, tokens₂, rfl⟩
  exact ⟨Growth.trans s s₁ s' hgrows₁ hgrows₂, tokens₁ ++ tokens₂, by rw [List.append_assoc]⟩

theorem current {f : σ → Writer τ σ ε Unit} (h : ∀ s, WritesAt s (f s)) :
    Writes (Streams.current >>= f) := by
  intro s out s' out' hw
  rcases bind_eq_ok_iff.mp hw with ⟨p, hp, hw⟩
  cases hp
  exact h s out s' out' hw

theorem putAll {ws : α → Writer τ σ ε Unit} (h : ∀ a, Writes (ws a)) (l : List α) :
    Writes (putAll ws l) := by
  induction l with
  | nil => exact Writes.pure
  | cons a l ih => exact (h a).bind ih

end Writes

end Writes

/-! ## Readers that mirror writers -/

section Mirrors

variable {α β γ : Type} {bound : Nat} {Pre Mid Post : σ → ρ → Prop} {w w₁ w₂ : Writer τ σ ε Unit}
  {r : Reader τ ρ ε β} {P : σ → β → Prop}

/-- Whenever the writer puts fewer tokens than the bound, the reader takes them: from states
that belong together both come to states that belong together, and what is read fits what
was written. -/
def Mirrors (bound : Nat) (Pre Post : σ → ρ → Prop) (w : Writer τ σ ε Unit) (r : Reader τ ρ ε β)
    (P : σ → β → Prop) : Prop :=
  ∀ s out s' tokens, w (s, out) = .ok ((), (s', out ++ tokens)) → tokens.length < bound →
    ∀ l rest, Pre s l →
      ∃ b l', r (l, tokens ++ rest) = .ok (b, (l', rest)) ∧ Post s' l' ∧ P s' b

namespace Mirrors

theorem weaken {Pre' Post' : σ → ρ → Prop} {P' : σ → β → Prop} (h : Mirrors bound Pre Post w r P)
    (hpre : ∀ s l, Pre' s l → Pre s l) (hpost : ∀ s l, Post s l → Post' s l)
    (hP : ∀ s b, P s b → P' s b) : Mirrors bound Pre' Post' w r P' := by
  intro s out s' tokens hw hbound l rest hl
  rcases h s out s' tokens hw hbound l rest (hpre s l hl) with ⟨b, l', hr, hl', hb⟩
  exact ⟨b, l', hr, hpost s' l' hl', hP s' b hb⟩

/-- Only what is known of the value that was read is weakened. -/
theorem imp {P' : σ → β → Prop} (h : Mirrors bound Pre Post w r P) (hP : ∀ s b, P s b → P' s b) :
    Mirrors bound Pre Post w r P' :=
  h.weaken (fun _ _ hl => hl) (fun _ _ hl => hl) hP

/-- That the states belong together tells more of the value that was read. -/
theorem of_post {Q : σ → β → Prop} (h : Mirrors bound Pre Post w r P)
    (hQ : ∀ s l b, Post s l → P s b → Q s b) : Mirrors bound Pre Post w r Q := by
  intro s out s' tokens hw hbound l rest hl
  rcases h s out s' tokens hw hbound l rest hl with ⟨b, l', hr, hl', hb⟩
  exact ⟨b, l', hr, hl', hQ s' l' b hl' hb⟩

/-- What stays true when the state of the writer grows is kept. -/
theorem frame [Growth σ] {F : σ → Prop} (hw : Writes w) (hF : ∀ s s', Grows s s' → F s → F s')
    (h : Mirrors bound Pre Post w r P) :
    Mirrors bound (fun s l => F s ∧ Pre s l) (fun s l => F s ∧ Post s l) w r P := by
  intro s out s' tokens hrun hbound l rest hl
  rcases h s out s' tokens hrun hbound l rest hl.2 with ⟨b, l', hr, hl', hb⟩
  exact ⟨b, l', hr, ⟨hF s s' (hw s out s' _ hrun).1 hl.1, hl'⟩, hb⟩

/-- What is known before may be used. -/
theorem of_fact {Q : Prop} (hQ : ∀ s l, Pre s l → Q) (h : Q → Mirrors bound Pre Post w r P) :
    Mirrors bound Pre Post w r P :=
  fun s out s' tokens hw hbound l rest hl => h (hQ s l hl) s out s' tokens hw hbound l rest hl

/-- A smaller bound asks for less. -/
theorem mono {bound' : Nat} (h : Mirrors bound Pre Post w r P) (hle : bound' ≤ bound) :
    Mirrors bound' Pre Post w r P :=
  fun s out s' tokens hw hbound => h s out s' tokens hw (by omega)

/-- There are not fewer tokens than none. -/
theorem zero : Mirrors 0 Pre Post w r P := by
  intro s out s' tokens _ hbound
  omega

/-- Nothing is written and nothing is read. -/
theorem pure {b : β} (hP : ∀ s, P s b) :
    Mirrors bound Pre Pre (pure () : Writer τ σ ε Unit) (Pure.pure b : Reader τ ρ ε β) P := by
  intro s out s' tokens hw _ l rest hl
  have hsame : (s, out) = (s', out ++ tokens) := congrArg Prod.snd (Except.ok.inj hw)
  simp only [Prod.mk.injEq, List.self_eq_append_right] at hsame
  rcases hsame with ⟨rfl, rfl⟩
  exact ⟨b, l, rfl, hl, hP s⟩

/-- A step after another one; what the second one reads may depend on what was read first. -/
theorem bind [Growth σ] {r' : β → Reader τ ρ ε γ} {Q : β → σ → γ → Prop} (hw₁ : Writes w₁)
    (hw₂ : Writes w₂) (hmono : ∀ s s' b, Grows s s' → P s b → P s' b)
    (h₁ : Mirrors bound Pre Mid w₁ r P)
    (h₂ : ∀ b, (∃ s, P s b) → Mirrors bound Mid Post w₂ (r' b) (Q b)) :
    Mirrors bound Pre Post (w₁ >>= fun _ => w₂) (r >>= r') fun s c => ∃ b, P s b ∧ Q b s c := by
  intro s out s' tokens hw hbound l rest hl
  rcases bind_eq_ok_iff.mp hw with ⟨⟨u, s₁, out₁⟩, hrun₁, hrun₂⟩
  rcases hw₁ s out s₁ out₁ hrun₁ with ⟨-, tokens₁, rfl⟩
  rcases hw₂ s₁ _ s' _ hrun₂ with ⟨hgrows, tokens₂, htokens⟩
  have hsplit : tokens = tokens₁ ++ tokens₂ := by
    rw [List.append_assoc] at htokens
    exact List.append_cancel_left htokens
  subst hsplit
  rw [List.length_append] at hbound
  rcases h₁ s out s₁ tokens₁ hrun₁ (by omega) l (tokens₂ ++ rest) hl with ⟨b, l₁, hr₁, hl₁, hP⟩
  rw [← List.append_assoc] at hrun₂
  rcases h₂ b ⟨s₁, hP⟩ s₁ (out ++ tokens₁) s' tokens₂ hrun₂ (by omega) l₁ rest hl₁ with
    ⟨c, l', hr₂, hl', hQ⟩
  refine ⟨c, l', ?_, hl', b, hmono s₁ s' b hgrows hP, hQ⟩
  rw [List.append_assoc]
  exact bind_eq_ok_iff.mpr ⟨(b, (l₁, tokens₂ ++ rest)), hr₁, hr₂⟩

/-- A token, and what the reader does with it; one token fewer is left for the rest. -/
theorem put_bind [Growth σ] (t : τ) (e : ε) {r' : τ → Reader τ ρ ε β} (hw : Writes w)
    (h : Mirrors (bound - 1) Pre Post w (r' t) P) :
    Mirrors bound Pre Post (put t >>= fun _ => w) (next e >>= r') P := by
  intro s out s' tokens hrun hbound l rest hl
  rcases bind_eq_ok_iff.mp hrun with ⟨p, hput, hrun⟩
  cases hput
  rcases hw s (out ++ [t]) s' _ hrun with ⟨-, tail, htail⟩
  have hsplit : tokens = t :: tail := by
    rw [List.append_assoc] at htail
    exact List.append_cancel_left htail
  subst hsplit
  have hrun : w (s, out ++ [t]) = .ok ((), (s', (out ++ [t]) ++ tail)) := by
    simpa using hrun
  rw [List.length_cons] at hbound
  rcases h s (out ++ [t]) s' tail hrun (by omega) l rest hl with ⟨b, l', hr, hl', hP⟩
  exact ⟨b, l', bind_eq_ok_iff.mpr ⟨(t, (l, tail ++ rest)), rfl, hr⟩, hl', hP⟩

/-- A token at the end of what is written. -/
theorem put [Growth σ] (t : τ) (e : ε) {r' : τ → Reader τ ρ ε β}
    (h : Mirrors (bound - 1) Pre Post (Pure.pure () : Writer τ σ ε Unit) (r' t) P) :
    Mirrors bound Pre Post (Streams.put t) (next e >>= r') P :=
  put_bind t e Writes.pure h

/-- The result of the reader is processed further. -/
theorem map (f : β → γ) {Q : σ → γ → Prop} (h : Mirrors bound Pre Post w r P)
    (hPQ : ∀ s b, P s b → Q s (f b)) :
    Mirrors bound Pre Post w (r >>= fun b => Pure.pure (f b)) Q := by
  intro s out s' tokens hw hbound l rest hl
  rcases h s out s' tokens hw hbound l rest hl with ⟨b, l', hr, hl', hP⟩
  exact ⟨f b, l', bind_eq_ok_iff.mpr ⟨(b, (l', rest)), hr, rfl⟩, hl', hPQ s' b hP⟩

/-- The writer looks at its state. -/
theorem current_writer {f : σ → Writer τ σ ε Unit}
    (h : ∀ s₀, Mirrors bound (fun s l => s = s₀ ∧ Pre s l) Post (f s₀) r P) :
    Mirrors bound Pre Post (Streams.current >>= f) r P := by
  intro s out s' tokens hrun hbound l rest hl
  rcases bind_eq_ok_iff.mp hrun with ⟨p, hp, hrun⟩
  cases hp
  exact h s s out s' tokens hrun hbound l rest ⟨rfl, hl⟩

/-- The reader looks at its state. -/
theorem current_reader {f : ρ → Reader τ ρ ε β}
    (h : ∀ l₀, Mirrors bound (fun s l => l = l₀ ∧ Pre s l) Post w (f l₀) P) :
    Mirrors bound Pre Post w (Streams.current >>= f) P := by
  intro s out s' tokens hrun hbound l rest hl
  rcases h l s out s' tokens hrun hbound l rest ⟨rfl, hl⟩ with ⟨b, l', hr, hl', hP⟩
  exact ⟨b, l', bind_eq_ok_iff.mpr ⟨(l, (l, tokens ++ rest)), rfl, hr⟩, hl', hP⟩

/-- The writer changes its state. -/
theorem update_writer {M : σ → ρ → Prop} {f : σ → σ}
    (h : Mirrors bound M Post w r P)
    (hpre : ∀ s l, Pre s l → M (f s) l) :
    Mirrors bound Pre Post (update f >>= fun _ => w) r P := by
  intro s out s' tokens hrun hbound l rest hl
  rcases bind_eq_ok_iff.mp hrun with ⟨p, hp, hrun⟩
  cases hp
  exact h (f s) out s' tokens hrun hbound l rest (hpre s l hl)

/-- The reader changes its state. -/
theorem update_reader {M : σ → ρ → Prop} {f : ρ → ρ}
    (h : Mirrors bound M Post w r P)
    (hpre : ∀ s l, Pre s l → M s (f l)) :
    Mirrors bound Pre Post w (update f >>= fun _ => r) P := by
  intro s out s' tokens hrun hbound l rest hl
  rcases h s out s' tokens hrun hbound (f l) rest (hpre s l hl) with ⟨b, l', hr, hl', hP⟩
  exact ⟨b, l', bind_eq_ok_iff.mpr ⟨((), (f l, tokens ++ rest)), rfl, hr⟩, hl', hP⟩

/-- The reader changes its state at the end, where it knows what it has read. -/
theorem then_update {f : β → ρ → ρ} {g : β → γ} {Q : σ → γ → Prop}
    (h : Mirrors bound Pre Mid w r P)
    (hpost : ∀ s l b, Mid s l → P s b → Post s (f b l) ∧ Q s (g b)) :
    Mirrors bound Pre Post w (r >>= fun b => update (f b) >>= fun _ => Pure.pure (g b)) Q := by
  intro s out s' tokens hrun hbound l rest hl
  rcases h s out s' tokens hrun hbound l rest hl with ⟨b, l', hr, hl', hP⟩
  rcases hpost s' l' b hl' hP with ⟨hl'', hQ⟩
  exact ⟨g b, f b l', bind_eq_ok_iff.mpr ⟨(b, (l', rest)), hr, rfl⟩, hl'', hQ⟩

/-- A loop over a list, and a loop that runs as often as the list is long. -/
theorem loop [Growth σ] {Sync : σ → ρ → Prop} {ws : α → Writer τ σ ε Unit} {R : α → σ → β → Prop}
    {g : γ → β → γ} (hw : ∀ a, Writes (ws a))
    (hmono : ∀ a s s' b, Grows s s' → R a s b → R a s' b)
    (xs : List α) (h : ∀ x, x ∈ xs → Mirrors bound Sync Sync (ws x) r (R x)) (acc : γ) :
    Mirrors bound Sync Sync (putAll ws xs) (readInto r g xs.length acc)
      fun s c => ∃ ys, List.Forall₂ (fun x y => R x s y) xs ys ∧ c = ys.foldl g acc := by
  induction xs generalizing acc with
  | nil => exact Mirrors.pure fun s => ⟨[], .nil, rfl⟩
  | cons x xs ih =>
      have hrest := ih fun y hy => h y (List.mem_cons_of_mem x hy)
      have hseq := Mirrors.bind (hw x) (Writes.putAll hw xs) (hmono x) (h x List.mem_cons_self)
        fun b _ => hrest (g acc b)
      refine hseq.imp fun s c hc => ?_
      rcases hc with ⟨b, hb, ys, hys, rfl⟩
      exact ⟨b :: ys, .cons hb hys, rfl⟩

end Mirrors

end Mirrors

/-! ## Writers that succeed -/

section Total

variable [Growth σ] {α : Type} {Pre : σ → Prop} {w w₁ w₂ : Writer τ σ ε Unit}

/-- From every state of a kind the writer succeeds. -/
def Total (Pre : σ → Prop) (w : Writer τ σ ε Unit) : Prop :=
  ∀ s out, Pre s → ∃ s' out', w (s, out) = .ok ((), (s', out')) ∧ Grows s s'

namespace Total

theorem pure : Total Pre (pure () : Writer τ σ ε Unit) :=
  fun s out _ => ⟨s, out, rfl, Growth.refl s⟩

theorem put (t : τ) : Total Pre (put t : Writer τ σ ε Unit) :=
  fun s out _ => ⟨s, out ++ [t], rfl, Growth.refl s⟩

theorem bind (hmono : ∀ s s', Grows s s' → Pre s → Pre s') (h₁ : Total Pre w₁)
    (h₂ : Total Pre w₂) : Total Pre (w₁ >>= fun _ => w₂) := by
  intro s out hs
  rcases h₁ s out hs with ⟨s₁, out₁, hw₁, hgrows₁⟩
  rcases h₂ s₁ out₁ (hmono s s₁ hgrows₁ hs) with ⟨s₂, out₂, hw₂, hgrows₂⟩
  exact ⟨s₂, out₂, bind_eq_ok_iff.mpr ⟨((), (s₁, out₁)), hw₁, hw₂⟩,
    Growth.trans s s₁ s₂ hgrows₁ hgrows₂⟩

theorem current {f : σ → Writer τ σ ε Unit} (h : ∀ s₀, Total (fun s => s = s₀ ∧ Pre s) (f s₀)) :
    Total Pre (Streams.current >>= f) :=
  fun s out hs => h s s out ⟨rfl, hs⟩

theorem update_bind {Mid : σ → Prop} {f : σ → σ} (h : Total Mid w)
    (hpre : ∀ s, Pre s → Grows s (f s) ∧ Mid (f s)) : Total Pre (update f >>= fun _ => w) := by
  intro s out hs
  rcases hpre s hs with ⟨hgrows, hmid⟩
  rcases h (f s) out hmid with ⟨s', out', hw, hgrows'⟩
  exact ⟨s', out', bind_eq_ok_iff.mpr ⟨((), (f s, out)), rfl, hw⟩,
    Growth.trans s (f s) s' hgrows hgrows'⟩

theorem putAll {ws : α → Writer τ σ ε Unit} (hmono : ∀ s s', Grows s s' → Pre s → Pre s')
    (xs : List α) (h : ∀ x, x ∈ xs → Total Pre (ws x)) : Total Pre (putAll ws xs) := by
  induction xs with
  | nil => exact Total.pure
  | cons x xs ih =>
      exact Total.bind hmono (h x List.mem_cons_self) (ih fun y hy => h y (List.mem_cons_of_mem x hy))

end Total

end Total

end Streams
