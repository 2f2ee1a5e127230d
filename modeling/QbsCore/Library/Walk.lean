import QbsCore.Library.GraphSearch

/-!
# Depth-first walks with a step at each arrival

A recursive walk does a step each time it arrives at a node, also when it has seen
the node before, but goes on to the successors of a node only once.  The nodes that
the walk arrives at do not depend on what the steps do.

Main results:

- Theorem {lit}`Walk.walkAll_eq_foldl`: a walk does its steps along the list of its
  arrivals.
- Theorem {lit}`Walk.arrivals_spec`: with enough fuel the walk ends, and it arrives at
  the nodes that can be reached.

Current gaps:

- None.
-/

namespace Walk

variable {α σ : Type*} [LinearOrder α] (next : α → List α) (step : α → σ → σ)

/-- Walk from a node: do the step, and go on to the successors unless the node was seen before.
There is no result if the fuel does not suffice. -/
def walk : Nat → α → SortedSet α × σ → Option (SortedSet α × σ)
  | 0, _, _ => none
  | fuel + 1, u, s =>
      if u ∈ s.1 then some (s.1, step u s.2)
      else (next u).foldlM (fun t w => walk fuel w t) (insert u s.1, step u s.2)

/-- Walk from some nodes one after the other. -/
def walkAll (fuel : Nat) (us : List α) (s : SortedSet α × σ) : Option (SortedSet α × σ) :=
  us.foldlM (fun t u => walk next step fuel u t) s

/-- Note an arrival. -/
def record (u : α) (visits : List α) : List α :=
  visits ++ [u]

/-- The list of the arrivals of a walk. -/
def arrivals (fuel : Nat) (us : List α) (seen : SortedSet α) : Option (List α) :=
  (walkAll next record fuel us (seen, [])).map Prod.snd

/-- What can be reached from some nodes without going on from nodes that were seen at first. -/
inductive Reaches (seen : SortedSet α) (us : List α) : α → Prop where
  | root {u : α} (hu : u ∈ us) : Reaches seen us u
  | next {a b : α} (ha : Reaches seen us a) (hnew : a ∉ seen) (hb : b ∈ next a) : Reaches seen us b

variable {next step}

/-! ## Steps along the arrivals -/

/-- The states of two walks correspond: the second one has recorded its arrivals. -/
def Follows (step : α → σ → σ) (x : σ) (s : SortedSet α × σ) (t : SortedSet α × List α) : Prop :=
  s.1 = t.1 ∧ s.2 = t.2.foldl (fun y u => step u y) x

/-- Two results correspond, or there is none of either. -/
def OptionFollows (step : α → σ → σ) (x : σ) :
    Option (SortedSet α × σ) → Option (SortedSet α × List α) → Prop
  | some s, some t => Follows step x s t
  | none, none => True
  | _, _ => False

variable {us : List α} {s : SortedSet α × List α}

theorem foldlM_follows {x : σ} {f : SortedSet α × σ → α → Option (SortedSet α × σ)}
    {g : SortedSet α × List α → α → Option (SortedSet α × List α)}
    (h : ∀ u s t, Follows step x s t → OptionFollows step x (f s u) (g t u)) {s : SortedSet α × σ}
    {t : SortedSet α × List α} (hst : Follows step x s t) :
    OptionFollows step x (us.foldlM f s) (us.foldlM g t) := by
  induction us generalizing s t with
  | nil => exact hst
  | cons u us ih =>
      rw [List.foldlM_cons, List.foldlM_cons]
      have hu := h u s t hst
      cases hf : f s u with
      | none =>
          cases hg : g t u with
          | none => exact trivial
          | some t' => rw [hf, hg] at hu; exact hu.elim
      | some s' =>
          cases hg : g t u with
          | none => rw [hf, hg] at hu; exact hu.elim
          | some t' =>
              rw [hf, hg] at hu
              exact ih hu

theorem walk_follows (fuel : Nat) {x : σ} (u : α) (s : SortedSet α × σ)
    (t : SortedSet α × List α) (hst : Follows step x s t) :
    OptionFollows step x (walk next step fuel u s) (walk next record fuel u t) := by
  induction fuel generalizing u s t with
  | zero => exact trivial
  | succ fuel ih =>
      have hstep : ∀ seen : SortedSet α, Follows step x (seen, step u s.2) (seen, record u t.2) := by
        intro seen
        refine ⟨rfl, ?_⟩
        show step u s.2 = (t.2 ++ [u]).foldl _ x
        rw [List.foldl_append, ← hst.2]
        rfl
      simp only [walk, hst.1]
      split_ifs
      · exact hstep t.1
      · exact foldlM_follows ih (hstep _)

variable (step) in
/-- A walk does its steps along the list of its arrivals. -/
theorem walkAll_eq_foldl {fuel : Nat} {seen : SortedSet α} {visits : List α}
    (h : arrivals next fuel us seen = some visits) (x : σ) :
    ∃ seen', walkAll next step fuel us (seen, x) =
      some (seen', visits.foldl (fun y u => step u y) x) := by
  rcases Option.map_eq_some_iff.mp h with ⟨t, ht, rfl⟩
  have hstart : Follows step x (seen, x) (seen, []) := ⟨rfl, rfl⟩
  have hfollows : OptionFollows step x (us.foldlM (fun t u => walk next step fuel u t) (seen, x))
      (us.foldlM (fun t u => walk next record fuel u t) (seen, [])) :=
    foldlM_follows (walk_follows fuel) hstart
  unfold walkAll at ht ⊢
  rw [ht] at hfollows
  cases hwalk : us.foldlM (fun t u => walk next step fuel u t) (seen, x) with
  | none => rw [hwalk] at hfollows; exact hfollows.elim
  | some s =>
      rw [hwalk] at hfollows
      exact ⟨s.1, by rw [← hfollows.2]⟩

/-! ## Where the walk arrives -/

/-- What a walk from some nodes has achieved: it has arrived at new nodes, among them the starts,
and at the successors of each node that it has seen for the first time. -/
structure Arrives (next : α → List α) (us : List α) (s s' : SortedSet α × List α)
    (new : List α) : Prop where
  visits : s'.2 = s.2 ++ new
  starts : ∀ u, u ∈ us → u ∈ new
  seen : ∀ a, a ∈ s'.1 ↔ a ∈ s.1 ∨ a ∈ new
  closed : ∀ a, a ∈ new → a ∉ s.1 → ∀ b, b ∈ next a → b ∈ new
  reached : ∀ seen, (∀ a, a ∈ seen → a ∈ s.1) → ∀ a, a ∈ new → Reaches next seen us a

theorem Arrives.nil (s : SortedSet α × List α) : Arrives next [] s s [] :=
  ⟨by simp, by simp, by simp, by simp, by simp⟩

theorem Reaches.mono {seen : SortedSet α} {vs : List α} {a : α} (h : Reaches next seen us a)
    (hsub : ∀ u, u ∈ us → Reaches next seen vs u) : Reaches next seen vs a := by
  induction h with
  | root hu => exact hsub _ hu
  | next _ hnew hb ih => exact Reaches.next ih hnew hb

theorem Arrives.cons {u : α} {s' s'' : SortedSet α × List α} {new new' : List α}
    (h : Arrives next [u] s s' new) (h' : Arrives next us s' s'' new') :
    Arrives next (u :: us) s s'' (new ++ new') := by
  constructor
  · rw [h'.visits, h.visits, List.append_assoc]
  · intro w hw
    rcases List.mem_cons.mp hw with rfl | hw
    · exact List.mem_append_left _ (h.starts w (by simp))
    · exact List.mem_append_right _ (h'.starts w hw)
  · intro a
    rw [h'.seen, h.seen, List.mem_append, or_assoc]
  · intro a ha hnew b hb
    by_cases hfirst : a ∈ new
    · exact List.mem_append_left _ (h.closed a hfirst hnew b hb)
    · rcases List.mem_append.mp ha with hmem | hmem
      · exact absurd hmem hfirst
      · have hnew' : a ∉ s'.1 := by
          rw [h.seen]
          exact not_or.mpr ⟨hnew, hfirst⟩
        exact List.mem_append_right _ (h'.closed a hmem hnew' b hb)
  · intro seen hseen a ha
    rcases List.mem_append.mp ha with ha | ha
    · refine (h.reached seen hseen a ha).mono ?_
      exact fun w hw => Reaches.root (by simpa using Or.inl (List.mem_singleton.mp hw))
    · have hseen' : ∀ b, b ∈ seen → b ∈ s'.1 := fun b hb => (h.seen b).mpr (Or.inl (hseen b hb))
      refine (h'.reached seen hseen' a ha).mono ?_
      exact fun w hw => Reaches.root (List.mem_cons_of_mem u hw)

/-- An arrival at a node that was seen before. -/
theorem Arrives.known {u : α} (hu : u ∈ s.1) :
    Arrives next [u] s (s.1, record u s.2) [u] := by
  constructor
  · rfl
  · simp
  · intro a
    constructor
    · exact Or.inl
    · rintro (ha | ha)
      · exact ha
      · rwa [List.mem_singleton.mp ha]
  · intro a ha hnew
    rw [List.mem_singleton.mp ha] at hnew
    exact absurd hu hnew
  · intro seen _ a ha
    exact Reaches.root ha

/-- An arrival at a new node, followed by the walk from its successors. -/
theorem Arrives.enter {u : α} {s' : SortedSet α × List α} {new : List α} (hu : u ∉ s.1)
    (h : Arrives next (next u) (insert u s.1, record u s.2) s' new) :
    Arrives next [u] s s' (u :: new) := by
  constructor
  · rw [h.visits]
    simp [record]
  · simp
  · intro a
    rw [h.seen, SortedSet.mem_insert, List.mem_cons]
    tauto
  · intro a ha hnew b hb
    by_cases hau : a = u
    · rw [hau] at hb
      exact List.mem_cons_of_mem u (h.starts b hb)
    · rcases List.mem_cons.mp ha with rfl | ha
      · exact absurd rfl hau
      · have hnew' : a ∉ insert u s.1 := by
          rw [SortedSet.mem_insert]
          exact not_or.mpr ⟨hau, hnew⟩
        exact List.mem_cons_of_mem u (h.closed a ha hnew' b hb)
  · intro seen hseen a ha
    have hroot : Reaches next seen [u] u := Reaches.root (by simp)
    have hunew : u ∉ seen := fun h => hu (hseen u h)
    rcases List.mem_cons.mp ha with rfl | ha
    · exact hroot
    · have hseen' : ∀ b, b ∈ seen → b ∈ insert u s.1 :=
        fun b hb => SortedSet.mem_insert.mpr (Or.inr (hseen b hb))
      refine (h.reached seen hseen' a ha).mono ?_
      exact fun w hw => Reaches.next hroot hunew hw

section Ends

variable {nodes : SortedSet α} (hnodes : ∀ a, a ∈ nodes → ∀ b, b ∈ next a → b ∈ nodes)

theorem foldlM_arrives {fuel : Nat} {us : List α} {s : SortedSet α × List α}
    (hwalk : ∀ u, u ∈ us → ∀ t : SortedSet α × List α, (∀ a, a ∈ s.1 → a ∈ t.1) →
      ∃ t' new, walk next record fuel u t = some t' ∧ Arrives next [u] t t' new) :
    ∃ s' new, us.foldlM (fun t w => walk next record fuel w t) s = some s' ∧
      Arrives next us s s' new := by
  induction us generalizing s with
  | nil => exact ⟨s, [], rfl, Arrives.nil s⟩
  | cons u us ih =>
      rcases hwalk u (by simp) s (fun _ ha => ha) with ⟨s', new, heq, harrives⟩
      have hrest : ∀ w, w ∈ us → ∀ t : SortedSet α × List α, (∀ a, a ∈ s'.1 → a ∈ t.1) →
          ∃ t' new, walk next record fuel w t = some t' ∧ Arrives next [w] t t' new := by
        intro w hw t ht
        refine hwalk w (List.mem_cons_of_mem u hw) t ?_
        exact fun a ha => ht a ((harrives.seen a).mpr (Or.inl ha))
      rcases ih hrest with ⟨s'', new', heq', harrives'⟩
      refine ⟨s'', new ++ new', ?_, harrives.cons harrives'⟩
      rw [List.foldlM_cons, heq]
      exact heq'

include hnodes

theorem walk_arrives {fuel : Nat} {u : α} {s : SortedSet α × List α} (hu : u ∈ nodes)
    (hfuel : GraphSearch.unseen nodes s.1 < fuel) :
    ∃ s' new, walk next record fuel u s = some s' ∧ Arrives next [u] s s' new := by
  induction fuel generalizing u s with
  | zero => omega
  | succ fuel ih =>
      simp only [walk]
      split_ifs with hseen
      · exact ⟨_, _, rfl, Arrives.known hseen⟩
      · have hlt := GraphSearch.unseen_insert_lt hu hseen
        have hwalk : ∀ w, w ∈ next u → ∀ t : SortedSet α × List α,
            (∀ a, a ∈ insert u s.1 → a ∈ t.1) →
            ∃ t' new, walk next record fuel w t = some t' ∧ Arrives next [w] t t' new := by
          intro w hw t ht
          have hle := GraphSearch.unseen_le nodes ht
          exact ih (hnodes u hu w hw) (by omega)
        rcases foldlM_arrives (s := (insert u s.1, record u s.2)) hwalk with
          ⟨s', new, heq, harrives⟩
        exact ⟨s', u :: new, heq, harrives.enter hseen⟩

/-- With more fuel than there are nodes, the walk ends; it arrives at the nodes that can be
reached. -/
theorem arrivals_spec {fuel : Nat} (hfuel : nodes.size < fuel) {us : List α}
    (hus : ∀ u, u ∈ us → u ∈ nodes) (seen : SortedSet α) :
    ∃ visits, arrivals next fuel us seen = some visits ∧
      ∀ a, a ∈ visits ↔ Reaches next seen us a := by
  have hwalk : ∀ u, u ∈ us → ∀ t : SortedSet α × List α, (∀ a, a ∈ seen → a ∈ t.1) →
      ∃ t' new, walk next record fuel u t = some t' ∧ Arrives next [u] t t' new := by
    intro u hu t _
    refine walk_arrives hnodes (hus u hu) ?_
    have hsub : ∀ a, a ∈ nodes.subtract t.1 → a ∈ nodes :=
      fun a ha => (SortedSet.mem_subtract.mp ha).1
    have hle := SortedSet.size_le_of_subset hsub
    unfold GraphSearch.unseen
    omega
  rcases foldlM_arrives (s := (seen, [])) hwalk with ⟨s', new, heq, harrives⟩
  have hvisits : s'.2 = new := harrives.visits
  refine ⟨new, by rw [arrivals, walkAll, heq, Option.map_some, hvisits], ?_⟩
  intro a
  constructor
  · exact harrives.reached seen (fun _ h => h) a
  · intro ha
    induction ha with
    | root hu => exact harrives.starts _ hu
    | next _ hnew hb ih => exact harrives.closed _ ih hnew _ hb

end Ends

end Walk
