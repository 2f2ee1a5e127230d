import Mathlib.Data.Finset.Card
import Mathlib.Data.List.Nodup

/-!
# Following bases

Each object can have a base, which can have a base again.  Following the bases ends at an object
without one or at an object where what is looked for is found; it fails if a base is not there
or was seen before.

Main results:

- Definition {lit}`BaseChain.follow`: following the bases comes to an end.
- Theorem {lit}`BaseChain.follow_cases`: it fails exactly if a cycle or a missing base is met, and
  otherwise gives the objects on the way.
-/

/-- What can be a base of something, and the base of each object. -/
structure BaseChain (α : Type*) where
  base : α → Option α
  members : Finset α

namespace BaseChain

variable {α : Type*} (h : BaseChain α)

/-- The object after a number of steps to the base. -/
def nth (start : α) : ℕ → Option α
  | 0 => some start
  | i + 1 => (nth start i).bind h.base

theorem nth_succ (start : α) (i : ℕ) : h.nth start (i + 1) = (h.nth start i).bind h.base := by
  simp [nth]

/-- The objects that are reached by going to the base any number of times. -/
def InChain (start q : α) : Prop :=
  ∃ i, h.nth start i = some q

/-- No object before a position fulfils a condition. -/
def NoneBefore (stop : α → Prop) (start : α) (j : ℕ) : Prop :=
  ∀ i < j, ∀ q, h.nth start i = some q → ¬ stop q

/-- The first object that fulfils a condition. -/
def IsFirst (stop : α → Prop) (start q : α) : Prop :=
  stop q ∧ ∃ j, h.nth start j = some q ∧ h.NoneBefore stop start j

/-- Before an object fulfils the condition, a base is met that is not there or that was met
before. -/
def Fails (stop : α → Prop) (start : α) : Prop :=
  ∃ j q, h.nth start j = some q ∧ h.NoneBefore stop start j ∧
    ((0 < j ∧ q ∉ h.members) ∨ ∃ i < j, h.nth start i = some q)

/-! ## Following the bases -/

/-- Why following the bases fails. -/
inductive Failure (α : Type*)
  | circular (chain : List α)
  | missing (q base : α)

variable [DecidableEq α]

/-- How many objects can still come after those of a chain. -/
def pending (chain : List α) (p : α) : ℕ :=
  (h.members.filter (· ∉ chain)).card + if p ∈ h.members then 0 else 1

variable {chain : List α} {p q start : α}

theorem pending_lt (hp : p ∉ chain) (hq : q ∈ h.members) :
    h.pending (chain ++ [p]) q < h.pending chain p := by
  have hsubset : h.members.filter (· ∉ chain ++ [p]) ⊆ h.members.filter (· ∉ chain) := by
    intro a ha
    simp only [Finset.mem_filter, List.mem_append, not_or] at ha ⊢
    exact ⟨ha.1, ha.2.1⟩
  unfold pending
  rw [if_pos hq]
  by_cases hmember : p ∈ h.members
  · have hlt : (h.members.filter (· ∉ chain ++ [p])).card < (h.members.filter (· ∉ chain)).card := by
      refine Finset.card_lt_card ⟨hsubset, fun hback => ?_⟩
      have hmem := hback (Finset.mem_filter.mpr ⟨hmember, hp⟩)
      simp at hmem
    rw [if_pos hmember]
    omega
  · have hle := Finset.card_le_card hsubset
    rw [if_neg hmember]
    omega

/-- Follow the bases up to an object that fulfils a condition. -/
def follow (stop : α → Prop) [DecidablePred stop] (chain : List α) (p : α) :
    Except (Failure α) (List α) :=
  if _ : p ∈ chain then .error (.circular (chain ++ [p]))
  else if stop p then .ok [p]
  else
    match h.base p with
    | none => .ok [p]
    | some q =>
        if _ : q ∈ h.members then (follow stop (chain ++ [p]) q).map (p :: ·)
        else .error (.missing p q)
termination_by h.pending chain p
decreasing_by exact h.pending_lt (by assumption) (by assumption)

theorem follow_step {stop : α → Prop} [DecidablePred stop] (hp : p ∉ chain) (hstop : ¬ stop p)
    (hbase : h.base p = some q) (hq : q ∈ h.members) :
    h.follow stop chain p = (h.follow stop (chain ++ [p]) q).map (p :: ·) := by
  rw [follow, dif_neg hp, if_neg hstop]
  split
  · simp_all
  · obtain rfl := Option.some.inj (hbase.symm.trans (by assumption))
    rw [dif_pos hq]

theorem follow_ne_nil {stop : α → Prop} [DecidablePred stop] {l : List α}
    (hl : h.follow stop chain p = .ok l) : l ≠ [] := by
  fun_induction follow h stop chain p generalizing l with
  | case1 => cases hl
  | case2 => simp [← Except.ok.inj hl]
  | case3 => simp [← Except.ok.inj hl]
  | case4 chain p _ _ q _ _ ih =>
      cases hfollow : h.follow stop (chain ++ [p]) q with
      | error e => simp [hfollow, Except.map] at hl
      | ok l' =>
          rw [hfollow] at hl
          simp [← Except.ok.inj hl]
  | case5 => cases hl

/-! ## What is on the way -/

/-- The objects at the first positions, which are all different. -/
structure Trace (start : α) (l : List α) : Prop where
  nth : ∀ i < l.length, h.nth start i = l[i]?
  nodup : l.Nodup
  members : ∀ i, 0 < i → ∀ q, l[i]? = some q → q ∈ h.members

omit [DecidableEq α] in
theorem trace_nil (start : α) : h.Trace start [] where
  nth := by simp
  nodup := List.nodup_nil
  members := by simp

omit [DecidableEq α] in
theorem Trace.snoc {l : List α} (hl : h.Trace start l) (hp : h.nth start l.length = some p)
    (hnew : p ∉ l) (hmember : l ≠ [] → p ∈ h.members) :
    h.Trace start (l ++ [p]) where
  nth := by
    intro i hi
    rw [List.length_append, List.length_singleton] at hi
    rcases Nat.lt_succ_iff_lt_or_eq.mp hi with hlt | rfl
    · rw [hl.nth i hlt, List.getElem?_append_left hlt]
    · simp [hp]
  nodup := by simpa [List.nodup_append] using ⟨hl.nodup, fun a ha heq => hnew (heq ▸ ha)⟩
  members := by
    intro i hi q hq
    rcases Nat.lt_or_ge i l.length with hlt | hge
    · rw [List.getElem?_append_left hlt] at hq
      exact hl.members i hi q hq
    · rw [List.getElem?_append_right hge, List.getElem?_singleton] at hq
      split_ifs at hq with hzero
      obtain rfl : p = q := by simpa using hq
      refine hmember fun hnil => ?_
      simp [hnil] at hzero
      omega

/-- All objects up to the first one that fulfils the condition, or up to the one without a
base. -/
structure Complete (stop : α → Prop) (start : α) (l : List α) (last : α) : Prop where
  trace : h.Trace start (l ++ [last])
  before : ∀ q ∈ l, ¬ stop q
  ends : stop last ∨ h.base last = none

omit [DecidableEq α] in
theorem not_stop_append_singleton {stop : α → Prop} (hbefore : ∀ q ∈ chain, ¬ stop q)
    (hstop : ¬ stop p) : ∀ q ∈ chain ++ [p], ¬ stop q := by
  intro q hq
  rcases List.mem_append.mp hq with hq | hq
  · exact hbefore q hq
  · exact List.mem_singleton.mp hq ▸ hstop

/-- What following the bases gives, for a chain that is already known. -/
theorem follow_spec (stop : α → Prop) [DecidablePred stop] (chain : List α) (p : α)
    (htrace : h.Trace start chain) (hbefore : ∀ q ∈ chain, ¬ stop q)
    (hp : h.nth start chain.length = some p) (hmember : chain ≠ [] → p ∈ h.members) :
    (∃ l last, h.follow stop chain p = .ok (l ++ [last]) ∧
        h.Complete stop start (chain ++ l) last) ∨
      ((∃ e, h.follow stop chain p = .error e) ∧ h.Fails stop start) := by
  have hnone : ∀ {chain : List α}, h.Trace start chain → (∀ q ∈ chain, ¬ stop q) →
      h.NoneBefore stop start chain.length := by
    intro chain htrace hbefore i hi q hq
    rw [htrace.nth i hi] at hq
    exact hbefore q (List.mem_of_getElem? hq)
  fun_induction follow h stop chain p with
  | case1 chain p hseen =>
      obtain ⟨i, hi, hget⟩ := List.getElem_of_mem hseen
      refine .inr ⟨⟨_, rfl⟩, chain.length, p, hp, hnone htrace hbefore, .inr ⟨i, hi, ?_⟩⟩
      rw [htrace.nth i hi, List.getElem?_eq_getElem hi, hget]
  | case2 chain p hnew hstop =>
      exact .inl ⟨[], p, rfl, by simpa using htrace.snoc h hp hnew hmember, by simpa using hbefore,
        .inl hstop⟩
  | case3 chain p hnew hstop hbase =>
      exact .inl ⟨[], p, rfl, by simpa using htrace.snoc h hp hnew hmember, by simpa using hbefore,
        .inr hbase⟩
  | case4 chain p hnew hstop q hbase hq ih =>
      have htrace' := htrace.snoc h hp hnew hmember
      have hbefore' := not_stop_append_singleton hbefore hstop
      have hnext : h.nth start (chain ++ [p]).length = some q := by
        simp [nth_succ, hp, hbase]
      rcases ih htrace' hbefore' hnext (fun _ => hq) with ⟨l, last, hok, hcomplete⟩ | ⟨⟨e, he⟩, hfails⟩
      · exact .inl ⟨p :: l, last, by simp [hok, Except.map], by simpa using hcomplete⟩
      · exact .inr ⟨⟨e, by simp [he, Except.map]⟩, hfails⟩
  | case5 chain p hnew hstop q hbase hq =>
      have htrace' := htrace.snoc h hp hnew hmember
      have hbefore' := not_stop_append_singleton hbefore hstop
      refine .inr ⟨⟨_, rfl⟩, (chain ++ [p]).length, q, ?_, hnone htrace' hbefore',
        .inl ⟨by simp, hq⟩⟩
      simp [nth_succ, hp, hbase]

section Complete

variable {h} {stop : α → Prop} {start last : α} {l : List α}

omit [DecidableEq α]

theorem Complete.nth_last (hc : h.Complete stop start l last) :
    h.nth start l.length = some last := by
  rw [hc.trace.nth _ (by simp)]
  simp

theorem Complete.nth_lt (hc : h.Complete stop start l last) {i : ℕ} {q : α} (hi : i < l.length)
    (hq : h.nth start i = some q) : l[i]? = some q := by
  rw [hc.trace.nth i (by simp; omega), List.getElem?_append_left hi] at hq
  exact hq

theorem nth_eq_none (hbase : h.base last = none) {n : ℕ} (hlast : h.nth start n = some last) {j : ℕ}
    (hj : n < j) : h.nth start j = none := by
  induction j, hj using Nat.le_induction with
  | base => simp [nth_succ, hlast, hbase]
  | succ j _ ih => simp [nth_succ, ih]

theorem Complete.noneBefore (hc : h.Complete stop start l last) :
    h.NoneBefore stop start l.length := by
  intro i hi q hq
  exact hc.before q (List.mem_of_getElem? (hc.nth_lt hi hq))

/-- No position after the last one counts. -/
theorem Complete.le_length (hc : h.Complete stop start l last) {j : ℕ} {q : α}
    (hq : h.nth start j = some q) (hnone : h.NoneBefore stop start j) : j ≤ l.length := by
  by_contra hlt
  rcases hc.ends with hstop | hbase
  · exact hnone l.length (by omega) last hc.nth_last hstop
  · rw [nth_eq_none hbase hc.nth_last (by omega)] at hq
    cases hq

theorem Complete.not_fails (hc : h.Complete stop start l last) : ¬ h.Fails stop start := by
  intro ⟨j, q, hq, hnone, hwrong⟩
  have hle := hc.le_length hq hnone
  have hget : (l ++ [last])[j]? = some q := by
    rw [← hc.trace.nth j (by simp; omega), hq]
  rcases hwrong with ⟨hpos, hmissing⟩ | ⟨i, hi, hagain⟩
  · exact hmissing (hc.trace.members j hpos q hget)
  · rw [hc.trace.nth i (by simp; omega), ← hget] at hagain
    have heq := (List.getElem?_inj (by simp; omega) hc.trace.nodup).mp hagain
    omega

theorem Complete.isFirst (hc : h.Complete stop start l last) (hstop : stop last) :
    h.IsFirst stop start last :=
  ⟨hstop, l.length, hc.nth_last, hc.noneBefore⟩

/-- If the last object has no base, these are all objects of the chain. -/
theorem Complete.mem_iff (hc : h.Complete stop start l last) (hbase : h.base last = none) (q : α) :
    q ∈ l ++ [last] ↔ h.InChain start q := by
  constructor
  · intro hq
    obtain ⟨i, hi⟩ := List.mem_iff_getElem?.mp hq
    have hlt := (List.getElem?_eq_some_iff.mp hi).1
    exact ⟨i, by rw [hc.trace.nth i hlt, hi]⟩
  · intro ⟨i, hi⟩
    have hle : i ≤ l.length := by
      by_contra hlt
      rw [nth_eq_none hbase hc.nth_last (by omega)] at hi
      cases hi
    rw [hc.trace.nth i (by simp; omega)] at hi
    exact List.mem_of_getElem? hi

theorem Complete.not_stop (hc : h.Complete stop start l last) (hlast : ¬ stop last) {q : α}
    (hq : h.InChain start q) : ¬ stop q := by
  rcases List.mem_append.mp ((hc.mem_iff (hc.ends.resolve_left hlast) q).mpr hq) with hmem | hmem
  · exact hc.before q hmem
  · exact List.mem_singleton.mp hmem ▸ hlast

end Complete

/-- Following the bases gives all objects on the way, or fails where it should. -/
theorem follow_cases (stop : α → Prop) [DecidablePred stop] (start : α) :
    (∃ l last, h.follow stop [] start = .ok (l ++ [last]) ∧ h.Complete stop start l last) ∨
      ((∃ e, h.follow stop [] start = .error e) ∧ h.Fails stop start) := by
  simpa using h.follow_spec stop [] start (h.trace_nil start) (by simp) rfl (by simp)

end BaseChain
