import Mathlib.Data.List.Induction
import Mathlib.Data.List.Nodup
import Mathlib.Data.List.Pairwise
import Mathlib.Logic.Relation
import Mathlib.Order.WellFounded
import Mathlib.Data.Set.Finite.Basic

/-!
# Ordered closures

A node is listed after everything behind it: the lists of its successors are put one after
the other, without what is there already, and the node itself comes last.

Main results:

- Theorem {lit}`OrderedClosure.mem_order`: the list of a node holds what is behind it.
- Theorem {lit}`OrderedClosure.nodup_order`: each node is listed once.
- Theorem {lit}`OrderedClosure.pairwise_order`: no node is before one of its successors.
- Theorem {lit}`OrderedClosure.wellFounded_of_acyclic`: in a finite graph without cycles there
  are such lists.

Current gaps:

- None.
-/

namespace OrderedClosure

variable {α β : Type} [DecidableEq α] [DecidableEq β]

/-! ## Lists without duplicates -/

/-- Append those elements that are not there yet. -/
def appendNew (l l' : List α) : List α :=
  l'.foldl (fun l a => if a ∈ l then l else l ++ [a]) l

/-- The lists of some elements, one after the other. -/
def gather (f : α → List β) (as : List α) : List β :=
  as.foldl (fun l a => appendNew l (f a)) []

theorem appendNew_nil (l : List α) : appendNew l [] = l := by
  simp [appendNew]

theorem appendNew_cons (l l' : List α) (a : α) :
    appendNew l (a :: l') = appendNew (if a ∈ l then l else l ++ [a]) l' := by
  simp [appendNew]

omit [DecidableEq α] in
theorem gather_concat (f : α → List β) (as : List α) (a : α) :
    gather f (as ++ [a]) = appendNew (gather f as) (f a) := by
  simp [gather]

omit [DecidableEq α] in
theorem gather_congr {f g : α → List β} {as : List α} (h : ∀ a, a ∈ as → f a = g a) :
    gather f as = gather g as := by
  induction as using List.reverseRecOn with
  | nil => simp [gather]
  | append_singleton as a ih =>
      rw [gather_concat, gather_concat, ih fun b hb => h b (by simp [hb]), h a (by simp)]

variable {l l' : List α}

theorem mem_appendNew {a : α} : a ∈ appendNew l l' ↔ a ∈ l ∨ a ∈ l' := by
  induction l' generalizing l with
  | nil => simp [appendNew_nil]
  | cons b l' ih =>
      rw [appendNew_cons, ih, List.mem_cons]
      split
      · rename_i hb
        constructor
        · tauto
        · intro h
          rcases h with h | heq | h
          · exact Or.inl h
          · exact Or.inl (heq ▸ hb)
          · exact Or.inr h
      · simp only [List.mem_append, List.mem_singleton]
        tauto

theorem nodup_appendNew (h : l.Nodup) : (appendNew l l').Nodup := by
  induction l' generalizing l with
  | nil => simpa [appendNew_nil] using h
  | cons b l' ih =>
      rw [appendNew_cons]
      apply ih
      split
      · exact h
      · rename_i hb
        rw [← List.concat_eq_append]
        exact h.concat hb

/-- The elements that are not there yet are appended in their order. -/
theorem appendNew_eq (h : l'.Nodup) :
    appendNew l l' = l ++ l'.filter (· ∉ l) := by
  induction l' generalizing l with
  | nil => simp [appendNew_nil]
  | cons b l' ih =>
      rcases List.nodup_cons.mp h with ⟨hb, hl'⟩
      rw [appendNew_cons, ih hl']
      split
      · rename_i hmem
        simp [hmem]
      · rename_i hmem
        have hfilter : l'.filter (· ∉ l ++ [b]) = l'.filter (· ∉ l) := by
          apply List.filter_congr
          intro a ha
          have hne : a ≠ b := fun heq => hb (heq ▸ ha)
          simp [hne]
        rw [hfilter, List.filter_cons_of_pos (by simpa using hmem), List.append_assoc,
          List.singleton_append]

/-- Elements can be renamed if different ones stay different. -/
theorem map_appendNew {f : α → β}
    (h : ∀ a, a ∈ l ∨ a ∈ l' → ∀ b, b ∈ l ∨ b ∈ l' → f a = f b → a = b) :
    (appendNew l l').map f = appendNew (l.map f) (l'.map f) := by
  induction l' generalizing l with
  | nil => simp [appendNew_nil]
  | cons b l' ih =>
      rw [appendNew_cons, List.map_cons, appendNew_cons]
      have hiff : f b ∈ l.map f ↔ b ∈ l := by
        rw [List.mem_map]
        constructor
        · intro hmem
          rcases hmem with ⟨a, ha, heq⟩
          rwa [← h a (Or.inl ha) b (by simp) heq]
        · intro hmem
          exact ⟨b, hmem, rfl⟩
      simp only [hiff]
      split
      · apply ih
        intro a ha c hc
        apply h a ?_ c ?_ <;> simp only [List.mem_cons] <;> tauto
      · rw [ih, List.map_append, List.map_singleton]
        intro a ha c hc
        simp only [List.mem_append, List.mem_singleton] at ha hc
        apply h a ?_ c ?_ <;> simp only [List.mem_cons] <;> tauto

/-! ## Everything behind a node -/

variable {next : α → List α}

/-- There is an edge to each successor. -/
def Edge (next : α → List α) (a b : α) : Prop :=
  b ∈ next a

/-- A list is closed if it has the successors of all its elements. -/
def Closed (next : α → List α) (l : List α) : Prop :=
  ∀ a, a ∈ l → ∀ b, b ∈ next a → b ∈ l

/-- No element is before one of its successors. -/
def Ordered (next : α → List α) (l : List α) : Prop :=
  l.Pairwise fun a b => b ∉ next a

theorem Ordered.appendNew (h : Ordered next l) (hclosed : Closed next l) (h' : Ordered next l')
    (hnodup : l'.Nodup) : Ordered next (appendNew l l') := by
  rw [appendNew_eq hnodup]
  refine List.pairwise_append.mpr ⟨h, h'.filter _, ?_⟩
  intro a ha b hb hnext
  rw [List.mem_filter, decide_eq_true_eq] at hb
  exact hb.2 (hclosed a ha b hnext)

/-- What holds of the lists of some elements holds of what is gathered from them. -/
theorem gather_spec {f : α → List α} {as : List α}
    (h : ∀ a, a ∈ as → (f a).Nodup ∧ Closed next (f a) ∧ Ordered next (f a)) :
    ((gather f as).Nodup ∧ Closed next (gather f as) ∧ Ordered next (gather f as)) ∧
      ∀ b, b ∈ gather f as ↔ ∃ a, a ∈ as ∧ b ∈ f a := by
  induction as using List.reverseRecOn with
  | nil => simp [gather, Closed, Ordered]
  | append_singleton as a ih =>
      rcases ih fun c hc => h c (by simp [hc]) with ⟨⟨hnodup, hclosed, hordered⟩, hmem⟩
      rcases h a (by simp) with ⟨hnodup', hclosed', hordered'⟩
      rw [gather_concat]
      refine ⟨⟨nodup_appendNew hnodup, ?_, hordered.appendNew hclosed hordered' hnodup'⟩, ?_⟩
      · intro b hb c hc
        rw [mem_appendNew] at hb ⊢
        rcases hb with hb | hb
        · exact Or.inl (hclosed b hb c hc)
        · exact Or.inr (hclosed' b hb c hc)
      · intro b
        rw [mem_appendNew, hmem]
        simp only [List.mem_append, List.mem_singleton, or_and_right, exists_or, exists_eq_left]

/-- Without cycles through finitely many nodes, every path ends. -/
theorem wellFounded_of_acyclic {α : Type} {r : α → α → Prop} {s : Set α} (hs : s.Finite)
    (hr : ∀ a b, r a b → a ∈ s) (hacyclic : ∀ a, ¬Relation.TransGen r a a) :
    WellFounded fun b a => r a b := by
  have hfinite : Finite s := hs
  let behind (b a : s) : Prop := Relation.TransGen r a.1 b.1
  have htrans : IsTrans s behind := ⟨fun _ _ _ hba hcb => hcb.trans hba⟩
  have hirrefl : Std.Irrefl behind := ⟨fun a ha => hacyclic a.1 ha⟩
  have hwf : WellFounded behind := Finite.wellFounded_of_trans_of_irrefl behind
  have hout : ∀ a, a ∉ s → Acc (fun b a => r a b) a := by
    intro a ha
    constructor
    intro b hb
    exact absurd (hr a b hb) ha
  have hin : ∀ a : s, Acc (fun b a => r a b) a.1 := by
    intro a
    induction a using hwf.induction with
    | _ a ih =>
        constructor
        intro b hb
        by_cases hmem : b ∈ s
        · exact ih ⟨b, hmem⟩ (Relation.TransGen.single hb)
        · exact hout b hmem
  constructor
  intro a
  by_cases hmem : a ∈ s
  · exact hin ⟨a, hmem⟩
  · exact hout a hmem

section Order

variable (hwf : WellFounded fun b a => b ∈ next a)

/-- A node after everything behind it. -/
noncomputable def order : α → List α :=
  hwf.fix fun a behind =>
    gather (fun b => if h : b ∈ next a then behind b h else []) (next a) ++ [a]

theorem order_eq (a : α) : order hwf a = gather (order hwf) (next a) ++ [a] := by
  unfold order
  rw [hwf.fix_eq, gather_congr]
  intro b hb
  simp [hb]

/-- The list of a node, with all that is known of it. -/
theorem order_spec (a : α) :
    ((order hwf a).Nodup ∧ Closed next (order hwf a) ∧ Ordered next (order hwf a)) ∧
      ∀ b, b ∈ order hwf a ↔ Relation.ReflTransGen (Edge next) a b := by
  induction a using hwf.induction with
  | _ a ih =>
      rcases gather_spec fun b hb => (ih b hb).1 with ⟨⟨hnodup, hclosed, hordered⟩, hmem⟩
      have hbehind : ∀ b, b ∈ gather (order hwf) (next a) ↔
          Relation.TransGen (Edge next) a b := by
        intro b
        rw [hmem, Relation.TransGen.head'_iff]
        constructor
        · intro h
          rcases h with ⟨c, hc, hb⟩
          exact ⟨c, hc, ((ih c hc).2 b).mp hb⟩
        · intro h
          rcases h with ⟨c, hc, hb⟩
          exact ⟨c, hc, ((ih c hc).2 b).mpr hb⟩
      have hself : a ∉ gather (order hwf) (next a) := by
        intro ha
        rw [hbehind, ← Relation.transGen_swap] at ha
        exact hwf.transGen.irrefl.irrefl a ha
      rw [order_eq]
      refine ⟨⟨?_, ?_, ?_⟩, ?_⟩
      · rw [← List.concat_eq_append]
        exact hnodup.concat hself
      · intro b hb c hc
        rw [List.mem_append, List.mem_singleton] at hb ⊢
        left
        rcases hb with hb | heq
        · exact hclosed b hb c hc
        · rw [heq] at hc
          exact (hbehind c).mpr (Relation.TransGen.single hc)
      · refine List.pairwise_append.mpr ⟨hordered, by simp, ?_⟩
        intro b hb c hc hnext
        rw [List.mem_singleton] at hc
        rw [hc] at hnext
        exact hself (hclosed b hb a hnext)
      · intro b
        rw [List.mem_append, hbehind, List.mem_singleton, Relation.reflTransGen_iff_eq_or_transGen]
        tauto

theorem nodup_order (a : α) : (order hwf a).Nodup :=
  (order_spec hwf a).1.1

theorem pairwise_order (a : α) : Ordered next (order hwf a) :=
  (order_spec hwf a).1.2.2

theorem mem_order {a b : α} : b ∈ order hwf a ↔ Relation.ReflTransGen (Edge next) a b :=
  (order_spec hwf a).2 b

end Order

end OrderedClosure
