import QbsCore.Library.GraphSearch
import Mathlib.Data.Set.Finite.Basic

/-!
# Depth-first traversal in post-order

A traversal that marks a node as seen on entry and lists it after its successors.  The
depth of the recursion is bounded by fuel.

Main results:

- Theorem {lit}`PostOrder.traverse_explores`: what the traversal from one node adds to
  the list.
- Theorem {lit}`PostOrder.mem_order_iff`: the traversal from some starts lists the nodes
  that can be reached from them.
- Theorem {lit}`PostOrder.order_pairwise`: without cycles no node stands before one of
  its successors.
- Theorem {lit}`PostOrder.exists_root`: without cycles each node is behind a root.

Current gaps:

- None.
-/

/-- The seen nodes and the list of the nodes that are left. -/
structure PostOrder (α : Type*) [LinearOrder α] where
  seen : SortedSet α
  order : List α

namespace PostOrder

variable {α : Type*} [LinearOrder α] (next : α → List α)

/-- Nothing is seen yet. -/
def start : PostOrder α :=
  ⟨∅, []⟩

/-- Enter a node. -/
def enter (u : α) (s : PostOrder α) : PostOrder α :=
  { s with seen := insert u s.seen }

/-- Leave a node. -/
def leave (u : α) (s : PostOrder α) : PostOrder α :=
  { s with order := s.order ++ [u] }

/-- Traverse the graph behind a node that is not seen yet. -/
def traverse : Nat → α → PostOrder α → PostOrder α
  | 0, _, s => s
  | fuel + 1, u, s =>
      if u ∈ s.seen then s
      else leave u ((next u).foldl (fun t w => traverse fuel w t) (enter u s))

/-- Traverse the graph behind some nodes one after the other. -/
def traverseAll (fuel : Nat) (us : List α) (s : PostOrder α) : PostOrder α :=
  us.foldl (fun t u => traverse next fuel u t) s

/-- There is an edge to each successor. -/
def Edge (a b : α) : Prop :=
  b ∈ next a

/-- What a traversal has added: the new nodes are listed once each, they come from the starts,
their successors are seen, and a new node stands behind each of its new successors unless the
two are on a cycle. -/
structure Explores (starts : List α) (s s' : PostOrder α) (added : List α) : Prop where
  order_eq : s'.order = s.order ++ added
  nodup : added.Nodup
  mem_seen : ∀ a, a ∈ s'.seen ↔ a ∈ s.seen ∨ a ∈ added
  fresh : ∀ a, a ∈ added → a ∉ s.seen
  reached : ∀ a, a ∈ added → ∃ r, r ∈ starts ∧ Relation.ReflTransGen (Edge next) r a
  closed : ∀ a, a ∈ added → ∀ b, b ∈ next a → b ∈ s'.seen
  ordered : ∀ l₁ a l₂, added = l₁ ++ a :: l₂ → ∀ b, b ∈ next a →
    b ∈ s.seen ∨ b ∈ l₁ ∨ Relation.ReflTransGen (Edge next) b a

variable {next} {s s' s'' : PostOrder α} {us vs l l' : List α}

theorem Explores.refl (s : PostOrder α) : Explores next [] s s [] := by
  constructor <;> simp

/-- Two traversals in a row. -/
theorem Explores.trans (h : Explores next us s s' l) (h' : Explores next vs s' s'' l') :
    Explores next (us ++ vs) s s'' (l ++ l') := by
  constructor
  · rw [h'.order_eq, h.order_eq, List.append_assoc]
  · refine List.nodup_append.mpr ⟨h.nodup, h'.nodup, ?_⟩
    rintro a ha b hb rfl
    exact h'.fresh a hb ((h.mem_seen a).mpr (Or.inr ha))
  · intro a
    rw [h'.mem_seen, h.mem_seen, List.mem_append, or_assoc]
  · intro a ha
    rcases List.mem_append.mp ha with ha | ha
    · exact h.fresh a ha
    · exact fun hs => h'.fresh a ha ((h.mem_seen a).mpr (Or.inl hs))
  · intro a ha
    rcases List.mem_append.mp ha with ha | ha
    · rcases h.reached a ha with ⟨r, hr, hpath⟩
      exact ⟨r, List.mem_append_left _ hr, hpath⟩
    · rcases h'.reached a ha with ⟨r, hr, hpath⟩
      exact ⟨r, List.mem_append_right _ hr, hpath⟩
  · intro a ha b hb
    rcases List.mem_append.mp ha with ha | ha
    · exact (h'.mem_seen b).mpr (Or.inl (h.closed a ha b hb))
    · exact h'.closed a ha b hb
  · intro l₁ a l₂ hsplit b hb
    rcases List.append_eq_append_iff.mp hsplit with ⟨m, rfl, hl'⟩ | ⟨m, hl, hm⟩
    · -- the node was added by the second traversal
      rcases h'.ordered m a l₂ hl' b hb with hs | hm | hpath
      · rcases (h.mem_seen b).mp hs with hs | hl
        · exact Or.inl hs
        · exact Or.inr (Or.inl (List.mem_append_left _ hl))
      · exact Or.inr (Or.inl (List.mem_append_right _ hm))
      · exact Or.inr (Or.inr hpath)
    · cases m with
      | nil =>
          simp only [List.append_nil] at hl
          simp only [List.nil_append] at hm
          subst hl
          rcases h'.ordered [] a l₂ hm.symm b hb with hs | hm | hpath
          · rcases (h.mem_seen b).mp hs with hs | hl
            · exact Or.inl hs
            · exact Or.inr (Or.inl hl)
          · simp at hm
          · exact Or.inr (Or.inr hpath)
      | cons c m =>
          simp only [List.cons_append, List.cons.injEq] at hm
          rcases hm with ⟨rfl, -⟩
          exact h.ordered l₁ a m hl b hb

/-- The traversal of some nodes, from what the traversal of one node does. -/
theorem traverseAll_explores_of {nodes : SortedSet α} {fuel : Nat}
    (hvisit : ∀ u s, u ∈ nodes → GraphSearch.unseen nodes s.seen < fuel →
      ∃ l, Explores next [u] s (traverse next fuel u s) l ∧ u ∈ (traverse next fuel u s).seen)
    (hus : ∀ u, u ∈ us → u ∈ nodes) (hfuel : GraphSearch.unseen nodes s.seen < fuel) :
    ∃ l, Explores next us s (traverseAll next fuel us s) l ∧
      ∀ u, u ∈ us → u ∈ (traverseAll next fuel us s).seen := by
  induction us generalizing s with
  | nil => exact ⟨[], Explores.refl s, by simp⟩
  | cons u us ih =>
      rcases hvisit u s (hus u (by simp)) hfuel with ⟨l, hl, hu⟩
      have hgrow : ∀ a, a ∈ s.seen → a ∈ (traverse next fuel u s).seen := fun a ha =>
        (hl.mem_seen a).mpr (Or.inl ha)
      have hfuel' := lt_of_le_of_lt (GraphSearch.unseen_le nodes hgrow) hfuel
      rcases ih (fun w hw => hus w (List.mem_cons_of_mem u hw)) hfuel' with ⟨l', hl', hus'⟩
      refine ⟨l ++ l', hl.trans hl', ?_⟩
      intro w hw
      rcases List.mem_cons.mp hw with rfl | hw
      · exact (hl'.mem_seen _).mpr (Or.inl hu)
      · exact hus' w hw

/-- A node is added after what the traversal of its successors has added. -/
theorem Explores.leave {u : α} (hu : u ∉ s.seen)
    (h : Explores next (next u) (enter u s) s' l) (hnext : ∀ b, b ∈ next u → b ∈ s'.seen) :
    Explores next [u] s (PostOrder.leave u s') (l ++ [u]) := by
  have hul : u ∉ l := fun hmem => h.fresh u hmem (SortedSet.mem_insert_self u s.seen)
  have hreach : ∀ a, a ∈ l → Relation.ReflTransGen (Edge next) u a := by
    intro a ha
    rcases h.reached a ha with ⟨r, hr, hpath⟩
    exact Relation.ReflTransGen.head hr hpath
  have hseen : ∀ a, a ∈ s'.seen ↔ a ∈ s.seen ∨ a ∈ l ++ [u] := by
    intro a
    rw [h.mem_seen]
    simp only [enter, SortedSet.mem_insert, List.mem_append, List.mem_singleton]
    tauto
  constructor
  · simp only [PostOrder.leave, h.order_eq, enter, List.append_assoc]
  · refine List.nodup_append.mpr ⟨h.nodup, by simp, ?_⟩
    rintro a ha b hb rfl
    exact hul (List.mem_singleton.mp hb ▸ ha)
  · exact hseen
  · intro a ha hs
    rcases List.mem_append.mp ha with ha | ha
    · exact h.fresh a ha (SortedSet.mem_insert.mpr (Or.inr hs))
    · exact hu (List.mem_singleton.mp ha ▸ hs)
  · intro a ha
    refine ⟨u, by simp, ?_⟩
    rcases List.mem_append.mp ha with ha | ha
    · exact hreach a ha
    · rw [List.mem_singleton.mp ha]
  · intro a ha b hb
    rcases List.mem_append.mp ha with ha | ha
    · exact h.closed a ha b hb
    · rw [List.mem_singleton.mp ha] at hb
      exact hnext b hb
  · intro l₁ a l₂ hsplit b hb
    rcases List.eq_nil_or_concat l₂ with rfl | ⟨l₂, c, rfl⟩
    · -- the node itself, at the end of the list
      have hEq := List.append_inj' hsplit rfl
      rcases hEq with ⟨rfl, hu'⟩
      simp only [List.cons.injEq, and_true] at hu'
      subst hu'
      rcases (hseen b).mp (hnext b hb) with hs | hmem
      · exact Or.inl hs
      · rcases List.mem_append.mp hmem with hl | hbu
        · exact Or.inr (Or.inl hl)
        · rw [List.mem_singleton.mp hbu]
          exact Or.inr (Or.inr Relation.ReflTransGen.refl)
    · have hEq : l = l₁ ++ a :: l₂ := by
        have h2 : l ++ [u] = (l₁ ++ a :: l₂) ++ [c] := by simpa using hsplit
        exact (List.append_inj' h2 rfl).1
      rcases h.ordered l₁ a l₂ hEq b hb with hs | hl | hpath
      · rcases SortedSet.mem_insert.mp hs with rfl | hs
        · exact Or.inr (Or.inr (hreach a (by rw [hEq]; simp)))
        · exact Or.inl hs
      · exact Or.inr (Or.inl hl)
      · exact Or.inr (Or.inr hpath)

/-- What the traversal from one node adds. -/
theorem traverse_explores {nodes : SortedSet α}
    (hnodes : ∀ a, a ∈ nodes → ∀ b, b ∈ next a → b ∈ nodes) (fuel : Nat) (u : α)
    (s : PostOrder α) (hu : u ∈ nodes) (hfuel : GraphSearch.unseen nodes s.seen < fuel) :
    ∃ l, Explores next [u] s (traverse next fuel u s) l ∧ u ∈ (traverse next fuel u s).seen := by
  induction fuel generalizing u s with
  | zero => exact absurd hfuel (Nat.not_lt_zero _)
  | succ fuel ih =>
      simp only [traverse]
      split <;> rename_i hseen
      · refine ⟨[], ?_, hseen⟩
        constructor <;> simp
      · have hlt : GraphSearch.unseen nodes (enter u s).seen < fuel :=
          lt_of_lt_of_le (GraphSearch.unseen_insert_lt hu hseen) (Nat.lt_succ_iff.mp hfuel)
        rcases traverseAll_explores_of (s := enter u s) ih (hnodes u hu) hlt with ⟨l, hl, hnext⟩
        refine ⟨l ++ [u], hl.leave hseen hnext, ?_⟩
        exact ((hl.leave hseen hnext).mem_seen u).mpr (Or.inr (by simp))

/-! ## The whole traversal -/

section Start

variable {nodes : SortedSet α} {fuel : Nat}
  (hnodes : ∀ a, a ∈ nodes → ∀ b, b ∈ next a → b ∈ nodes) (hus : ∀ u, u ∈ us → u ∈ nodes)
  (hfuel : nodes.size < fuel)

include hnodes hus hfuel

theorem traverseAll_explores :
    Explores next us start (traverseAll next fuel us start)
        (traverseAll next fuel us start).order ∧
      ∀ u, u ∈ us → u ∈ (traverseAll next fuel us start).order := by
  have hunseen : GraphSearch.unseen nodes (start (α := α)).seen < fuel :=
    lt_of_le_of_lt (SortedSet.size_le_of_subset fun a ha => (SortedSet.mem_subtract.mp ha).1) hfuel
  rcases traverseAll_explores_of (traverse_explores hnodes fuel) hus hunseen with ⟨l, hl, hstart⟩
  have horder : (traverseAll next fuel us start).order = l := by
    rw [hl.order_eq]
    rfl
  rw [horder]
  refine ⟨hl, fun u hu => ?_⟩
  rcases (hl.mem_seen u).mp (hstart u hu) with hs | hl
  · exact absurd hs (SortedSet.not_mem_empty u)
  · exact hl

theorem order_nodup : (traverseAll next fuel us start).order.Nodup :=
  (traverseAll_explores hnodes hus hfuel).1.nodup

/-- The traversal lists the nodes that can be reached from the starts. -/
theorem mem_order_iff {a : α} :
    a ∈ (traverseAll next fuel us start).order ↔
      ∃ r, r ∈ us ∧ Relation.ReflTransGen (Edge next) r a := by
  rcases traverseAll_explores hnodes hus hfuel with ⟨hexp, hstart⟩
  constructor
  · exact hexp.reached a
  · rintro ⟨r, hr, hpath⟩
    induction hpath with
    | refl => exact hstart r hr
    | tail _ hbc ih =>
        rcases (hexp.mem_seen _).mp (hexp.closed _ ih _ hbc) with hs | hl
        · exact absurd hs (SortedSet.not_mem_empty _)
        · exact hl

/-- Without cycles no node stands before one of its successors. -/
theorem order_pairwise (hacyclic : GraphSearch.Acyclic (Edge next)) :
    (traverseAll next fuel us start).order.Pairwise fun a b => b ∉ next a := by
  rcases traverseAll_explores hnodes hus hfuel with ⟨hexp, -⟩
  have hnodup := hexp.nodup
  rw [List.pairwise_iff_forall_sublist]
  intro a b hsub hb
  rcases List.cons_sublist_iff.mp hsub with ⟨r₁, r₂, hsplit, ha, hbr⟩
  rcases List.append_of_mem ha with ⟨l₁, l₂, rfl⟩
  have hbr₂ : b ∈ r₂ := List.singleton_sublist.mp hbr
  rw [List.append_assoc, List.cons_append] at hsplit
  rcases hexp.ordered l₁ a (l₂ ++ r₂) hsplit b hb with hs | hl | hpath
  · exact absurd hs (SortedSet.not_mem_empty b)
  · rw [hsplit] at hnodup
    refine (List.nodup_append.mp hnodup).2.2 b hl b ?_ rfl
    exact List.mem_cons_of_mem a (List.mem_append_right _ hbr₂)
  · exact hacyclic a (Relation.TransGen.head' hb hpath)

end Start

/-- In a finite graph without cycles each node can be reached from one without predecessors. -/
theorem exists_root {r : α → α → Prop} {nodes : SortedSet α} (hr : GraphSearch.Acyclic r)
    (hnodes : ∀ a b, r a b → a ∈ nodes) (a : α) :
    ∃ root, (∀ b, ¬r b root) ∧ Relation.ReflTransGen r root a := by
  have hfinite : Finite { b // b ∈ nodes } := (List.finite_toSet nodes.elems).to_subtype
  let below (b c : { b // b ∈ nodes }) : Prop := Relation.TransGen r b.1 c.1
  have htrans : IsTrans _ below := ⟨fun _ _ _ hbc hcd => hbc.trans hcd⟩
  have hirrefl : Std.Irrefl below := ⟨fun b hb => hr b.1 hb⟩
  have hwf : WellFounded below := Finite.wellFounded_of_trans_of_irrefl below
  have hinside : ∀ b : { b // b ∈ nodes },
      ∃ root, (∀ c, ¬r c root) ∧ Relation.ReflTransGen r root b.1 := by
    intro b
    induction b using hwf.induction with
    | _ b ih =>
        by_cases hb : ∃ c, r c b.1
        · rcases hb with ⟨c, hc⟩
          rcases ih ⟨c, hnodes c b.1 hc⟩ (Relation.TransGen.single hc) with ⟨root, hroot, hpath⟩
          exact ⟨root, hroot, hpath.tail hc⟩
        · push Not at hb
          exact ⟨b.1, hb, Relation.ReflTransGen.refl⟩
  by_cases ha : ∃ b, r b a
  · rcases ha with ⟨b, hb⟩
    rcases hinside ⟨b, hnodes b a hb⟩ with ⟨root, hroot, hpath⟩
    exact ⟨root, hroot, hpath.tail hb⟩
  · push Not at ha
    exact ⟨a, ha, Relation.ReflTransGen.refl⟩

end PostOrder
