import Mathlib.Data.List.Perm.Basic
import Mathlib.Data.List.Pairwise
import Mathlib.Data.Multiset.ZeroCons
import Mathlib.Order.Defs.Unbundled

/-!
# Arrangements

Lists that are sorted by an order that does not say for each two elements which of them comes
first.  A sorting function may then arrange the elements in more than one way.  What the elements
are before may determine them only up to a relation, as if they hold lists that get sorted, too.

Main results:

- Theorem {lit}`Arrangement.exists_arranges`: a list can always be arranged.
- Theorem {lit}`Arrangement.unique_arranges_iff`: when there is only one way to do it.
- Theorem {lit}`Arrangement.Arranges.trans_of`: what has been arranged can be arranged anew.

Current gaps:

- None.
-/

namespace Arrangement

universe u v w

variable {α : Type u} {β : Type v} {γ : Type w}

/-- Nothing comes before what is less. -/
def InOrder (lt : β → β → Prop) (m : List β) : Prop :=
  m.Pairwise fun a b => ¬lt b a

/-- Each element is replaced by one that it leads to, and these are put into an order. -/
def Arranges (R : α → β → Prop) (lt : β → β → Prop) (l : List α) (m : List β) : Prop :=
  ∃ l', List.Forall₂ R l l' ∧ l'.Perm m ∧ InOrder lt m

theorem inOrder_false (m : List β) : InOrder (fun _ _ => False) m :=
  List.pairwise_of_forall fun _ _ => not_false

/-! ## Existence -/

section Existence

variable (lt : β → β → Prop) [IsStrictOrder β lt]

/-- A list that is not empty has an element that no other one is less than. -/
theorem exists_minimal {l : List β} (hne : l ≠ []) : ∃ a, a ∈ l ∧ ∀ b, b ∈ l → ¬lt b a := by
  induction l with
  | nil => exact absurd rfl hne
  | cons a l ih =>
      by_cases hl : l = []
      · refine ⟨a, by simp, ?_⟩
        intro b hb
        rw [hl, List.mem_singleton] at hb
        rw [hb]
        exact irrefl_of lt a
      · rcases ih hl with ⟨m, hm, hmin⟩
        by_cases hlt : lt a m
        · refine ⟨a, by simp, ?_⟩
          intro b hb hba
          rcases List.mem_cons.mp hb with heq | hb
          · rw [heq] at hba
            exact irrefl_of lt a hba
          · exact hmin b hb (trans_of lt hba hlt)
        · refine ⟨m, List.mem_cons_of_mem a hm, ?_⟩
          intro b hb
          rcases List.mem_cons.mp hb with heq | hb
          · rwa [heq]
          · exact hmin b hb

theorem exists_inOrder (l : List β) : ∃ m, l.Perm m ∧ InOrder lt m := by
  have hlength : ∀ n (l : List β), l.length = n → ∃ m, l.Perm m ∧ InOrder lt m := by
    intro n
    induction n with
    | zero =>
        intro l hn
        rw [List.length_eq_zero_iff] at hn
        rw [hn]
        exact ⟨[], List.Perm.refl [], List.Pairwise.nil⟩
    | succ n ih =>
        intro l hn
        have hne : l ≠ [] := by
          intro hnil
          simp [hnil] at hn
        -- the least element comes first
        rcases exists_minimal lt hne with ⟨a, ha, hmin⟩
        rcases List.append_of_mem ha with ⟨before, after, hl⟩
        have hperm : l.Perm (a :: (before ++ after)) := by
          rw [hl]
          exact List.perm_middle
        have hlength : (before ++ after).length = n := by
          have hlength := hperm.length_eq
          rw [List.length_cons] at hlength
          omega
        rcases ih (before ++ after) hlength with ⟨m, hm, hsorted⟩
        refine ⟨a :: m, hperm.trans (hm.cons a), List.pairwise_cons.mpr ⟨?_, hsorted⟩⟩
        intro b hb
        exact hmin b (hperm.mem_iff.mpr (List.mem_cons_of_mem a (hm.mem_iff.mpr hb)))
  exact hlength l.length l rfl

theorem exists_forall₂ {R : α → β → Prop} {l : List α} (htotal : ∀ a, a ∈ l → ∃ b, R a b) :
    ∃ l', List.Forall₂ R l l' := by
  induction l with
  | nil => exact ⟨[], List.Forall₂.nil⟩
  | cons a l ih =>
      rcases htotal a (by simp) with ⟨b, hb⟩
      rcases ih fun a ha => htotal a (List.mem_cons_of_mem _ ha) with ⟨l', hl'⟩
      exact ⟨b :: l', List.Forall₂.cons hb hl'⟩

theorem exists_arranges {R : α → β → Prop} {l : List α} (htotal : ∀ a, a ∈ l → ∃ b, R a b) :
    ∃ m, Arranges R lt l m := by
  rcases exists_forall₂ htotal with ⟨l', hl'⟩
  rcases exists_inOrder lt l' with ⟨m, hm, hsorted⟩
  exact ⟨m, l', hl', hm, hsorted⟩

end Existence

/-! ## Uniqueness -/

section Uniqueness

variable {lt : β → β → Prop} [IsStrictOrder β lt]

variable {l' m : List β}

/-- A list in which two neighbours may be swapped can be arranged in another way. In a list without
such neighbours, each element is less than those that come after it or equal to them. -/
theorem pairwise_or_exists_swap (hsorted : InOrder lt m) :
    (m.Pairwise fun a b => lt a b ∨ a = b) ∨ ∃ m', m.Perm m' ∧ InOrder lt m' ∧ m ≠ m' := by
  induction m with
  | nil => exact Or.inl List.Pairwise.nil
  | cons a m ih =>
      rcases List.pairwise_cons.mp hsorted with ⟨ha, hm⟩
      rcases ih hm with hpairwise | ⟨m', hperm, hsorted', hne⟩
      · cases m with
        | nil => exact Or.inl (List.pairwise_singleton _ a)
        | cons b m =>
            rcases List.pairwise_cons.mp hpairwise with ⟨hb, -⟩
            by_cases hab : lt a b ∨ a = b
            · refine Or.inl (List.pairwise_cons.mpr ⟨?_, hpairwise⟩)
              intro c hc
              rcases List.mem_cons.mp hc with heq | hc
              · rwa [heq]
              · rcases hab with hab | hab
                · rcases hb c hc with hbc | hbc
                  · exact Or.inl (trans_of lt hab hbc)
                  · rw [← hbc]
                    exact Or.inl hab
                · rw [hab]
                  exact hb c hc
            · refine Or.inr ⟨b :: a :: m, List.Perm.swap b a m, ?_, ?_⟩
              · refine List.pairwise_cons.mpr ⟨?_, List.pairwise_cons.mpr ⟨?_, ?_⟩⟩
                · intro c hc
                  rcases List.mem_cons.mp hc with heq | hc
                  · rw [heq]
                    exact fun h => hab (Or.inl h)
                  · exact (List.pairwise_cons.mp hm).1 c hc
                · intro c hc
                  exact ha c (List.mem_cons_of_mem b hc)
                · exact (List.pairwise_cons.mp hm).2
              · intro heq
                exact hab (Or.inr (List.cons.inj heq).1)
      · refine Or.inr ⟨a :: m', hperm.cons a, List.pairwise_cons.mpr ⟨?_, hsorted'⟩, ?_⟩
        · intro b hb
          exact ha b (hperm.mem_iff.mpr hb)
        · intro heq
          exact hne (List.cons.inj heq).2

omit [IsStrictOrder β lt] in
theorem eq_of_inOrder {m' : List β}
    (hcomparable : ∀ a, a ∈ m → ∀ b, b ∈ m → lt a b ∨ lt b a ∨ a = b) (hsorted : InOrder lt m)
    (hsorted' : InOrder lt m') (hperm : m.Perm m') : m = m' := by
  refine List.Perm.eq_of_pairwise ?_ hsorted hsorted' hperm
  intro a b ha hb hab hba
  have h := hcomparable a ha b (hperm.mem_iff.mpr hb)
  tauto

variable {l : List α} {R : α → β → Prop}

/-- What a list leads to is the same in all cases if it is so for all elements. -/
theorem eq_of_forall₂ (hunique : ∀ a, a ∈ l → ∀ b b', R a b → R a b' → b = b') {l'' : List β}
    (h : List.Forall₂ R l l') (h' : List.Forall₂ R l l'') : l' = l'' := by
  induction h generalizing l'' with
  | nil => exact (List.forall₂_nil_left_iff.mp h').symm
  | cons hb _ ih =>
      rcases List.forall₂_cons_left_iff.mp h' with ⟨b', m, hb', hm, heq⟩
      rw [heq, hunique _ (by simp) _ _ hb hb',
        ih (fun a ha => hunique a (List.mem_cons_of_mem _ ha)) hm]

theorem mem_of_forall₂ (h : List.Forall₂ R l l') {a : α} (ha : a ∈ l) :
    ∃ b, b ∈ l' ∧ R a b := by
  induction h with
  | nil => simp at ha
  | cons hb _ ih =>
      rcases List.mem_cons.mp ha with heq | ha
      · rw [heq]
        exact ⟨_, by simp, hb⟩
      · rcases ih ha with ⟨b, hb, hab⟩
        exact ⟨b, List.mem_cons_of_mem _ hb, hab⟩

theorem mem_of_forall₂_right (h : List.Forall₂ R l l') {b : β} (hb : b ∈ l') :
    ∃ a, a ∈ l ∧ R a b :=
  mem_of_forall₂ (List.Forall₂.flip h) hb

/-- The elements are determined if the arrangement is. -/
theorem unique_of_arranges (htotal : ∀ a, a ∈ l → ∃ b, R a b)
    (h : ∀ m m', Arranges R lt l m → Arranges R lt l m' → m = m') :
    ∀ a, a ∈ l → ∀ b b', R a b → R a b' → b = b' := by
  intro a ha b b' hb hb'
  rcases List.append_of_mem ha with ⟨before, after, hl⟩
  have htotalBefore : ∀ a, a ∈ before → ∃ b, R a b := by
    intro a ha
    exact htotal a (by simp [hl, ha])
  have htotalAfter : ∀ a, a ∈ after → ∃ b, R a b := by
    intro a ha
    exact htotal a (by simp [hl, ha])
  rcases exists_forall₂ htotalBefore with ⟨lbefore, hbefore⟩
  rcases exists_forall₂ htotalAfter with ⟨lafter, hafter⟩
  have harranges : ∀ b, R a b → ∃ m, (lbefore ++ b :: lafter).Perm m ∧ Arranges R lt l m := by
    intro b hb
    rcases exists_inOrder lt (lbefore ++ b :: lafter) with ⟨m, hperm, hsorted⟩
    refine ⟨m, hperm, lbefore ++ b :: lafter, ?_, hperm, hsorted⟩
    rw [hl]
    exact List.rel_append hbefore (List.Forall₂.cons hb hafter)
  rcases harranges b hb with ⟨m, hperm, hm⟩
  rcases harranges b' hb' with ⟨m', hperm', hm'⟩
  rw [← h m m' hm hm'] at hperm'
  have hcons : (b :: (lbefore ++ lafter)).Perm (b' :: (lbefore ++ lafter)) :=
    (List.perm_middle.symm.trans (hperm.trans hperm'.symm)).trans List.perm_middle
  rw [← Multiset.coe_eq_coe, ← Multiset.cons_coe, ← Multiset.cons_coe] at hcons
  exact (Multiset.cons_inj_left _).mp hcons

/-- There is one way to arrange a list if and only if the elements are determined and each two of
them can be compared or lead to the same. -/
theorem unique_arranges_iff (htotal : ∀ a, a ∈ l → ∃ b, R a b) :
    (∀ m m', Arranges R lt l m → Arranges R lt l m' → m = m') ↔
      (∀ a, a ∈ l → ∀ b b', R a b → R a b' → b = b') ∧
        ∀ a, a ∈ l → ∀ a', a' ∈ l → ∀ b b', R a b → R a' b' → lt b b' ∨ lt b' b ∨ b = b' := by
  constructor
  · intro h
    have hunique := unique_of_arranges htotal h
    refine ⟨hunique, ?_⟩
    intro a ha a' ha' b b' hb hb'
    rcases exists_arranges lt htotal with ⟨m, l', hl', hperm, hsorted⟩
    have hmem : ∀ a, a ∈ l → ∀ b, R a b → b ∈ m := by
      intro a ha b hb
      rcases mem_of_forall₂ hl' ha with ⟨c, hc, hac⟩
      rw [hunique a ha b c hb hac]
      exact hperm.mem_iff.mp hc
    rcases pairwise_or_exists_swap hsorted with hpairwise | ⟨m', hperm', hsorted', hne⟩
    · have hsymm : Std.Symm fun b b' : β => lt b b' ∨ lt b' b ∨ b = b' :=
        ⟨fun b b' h => by tauto⟩
      have hcomparable : m.Pairwise fun b b' => lt b b' ∨ lt b' b ∨ b = b' :=
        hpairwise.imp fun h => h.imp_right Or.inr
      by_cases hbb' : b = b'
      · exact Or.inr (Or.inr hbb')
      · exact hcomparable.forall (hmem a ha b hb) (hmem a' ha' b' hb') hbb'
    · exact absurd (h m m' ⟨l', hl', hperm, hsorted⟩ ⟨l', hl', hperm.trans hperm', hsorted'⟩) hne
  · intro h m m' hm hm'
    rcases h with ⟨hunique, hcomparable⟩
    rcases hm with ⟨l', hl', hperm, hsorted⟩
    rcases hm' with ⟨l'', hl'', hperm', hsorted'⟩
    rw [← eq_of_forall₂ hunique hl' hl''] at hperm'
    refine eq_of_inOrder ?_ hsorted hsorted' (hperm.symm.trans hperm')
    intro b hb b' hb'
    rcases mem_of_forall₂_right hl' (hperm.mem_iff.mpr hb) with ⟨a, ha, hab⟩
    rcases mem_of_forall₂_right hl' (hperm.mem_iff.mpr hb') with ⟨a', ha', hab'⟩
    exact hcomparable a ha a' ha' b b' hab hab'

/-- Each two elements can be compared or are alike. -/
def Comparable (lt E : α → α → Prop) (l : List α) : Prop :=
  ∀ a, a ∈ l → ∀ a', a' ∈ l → lt a a' ∨ lt a' a ∨ E a a'

/-- The same for an order that what the elements are before already knows, where those that lead to
the same are alike. -/
theorem unique_arranges_iff_comparable (lt' E : α → α → Prop) (htotal : ∀ a, a ∈ l → ∃ b, R a b)
    (hlt : ∀ a a' b b', R a b → R a' b' → (lt b b' ↔ lt' a a'))
    (halike : ∀ a, a ∈ l → ∀ a', E a a' ↔ ∃ b, R a b ∧ R a' b) :
    (∀ m m', Arranges R lt l m → Arranges R lt l m' → m = m') ↔
      (∀ a, a ∈ l → ∀ b b', R a b → R a b' → b = b') ∧ Comparable lt' E l := by
  rw [unique_arranges_iff htotal]
  refine and_congr_right fun hunique => ?_
  constructor
  · intro h a ha a' ha'
    rcases htotal a ha with ⟨b, hb⟩
    rcases htotal a' ha' with ⟨b', hb'⟩
    rcases h a ha a' ha' b b' hb hb' with hless | hless | heq
    · exact Or.inl ((hlt a a' b b' hb hb').mp hless)
    · exact Or.inr (Or.inl ((hlt a' a b' b hb' hb).mp hless))
    · rw [← heq] at hb'
      exact Or.inr (Or.inr ((halike a ha a').mpr ⟨b, hb, hb'⟩))
  · intro h a ha a' ha' b b' hb hb'
    rcases h a ha a' ha' with hless | hless | halike'
    · exact Or.inl ((hlt a a' b b' hb hb').mpr hless)
    · exact Or.inr (Or.inl ((hlt a' a b' b hb' hb).mpr hless))
    · rcases (halike a ha a').mp halike' with ⟨c, hc, hc'⟩
      rw [hunique a ha b c hb hc, hunique a' ha' b' c hb' hc']
      exact Or.inr (Or.inr rfl)

/-- Lists of elements that stay as they are. -/
theorem unique_arranges_eq_iff {l : List β} :
    (∀ m m', Arranges (· = ·) lt l m → Arranges (· = ·) lt l m' → m = m') ↔
      Comparable lt (· = ·) l := by
  rw [unique_arranges_iff_comparable lt (· = ·) (fun a _ => ⟨a, rfl⟩)]
  · constructor
    · exact fun h => h.2
    · intro h
      refine ⟨?_, h⟩
      intro a _ b b' hb hb'
      rw [← hb, ← hb']
  · intro a a' b b' hb hb'
    rw [hb, hb']
  · intro a _ a'
    constructor
    · intro h
      exact ⟨a, rfl, h.symm⟩
    · intro h
      rcases h with ⟨b, hb, hb'⟩
      rw [hb, hb']

end Uniqueness

/-! ## Arranging anew -/

/-- What a list leads to can be arranged as the list itself, if that is so for the elements. -/
theorem Arranges.trans_of {R : α → γ → Prop} {S : α → β → Prop} {T : γ → β → Prop}
    {lt : γ → γ → Prop} {lt' : β → β → Prop} {l : List α} {k : List γ} {m : List β}
    (h : Arranges R lt l k) (h' : Arranges S lt' l m)
    (helems : ∀ a, a ∈ l → ∀ c b, R a c → S a b → T c b) : Arranges T lt' k m := by
  rcases h with ⟨l', hl', hperm, -⟩
  rcases h' with ⟨l'', hl'', hperm', hsorted⟩
  have hforall : List.Forall₂ T l' l'' := by
    clear hperm hperm'
    induction hl' generalizing l'' with
    | nil =>
        rw [List.forall₂_nil_left_iff.mp hl'']
        exact List.Forall₂.nil
    | cons hc _ ih =>
        rcases List.forall₂_cons_left_iff.mp hl'' with ⟨b, n, hb, hn, heq⟩
        rw [heq]
        exact List.Forall₂.cons (helems _ (by simp) _ _ hc hb)
          (ih (fun a ha => helems a (List.mem_cons_of_mem _ ha)) n hn)
  rcases List.perm_comp_forall₂ hperm.symm hforall with ⟨n, hn, hperm''⟩
  exact ⟨n, hn, hperm''.trans hperm', hsorted⟩

theorem arranges_refl {R : α → α → Prop} {l : List α} (h : ∀ a, a ∈ l → R a a) :
    Arranges R (fun _ _ => False) l l :=
  ⟨l, List.forall₂_same.mpr h, List.Perm.refl l, inOrder_false l⟩

end Arrangement
