import QbsCore.Library.AssocMap
import Mathlib.Data.List.Forall2
import Mathlib.Data.List.Perm.Basic

/-!
# Entries in the order of their addresses

A map whose keys are addresses is walked in an order that nobody has chosen.  Two such maps can
be compared entry by entry; the outcome then depends on the addresses unless no order makes
the entries match or all orders do.

Main results:

- Theorem {lit}`AddressOrder.exists_inOrder_eq`: every order is that of some addresses.
- Theorem {lit}`AddressOrder.all_of_forall₂`: if the entries match in every order, all of them match
  each other.

Current gaps:

- None.
-/

namespace AddressOrder

variable {ε ε' κ κ' : Type*}

/-- The entries in the order of the addresses of their keys. -/
def inOrder (key : ε → κ) (addr : κ → Nat) (entries : List ε) : List ε :=
  entries.mergeSort fun e e' => addr (key e) ≤ addr (key e')

/-- The keys of different entries have different addresses. -/
def Distinct (key : ε → κ) (addr : κ → Nat) (entries : List ε) : Prop :=
  (entries.map fun e => addr (key e)).Nodup

theorem inOrder_perm (key : ε → κ) (addr : κ → Nat) (entries : List ε) :
    (inOrder key addr entries).Perm entries :=
  List.mergeSort_perm entries _

/-- Every order of entries with different keys is the one of some addresses. -/
theorem exists_inOrder_eq [DecidableEq κ] {key : ε → κ} {entries order : List ε}
    (hkeys : (entries.map key).Nodup) (horder : order.Perm entries) :
    ∃ addr, Distinct key addr entries ∧ inOrder key addr entries = order := by
  let addr : κ → Nat := fun k => (order.map key).idxOf k
  have hmem : ∀ e, e ∈ entries → key e ∈ order.map key := by
    intro e he
    exact List.mem_map_of_mem (horder.mem_iff.mpr he)
  have hinj : ∀ e e', e ∈ entries → e' ∈ entries → addr (key e) = addr (key e') → e = e' := by
    intro e e' he he' heq
    have hkey : key e = key e' := (List.idxOf_inj (hmem e he)).mp heq
    exact List.inj_on_of_nodup_map hkeys he he' hkey
  have hnodup : Distinct key addr entries :=
    List.Nodup.map_on (fun e he e' he' heq => hinj e e' he he' heq) hkeys.of_map
  refine ⟨addr, hnodup, ?_⟩
  have hsorted : (inOrder key addr entries).Pairwise fun e e' => addr (key e) ≤ addr (key e') :=
    AssocMap.pairwise_mergeSort_key (fun e => addr (key e)) entries
  have hpositions : order.Pairwise fun e e' => addr (key e) ≤ addr (key e') := by
    have horderKeys : (order.map key).Nodup := (horder.map key).nodup_iff.mpr hkeys
    rw [List.pairwise_iff_getElem]
    intro i j hi hj hij
    have haddr (k : Nat) (hk : k < order.length) : addr (key (order[k])) = k := by
      have hget : (order.map key).get ⟨k, by simpa using hk⟩ = key (order[k]) := by simp
      show (order.map key).idxOf (key (order[k])) = k
      rw [← hget]
      exact horderKeys.idxOf_getElem k (by simpa using hk)
    rw [haddr i hi, haddr j hj]
    exact Nat.le_of_lt hij
  have hperm : (inOrder key addr entries).Perm order :=
    (inOrder_perm key addr entries).trans horder.symm
  refine hperm.eq_of_pairwise (fun e e' he he' hle hle' => ?_) hsorted hpositions
  exact hinj e e' ((inOrder_perm key addr entries).mem_iff.mp he) (horder.mem_iff.mp he')
    (Nat.le_antisymm hle hle')

/-! ## Comparison entry by entry -/

variable {R : ε → ε' → Prop} {l : List ε} {l' : List ε'}

/-- The entries can be matched one by one. -/
def Matching (R : ε → ε' → Prop) (l : List ε) (l' : List ε') : Prop :=
  ∃ p, p.Perm l' ∧ List.Forall₂ R l p

theorem matching_of_perm {p : List ε} {p' : List ε'} (hp : p.Perm l) (hp' : p'.Perm l')
    (h : List.Forall₂ R p p') : Matching R l l' := by
  rcases List.perm_comp_forall₂ hp.symm h with ⟨q, hq, hperm⟩
  exact ⟨q, hperm.trans hp', hq⟩

/-- If all entries match each other, every order matches. -/
theorem forall₂_of_all (hlength : l.length = l'.length) (h : ∀ e, e ∈ l → ∀ e', e' ∈ l' → R e e') :
    List.Forall₂ R l l' := by
  rw [List.forall₂_iff_zip]
  refine ⟨hlength, fun {e e'} hzip => ?_⟩
  exact h e (List.of_mem_zip hzip).1 e' (List.of_mem_zip hzip).2

/-- If every order matches, all entries match each other. -/
theorem all_of_forall₂ [DecidableEq ε] [DecidableEq ε']
    (h : ∀ p p', p.Perm l → p'.Perm l' → List.Forall₂ R p p') :
    ∀ e, e ∈ l → ∀ e', e' ∈ l' → R e e' := by
  intro e he e' he'
  have hfirst := h (e :: l.erase e) (e' :: l'.erase e') (List.perm_cons_erase he).symm
    (List.perm_cons_erase he').symm
  exact (List.forall₂_cons.mp hfirst).1

end AddressOrder
