import QbsCore.Library.AssocMap
import Mathlib.Data.List.Induction
import Mathlib.Data.List.Perm.Subperm

/-!
# Comparing lists by keys

Change tracking compares two lists without regard to the order of their elements.
Each list is turned into a map from a key of each element to the element; the keys
need not be different for different elements.

Main results:

- Theorem {lit}`ListComparison.listsAreEqual_iff`: what the comparison checks.
- Theorems {lit}`ListComparison.exists_right`, {lit}`ListComparison.exists_left`:
  lists that compare equal have the same elements if the keys of the first list
  are distinct.
- Theorem {lit}`ListComparison.exists_equal_of_not_nodup`: otherwise some list with a
  foreign element compares equal.

Current gaps:

- None.
-/

namespace Qbs

namespace ListComparison

variable {V : Type}

/-- The map from keys to elements; a later element replaces an earlier one with the same key. -/
def listToMap (keyFromElem : V → String) (l : List V) : AssocMap String V :=
  l.foldl (fun m elem => AList.insert (keyFromElem elem) elem m) ∅

/-- Compare two lists. The key of an element may depend on the product that owns its list. -/
def listsAreEqual (key₁ key₂ : V → String) (equals : V → V → Bool) (l₁ l₂ : List V) : Bool :=
  if l₁.length ≠ l₂.length then false
  else
    let map₁ := listToMap key₁ l₁
    let map₂ := listToMap key₂ l₂
    map₁.keys.all fun key =>
      ((map₂.lookup key).bind fun value₂ =>
        (map₁.lookup key).map fun value₁ => equals value₁ value₂).getD false

variable {key key₁ key₂ : V → String} {equals : V → V → Bool} {l l₁ l₂ : List V}

/-! ## Lookup -/

/-- The map has the last element with a key. -/
theorem lookup_listToMap (k : String) :
    (listToMap key l).lookup k = l.reverse.find? fun e => decide (key e = k) := by
  induction l using List.reverseRecOn with
  | nil => rfl
  | append_singleton l e ih =>
      unfold listToMap at ih ⊢
      rw [List.foldl_append, List.foldl_cons, List.foldl_nil, List.reverse_append]
      by_cases hk : key e = k
      · rw [← hk, AList.lookup_insert]
        simp
      · rw [AList.lookup_insert_ne (Ne.symm hk), ih]
        simp [hk]

theorem mem_of_lookup {k : String} {e : V} (h : (listToMap key l).lookup k = some e) :
    e ∈ l ∧ key e = k := by
  rw [lookup_listToMap] at h
  exact ⟨List.mem_reverse.mp (List.mem_of_find?_eq_some h), by simpa using List.find?_some h⟩

theorem exists_lookup {e : V} (he : e ∈ l) : ∃ e', (listToMap key l).lookup (key e) = some e' := by
  rw [← Option.isSome_iff_exists, lookup_listToMap, List.find?_isSome]
  exact ⟨e, List.mem_reverse.mpr he, by simp⟩

/-- If the keys are distinct, each element is found under its key. -/
theorem lookup_of_nodup (hnodup : (l.map key).Nodup) {e : V} (he : e ∈ l) :
    (listToMap key l).lookup (key e) = some e := by
  rcases exists_lookup he with ⟨e', hlookup⟩
  rcases mem_of_lookup hlookup with ⟨he', hkey⟩
  rw [hlookup, List.inj_on_of_nodup_map hnodup he' he hkey]

/-! ## The comparison -/

/-- Equal lists have the same length, and the last elements with a key of the first list are
equal. -/
theorem listsAreEqual_iff :
    listsAreEqual key₁ key₂ equals l₁ l₂ = true ↔
      l₁.length = l₂.length ∧ ∀ k e₁, (listToMap key₁ l₁).lookup k = some e₁ →
        ∃ e₂, (listToMap key₂ l₂).lookup k = some e₂ ∧ equals e₁ e₂ = true := by
  unfold listsAreEqual
  by_cases hlength : l₁.length = l₂.length
  · simp only [hlength, ne_eq, not_true_eq_false, if_false, true_and, List.all_eq_true]
    constructor
    · intro h k e₁ he₁
      have hmem : k ∈ (listToMap key₁ l₁).keys :=
        AList.mem_keys.mpr (AList.lookup_isSome.mp (by rw [he₁]; rfl))
      have hk := h k hmem
      cases he₂ : (listToMap key₂ l₂).lookup k with
      | none => simp [he₂] at hk
      | some e₂ => exact ⟨e₂, rfl, by simpa [he₁, he₂] using hk⟩
    · intro h k hk
      have hsome : ((listToMap key₁ l₁).lookup k).isSome = true :=
        AList.lookup_isSome.mpr (AList.mem_keys.mp hk)
      rcases Option.isSome_iff_exists.mp hsome with ⟨e₁, he₁⟩
      rcases h k e₁ he₁ with ⟨e₂, he₂, hequals⟩
      simp [he₁, he₂, hequals]
  · simp [hlength]

section Nodup

variable (hequal : listsAreEqual key₁ key₂ equals l₁ l₂ = true) (hnodup : (l₁.map key₁).Nodup)
include hequal hnodup

/-- With distinct keys, each element of the first list is equal to one of the second list. -/
theorem exists_right {e₁ : V} (he₁ : e₁ ∈ l₁) :
    ∃ e₂, e₂ ∈ l₂ ∧ key₂ e₂ = key₁ e₁ ∧ equals e₁ e₂ = true := by
  have hlookup := lookup_of_nodup hnodup he₁
  rcases (listsAreEqual_iff.mp hequal).2 _ e₁ hlookup with ⟨e₂, he₂, hequals⟩
  rcases mem_of_lookup he₂ with ⟨hmem, hkey⟩
  exact ⟨e₂, hmem, hkey, hequals⟩

/-- With distinct keys, the second list has the same keys. -/
theorem keys_perm : (l₁.map key₁).Perm (l₂.map key₂) := by
  have hsubset : l₁.map key₁ ⊆ l₂.map key₂ := by
    intro k hk
    rcases List.mem_map.mp hk with ⟨e₁, he₁, rfl⟩
    rcases exists_right hequal hnodup he₁ with ⟨e₂, he₂, hkey, -⟩
    exact List.mem_map.mpr ⟨e₂, he₂, hkey⟩
  refine (List.subperm_of_subset hnodup hsubset).perm_of_length_le ?_
  rw [List.length_map, List.length_map, (listsAreEqual_iff.mp hequal).1]

/-- With distinct keys, each element of the second list is equal to one of the first list. -/
theorem exists_left {e₂ : V} (he₂ : e₂ ∈ l₂) :
    ∃ e₁, e₁ ∈ l₁ ∧ key₂ e₂ = key₁ e₁ ∧ equals e₁ e₂ = true := by
  have hperm := keys_perm hequal hnodup
  have hkey : key₂ e₂ ∈ l₁.map key₁ := hperm.mem_iff.mpr (List.mem_map.mpr ⟨e₂, he₂, rfl⟩)
  rcases List.mem_map.mp hkey with ⟨e₁, he₁, hk⟩
  rcases exists_right hequal hnodup he₁ with ⟨e₂', he₂', hk', hequals⟩
  have hsame := List.inj_on_of_nodup_map (hperm.nodup_iff.mp hnodup) he₂' he₂ (hk'.trans hk)
  exact ⟨e₁, he₁, hk.symm, hsame ▸ hequals⟩

end Nodup

section Replaced

variable {f : V → V} (hkey : ∀ e, key (f e) = key e)
include hkey

theorem lookup_map (k : String) :
    (listToMap key (l.map f)).lookup k = ((listToMap key l).lookup k).map f := by
  have hcongr : ((fun e => decide (key e = k)) ∘ f) = fun e => decide (key e = k) := by
    funext e
    simp [hkey]
  rw [lookup_listToMap, lookup_listToMap, ← List.map_reverse, List.find?_map, hcongr]

/-- A list is equal to the list of elements that are equal to its elements and have their keys. -/
theorem listsAreEqual_map
    (hf : ∀ k e, (listToMap key l).lookup k = some e → equals e (f e) = true) :
    listsAreEqual key key equals l (l.map f) = true := by
  rw [listsAreEqual_iff]
  refine ⟨by simp, ?_⟩
  intro k e hlookup
  refine ⟨f e, ?_, hf k e hlookup⟩
  rw [lookup_map hkey, hlookup, Option.map_some]

end Replaced

/-- The order of a second list with distinct keys does not matter. -/
theorem listsAreEqual_of_perm {l₂' : List V} (hnodup : (l₂.map key₂).Nodup) (hperm : l₂.Perm l₂')
    (h : listsAreEqual key₁ key₂ equals l₁ l₂ = true) :
    listsAreEqual key₁ key₂ equals l₁ l₂' = true := by
  rw [listsAreEqual_iff] at h ⊢
  refine ⟨h.1.trans hperm.length_eq, ?_⟩
  intro k e₁ hlookup
  rcases h.2 k e₁ hlookup with ⟨e₂, he₂, hequals⟩
  rcases mem_of_lookup he₂ with ⟨hmem, rfl⟩
  have hnodup' : (l₂'.map key₂).Nodup := (hperm.map key₂).nodup_iff.mp hnodup
  exact ⟨e₂, lookup_of_nodup hnodup' (hperm.mem_iff.mp hmem), hequals⟩

/-! ## Repeated keys -/

theorem exists_shadowed (h : ¬(l.map key).Nodup) :
    ∃ before e after, l = before ++ e :: after ∧ ∃ e', e' ∈ after ∧ key e' = key e := by
  induction l with
  | nil => simp at h
  | cons e l ih =>
      by_cases hmem : key e ∈ l.map key
      · rcases List.mem_map.mp hmem with ⟨e', he', hkey⟩
        exact ⟨[], e, l, rfl, e', he', hkey⟩
      · have hl : ¬(l.map key).Nodup := by
          intro hnodup
          exact h (by rw [List.map_cons, List.nodup_cons]; exact ⟨hmem, hnodup⟩)
        rcases ih hl with ⟨before, e'', after, rfl, hafter⟩
        exact ⟨e :: before, e'', after, rfl, hafter⟩

/-- If two elements of a list have the same key, the first of them can be replaced by a foreign
element. -/
theorem exists_lookup_of_not_nodup (h : ¬(l.map key).Nodup) {x : V}
    (hx : ∀ e, e ∈ l → key e ≠ key x) :
    ∃ l₂, l₂.length = l.length ∧ x ∈ l₂ ∧ (∀ e, e ∈ l₂ → e = x ∨ e ∈ l) ∧
      ∀ k e, (listToMap key l).lookup k = some e → (listToMap key l₂).lookup k = some e := by
  rcases exists_shadowed h with ⟨before, e, after, rfl, e', he', hkey⟩
  refine ⟨before ++ x :: after, by simp, by simp, ?_, ?_⟩
  · intro y hy
    rcases List.mem_append.mp hy with hy | hy
    · exact Or.inr (List.mem_append_left _ hy)
    · rcases List.mem_cons.mp hy with rfl | hy
      · exact Or.inl rfl
      · exact Or.inr (List.mem_append_right _ (List.mem_cons_of_mem e hy))
  · intro k v hlookup
    rcases mem_of_lookup hlookup with ⟨hv, hvk⟩
    have hxk : key x ≠ k := fun hxk => hx v hv (hvk.trans hxk.symm)
    rw [lookup_listToMap, List.reverse_append, List.reverse_cons, List.append_assoc,
      List.find?_append] at hlookup ⊢
    by_cases hek : key e = k
    · -- The later element with the key is found, whatever stands before it.
      have hfound : (after.reverse.find? fun e => decide (key e = k)).isSome = true := by
        rw [List.find?_isSome]
        exact ⟨e', List.mem_reverse.mpr he', by simpa using hkey.trans hek⟩
      rcases Option.isSome_iff_exists.mp hfound with ⟨w, hw⟩
      rw [hw] at hlookup ⊢
      exact hlookup
    · simpa [List.find?_append, hek, hxk] using hlookup

/-- If two elements of a list have the same key, some list with a foreign element compares equal. -/
theorem exists_equal_of_not_nodup {f : V → V} (hkey : ∀ e, key (f e) = key e)
    (hf : ∀ k e, (listToMap key l).lookup k = some e → equals e (f e) = true)
    (h : ¬(l.map key).Nodup) {x : V} (hx : ∀ e, e ∈ l → key e ≠ key x) :
    ∃ l₂, listsAreEqual key key equals l l₂ = true ∧ f x ∈ l₂ ∧
      ∀ e, e ∈ l₂ → e = f x ∨ ∃ e', e' ∈ l ∧ e = f e' := by
  rcases exists_lookup_of_not_nodup h hx with ⟨l₂, hlength, hmem, hold, hlookup⟩
  refine ⟨l₂.map f, ?_, List.mem_map.mpr ⟨x, hmem, rfl⟩, ?_⟩
  · rw [listsAreEqual_iff]
    refine ⟨by rw [List.length_map, hlength], ?_⟩
    intro k e he
    exact ⟨f e, by rw [lookup_map hkey, hlookup k e he, Option.map_some], hf k e he⟩
  · intro e he
    rcases List.mem_map.mp he with ⟨e', he', rfl⟩
    rcases hold e' he' with rfl | hl
    · exact Or.inl rfl
    · exact Or.inr ⟨e', hl, rfl⟩

end ListComparison

end Qbs
