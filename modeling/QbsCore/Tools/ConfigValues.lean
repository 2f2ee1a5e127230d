import Mathlib.Data.List.TakeWhile
import Mathlib.Data.String.Basic
import QbsCore.Language.ConfigProperties

/-!
# Flat configuration values and their trees

A build configuration is a map from full names of properties to values.  In tree form the values
of a module are in a map of their own.

Main results:

- Theorem {lit}`ConfigValues.value_overlay`: values that are laid over others win.
- Theorem {lit}`ConfigValues.getConfigProperty_valuesTree`: each value is in the tree at the path
  of its name.
-/

namespace Qbs

/-- Values by their full names, in the order of the names. -/
structure ConfigValues where
  entries : VariantMap
  sorted : entries.Pairwise fun e f => e.1 < f.1

namespace ConfigValues

theorem ext_entries {m n : ConfigValues} (h : m.entries = n.entries) : m = n := by
  cases m
  cases n
  simpa using h

instance : DecidableEq ConfigValues := fun m n =>
  decidable_of_iff (m.entries = n.entries) ⟨ext_entries, congrArg entries⟩

def empty : ConfigValues where
  entries := []
  sorted := .nil

/-- The names that have a value. -/
def keys (m : ConfigValues) : List String :=
  m.entries.map Prod.fst

def value (m : ConfigValues) (key : String) : Variant :=
  m.entries.value key

theorem mem_insert_entries {m : VariantMap} {key : String} {v : Variant} {e : String × Variant}
    (h : e ∈ m.insert key v) : e = (key, v) ∨ e ∈ m := by
  induction m with
  | nil => simpa [VariantMap.insert] using h
  | cons f m ih =>
      obtain ⟨k, w⟩ := f
      rw [VariantMap.insert] at h
      split_ifs at h with hk hlt
      · rcases List.mem_cons.mp h with heq | hmem
        · exact .inl heq
        · exact .inr (List.mem_cons_of_mem _ hmem)
      · rcases List.mem_cons.mp h with heq | hmem
        · exact .inl heq
        · exact .inr hmem
      · rcases List.mem_cons.mp h with heq | hmem
        · exact .inr (List.mem_cons.mpr (.inl heq))
        · exact (ih hmem).imp id (List.mem_cons_of_mem _)

theorem sorted_insert {m : VariantMap} (h : m.Pairwise fun e f => e.1 < f.1) (key : String)
    (v : Variant) : (m.insert key v).Pairwise fun e f => e.1 < f.1 := by
  induction m with
  | nil => simp [VariantMap.insert]
  | cons f m ih =>
      obtain ⟨k, w⟩ := f
      obtain ⟨hfirst, hrest⟩ := List.pairwise_cons.mp h
      rw [VariantMap.insert]
      split_ifs with hk hlt
      · exact List.pairwise_cons.mpr ⟨fun e he => hk ▸ hfirst e he, hrest⟩
      · refine List.pairwise_cons.mpr ⟨fun e he => ?_, h⟩
        rcases List.mem_cons.mp he with rfl | he
        · exact hlt
        · exact hlt.trans (hfirst e he)
      · refine List.pairwise_cons.mpr ⟨fun e he => ?_, ih hrest⟩
        rcases mem_insert_entries he with rfl | he
        · exact lt_of_le_of_ne (not_lt.mp hlt) hk
        · exact hfirst e he

def insert (m : ConfigValues) (key : String) (v : Variant) : ConfigValues where
  entries := m.entries.insert key v
  sorted := sorted_insert m.sorted key v

theorem value_insert (m : ConfigValues) (key name : String) (v : Variant) :
    (m.insert key v).value name = if key = name then v else m.value name :=
  VariantMap.value_insert m.entries key name v

/-! ## Values over other values -/

/-- Insert the values of one map into another one. -/
def overlay (m upper : ConfigValues) : ConfigValues :=
  upper.entries.foldl (fun m e => m.insert e.1 e.2) m

theorem value_of_mem {m : VariantMap} (h : m.Pairwise fun e f => e.1 < f.1)
    {e : String × Variant} (he : e ∈ m) : m.value e.1 = e.2 := by
  induction m with
  | nil => simp at he
  | cons f m ih =>
      obtain ⟨k, w⟩ := f
      obtain ⟨hfirst, hrest⟩ := List.pairwise_cons.mp h
      rcases List.mem_cons.mp he with rfl | he
      · simp [VariantMap.value]
      · have hne : k ≠ e.1 := (hfirst e he).ne
        simpa [VariantMap.value, hne] using ih hrest he

/-- A value that is laid over others wins; the others are still there. -/
theorem value_overlay (m upper : ConfigValues) (key : String) :
    (m.overlay upper).value key = if key ∈ upper.keys then upper.value key else m.value key := by
  obtain ⟨entries, hsorted⟩ := upper
  simp only [overlay, keys]
  unfold value
  simp only
  induction entries generalizing m with
  | nil => simp
  | cons e entries ih =>
      obtain ⟨hfirst, hrest⟩ := List.pairwise_cons.mp hsorted
      have hinsert := value_insert m e.1 key e.2
      unfold value at hinsert
      rw [List.foldl_cons, ih _ hrest, hinsert]
      by_cases hkey : e.1 = key
      · have hnot : key ∉ entries.map Prod.fst := by
          intro hmem
          obtain ⟨f, hf, hfkey⟩ := List.mem_map.mp hmem
          exact (hfirst f hf).ne (hkey.trans hfkey.symm)
        simp [hnot, hkey, VariantMap.value]
      · have hmem : key ∈ (e :: entries).map Prod.fst ↔ key ∈ entries.map Prod.fst := by
          rw [List.map_cons, List.mem_cons, or_iff_right (Ne.symm hkey)]
        simp only [hmem, VariantMap.value, hkey, if_false]

theorem mem_keys_insert (m : ConfigValues) (key name : String) (v : Variant) :
    name ∈ (m.insert key v).keys ↔ name = key ∨ name ∈ m.keys := by
  unfold keys insert
  simp only
  induction m.entries with
  | nil => simp [VariantMap.insert]
  | cons f entries ih =>
      obtain ⟨k, w⟩ := f
      rw [VariantMap.insert]
      split_ifs with hk hlt
      · simp [hk]
      · simp
      · rw [List.map_cons, List.mem_cons, ih, List.map_cons, List.mem_cons]
        exact or_left_comm

theorem mem_keys_overlay (m upper : ConfigValues) (name : String) :
    name ∈ (m.overlay upper).keys ↔ name ∈ upper.keys ∨ name ∈ m.keys := by
  obtain ⟨entries, hsorted⟩ := upper
  simp only [overlay]
  rw [show (⟨entries, hsorted⟩ : ConfigValues).keys = entries.map Prod.fst from rfl]
  clear hsorted
  induction entries generalizing m with
  | nil => simp
  | cons e entries ih =>
      rw [List.foldl_cons, ih, mem_keys_insert, List.map_cons, List.mem_cons]
      exact or_left_comm.trans or_assoc.symm

/-! ## The tree -/

/-- The module and the property in a full name, or the name itself if it has no module. -/
def nameElements (name : String) : List String :=
  if '.' ∈ name.toList then
    [String.ofList ((name.toList.reverse.dropWhile fun c => c ≠ '.').drop 1).reverse,
      String.ofList (name.toList.reverse.takeWhile fun c => c ≠ '.').reverse]
  else [name]

/-- The values with those of each module in a map of their own. -/
def valuesTree (m : ConfigValues) : VariantMap :=
  m.entries.foldl (fun tree e => tree.setConfigProperty (nameElements e.1) e.2) []

/-- A name is split at its last dot. -/
theorem nameElements_cases (name : String) :
    nameElements name = [name] ∨
      ∃ module property, nameElements name = [module, property] ∧
        name = module ++ "." ++ property := by
  unfold nameElements
  split_ifs with hdot
  · right
    refine ⟨_, _, rfl, ?_⟩
    have hdrop : ∃ rest, name.toList.reverse.dropWhile (fun c => c ≠ '.') = '.' :: rest := by
      cases hrest : name.toList.reverse.dropWhile fun c => c ≠ '.' with
      | nil =>
          rw [List.dropWhile_eq_nil_iff] at hrest
          simpa using hrest '.' (List.mem_reverse.mpr hdot)
      | cons c rest =>
          have hne : name.toList.reverse.dropWhile (fun c => c ≠ '.') ≠ [] := by simp [hdot]
          have hhead := List.head_dropWhile_not _ hne
          simp only [hrest, List.head_cons] at hhead
          exact ⟨rest, by simpa using hhead⟩
    obtain ⟨rest, hrest⟩ := hdrop
    have hall := List.takeWhile_append_dropWhile (p := fun c => decide (c ≠ '.'))
      (l := name.toList.reverse)
    rw [hrest] at hall ⊢
    rw [← String.toList_inj]
    have hname := congrArg List.reverse hall
    simpa using hname.symm
  · exact .inl rfl

theorem nameElements_ne_nil (name : String) : nameElements name ≠ [] := by
  rcases nameElements_cases name with h | ⟨module, property, h, _⟩
  · simp [h]
  · simp [h]

theorem lt_append {s t : String} (h : t ≠ "") : s < s ++ t := by
  rw [String.lt_iff_toList_lt, String.toList_append]
  have hne : t.toList ≠ [] := by simpa using h
  induction s.toList with
  | nil =>
      obtain ⟨c, rest, hrest⟩ := List.exists_cons_of_ne_nil hne
      simp [hrest]
  | cons c rest ih => simpa using ih

/-- A later name with a module is not on the way to the property of an earlier name. -/
theorem unrelated_nameElements {key other : String} (hlt : key < other)
    (hextends : ∀ property, other = key ++ "." ++ property → nameElements key ≠ [key]) :
    NestedMaps.Unrelated (nameElements other) (nameElements key) := by
  rcases nameElements_cases key with hkey | ⟨module, property, hkey, hsplit⟩
  · rcases nameElements_cases other with hother | ⟨module', property', hother, hsplit'⟩
    · simp [NestedMaps.Unrelated, hkey, hother, hlt.ne, hlt.ne']
    · have hne : key ≠ module' := by
        intro heq
        exact hextends property' (heq ▸ hsplit') hkey
      simp [NestedMaps.Unrelated, hkey, hother, hne, hne.symm, List.cons_prefix_cons]
  · rcases nameElements_cases other with hother | ⟨module', property', hother, hsplit'⟩
    · have hne : other ≠ module := by
        intro heq
        have hback : other < key := by
          rw [hsplit, heq, String.append_assoc]
          exact lt_append (by simp)
        exact lt_asymm hlt hback
      simp [NestedMaps.Unrelated, hkey, hother, hne, hne.symm, List.cons_prefix_cons]
    · have hne : ¬ (module = module' ∧ property = property') := by
        rintro ⟨rfl, rfl⟩
        exact hlt.ne (hsplit.trans hsplit'.symm)
      simp only [NestedMaps.Unrelated, hkey, hother, List.cons_prefix_cons, List.nil_prefix,
        and_true]
      exact ⟨fun h => hne ⟨h.1.symm, h.2.symm⟩, hne⟩

/-- A value is in the tree at the path of its name, unless the name is also the one of a module
that has values. -/
theorem getConfigProperty_valuesTree {m : ConfigValues} {key : String} (hkey : key ∈ m.keys)
    (hmodule : ∀ property, key ++ "." ++ property ∈ m.keys → nameElements key ≠ [key]) :
    (valuesTree m).getConfigProperty (nameElements key) = m.value key := by
  obtain ⟨e, he, rfl⟩ := List.mem_map.mp hkey
  obtain ⟨earlier, later, hentries⟩ := List.append_of_mem he
  have hsorted := m.sorted
  rw [hentries, List.pairwise_append, List.pairwise_cons] at hsorted
  have hlater : ∀ property ∈ later.map fun f => (nameElements f.1, f.2),
      property.1 ≠ [] ∧ NestedMaps.Unrelated property.1 (nameElements e.1) := by
    intro property hproperty
    obtain ⟨f, hf, rfl⟩ := List.mem_map.mp hproperty
    refine ⟨nameElements_ne_nil f.1, unrelated_nameElements (hsorted.2.1.1 f hf) ?_⟩
    intro property hextends
    refine hmodule property (hextends ▸ ?_)
    exact List.mem_map_of_mem (hentries ▸ by simp [hf])
  have hvalue := (VariantMap.getConfigProperty_applyPerArtifactProperties []
    (earlier.map fun f => (nameElements f.1, f.2)) _ e.2 (nameElements_ne_nil e.1) hlater).2
  have htree : valuesTree m = VariantMap.applyPerArtifactProperties []
      ((earlier.map fun f => (nameElements f.1, f.2)) ++ (nameElements e.1, e.2) ::
        later.map fun f => (nameElements f.1, f.2)) := by
    simp [valuesTree, VariantMap.applyPerArtifactProperties, hentries, List.foldl_map]
  rw [htree, hvalue, value, value_of_mem m.sorted he]

end ConfigValues

end Qbs
