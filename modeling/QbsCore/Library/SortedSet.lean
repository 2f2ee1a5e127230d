import Mathlib.Data.List.Sort
import Mathlib.Order.Basic

/-!
# Sets kept as sorted vectors

A finite set over a linear order, represented by the strictly ascending list of
its elements.  The order of iteration is the order of the elements, two sets
with the same elements are equal, and every operation computes.

Main results:

- Theorem {lit}`SortedSet.ext`: sets with the same members are equal.
- Theorems {lit}`SortedSet.mem_insert`, {lit}`SortedSet.mem_remove`,
  {lit}`SortedSet.mem_filter`, {lit}`SortedSet.mem_unite`,
  {lit}`SortedSet.mem_subtract` and {lit}`SortedSet.mem_ofList`: membership after
  each operation.
- Theorem {lit}`SortedSet.size_remove_lt`: removing a member shrinks the set.

Current gaps:

- None for the operations above.
-/

/-- A finite set, stored as the strictly ascending list of its elements. -/
structure SortedSet (α : Type*) [LinearOrder α] where
  elems : List α
  sorted : elems.Pairwise (· < ·)

namespace SortedSet

variable {α : Type*} [LinearOrder α]

instance : Membership α (SortedSet α) where
  mem s a := a ∈ s.elems

instance (a : α) (s : SortedSet α) : Decidable (a ∈ s) :=
  inferInstanceAs (Decidable (a ∈ s.elems))

variable {l : List α} {s t : SortedSet α} {a b : α}

theorem mem_def : a ∈ s ↔ a ∈ s.elems :=
  Iff.rfl

theorem elems_injective (h : s.elems = t.elems) : s = t := by
  cases s
  cases t
  cases h
  rfl

instance : DecidableEq (SortedSet α) := fun s t =>
  decidable_of_iff (s.elems = t.elems) ⟨elems_injective, fun h => h ▸ rfl⟩

theorem nodup (s : SortedSet α) : s.elems.Nodup :=
  s.sorted.imp fun h => ne_of_lt h

/-- Sets with the same members are equal. -/
@[ext]
theorem ext (h : ∀ a, a ∈ s ↔ a ∈ t) : s = t := by
  apply elems_injective
  have hperm : s.elems.Perm t.elems :=
    (List.perm_ext_iff_of_nodup s.nodup t.nodup).mpr h
  exact hperm.eq_of_pairwise (fun _ _ _ _ hab hba => absurd hba (lt_asymm hab))
    s.sorted t.sorted

instance : EmptyCollection (SortedSet α) where
  emptyCollection := ⟨[], List.Pairwise.nil⟩

instance : Inhabited (SortedSet α) where
  default := ∅

@[simp]
theorem elems_empty : (∅ : SortedSet α).elems = [] :=
  rfl

@[simp]
theorem not_mem_empty (a : α) : a ∉ (∅ : SortedSet α) := by
  simp [mem_def]

/-- Whether the set has no element. -/
def isEmpty (s : SortedSet α) : Bool :=
  s.elems.isEmpty

theorem isEmpty_iff : s.isEmpty = true ↔ s = ∅ := by
  constructor
  · intro h
    exact elems_injective (List.isEmpty_iff.mp h)
  · rintro rfl
    rfl

theorem isEmpty_iff_forall : s.isEmpty = true ↔ ∀ a, a ∉ s := by
  rw [isEmpty_iff]
  constructor
  · rintro rfl
    exact not_mem_empty
  · intro h
    ext a
    simp [h a]

theorem isEmpty_eq_false_iff : s.isEmpty = false ↔ ∃ a, a ∈ s := by
  rw [← Bool.not_eq_true, isEmpty_iff_forall]
  push Not
  rfl

/-! ## Insertion and removal -/

/-- Insertion at the lower bound of the new element; nothing happens when the
element is there. -/
def insertElems (a : α) : List α → List α
  | [] => [a]
  | b :: l => if a < b then a :: b :: l else if b < a then b :: insertElems a l else b :: l

theorem mem_insertElems :
    b ∈ insertElems a l ↔ b = a ∨ b ∈ l := by
  induction l with
  | nil => simp [insertElems]
  | cons c l ih =>
      unfold insertElems
      split
      · simp
      · split
        · simp only [List.mem_cons, ih]
          tauto
        · next hac hca =>
            have hEq : a = c := le_antisymm (not_lt.mp hca) (not_lt.mp hac)
            subst hEq
            simp only [List.mem_cons]
            tauto

theorem sorted_insertElems (h : l.Pairwise (· < ·)) :
    (insertElems a l).Pairwise (· < ·) := by
  induction l with
  | nil => simp [insertElems]
  | cons c l ih =>
      have hc := List.pairwise_cons.mp h
      unfold insertElems
      split
      · next hac =>
          refine List.pairwise_cons.mpr ⟨?_, h⟩
          intro b hb
          rcases List.mem_cons.mp hb with rfl | hb
          · exact hac
          · exact hac.trans (hc.1 b hb)
      · split
        · next hca =>
            refine List.pairwise_cons.mpr ⟨?_, ih hc.2⟩
            intro b hb
            rcases mem_insertElems.mp hb with rfl | hb
            · exact hca
            · exact hc.1 b hb
        · exact h

instance : Insert α (SortedSet α) where
  insert a s := ⟨insertElems a s.elems, sorted_insertElems s.sorted⟩

instance : Singleton α (SortedSet α) where
  singleton a := insert a ∅

@[simp]
theorem mem_insert : b ∈ insert a s ↔ b = a ∨ b ∈ s :=
  mem_insertElems

@[simp]
theorem mem_singleton : b ∈ ({a} : SortedSet α) ↔ b = a := by
  change b ∈ insert a ∅ ↔ b = a
  simp

theorem mem_insert_self (a : α) (s : SortedSet α) : a ∈ insert a s :=
  mem_insert.mpr (Or.inl rfl)

/-- The elements that satisfy a test. -/
def filter (p : α → Bool) (s : SortedSet α) : SortedSet α :=
  ⟨s.elems.filter p, s.sorted.filter p⟩

@[simp]
theorem mem_filter {p : α → Bool} :
    a ∈ s.filter p ↔ a ∈ s ∧ p a = true :=
  List.mem_filter

/-- Take one element out. -/
def remove (s : SortedSet α) (a : α) : SortedSet α :=
  s.filter fun b => b ≠ a

@[simp]
theorem mem_remove : b ∈ s.remove a ↔ b ∈ s ∧ b ≠ a := by
  simp [remove]

/-- Number of elements. -/
def size (s : SortedSet α) : Nat :=
  s.elems.length

theorem size_le_of_subset (h : ∀ a, a ∈ s → a ∈ t) : s.size ≤ t.size :=
  (List.subperm_of_subset s.nodup h).length_le

/-- Removing a member makes the set smaller. -/
theorem size_remove_lt (h : a ∈ s) :
    (s.remove a).size < s.size := by
  apply List.length_filter_lt_length_iff_exists.mpr
  exact ⟨a, h, by simp⟩

theorem size_lt_of_subset (h : ∀ a, a ∈ s → a ∈ t) (hb : b ∈ t) (hbs : b ∉ s) :
    s.size < t.size := by
  refine lt_of_le_of_lt (size_le_of_subset ?_) (size_remove_lt hb)
  intro a ha
  refine mem_remove.mpr ⟨h a ha, ?_⟩
  rintro rfl
  exact hbs ha

/-! ## Set algebra -/

/-- Union. -/
def unite (s t : SortedSet α) : SortedSet α :=
  t.elems.foldl (fun acc a => insert a acc) s

theorem mem_foldl_insert :
    a ∈ l.foldl (fun acc b => insert b acc) s ↔ a ∈ s ∨ a ∈ l := by
  induction l generalizing s with
  | nil => simp
  | cons b l ih =>
      simp only [List.foldl_cons, ih, mem_insert, List.mem_cons]
      tauto

@[simp]
theorem mem_unite : a ∈ s.unite t ↔ a ∈ s ∨ a ∈ t :=
  mem_foldl_insert

/-- Difference. -/
def subtract (s t : SortedSet α) : SortedSet α :=
  s.filter fun a => a ∉ t

@[simp]
theorem mem_subtract : a ∈ s.subtract t ↔ a ∈ s ∧ a ∉ t := by
  simp [subtract]

/-- Whether two sets share an element. -/
def intersects (s t : SortedSet α) : Bool :=
  s.elems.any fun a => a ∈ t

theorem intersects_iff :
    s.intersects t = true ↔ ∃ a, a ∈ s ∧ a ∈ t := by
  simp [intersects, mem_def]

/-- The set of the elements of a list. -/
def ofList (l : List α) : SortedSet α :=
  l.foldl (fun acc a => insert a acc) ∅

@[simp]
theorem mem_ofList : a ∈ ofList l ↔ a ∈ l := by
  simp [ofList, mem_foldl_insert]

/-! ## Counting -/

theorem length_eq_filter_add_filter (l : List α) (s : SortedSet α) :
    l.length = (l.filter fun a => a ∈ s).length + (l.filter fun a => a ∉ s).length := by
  have h := List.length_eq_length_filter_add (l := l) fun a => decide (a ∈ s)
  simpa using h

/-- Distinct elements are no more than the members of a set and those outside of it. -/
theorem length_le_size_add_filter (hl : l.Nodup) (s : SortedSet α) :
    l.length ≤ s.size + (l.filter fun a => a ∉ s).length := by
  have hsub : (l.filter fun a => a ∈ s).length ≤ s.size := by
    apply List.Subperm.length_le
    apply List.subperm_of_subset (hl.filter _)
    intro a ha
    exact of_decide_eq_true (List.mem_filter.mp ha).2
  have hsplit := length_eq_filter_add_filter l s
  omega

/-- If distinct elements are as many as that, they include the set. -/
theorem mem_of_size_add_filter_le (hl : l.Nodup)
    (h : s.size + (l.filter fun a => a ∉ s).length ≤ l.length) (ha : a ∈ s) : a ∈ l := by
  have hsplit := length_eq_filter_add_filter l s
  have hsub : List.Subperm (l.filter fun a => a ∈ s) s.elems := by
    apply List.subperm_of_subset (hl.filter _)
    intro b hb
    exact of_decide_eq_true (List.mem_filter.mp hb).2
  have hperm : List.Perm (l.filter fun a => a ∈ s) s.elems := by
    apply hsub.perm_of_length_le
    change s.size ≤ _
    omega
  exact (List.mem_filter.mp (hperm.mem_iff.mpr ha)).1

/-- The numbers below a bound. -/
def range (n : Nat) : SortedSet Nat :=
  ⟨List.range n, List.pairwise_lt_range⟩

@[simp]
theorem mem_range {n k : Nat} : k ∈ range n ↔ k < n :=
  List.mem_range

@[simp]
theorem size_range (n : Nat) : (range n).size = n :=
  List.length_range

end SortedSet
