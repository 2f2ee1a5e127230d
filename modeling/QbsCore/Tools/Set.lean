import Mathlib.Data.Finset.Sort
import Mathlib.Data.List.Destutter
import QbsCore.Library.SortedSet

/-!
# Sets over a vector

The class template for sets keeps its elements in a vector that all lookups and all loops
with two cursors take to be strictly ascending.  A cursor is modelled by what is in the
vector from its position on.

Main results:

- Theorem {lit}`SetData.Represents.unite` and its companions: each operation on vectors that
  represent sets gives a vector that represents the right set.
- Theorem {lit}`SetData.represents_ofRange_iff`: a range must not have duplicates.

Current gaps:

- Loading from and storing to a build graph file is part of the serialization model.
-/

namespace Qbs

/-- The vector of a set. -/
abbrev SetData (α : Type*) := List α

namespace SetData

variable {α : Type*} [LinearOrder α]

/-! ## Constructors -/

/-- Sort the elements and take out repeated ones. -/
def ofInitializerList (list : List α) : SetData α :=
  (list.insertionSort (· ≤ ·)).destutter (· ≠ ·)

/-- Copy the elements of a range and sort them. -/
def ofRange (range : List α) : SetData α :=
  range.insertionSort (· ≤ ·)

/-! ## Operations with one element -/

/-- The part of a vector before the lower bound of an element. -/
def beforeLowerBound (data : SetData α) (v : α) : SetData α :=
  data.takeWhile (· < v)

/-- The part of a vector from the lower bound of an element on. -/
def fromLowerBound (data : SetData α) (v : α) : SetData α :=
  data.dropWhile (· < v)

/-- Insert an element; the flag tells whether it is new. -/
def insert (data : SetData α) (v : α) : SetData α × Bool :=
  match data.fromLowerBound v with
  | [] => (data.beforeLowerBound v ++ [v], true)
  | x :: rest =>
      if v < x then (data.beforeLowerBound v ++ v :: x :: rest, true) else (data, false)

/-- Binary search. -/
def contains (data : SetData α) (v : α) : Bool :=
  match data.fromLowerBound v with
  | [] => false
  | x :: _ => !(v < x)

/-- Remove an element; the flag tells whether it was there. -/
def remove (data : SetData α) (v : α) : SetData α × Bool :=
  match data.fromLowerBound v with
  | [] => (data, false)
  | x :: rest => if v < x then (data, false) else (data.beforeLowerBound v ++ rest, true)

/-- Remove the elements between two iterators. -/
def eraseRange (data : SetData α) (first last : Nat) : SetData α :=
  data.take first ++ data.drop last

/-! ## Operations with another set -/

/-- The loop of unite, from the cursors on. -/
def uniteFrom : SetData α → SetData α → SetData α
  | data, [] => data
  | data, o :: other =>
      data.beforeLowerBound o ++
        match data.fromLowerBound o with
        | [] => o :: other
        | x :: rest => if o < x then uniteFrom (o :: x :: rest) other else uniteFrom (x :: rest) other

/-- Union in place. -/
def unite (data other : SetData α) : SetData α :=
  if other = [] then data else if data = [] then other else uniteFrom data other

/-- The loop of subtract, from the cursors on. -/
def subtractFrom : SetData α → SetData α → SetData α
  | data, [] => data
  | data, o :: other =>
      data.beforeLowerBound o ++
        match data.fromLowerBound o with
        | [] => []
        | x :: rest => if o < x then subtractFrom (x :: rest) other else subtractFrom rest other

/-- Difference in place. -/
def subtract (data other : SetData α) : SetData α :=
  if data = [] ∨ other = [] then data else subtractFrom data other

/-- Intersection in place, from the cursors on. -/
def intersect : SetData α → SetData α → SetData α
  | [], _ => []
  | _ :: _, [] => []
  | x :: data, o :: other =>
      if x < o then intersect data (o :: other)
      else if o < x then intersect (x :: data) other
      else x :: intersect data other
termination_by data other => data.length + other.length

/-- Whether another set is a subset, from the cursors on. -/
def containsSet : SetData α → SetData α → Bool
  | _, [] => true
  | [], _ :: _ => false
  | x :: data, o :: other =>
      if o < x then false
      else if x < o then containsSet data (o :: other)
      else containsSet data other

/-- Whether two sets share an element, from the cursors on. -/
def intersects : SetData α → SetData α → Bool
  | [], _ => false
  | _ :: _, [] => false
  | x :: data, o :: other =>
      if x < o then intersects data (o :: other)
      else if o < x then intersects (x :: data) other
      else true
termination_by data other => data.length + other.length

/-- The operators for unions make a copy. -/
def plus (set1 set2 : SetData α) : SetData α :=
  set1.unite set2

/-- The loop of the operator for differences, from the cursors on. -/
def minusFrom : SetData α → SetData α → SetData α
  | [], _ => []
  | x :: set1, [] => x :: set1
  | x :: set1, y :: set2 =>
      if x < y then x :: minusFrom set1 (y :: set2)
      else if y < x then minusFrom (x :: set1) set2
      else minusFrom set1 set2
termination_by set1 set2 => set1.length + set2.length

/-- The operator for differences. -/
def minus (set1 set2 : SetData α) : SetData α :=
  if set1 = [] ∨ set2 = [] then set1 else minusFrom set1 set2

/-- The operator for intersections, from the cursors on. -/
def conj : SetData α → SetData α → SetData α
  | [], _ => []
  | _ :: _, [] => []
  | x :: set1, y :: set2 =>
      if x < y then conj set1 (y :: set2)
      else if y < x then conj (x :: set1) set2
      else x :: conj set1 set2
termination_by set1 set2 => set1.length + set2.length

/-! ## The lower bound -/

theorem beforeLowerBound_append (data : SetData α) (v : α) :
    data.beforeLowerBound v ++ data.fromLowerBound v = data :=
  List.takeWhile_append_dropWhile

variable {data : SetData α}

theorem lt_of_mem_beforeLowerBound {v x : α} (h : x ∈ data.beforeLowerBound v) : x < v :=
  of_decide_eq_true (List.all_eq_true.mp List.all_takeWhile x h)

/-- From the lower bound on, no element of a sorted vector is less. -/
theorem le_of_mem_fromLowerBound (hdata : data.Pairwise (· < ·)) {v x : α}
    (h : x ∈ data.fromLowerBound v) : v ≤ x := by
  unfold fromLowerBound at h
  induction data with
  | nil => simp at h
  | cons y data ih =>
      have hcons := List.pairwise_cons.mp hdata
      by_cases hy : y < v
      · rw [List.dropWhile_cons_of_pos (by simpa using hy)] at h
        exact ih hcons.2 h
      · rw [List.dropWhile_cons_of_neg (by simpa using hy)] at h
        have hvy : v ≤ y := not_lt.mp hy
        rcases List.mem_cons.mp h with heq | hmem
        · rw [heq]
          exact hvy
        · exact hvy.trans (hcons.1 x hmem).le

theorem fromLowerBound_pairwise (hdata : data.Pairwise (· < ·)) (v : α) :
    (data.fromLowerBound v).Pairwise (· < ·) :=
  hdata.sublist (List.dropWhile_sublist _)

theorem beforeLowerBound_pairwise (hdata : data.Pairwise (· < ·)) (v : α) :
    (data.beforeLowerBound v).Pairwise (· < ·) :=
  hdata.sublist (List.takeWhile_sublist _)

/-! ## Vectors that represent a set -/

/-- A vector is strictly ascending and has the elements of a mathematical set. -/
structure Represents (data : SetData α) (set : Finset α) : Prop where
  sorted : data.Pairwise (· < ·)
  mem_iff : ∀ v, v ∈ data ↔ v ∈ set

variable {data other : SetData α} {set set' : Finset α} {v : α}

theorem represents_nil : Represents ([] : SetData α) ∅ :=
  ⟨List.Pairwise.nil, by simp⟩

theorem Represents.nodup (h : Represents data set) : data.Nodup :=
  h.sorted.imp ne_of_lt

theorem Represents.toFinset_eq (h : Represents data set) : data.toFinset = set := by
  ext v
  rw [List.mem_toFinset, h.mem_iff]

/-- There is one vector for each set. -/
theorem Represents.unique (h : Represents data set) (h' : Represents other set) :
    data = other := by
  have hperm : data.Perm other := by
    rw [List.perm_ext_iff_of_nodup h.nodup h'.nodup]
    intro v
    rw [h.mem_iff, h'.mem_iff]
  exact hperm.eq_of_pairwise (fun _ _ _ _ hab hba => absurd hba (lt_asymm hab)) h.sorted h'.sorted

theorem Represents.eq_iff (h : Represents data set) (h' : Represents other set') :
    data = other ↔ set = set' := by
  constructor
  · intro heq
    rw [← h.toFinset_eq, ← h'.toFinset_eq, heq]
  · intro heq
    exact h.unique (heq ▸ h')

theorem Represents.size_eq (h : Represents data set) : data.length = set.card := by
  rw [← h.toFinset_eq, List.toFinset_card_of_nodup h.nodup]

/-- What is put before and after a bound. -/
theorem pairwise_append_of_bound {before after : SetData α} (bound : α)
    (hbefore : before.Pairwise (· < ·)) (hafter : after.Pairwise (· < ·))
    (hlt : ∀ x, x ∈ before → x < bound) (hle : ∀ x, x ∈ after → bound ≤ x) :
    (before ++ after).Pairwise (· < ·) := by
  rw [List.pairwise_append]
  exact ⟨hbefore, hafter, fun x hx y hy => (hlt x hx).trans_le (hle y hy)⟩

/-- What is less than the first element of a vector is not in it. -/
theorem notMem_of_lt_head {x y : α} (h : (y :: data).Pairwise (· < ·)) (hxy : x < y) :
    x ∉ y :: data := by
  intro hmem
  rcases List.mem_cons.mp hmem with heq | hmem
  · exact hxy.ne heq
  · exact lt_asymm hxy ((List.pairwise_cons.mp h).1 x hmem)

/-! ## Constructors -/

theorem mem_destutter'_ne {a b : α} {l : List α} (h : b = a ∨ b ∈ l) :
    b ∈ l.destutter' (· ≠ ·) a := by
  induction l generalizing a with
  | nil => simpa using h
  | cons c l ih =>
      rw [List.destutter']
      split
      · rcases h with heq | hmem
        · simp [heq]
        · exact List.mem_cons_of_mem a (ih (by simpa using hmem))
      · rename_i hac
        have hac : a = c := by simpa using hac
        apply ih
        rcases h with heq | hmem
        · exact Or.inl heq
        · rw [hac]
          simpa using hmem

/-- Taking out repeated elements keeps one of each. -/
theorem mem_destutter_ne {l : List α} : v ∈ l.destutter (· ≠ ·) ↔ v ∈ l := by
  constructor
  · intro h
    exact (List.destutter_sublist _ l).subset h
  · intro h
    cases l with
    | nil => simp at h
    | cons a l => exact mem_destutter'_ne (List.mem_cons.mp h)

theorem represents_ofInitializerList (list : List α) :
    Represents (ofInitializerList list) list.toFinset := by
  have hsorted := List.pairwise_insertionSort (· ≤ ·) list
  constructor
  · have hle := hsorted.sublist (List.destutter_sublist (· ≠ ·) (list.insertionSort (· ≤ ·)))
    have hne := List.isChain_destutter (· ≠ ·) (list.insertionSort (· ≤ ·))
    have hlt : (ofInitializerList list).IsChain (· < ·) := by
      rw [List.isChain_iff_getElem] at hne ⊢
      intro i hi
      exact lt_of_le_of_ne (List.isChain_iff_getElem.mp hle.isChain i hi) (hne i hi)
    exact hlt.pairwise
  · intro v
    rw [ofInitializerList, mem_destutter_ne, List.mem_toFinset]
    exact (List.perm_insertionSort _ list).mem_iff

/-- The elements of a range are sorted, but all of them are kept. -/
theorem represents_ofRange_iff (range : List α) :
    Represents (ofRange range) range.toFinset ↔ range.Nodup := by
  have hperm := List.perm_insertionSort (· ≤ ·) range
  constructor
  · intro h
    exact hperm.nodup_iff.mp h.nodup
  · intro h
    constructor
    · have hle := List.pairwise_insertionSort (· ≤ ·) range
      have hne : (ofRange range).Pairwise (· ≠ ·) := hperm.nodup_iff.mpr h
      refine (hle.and hne).imp ?_
      intro a b hab
      exact lt_of_le_of_ne hab.1 hab.2
    · intro v
      rw [List.mem_toFinset]
      exact hperm.mem_iff

/-! ## One element -/

/-- The lower bound of an element is the end, a greater element or the element itself. -/
theorem fromLowerBound_cases (hdata : data.Pairwise (· < ·)) (v : α) :
    (data.fromLowerBound v = [] ∧ v ∉ data) ∨
    (∃ x rest, data.fromLowerBound v = x :: rest ∧ v < x ∧ v ∉ data) ∨
    ∃ rest, data.fromLowerBound v = v :: rest ∧ v ∈ data := by
  have happend := beforeLowerBound_append data v
  have hsorted := fromLowerBound_pairwise hdata v
  have hbefore : v ∉ data.beforeLowerBound v := fun h => lt_irrefl v (lt_of_mem_beforeLowerBound h)
  cases hfrom : data.fromLowerBound v with
  | nil =>
      left
      rw [hfrom, List.append_nil] at happend
      rw [happend] at hbefore
      exact ⟨rfl, hbefore⟩
  | cons x rest =>
      right
      have hle : v ≤ x := le_of_mem_fromLowerBound hdata (by simp [hfrom])
      rw [hfrom] at happend hsorted
      rcases hle.lt_or_eq with hlt | heq
      · left
        refine ⟨x, rest, rfl, hlt, ?_⟩
        rw [← happend, List.mem_append]
        exact not_or.mpr ⟨hbefore, notMem_of_lt_head hsorted hlt⟩
      · right
        refine ⟨rest, by rw [heq], ?_⟩
        rw [← happend, heq]
        simp

theorem contains_iff (hdata : data.Pairwise (· < ·)) : data.contains v = true ↔ v ∈ data := by
  unfold contains
  rcases fromLowerBound_cases hdata v with ⟨hfrom, hmem⟩ | ⟨x, rest, hfrom, hlt, hmem⟩ |
    ⟨rest, hfrom, hmem⟩
  · simp [hfrom, hmem]
  · simp [hfrom, hmem, hlt]
  · simp [hfrom, hmem]

/-- An element is inserted where it belongs; the flag tells whether it was new. -/
theorem Represents.insert (h : Represents data set) (v : α) :
    Represents (data.insert v).1 (Insert.insert v set) ∧ ((data.insert v).2 = true ↔ v ∉ set) := by
  have happend := beforeLowerBound_append data v
  have hbefore := beforeLowerBound_pairwise h.sorted v
  have hfrom := fromLowerBound_pairwise h.sorted v
  have hlt : ∀ x, x ∈ data.beforeLowerBound v → x < v := fun x hx => lt_of_mem_beforeLowerBound hx
  unfold SetData.insert
  rcases fromLowerBound_cases h.sorted v with ⟨hnil, hmem⟩ | ⟨x, rest, hcons, hvx, hmem⟩ |
    ⟨rest, hcons, hmem⟩
  · rw [h.mem_iff] at hmem
    simp only [hnil]
    refine ⟨⟨?_, ?_⟩, by simp [hmem]⟩
    · exact pairwise_append_of_bound v hbefore (List.pairwise_singleton _ v) hlt (by simp)
    · intro a
      rw [hnil, List.append_nil] at happend
      rw [happend, List.mem_append, List.mem_singleton, Finset.mem_insert, h.mem_iff]
      exact or_comm
  · rw [h.mem_iff] at hmem
    simp only [hcons, if_pos hvx]
    rw [hcons] at happend hfrom
    have hgreater : ∀ y, y ∈ x :: rest → v < y := by
      intro y hy
      rcases List.mem_cons.mp hy with heq | hy
      · rw [heq]
        exact hvx
      · exact hvx.trans ((List.pairwise_cons.mp hfrom).1 y hy)
    refine ⟨⟨?_, ?_⟩, by simp [hmem]⟩
    · refine pairwise_append_of_bound v hbefore (List.pairwise_cons.mpr ⟨hgreater, hfrom⟩) hlt ?_
      intro y hy
      rcases List.mem_cons.mp hy with heq | hy
      · exact heq.ge
      · exact (hgreater y hy).le
    · intro a
      have ha : a ∈ data ↔ a ∈ data.beforeLowerBound v ++ x :: rest := by rw [happend]
      rw [Finset.mem_insert, ← h.mem_iff, ha]
      simp only [List.mem_append, List.mem_cons]
      tauto
  · rw [h.mem_iff] at hmem
    simp only [hcons, if_neg (lt_irrefl v)]
    rw [Finset.insert_eq_of_mem hmem]
    exact ⟨h, by simp [hmem]⟩

/-- An element is taken out; the flag tells whether it was there. -/
theorem Represents.remove (h : Represents data set) (v : α) :
    Represents (data.remove v).1 (set.erase v) ∧ ((data.remove v).2 = true ↔ v ∈ set) := by
  unfold SetData.remove
  rcases fromLowerBound_cases h.sorted v with ⟨hnil, hmem⟩ | ⟨x, rest, hcons, hvx, hmem⟩ |
    ⟨rest, hcons, hmem⟩
  · rw [h.mem_iff] at hmem
    simp only [hnil]
    rw [Finset.erase_eq_of_notMem hmem]
    exact ⟨h, by simp [hmem]⟩
  · rw [h.mem_iff] at hmem
    simp only [hcons, if_pos hvx]
    rw [Finset.erase_eq_of_notMem hmem]
    exact ⟨h, by simp [hmem]⟩
  · have happend := beforeLowerBound_append data v
    rw [h.mem_iff] at hmem
    simp only [hcons, if_neg (lt_irrefl v)]
    rw [hcons] at happend
    generalize data.beforeLowerBound v = before at happend ⊢
    have hnodup := h.nodup
    rw [← happend, List.nodup_middle, List.nodup_cons] at hnodup
    refine ⟨⟨?_, ?_⟩, by simp [hmem]⟩
    · refine h.sorted.sublist ?_
      rw [← happend]
      exact (List.sublist_cons_self v rest).append_left before
    · intro a
      rw [Finset.mem_erase, ← h.mem_iff, ← happend, List.perm_middle.mem_iff, List.mem_cons]
      constructor
      · intro ha
        refine ⟨?_, Or.inr ha⟩
        intro heq
        exact hnodup.1 (heq ▸ ha)
      · intro ha
        exact ha.2.resolve_left ha.1

/-- The position of an element: how many elements are less. -/
def rank (set : Finset α) (v : α) : Nat :=
  (set.filter (· < v)).card

/-- An element is at the position that its rank tells. -/
theorem Represents.rank_eq (h : Represents data set) {before after : SetData α}
    (happend : data = before ++ v :: after) : rank set v = before.length := by
  have hsorted := h.sorted
  rw [happend, List.pairwise_append, List.pairwise_cons] at hsorted
  have hbefore : Represents before (set.filter (· < v)) := by
    refine ⟨hsorted.1, ?_⟩
    intro a
    rw [Finset.mem_filter, ← h.mem_iff, happend, List.mem_append, List.mem_cons]
    constructor
    · intro ha
      exact ⟨Or.inl ha, hsorted.2.2 a ha v List.mem_cons_self⟩
    · intro ha
      rcases ha with ⟨hbefore | heq | hafter, hlt⟩
      · exact hbefore
      · exact absurd heq hlt.ne
      · exact absurd hlt (hsorted.2.1.1 a hafter).asymm
  rw [rank, ← hbefore.size_eq]

/-- Erasing between two iterators takes out the elements with the positions between them. -/
theorem Represents.eraseRange (h : Represents data set) {first last : Nat} (hle : first ≤ last) :
    Represents (data.eraseRange first last)
      (set.filter fun v => ¬(first ≤ rank set v ∧ rank set v < last)) := by
  have hsublist : (data.eraseRange first last).Sublist data := by
    unfold SetData.eraseRange
    conv_rhs => rw [← List.take_append_drop first data]
    exact (List.drop_sublist_drop_left data hle).append_left _
  refine ⟨h.sorted.sublist hsublist, ?_⟩
  intro v
  rw [Finset.mem_filter, ← h.mem_iff]
  constructor
  · intro hv
    refine ⟨hsublist.subset hv, ?_⟩
    rcases List.mem_append.mp hv with htake | hdrop
    · rcases List.append_of_mem htake with ⟨before, after, heq⟩
      have hdata : data = before ++ v :: (after ++ data.drop first) := by
        rw [← List.cons_append, ← List.append_assoc, ← heq, List.take_append_drop]
      have hlength := congrArg List.length heq
      rw [h.rank_eq hdata]
      simp only [List.length_take, List.length_append, List.length_cons] at hlength
      omega
    · rcases List.append_of_mem hdrop with ⟨before, after, heq⟩
      have hdata : data = (data.take last ++ before) ++ v :: after := by
        rw [List.append_assoc, ← heq, List.take_append_drop]
      have hlength := congrArg List.length heq
      rw [h.rank_eq hdata]
      simp only [List.length_drop, List.length_append, List.length_cons, List.length_take]
        at hlength ⊢
      omega
  · intro hv
    rcases List.append_of_mem hv.1 with ⟨before, after, heq⟩
    have hrank := h.rank_eq heq
    unfold SetData.eraseRange
    rw [List.mem_append, heq]
    by_cases hfirst : rank set v < first
    · left
      rw [List.take_append, List.mem_append, List.take_cons (by omega)]
      simp
    · right
      have hlast : last ≤ rank set v := by
        by_contra hcontra
        exact hv.2 ⟨by omega, by omega⟩
      rw [List.drop_append_of_le_length (by omega)]
      simp

/-! ## Two sets -/

/-- The cursors of unite walk through both vectors. -/
theorem uniteFrom_spec (hother : other.Pairwise (· < ·)) :
    ∀ {data : SetData α}, data.Pairwise (· < ·) →
      (uniteFrom data other).Pairwise (· < ·) ∧
        ∀ v, v ∈ uniteFrom data other ↔ v ∈ data ∨ v ∈ other := by
  induction other with
  | nil =>
      intro data hdata
      exact ⟨hdata, by simp [uniteFrom]⟩
  | cons o other ih =>
      intro data hdata
      have happend := beforeLowerBound_append data o
      have hbefore := beforeLowerBound_pairwise hdata o
      have hlt : ∀ x, x ∈ data.beforeLowerBound o → x < o :=
        fun x hx => lt_of_mem_beforeLowerBound hx
      have ho := List.pairwise_cons.mp hother
      have hmem : ∀ v, v ∈ data ↔ v ∈ data.beforeLowerBound o ∨ v ∈ data.fromLowerBound o := by
        intro v
        rw [← List.mem_append, happend]
      unfold uniteFrom
      rcases fromLowerBound_cases hdata o with ⟨hnil, -⟩ | ⟨x, rest, hcons, hox, -⟩ |
        ⟨rest, hcons, -⟩
      · simp only [hnil]
        constructor
        · refine pairwise_append_of_bound o hbefore hother hlt ?_
          intro v hv
          rcases List.mem_cons.mp hv with heq | hv
          · exact heq.ge
          · exact (ho.1 v hv).le
        · intro v
          rw [hmem v, hnil]
          simp
      · have hfrom := fromLowerBound_pairwise hdata o
        simp only [hcons, if_pos hox]
        rw [hcons] at hfrom
        have hgreater : ∀ y, y ∈ x :: rest → o < y := by
          intro y hy
          rcases List.mem_cons.mp hy with heq | hy
          · rw [heq]
            exact hox
          · exact hox.trans ((List.pairwise_cons.mp hfrom).1 y hy)
        rcases ih ho.2 (List.pairwise_cons.mpr ⟨hgreater, hfrom⟩) with ⟨hsorted, hin⟩
        constructor
        · refine pairwise_append_of_bound o hbefore hsorted hlt ?_
          intro v hv
          rcases (hin v).mp hv with hv | hv
          · rcases List.mem_cons.mp hv with heq | hv
            · exact heq.ge
            · exact (hgreater v hv).le
          · exact (ho.1 v hv).le
        · intro v
          rw [List.mem_append, hin v, hmem v, hcons]
          simp only [List.mem_cons]
          tauto
      · have hfrom := fromLowerBound_pairwise hdata o
        simp only [hcons, if_neg (lt_irrefl o)]
        rw [hcons] at hfrom
        rcases ih ho.2 hfrom with ⟨hsorted, hin⟩
        constructor
        · refine pairwise_append_of_bound o hbefore hsorted hlt ?_
          intro v hv
          rcases (hin v).mp hv with hv | hv
          · rcases List.mem_cons.mp hv with heq | hv
            · exact heq.ge
            · exact ((List.pairwise_cons.mp hfrom).1 v hv).le
          · exact (ho.1 v hv).le
        · intro v
          rw [List.mem_append, hin v, hmem v, hcons]
          simp only [List.mem_cons]
          tauto

theorem Represents.unite (h : Represents data set) (h' : Represents other set') :
    Represents (data.unite other) (set ∪ set') := by
  have hspec := uniteFrom_spec h'.sorted h.sorted
  unfold SetData.unite
  split
  · rename_i hnil
    refine ⟨h.sorted, ?_⟩
    intro v
    rw [Finset.mem_union, ← h.mem_iff, ← h'.mem_iff, hnil]
    simp
  · split
    · rename_i hnil
      refine ⟨h'.sorted, ?_⟩
      intro v
      rw [Finset.mem_union, ← h.mem_iff, ← h'.mem_iff, hnil]
      simp
    · refine ⟨hspec.1, ?_⟩
      intro v
      rw [hspec.2, Finset.mem_union, h.mem_iff, h'.mem_iff]

/-- The cursors of subtract walk through both vectors. -/
theorem subtractFrom_spec (hother : other.Pairwise (· < ·)) :
    ∀ {data : SetData α}, data.Pairwise (· < ·) →
      (subtractFrom data other).Sublist data ∧
        ∀ v, v ∈ subtractFrom data other ↔ v ∈ data ∧ v ∉ other := by
  induction other with
  | nil =>
      intro data hdata
      exact ⟨List.Sublist.refl _, by simp [subtractFrom]⟩
  | cons o other ih =>
      intro data hdata
      have happend := beforeLowerBound_append data o
      have ho := List.pairwise_cons.mp hother
      have hmem : ∀ v, v ∈ data ↔ v ∈ data.beforeLowerBound o ∨ v ∈ data.fromLowerBound o := by
        intro v
        rw [← List.mem_append, happend]
      -- What is before the lower bound is less than all elements of the other set from here on.
      have hbefore : ∀ v, v ∈ data.beforeLowerBound o → v ∉ o :: other := by
        intro v hv hin
        have hlt := lt_of_mem_beforeLowerBound hv
        rcases List.mem_cons.mp hin with heq | hin
        · exact hlt.ne heq
        · exact lt_asymm hlt (ho.1 v hin)
      unfold subtractFrom
      rcases fromLowerBound_cases hdata o with ⟨hnil, -⟩ | ⟨x, rest, hcons, hox, -⟩ |
        ⟨rest, hcons, -⟩
      · simp only [hnil, List.append_nil]
        refine ⟨List.takeWhile_sublist _, ?_⟩
        intro v
        rw [hmem v, hnil]
        constructor
        · intro hv
          exact ⟨Or.inl hv, hbefore v hv⟩
        · intro hv
          exact hv.1.resolve_right List.not_mem_nil
      · have hfrom := fromLowerBound_pairwise hdata o
        simp only [hcons, if_pos hox]
        rw [hcons] at hfrom happend
        rcases ih ho.2 hfrom with ⟨hsublist, hin⟩
        have hne := notMem_of_lt_head hfrom hox
        constructor
        · conv_rhs => rw [← happend]
          exact hsublist.append_left _
        · intro v
          rw [List.mem_append, hin v, hmem v, hcons]
          constructor
          · intro hv
            rcases hv with hv | hv
            · exact ⟨Or.inl hv, hbefore v hv⟩
            · refine ⟨Or.inr hv.1, ?_⟩
              intro hcontra
              rcases List.mem_cons.mp hcontra with heq | hcontra
              · exact hne (heq ▸ hv.1)
              · exact hv.2 hcontra
          · intro hv
            exact hv.1.imp_right fun hrest => ⟨hrest, fun h => hv.2 (List.mem_cons_of_mem o h)⟩
      · have hfrom := fromLowerBound_pairwise hdata o
        simp only [hcons, if_neg (lt_irrefl o)]
        rw [hcons] at hfrom happend
        rcases ih ho.2 (List.pairwise_cons.mp hfrom).2 with ⟨hsublist, hin⟩
        constructor
        · conv_rhs => rw [← happend]
          exact (hsublist.trans (List.sublist_cons_self o rest)).append_left _
        · intro v
          rw [List.mem_append, hin v, hmem v, hcons]
          constructor
          · intro hv
            rcases hv with hv | hv
            · exact ⟨Or.inl hv, hbefore v hv⟩
            · refine ⟨Or.inr (List.mem_cons_of_mem o hv.1), ?_⟩
              intro hcontra
              rcases List.mem_cons.mp hcontra with heq | hcontra
              · exact lt_irrefl o ((List.pairwise_cons.mp hfrom).1 o (heq ▸ hv.1))
              · exact hv.2 hcontra
          · intro hv
            refine hv.1.imp_right ?_
            intro hrest
            have hne : v ≠ o := fun heq => hv.2 (heq ▸ List.mem_cons_self)
            exact ⟨(List.mem_cons.mp hrest).resolve_left hne,
              fun h => hv.2 (List.mem_cons_of_mem o h)⟩

theorem Represents.subtract (h : Represents data set) (h' : Represents other set') :
    Represents (data.subtract other) (set \ set') := by
  have hspec := subtractFrom_spec h'.sorted h.sorted
  unfold SetData.subtract
  split
  · rename_i hnil
    refine ⟨h.sorted, ?_⟩
    intro v
    rw [Finset.mem_sdiff, ← h.mem_iff, ← h'.mem_iff]
    rcases hnil with hnil | hnil <;> simp [hnil]
  · refine ⟨h.sorted.sublist hspec.1, ?_⟩
    intro v
    rw [hspec.2, Finset.mem_sdiff, h.mem_iff, h'.mem_iff]

/-- The cursors of intersect walk through both vectors. -/
theorem intersect_spec (hdata : data.Pairwise (· < ·)) (hother : other.Pairwise (· < ·)) :
    (data.intersect other).Sublist data ∧ ∀ v, v ∈ data.intersect other ↔ v ∈ data ∧ v ∈ other := by
  fun_induction intersect data other with
  | case1 other => simp
  | case2 x data => simp
  | case3 x data o other hlt ih =>
      rcases ih (List.pairwise_cons.mp hdata).2 hother with ⟨hsublist, hin⟩
      refine ⟨hsublist.trans (List.sublist_cons_self x data), ?_⟩
      intro v
      rw [hin v, List.mem_cons (b := x)]
      have hne := notMem_of_lt_head hother hlt
      constructor
      · intro hv
        exact ⟨Or.inr hv.1, hv.2⟩
      · intro hv
        refine ⟨hv.1.resolve_left ?_, hv.2⟩
        intro heq
        exact hne (heq ▸ hv.2)
  | case4 x data o other hlt hgt ih =>
      rcases ih hdata (List.pairwise_cons.mp hother).2 with ⟨hsublist, hin⟩
      refine ⟨hsublist, ?_⟩
      intro v
      rw [hin v, List.mem_cons (b := o)]
      have hne := notMem_of_lt_head hdata hgt
      constructor
      · intro hv
        exact ⟨hv.1, Or.inr hv.2⟩
      · intro hv
        refine ⟨hv.1, hv.2.resolve_left ?_⟩
        intro heq
        exact hne (heq ▸ hv.1)
  | case5 x data o other hlt hgt ih =>
      have heq : x = o := le_antisymm (not_lt.mp hgt) (not_lt.mp hlt)
      have hx := List.pairwise_cons.mp hdata
      have ho := List.pairwise_cons.mp hother
      rcases ih hx.2 ho.2 with ⟨hsublist, hin⟩
      refine ⟨hsublist.cons_cons x, ?_⟩
      intro v
      rw [List.mem_cons, List.mem_cons, List.mem_cons, hin v, heq]
      tauto

theorem Represents.intersect (h : Represents data set) (h' : Represents other set') :
    Represents (data.intersect other) (set ∩ set') := by
  have hspec := intersect_spec h.sorted h'.sorted
  refine ⟨h.sorted.sublist hspec.1, ?_⟩
  intro v
  rw [hspec.2, Finset.mem_inter, h.mem_iff, h'.mem_iff]

/-- The operator makes the same comparisons. -/
theorem conj_eq_intersect (set1 set2 : SetData α) : set1.conj set2 = set1.intersect set2 := by
  fun_induction conj set1 set2 with
  | case1 => simp [intersect]
  | case2 => simp [intersect]
  | case3 x set1 y set2 hlt ih => simp [intersect, hlt, ih]
  | case4 x set1 y set2 hlt hgt ih => simp [intersect, hlt, hgt, ih]
  | case5 x set1 y set2 hlt hgt ih => simp [intersect, hlt, hgt, ih]

/-- The cursors of the operator for differences walk through both vectors. -/
theorem minusFrom_spec (hdata : data.Pairwise (· < ·)) (hother : other.Pairwise (· < ·)) :
    (minusFrom data other).Sublist data ∧
      ∀ v, v ∈ minusFrom data other ↔ v ∈ data ∧ v ∉ other := by
  fun_induction minusFrom data other with
  | case1 other => simp
  | case2 x data => simp
  | case3 x data o other hlt ih =>
      rcases ih (List.pairwise_cons.mp hdata).2 hother with ⟨hsublist, hin⟩
      refine ⟨hsublist.cons_cons x, ?_⟩
      intro v
      rw [List.mem_cons, List.mem_cons (b := x), hin v]
      have hne := notMem_of_lt_head hother hlt
      constructor
      · intro hv
        rcases hv with heq | hv
        · exact ⟨Or.inl heq, heq ▸ hne⟩
        · exact ⟨Or.inr hv.1, hv.2⟩
      · intro hv
        exact hv.1.imp_right fun hmem => ⟨hmem, hv.2⟩
  | case4 x data o other hlt hgt ih =>
      rcases ih hdata (List.pairwise_cons.mp hother).2 with ⟨hsublist, hin⟩
      refine ⟨hsublist, ?_⟩
      intro v
      rw [hin v, List.mem_cons (b := o)]
      have hne := notMem_of_lt_head hdata hgt
      constructor
      · intro hv
        refine ⟨hv.1, not_or.mpr ⟨?_, hv.2⟩⟩
        intro heq
        exact hne (heq ▸ hv.1)
      · intro hv
        exact ⟨hv.1, fun hmem => hv.2 (Or.inr hmem)⟩
  | case5 x data o other hlt hgt ih =>
      have heq : x = o := le_antisymm (not_lt.mp hgt) (not_lt.mp hlt)
      have hx := List.pairwise_cons.mp hdata
      have ho := List.pairwise_cons.mp hother
      rcases ih hx.2 ho.2 with ⟨hsublist, hin⟩
      refine ⟨hsublist.trans (List.sublist_cons_self x data), ?_⟩
      intro v
      rw [hin v, List.mem_cons, List.mem_cons]
      constructor
      · intro hv
        refine ⟨Or.inr hv.1, not_or.mpr ⟨?_, hv.2⟩⟩
        intro hvo
        exact (hx.1 v hv.1).ne (heq.trans hvo.symm)
      · intro hv
        rcases not_or.mp hv.2 with ⟨hvo, hvother⟩
        exact ⟨hv.1.resolve_left fun hvx => hvo (hvx.trans heq), hvother⟩

theorem Represents.minus (h : Represents data set) (h' : Represents other set') :
    Represents (data.minus other) (set \ set') := by
  have hspec := minusFrom_spec h.sorted h'.sorted
  unfold SetData.minus
  split
  · rename_i hnil
    refine ⟨h.sorted, ?_⟩
    intro v
    rw [Finset.mem_sdiff, ← h.mem_iff, ← h'.mem_iff]
    rcases hnil with hnil | hnil <;> simp [hnil]
  · refine ⟨h.sorted.sublist hspec.1, ?_⟩
    intro v
    rw [hspec.2, Finset.mem_sdiff, h.mem_iff, h'.mem_iff]

/-! ## Comparing sets -/

theorem containsSet_iff (hdata : data.Pairwise (· < ·)) (hother : other.Pairwise (· < ·)) :
    data.containsSet other = true ↔ ∀ v, v ∈ other → v ∈ data := by
  fun_induction containsSet data other with
  | case1 => simp
  | case2 o other =>
      constructor
      · simp
      · intro h
        simpa using h o List.mem_cons_self
  | case3 x data o other hgt =>
      have hne := notMem_of_lt_head hdata hgt
      constructor
      · simp
      · intro h
        exact absurd (h o List.mem_cons_self) hne
  | case4 x data o other hgt hlt ih =>
      rw [ih (List.pairwise_cons.mp hdata).2 hother]
      have hne := notMem_of_lt_head hother hlt
      constructor
      · intro h v hv
        exact List.mem_cons_of_mem x (h v hv)
      · intro h v hv
        refine (List.mem_cons.mp (h v hv)).resolve_left ?_
        intro heq
        exact hne (heq ▸ hv)
  | case5 x data o other hgt hlt ih =>
      have heq : x = o := le_antisymm (not_lt.mp hgt) (not_lt.mp hlt)
      have ho := List.pairwise_cons.mp hother
      rw [ih (List.pairwise_cons.mp hdata).2 ho.2]
      constructor
      · intro h v hv
        rcases List.mem_cons.mp hv with hvo | hv
        · simp [hvo, heq]
        · exact List.mem_cons_of_mem x (h v hv)
      · intro h v hv
        refine (List.mem_cons.mp (h v (List.mem_cons_of_mem o hv))).resolve_left ?_
        intro hvx
        exact (ho.1 v hv).ne (heq.symm.trans hvx.symm)

theorem intersects_iff (hdata : data.Pairwise (· < ·)) (hother : other.Pairwise (· < ·)) :
    data.intersects other = true ↔ ∃ v, v ∈ data ∧ v ∈ other := by
  fun_induction intersects data other with
  | case1 => simp
  | case2 => simp
  | case3 x data o other hlt ih =>
      rw [ih (List.pairwise_cons.mp hdata).2 hother]
      have hne := notMem_of_lt_head hother hlt
      constructor
      · intro h
        rcases h with ⟨v, hv, hvo⟩
        exact ⟨v, List.mem_cons_of_mem x hv, hvo⟩
      · intro h
        rcases h with ⟨v, hv, hvo⟩
        refine ⟨v, (List.mem_cons.mp hv).resolve_left ?_, hvo⟩
        intro heq
        exact hne (heq ▸ hvo)
  | case4 x data o other hlt hgt ih =>
      rw [ih hdata (List.pairwise_cons.mp hother).2]
      have hne := notMem_of_lt_head hdata hgt
      constructor
      · intro h
        rcases h with ⟨v, hv, hvo⟩
        exact ⟨v, hv, List.mem_cons_of_mem o hvo⟩
      · intro h
        rcases h with ⟨v, hv, hvo⟩
        refine ⟨v, hv, (List.mem_cons.mp hvo).resolve_left ?_⟩
        intro heq
        exact hne (heq ▸ hv)
  | case5 x data o other hlt hgt =>
      have heq : x = o := le_antisymm (not_lt.mp hgt) (not_lt.mp hlt)
      simp [heq]

end SetData

end Qbs
