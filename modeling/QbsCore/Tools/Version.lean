import Mathlib.Tactic.ByContra
import Mathlib.Tactic.SplitIfs

/-!
# Versions

Versions are compared number by number, and a version range has a lower bound and an
exclusive upper bound.  A version without numbers is not valid; as an upper bound it
stands for none.

Main results:

- Theorem {lit}`VersionRange.contains_narrowDown`: when a range that was narrowed down is
  the intersection of both ranges.
- Theorem {lit}`VersionRange.contains_narrowAll_iff`: the same for a range that was
  narrowed down several times.
- Theorem {lit}`VersionRange.narrowAll_perm_of_same`: when the order of the ranges does not
  matter.

Current gaps:

- Version strings are not parsed.
-/

namespace Qbs

structure Version where
  majorVersion : Nat
  minorVersion : Nat
  patchLevel : Nat
  buildNumber : Nat
deriving DecidableEq

namespace Version

/-- The version without numbers. -/
def empty : Version :=
  ⟨0, 0, 0, 0⟩

def isValid (v : Version) : Bool :=
  v.majorVersion ≠ 0 || v.minorVersion ≠ 0 || v.patchLevel ≠ 0 || v.buildNumber ≠ 0

/-- Compare two versions number by number. -/
def compare (lhs rhs : Version) : Ordering :=
  if lhs.majorVersion < rhs.majorVersion then .lt
  else if lhs.majorVersion > rhs.majorVersion then .gt
  else if lhs.minorVersion < rhs.minorVersion then .lt
  else if lhs.minorVersion > rhs.minorVersion then .gt
  else if lhs.patchLevel < rhs.patchLevel then .lt
  else if lhs.patchLevel > rhs.patchLevel then .gt
  else if lhs.buildNumber < rhs.buildNumber then .lt
  else if lhs.buildNumber > rhs.buildNumber then .gt
  else .eq

instance : LT Version where
  lt lhs rhs := lhs.compare rhs = .lt

instance (v w : Version) : Decidable (v < w) :=
  inferInstanceAs (Decidable (v.compare w = .lt))

/-- The numbers of a version, the build number only if there is one. -/
def toString (v : Version) : String :=
  if v.buildNumber ≠ 0 then
    s!"{v.majorVersion}.{v.minorVersion}.{v.patchLevel}-{v.buildNumber}"
  else s!"{v.majorVersion}.{v.minorVersion}.{v.patchLevel}"

variable {v w : Version}

theorem lt_iff :
    v < w ↔ v.majorVersion < w.majorVersion ∨ v.majorVersion = w.majorVersion ∧
      (v.minorVersion < w.minorVersion ∨ v.minorVersion = w.minorVersion ∧
        (v.patchLevel < w.patchLevel ∨ v.patchLevel = w.patchLevel ∧
          v.buildNumber < w.buildNumber)) := by
  show v.compare w = .lt ↔ _
  unfold compare
  split_ifs <;> simp only [true_iff, false_iff] <;> omega

theorem isValid_eq_false_iff : v.isValid = false ↔ v = empty := by
  rcases v with ⟨a, b, c, d⟩
  simp [isValid, empty, and_assoc]

theorem lt_trans {u : Version} (huv : u < v) (hvw : v < w) : u < w := by
  rw [lt_iff] at *
  omega

theorem lt_of_lt_of_not_lt {u : Version} (huv : u < v) (hvw : ¬w < v) : u < w := by
  rw [lt_iff] at *
  omega

theorem lt_irrefl (v : Version) : ¬v < v := by
  rw [lt_iff]
  omega

theorem eq_of_not_lt (hvw : ¬v < w) (hwv : ¬w < v) : v = w := by
  rw [lt_iff] at hvw hwv
  rcases v with ⟨a, b, c, d⟩
  rcases w with ⟨a', b', c', d'⟩
  simp only at hvw hwv
  simp only [mk.injEq]
  omega

/-- A version is known by the versions that are not below it. -/
theorem eq_of_lower_bounds (h : ∀ u : Version, ¬u < v ↔ ¬u < w) : v = w :=
  eq_of_not_lt ((h v).mp (lt_irrefl v)) ((h w).mpr (lt_irrefl w))

/-- A version is known by the versions below it. -/
theorem eq_of_upper_bounds (h : ∀ u : Version, u < v ↔ u < w) : v = w :=
  eq_of_not_lt (fun hvw => lt_irrefl v ((h v).mpr hvw)) fun hwv => lt_irrefl w ((h w).mp hwv)

theorem not_lt_empty (v : Version) : ¬v < empty := by
  rw [lt_iff]
  simp only [empty]
  omega

end Version

/-- A lower bound and an exclusive upper bound. -/
structure VersionRange where
  minimum : Version
  maximum : Version
deriving DecidableEq

namespace VersionRange

/-- Narrow a range down by another one. -/
def narrowDown (r other : VersionRange) : VersionRange where
  minimum := if r.minimum < other.minimum then other.minimum else r.minimum
  maximum :=
    if other.maximum.isValid && decide (other.maximum < r.maximum) then other.maximum
    else r.maximum

/-- The versions that a range admits. -/
def contains (r : VersionRange) (v : Version) : Prop :=
  ¬v < r.minimum ∧ (r.maximum.isValid = true → v < r.maximum)

variable {r other : VersionRange} {v : Version}

theorem not_lt_narrowDown_minimum :
    ¬v < (r.narrowDown other).minimum ↔ ¬v < r.minimum ∧ ¬v < other.minimum := by
  unfold narrowDown
  dsimp only
  split_ifs with h
  · constructor
    · intro hv
      exact ⟨fun hr => hv (Version.lt_trans hr h), hv⟩
    · exact fun hv => hv.2
  · constructor
    · intro hv
      exact ⟨hv, fun ho => hv (Version.lt_of_lt_of_not_lt ho h)⟩
    · exact fun hv => hv.1

/-- A range that was narrowed down is the intersection if it had an upper bound, or if the other one
has none. -/
theorem contains_narrowDown (h : r.maximum.isValid = true ∨ other.maximum.isValid = false) :
    (r.narrowDown other).contains v ↔ r.contains v ∧ other.contains v := by
  have hmax : ((r.narrowDown other).maximum.isValid = true → v < (r.narrowDown other).maximum) ↔
      (r.maximum.isValid = true → v < r.maximum) ∧
        (other.maximum.isValid = true → v < other.maximum) := by
    unfold narrowDown
    dsimp only
    by_cases hother : other.maximum.isValid = true
    · have hr : r.maximum.isValid = true := by simpa [hother] using h
      by_cases hlt : other.maximum < r.maximum
      · simp only [hother, hlt, hr, decide_true, Bool.and_true, if_true, forall_const]
        exact ⟨fun hv => ⟨Version.lt_trans hv hlt, hv⟩, fun hv => hv.2⟩
      · simp only [hother, hlt, hr, decide_false, Bool.and_false, Bool.false_eq_true, if_false,
          forall_const]
        exact ⟨fun hv => ⟨hv, Version.lt_of_lt_of_not_lt hv hlt⟩, fun hv => hv.1⟩
    · simp [hother]
  unfold contains
  rw [not_lt_narrowDown_minimum, hmax]
  exact and_and_and_comm

/-- The upper bound of a range without one stays away. -/
theorem narrowDown_maximum_of_not_isValid (other : VersionRange) (h : r.maximum.isValid = false) :
    (r.narrowDown other).maximum = r.maximum := by
  have hempty := Version.isValid_eq_false_iff.mp h
  unfold narrowDown
  simp [hempty, Version.not_lt_empty]

theorem narrowDown_isValid (h : r.maximum.isValid = true) :
    (r.narrowDown other).maximum.isValid = true := by
  unfold narrowDown
  dsimp only
  split_ifs with hlt
  · exact (Bool.and_eq_true _ _ ▸ hlt).1
  · exact h

/-- Narrow a range down several times. -/
def narrowAll (r : VersionRange) (ranges : List VersionRange) : VersionRange :=
  ranges.foldl narrowDown r

variable {ranges : List VersionRange}

theorem narrowAll_maximum_of_not_isValid (h : r.maximum.isValid = false) :
    (r.narrowAll ranges).maximum = r.maximum := by
  induction ranges generalizing r with
  | nil => rfl
  | cons other ranges ih =>
      have heq := narrowDown_maximum_of_not_isValid other h
      exact (ih (by rw [heq]; exact h)).trans heq

theorem contains_narrowAll
    (h : r.maximum.isValid = true ∨ ∀ o, o ∈ ranges → o.maximum.isValid = false) :
    (r.narrowAll ranges).contains v ↔ r.contains v ∧ ∀ o, o ∈ ranges → o.contains v := by
  induction ranges generalizing r with
  | nil => simp [narrowAll]
  | cons other ranges ih =>
      have hfirst : r.maximum.isValid = true ∨ other.maximum.isValid = false :=
        h.imp_right fun hall => hall other List.mem_cons_self
      have hrest : (r.narrowDown other).maximum.isValid = true ∨
          ∀ o, o ∈ ranges → o.maximum.isValid = false :=
        h.imp narrowDown_isValid fun hall o ho => hall o (List.mem_cons_of_mem _ ho)
      rw [List.forall_mem_cons, ← and_assoc, ← contains_narrowDown hfirst]
      exact ih hrest

/-- Whether there is an upper bound is decided by the range that is narrowed down. -/
theorem narrowAll_maximum_isValid (ranges : List VersionRange) :
    (r.narrowAll ranges).maximum.isValid = r.maximum.isValid := by
  cases hvalid : r.maximum.isValid with
  | true =>
      induction ranges generalizing r with
      | nil => exact hvalid
      | cons other ranges ih => exact ih (narrowDown_isValid hvalid)
  | false =>
      rw [narrowAll_maximum_of_not_isValid hvalid]
      exact hvalid

theorem lt_narrowDown_maximum :
    v < (r.narrowDown other).maximum ↔
      v < r.maximum ∧ (other.maximum.isValid = true → v < other.maximum) := by
  unfold narrowDown
  dsimp only
  by_cases hother : other.maximum.isValid = true
  · by_cases hlt : other.maximum < r.maximum
    · simp only [hother, hlt, decide_true, Bool.and_true, if_true, forall_const]
      exact ⟨fun hv => ⟨Version.lt_trans hv hlt, hv⟩, fun hv => hv.2⟩
    · simp only [hother, hlt, decide_false, Bool.and_false, Bool.false_eq_true, if_false,
        forall_const]
      exact ⟨fun hv => ⟨hv, Version.lt_of_lt_of_not_lt hv hlt⟩, fun hv => hv.1⟩
  · simp [hother]

/-- Narrowing down by two ranges does not depend on their order. -/
theorem narrowDown_right_comm (r a b : VersionRange) :
    (r.narrowDown a).narrowDown b = (r.narrowDown b).narrowDown a := by
  have hmin : ((r.narrowDown a).narrowDown b).minimum =
      ((r.narrowDown b).narrowDown a).minimum := by
    apply Version.eq_of_lower_bounds
    intro u
    simp only [not_lt_narrowDown_minimum]
    exact and_right_comm
  have hmax : ((r.narrowDown a).narrowDown b).maximum =
      ((r.narrowDown b).narrowDown a).maximum := by
    apply Version.eq_of_upper_bounds
    intro u
    simp only [lt_narrowDown_maximum]
    exact and_right_comm
  calc (r.narrowDown a).narrowDown b
      = ⟨((r.narrowDown a).narrowDown b).minimum, ((r.narrowDown a).narrowDown b).maximum⟩ := rfl
    _ = ⟨((r.narrowDown b).narrowDown a).minimum, ((r.narrowDown b).narrowDown a).maximum⟩ := by
        rw [hmin, hmax]

/-- The order of the ranges does not matter if the first one stays. -/
theorem narrowAll_perm {ranges' : List VersionRange} (h : ranges.Perm ranges') (r : VersionRange) :
    r.narrowAll ranges = r.narrowAll ranges' := by
  induction h generalizing r with
  | nil => rfl
  | cons other _ ih => exact ih (r.narrowDown other)
  | swap a b ranges =>
      have hcomm := narrowDown_right_comm r b a
      exact congrArg (fun start => narrowAll start ranges) hcomm
  | trans _ _ ih ih' => exact (ih r).trans (ih' r)

/-- Two ranges narrow down each other alike if both or none of them have an upper bound. -/
theorem narrowDown_comm (h : r.maximum.isValid = other.maximum.isValid) :
    r.narrowDown other = other.narrowDown r := by
  have hmin : (r.narrowDown other).minimum = (other.narrowDown r).minimum := by
    apply Version.eq_of_lower_bounds
    intro u
    simp only [not_lt_narrowDown_minimum]
    exact and_comm
  have hmax : (r.narrowDown other).maximum = (other.narrowDown r).maximum := by
    by_cases hvalid : r.maximum.isValid = true
    · have hother : other.maximum.isValid = true := h ▸ hvalid
      apply Version.eq_of_upper_bounds
      intro u
      simp only [lt_narrowDown_maximum, hvalid, hother, forall_const]
      exact and_comm
    · have hr : r.maximum.isValid = false := by simpa using hvalid
      have hother : other.maximum.isValid = false := h ▸ hr
      rw [narrowDown_maximum_of_not_isValid other hr, narrowDown_maximum_of_not_isValid r hother,
        Version.isValid_eq_false_iff.mp hr, Version.isValid_eq_false_iff.mp hother]
  calc r.narrowDown other
      = ⟨(r.narrowDown other).minimum, (r.narrowDown other).maximum⟩ := rfl
    _ = ⟨(other.narrowDown r).minimum, (other.narrowDown r).maximum⟩ := by rw [hmin, hmax]

/-- The order of the ranges does not matter if all or none of them have an upper bound. -/
theorem narrowAll_perm_of_same {ranges' : List VersionRange}
    (h : (r :: ranges).Perm (other :: ranges'))
    (hsame : ∀ a, a ∈ r :: ranges → ∀ b, b ∈ r :: ranges → a.maximum.isValid = b.maximum.isValid) :
    r.narrowAll ranges = other.narrowAll ranges' := by
  by_cases heq : r = other
  · rw [heq] at h ⊢
    exact narrowAll_perm (List.Perm.cons_inv h) other
  have hmem : other ∈ ranges := by
    have hother : other ∈ r :: ranges := h.mem_iff.mpr List.mem_cons_self
    exact (List.mem_cons.mp hother).resolve_left fun h => heq h.symm
  have hranges : ranges.Perm (other :: ranges.erase other) := List.perm_cons_erase hmem
  have hranges' : (r :: ranges.erase other).Perm ranges' := by
    have hswap := List.Perm.swap r other (ranges.erase other)
    exact List.Perm.cons_inv ((hswap.trans (hranges.symm.cons r)).trans h)
  have hcomm : r.narrowDown other = other.narrowDown r := by
    apply narrowDown_comm
    exact hsame r List.mem_cons_self other (List.mem_cons_of_mem r hmem)
  calc r.narrowAll ranges
      = (r.narrowDown other).narrowAll (ranges.erase other) := narrowAll_perm hranges r
    _ = other.narrowAll (r :: ranges.erase other) := by rw [hcomm]; rfl
    _ = other.narrowAll ranges' := narrowAll_perm hranges' other

/-- Beyond a version there is another one. -/
theorem exists_contains_of_not_isValid (h : r.maximum.isValid = false) (v : Version) :
    ∃ w, r.contains w ∧ ¬w < v := by
  refine ⟨⟨r.minimum.majorVersion + v.majorVersion + 1, 0, 0, 0⟩, ⟨?_, by simp [h]⟩, ?_⟩
  · rw [Version.lt_iff]
    simp only
    omega
  · rw [Version.lt_iff]
    simp only
    omega

/-- A range that was narrowed down several times is the intersection exactly if it had an upper
bound from the start, or if none of the others has one. -/
theorem contains_narrowAll_iff (r : VersionRange) (ranges : List VersionRange) :
    (∀ v, (r.narrowAll ranges).contains v ↔ r.contains v ∧ ∀ o, o ∈ ranges → o.contains v) ↔
      r.maximum.isValid = true ∨ ∀ o, o ∈ ranges → o.maximum.isValid = false := by
  constructor
  · intro h
    by_cases hr : r.maximum.isValid = true
    · exact Or.inl hr
    · refine Or.inr fun o ho => ?_
      by_contra hvalid
      have hr' : r.maximum.isValid = false := by simpa using hr
      have hall : (r.narrowAll ranges).maximum.isValid = false := by
        rw [narrowAll_maximum_of_not_isValid hr']
        exact hr'
      rcases exists_contains_of_not_isValid hall o.maximum with ⟨w, hw, hge⟩
      exact hge ((((h w).mp hw).2 o ho).2 (by simpa using hvalid))
  · exact fun h _ => contains_narrowAll h

end VersionRange

end Qbs
