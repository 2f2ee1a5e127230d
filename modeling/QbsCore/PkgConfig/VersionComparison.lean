import Mathlib.Data.List.TakeWhile
import QbsCore.Library.LexSequence
import QbsCore.PkgConfig.MergeDependencies

/-!
# The order of versions

A required package is accepted or rejected by a comparison of version strings.  The parts of a
version are read as machine numbers, so what is compared are the remainders of the numbers.

Main results:

- Theorem {lit}`PkgConfig.compareVersions_cases`: versions are compared in the lexicographic
  order of what is read from them.
- Theorem {lit}`PkgConfig.Version.comparesNumbers_iff`: which versions are compared by their numbers.

Current gaps:

- {lit}`size_t` is taken to have 64 bits.
-/

namespace Qbs

namespace PkgConfig

open LexSequence PcPackage

/-! ## What is read from a version -/

/-- The machine number that is read from a part of a version. -/
def partAt (v : StdString) : ℕ → ℕ
  | 0 => (numberOf (v.takeWhile inPart)).toNat
  | i + 1 => partAt (afterPart v) i

theorem partAt_zero (v : StdString) : partAt v 0 = (numberOf (v.takeWhile inPart)).toNat := by
  simp [partAt]

theorem tail_partAt (v : StdString) : tail (partAt v) = partAt (afterPart v) := by
  funext i
  simp [tail, partAt]

@[simp]
theorem partAt_nil (i : ℕ) : partAt [] i = 0 := by
  induction i with
  | zero => simp [partAt, numberOf]
  | succ i ih => simpa [partAt, afterPart] using ih

/-- The comparison of two versions gives the order of what is read from them. -/
theorem compareVersions_cases (v1 v2 : StdString) :
    (compareVersions v1 v2 = -1 ∧ toLex (partAt v1) < toLex (partAt v2)) ∨
      (compareVersions v1 v2 = 0 ∧ partAt v1 = partAt v2) ∨
      (compareVersions v1 v2 = 1 ∧ toLex (partAt v2) < toLex (partAt v1)) := by
  fun_induction compareVersions v1 v2 with
  | case1 v1 v2 hnil => simp [hnil]
  | case2 v1 v2 _ acc1 acc2 hlt =>
      left
      rw [lt_iff_head, partAt_zero, partAt_zero]
      exact ⟨rfl, .inl (UInt64.lt_iff_toNat_lt.mp hlt)⟩
  | case3 v1 v2 _ acc1 acc2 _ hgt =>
      right
      right
      rw [lt_iff_head, partAt_zero, partAt_zero]
      exact ⟨rfl, .inl (UInt64.lt_iff_toNat_lt.mp hgt)⟩
  | case4 v1 v2 _ acc1 acc2 hlt hgt ih =>
      have hhead : partAt v1 0 = partAt v2 0 := by
        rw [UInt64.lt_iff_toNat_lt] at hlt hgt
        rw [partAt_zero, partAt_zero]
        exact le_antisymm (not_lt.mp hgt) (not_lt.mp hlt)
      have hequal : partAt v1 = partAt v2 ↔ partAt (afterPart v1) = partAt (afterPart v2) := by
        rw [eq_iff_head, tail_partAt, tail_partAt]
        exact and_iff_right hhead
      rw [hequal, lt_iff_tail hhead, lt_iff_tail hhead.symm, tail_partAt, tail_partAt]
      exact ih

/-! ## Laws of the comparison -/

theorem compareVersions_lt_zero_iff (v1 v2 : StdString) :
    compareVersions v1 v2 < 0 ↔ toLex (partAt v1) < toLex (partAt v2) := by
  rcases compareVersions_cases v1 v2 with ⟨hcmp, h⟩ | ⟨hcmp, h⟩ | ⟨hcmp, h⟩
  · exact iff_of_true (by omega) h
  · exact iff_of_false (by omega) (h ▸ lt_irrefl _)
  · exact iff_of_false (by omega) h.not_gt

theorem compareVersions_eq_zero_iff (v1 v2 : StdString) :
    compareVersions v1 v2 = 0 ↔ partAt v1 = partAt v2 := by
  rcases compareVersions_cases v1 v2 with ⟨hcmp, h⟩ | ⟨hcmp, h⟩ | ⟨hcmp, h⟩
  · exact iff_of_false (by omega) fun heq => h.ne (congrArg toLex heq)
  · exact iff_of_true hcmp h
  · exact iff_of_false (by omega) fun heq => h.ne' (congrArg toLex heq)

theorem zero_lt_compareVersions_iff (v1 v2 : StdString) :
    0 < compareVersions v1 v2 ↔ toLex (partAt v2) < toLex (partAt v1) := by
  rcases compareVersions_cases v1 v2 with ⟨hcmp, h⟩ | ⟨hcmp, h⟩ | ⟨hcmp, h⟩
  · exact iff_of_false (by omega) h.not_gt
  · exact iff_of_false (by omega) (h ▸ lt_irrefl _)
  · exact iff_of_true (by omega) h

theorem compareVersions_le_zero_iff (v1 v2 : StdString) :
    compareVersions v1 v2 ≤ 0 ↔ ¬ toLex (partAt v2) < toLex (partAt v1) := by
  rw [← not_lt, zero_lt_compareVersions_iff]

theorem compareVersions_self (v : StdString) : compareVersions v v = 0 := by
  rw [compareVersions_eq_zero_iff]

theorem sign_compareVersions_swap (v1 v2 : StdString) :
    (compareVersions v1 v2).sign = -(compareVersions v2 v1).sign := by
  rcases compareVersions_cases v1 v2 with ⟨hcmp, h⟩ | ⟨hcmp, h⟩ | ⟨hcmp, h⟩
  · have hswap := (zero_lt_compareVersions_iff v2 v1).mpr h
    simp [hcmp, Int.sign_eq_one_of_pos hswap]
  · have hswap := (compareVersions_eq_zero_iff v2 v1).mpr h.symm
    simp [hcmp, hswap]
  · have hswap := (compareVersions_lt_zero_iff v2 v1).mpr h
    simp [hcmp, Int.sign_eq_neg_one_of_neg hswap]

theorem compareVersions_trans {v1 v2 v3 : StdString} (h12 : compareVersions v1 v2 ≤ 0)
    (h23 : compareVersions v2 v3 ≤ 0) : compareVersions v1 v3 ≤ 0 := by
  rw [compareVersions_le_zero_iff] at *
  exact not_lt.mpr ((not_lt.mp h12).trans (not_lt.mp h23))

/-- Exactly one of the strict tests and the test for equality succeeds. -/
def OneOfThreeTests (v1 v2 : StdString) : Prop :=
  ∃ t ∈ [ComparisonType.lessThan, .equal, .greaterThan],
    ∀ u ∈ [ComparisonType.lessThan, .equal, .greaterThan],
      versionTest u v1 v2 = true ↔ u = t

theorem oneOfThreeTests (v1 v2 : StdString) : OneOfThreeTests v1 v2 := by
  rcases compareVersions_cases v1 v2 with ⟨hcmp, _⟩ | ⟨hcmp, _⟩ | ⟨hcmp, _⟩
  · exact ⟨.lessThan, by simp [versionTest, hcmp]⟩
  · exact ⟨.equal, by simp [versionTest, hcmp]⟩
  · exact ⟨.greaterThan, by simp [versionTest, hcmp]⟩

theorem versionTest_lessThanEqual (v1 v2 : StdString) :
    versionTest .lessThanEqual v1 v2 = (versionTest .lessThan v1 v2 || versionTest .equal v1 v2) := by
  simp [versionTest, ← Bool.decide_or, le_iff_lt_or_eq]

theorem versionTest_greaterThanEqual (v1 v2 : StdString) :
    versionTest .greaterThanEqual v1 v2 =
      (versionTest .greaterThan v1 v2 || versionTest .equal v1 v2) := by
  simp [versionTest, ← Bool.decide_or, le_iff_lt_or_eq, eq_comm]

theorem versionTest_notEqual (v1 v2 : StdString) :
    versionTest .notEqual v1 v2 = !versionTest .equal v1 v2 := by
  simp [versionTest]

/-! ## Versions that are made of numbers -/

/-- The number that a text of digits stands for. -/
def decimalValue (part : StdString) : ℕ :=
  part.foldl (fun n c => n * 10 + (c.toNat - '0'.toNat)) 0

/-- A version is made of one or more numbers. -/
structure Version where
  parts : List StdString
  parts_ne_nil : parts ≠ []
  digits : ∀ part ∈ parts, part ≠ [] ∧ ∀ c ∈ part, c.isDigit = true

namespace Version

/-- The text of a version has dots between the numbers. -/
def text (v : Version) : StdString :=
  List.intercalate ['.'] v.parts

/-- The numbers of a version, where missing ones count as zero. -/
def component (v : Version) (i : ℕ) : ℕ :=
  (v.parts[i]?.map decimalValue).getD 0

end Version

theorem digitValue_toNat {c : Char} (hdigit : c.isDigit = true) :
    (digitValue c).toNat = c.toNat - '0'.toNat := by
  have hbounds : 48 ≤ c.toNat ∧ c.toNat ≤ 57 := by
    simpa [Char.isDigit, UInt32.le_iff_toNat_le, ← Char.toNat_val] using hdigit
  have hsmall : c.toNat < 128 := by omega
  have hread : (UInt64.ofNat c.toNat).toNat = c.toNat :=
    UInt64.toNat_ofNat_of_lt' (Nat.lt_trans hsmall (by decide))
  have hle : (48 : UInt64) ≤ UInt64.ofNat c.toNat := by
    rw [UInt64.le_iff_toNat_le, hread]
    exact hbounds.1
  rw [digitValue, if_pos hsmall, UInt64.toNat_sub_of_le _ _ hle, hread]
  rfl

variable {part : StdString}

/-- A number is read up to multiples of the range of machine numbers. -/
theorem numberOf_toNat (hdigits : ∀ c ∈ part, c.isDigit = true) :
    (numberOf part).toNat = decimalValue part % 2 ^ 64 := by
  induction part using List.reverseRecOn with
  | nil => simp [numberOf, decimalValue]
  | append_singleton part c ih =>
      have hread := ih fun d hd => hdigits d (by simp [hd])
      have hlast := digitValue_toNat (hdigits c (by simp))
      simp only [numberOf, decimalValue, List.foldl_append, List.foldl_cons, List.foldl_nil] at *
      rw [UInt64.toNat_add, UInt64.toNat_mul, hread, hlast]
      simp [Nat.add_mod, Nat.mul_mod]

theorem isDigit_inPart {c : Char} (hdigit : c.isDigit = true) : inPart c = true := by
  have hne : c ≠ '.' := by
    intro h
    simp [h] at hdigit
  simpa [inPart] using hne

theorem takeWhile_part (rest : StdString) (hdigits : ∀ c ∈ part, c.isDigit = true) :
    (part ++ '.' :: rest).takeWhile inPart = part := by
  have hall : ∀ c ∈ part, inPart c = true := fun c hc => isDigit_inPart (hdigits c hc)
  simp [List.takeWhile_append_of_pos hall, inPart]

theorem afterPart_part (rest : StdString) (hdigits : ∀ c ∈ part, c.isDigit = true) :
    afterPart (part ++ '.' :: rest) = rest := by
  have hall : ∀ c ∈ part, inPart c = true := fun c hc => isDigit_inPart (hdigits c hc)
  simp [afterPart, List.dropWhile_append_of_pos hall, inPart]

theorem takeWhile_digits (hdigits : ∀ c ∈ part, c.isDigit = true) :
    part.takeWhile inPart = part :=
  List.takeWhile_eq_self_iff.mpr fun c hc => isDigit_inPart (hdigits c hc)

theorem afterPart_digits (hdigits : ∀ c ∈ part, c.isDigit = true) :
    afterPart part = [] := by
  have hnil : part.dropWhile inPart = [] :=
    List.dropWhile_eq_nil_iff.mpr fun c hc => isDigit_inPart (hdigits c hc)
  simp [afterPart, hnil]

/-- What is read at a position of a list of numbers. -/
theorem partAt_intercalate {parts : List StdString}
    (hdigits : ∀ part ∈ parts, ∀ c ∈ part, c.isDigit = true) (i : ℕ) :
    partAt (List.intercalate ['.'] parts) i =
      (parts[i]?.map decimalValue).getD 0 % 2 ^ 64 := by
  induction parts generalizing i with
  | nil => simp
  | cons part parts ih =>
      have hpart := hdigits part (by simp)
      have hparts := ih fun p hp => hdigits p (by simp [hp])
      cases parts with
      | nil =>
          cases i with
          | zero => simp [partAt_zero, takeWhile_digits hpart, numberOf_toNat hpart]
          | succ i => simp [partAt, afterPart_digits hpart]
      | cons next parts =>
          have htext : List.intercalate ['.'] (part :: next :: parts) =
              part ++ '.' :: List.intercalate ['.'] (next :: parts) := by
            simp [List.intercalate]
          rw [htext]
          cases i with
          | zero => simp [partAt_zero, takeWhile_part _ hpart, numberOf_toNat hpart]
          | succ i => simpa [partAt, afterPart_part _ hpart] using hparts i

namespace Version

theorem partAt_text (v : Version) : partAt v.text = (· % 2 ^ 64) ∘ v.component := by
  funext i
  exact partAt_intercalate (fun part hpart => (v.digits part hpart).2) i

/-! ## Comparison by the numbers -/

/-- What the comparison of two versions has to be: a preorder that is the one of the numbers, with
tests that fit to it. -/
structure ComparesNumbers (v w : Version) : Prop where
  refl : compareVersions v.text v.text = 0
  antisymm : (compareVersions v.text w.text).sign = -(compareVersions w.text v.text).sign
  trans : ∀ u : Version, compareVersions v.text w.text ≤ 0 → compareVersions w.text u.text ≤ 0 →
    compareVersions v.text u.text ≤ 0
  less : compareVersions v.text w.text < 0 ↔ toLex v.component < toLex w.component
  equal : compareVersions v.text w.text = 0 ↔ v.component = w.component
  greater : compareVersions v.text w.text > 0 ↔ toLex w.component < toLex v.component
  oneTest : OneOfThreeTests v.text w.text
  lessThanEqual : versionTest .lessThanEqual v.text w.text =
    (versionTest .lessThan v.text w.text || versionTest .equal v.text w.text)
  greaterThanEqual : versionTest .greaterThanEqual v.text w.text =
    (versionTest .greaterThan v.text w.text || versionTest .equal v.text w.text)
  notEqual : versionTest .notEqual v.text w.text = !versionTest .equal v.text w.text

/-- Where a number of a version is less than that of the other one at the first difference, the
remainders are equal for a while and then ordered in the same way. -/
def RemaindersOrdered (v w : Version) : Prop :=
  KeepsOrder (· % 2 ^ 64) v.component w.component

/-- Numbers in the range of the machine are their own remainders. -/
theorem RemaindersOrdered.of_lt {v w : Version} (hv : ∀ i, v.component i < 2 ^ 64)
    (hw : ∀ i, w.component i < 2 ^ 64) : RemaindersOrdered v w := by
  intro i _ hlt
  refine ⟨i, le_refl i, fun k hik hk => absurd hik (Nat.not_le.mpr hk), ?_⟩
  simpa only [Nat.mod_eq_of_lt (hv i), Nat.mod_eq_of_lt (hw i)] using hlt

/-- Versions are compared by their numbers exactly if the remainders do not change the order. -/
theorem comparesNumbers_iff (v w : Version) :
    ComparesNumbers v w ↔ RemaindersOrdered v w ∧ RemaindersOrdered w v := by
  unfold RemaindersOrdered
  rw [keepsOrder_iff, ← partAt_text, ← partAt_text, ← compareVersions_lt_zero_iff,
    ← compareVersions_eq_zero_iff, ← zero_lt_compareVersions_iff]
  constructor
  · intro h
    exact ⟨h.less, h.equal, h.greater⟩
  · intro ⟨hless, hequal, hgreater⟩
    exact {
      refl := compareVersions_self _
      antisymm := sign_compareVersions_swap _ _
      trans := fun _ => compareVersions_trans
      less := hless
      equal := hequal
      greater := hgreater
      oneTest := oneOfThreeTests _ _
      lessThanEqual := versionTest_lessThanEqual _ _
      greaterThanEqual := versionTest_greaterThanEqual _ _
      notEqual := versionTest_notEqual _ _
    }

/-- A version whose number is the first one that does not fit into the machine. -/
def outOfRange : Version where
  parts := ["18446744073709551616".toList]
  parts_ne_nil := by simp
  digits := by simp [Char.isDigit]

def zero : Version where
  parts := [['0']]
  parts_ne_nil := by simp
  digits := by simp [Char.isDigit]

/-- The first number that is too large is taken for zero. -/
theorem not_comparesNumbers_outOfRange : ¬ ComparesNumbers outOfRange zero := by
  intro h
  have hread : partAt outOfRange.text = partAt zero.text := by
    rw [partAt_text, partAt_text]
    funext i
    cases i with
    | zero => decide
    | succ i => simp [component, outOfRange, zero]
  have hsame := h.equal.mp ((compareVersions_eq_zero_iff _ _).mpr hread)
  have hnumber : outOfRange.component 0 ≠ zero.component 0 := by decide
  exact hnumber (congrFun hsame 0)

end Version

end PkgConfig

end Qbs
