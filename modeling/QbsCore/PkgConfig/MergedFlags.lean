import Mathlib.Algebra.BigOperators.Group.List.Basic
import Mathlib.Algebra.GroupWithZero.Nat
import Mathlib.Data.List.Count
import Mathlib.Data.List.Induction
import QbsCore.PkgConfig.Package

/-!
# Merged flags

The flags of several packages are put one after the other.  A flag that was seen before is
left out, except for linker and compiler flags, which may belong to the flag before them.
The set of flags that were seen is shared by the flags for the linker and those for the
compiler.

Main results:

- Theorem {lit}`PkgConfig.merged_mergedFlags`: how often each flag is in the merged lists.
-/

namespace Qbs

namespace PkgConfig

open PcPackage

/-- Linker and compiler flags may be there more than once. -/
def canHaveDuplicates (type : FlagType) : Bool :=
  type = .linkerFlag || type = .compilerFlag

/-- Append those flags that were not seen before, except for ones that can have duplicates. -/
def mergeFlags (visitedFlags target : List Flag) : List Flag → List Flag × List Flag
  | [] => (visitedFlags, target)
  | flag :: source =>
      if canHaveDuplicates flag.type then mergeFlags visitedFlags (target ++ [flag]) source
      else if flag ∈ visitedFlags then mergeFlags visitedFlags target source
      else mergeFlags (flag :: visitedFlags) (target ++ [flag]) source

/-- The flags that were merged so far. -/
structure MergedFlags where
  visitedFlags : List Flag
  libs : List Flag
  cflags : List Flag

/-- Merge the flags of one more package. -/
def MergedFlags.add (m : MergedFlags) (dep : PcPackage) : MergedFlags where
  libs := (mergeFlags m.visitedFlags m.libs dep.libs).2
  cflags := (mergeFlags (mergeFlags m.visitedFlags m.libs dep.libs).1 m.cflags dep.cflags).2
  visitedFlags := (mergeFlags (mergeFlags m.visitedFlags m.libs dep.libs).1 m.cflags dep.cflags).1

/-- The flags of some packages, one after the other. -/
def mergedFlags (deps : List PcPackage) : MergedFlags :=
  deps.foldl MergedFlags.add ⟨[], [], []⟩

/-! ## One list of flags -/

variable {visitedFlags target source : List Flag} {flag : Flag} {deps : List PcPackage}

/-- Nothing is appended that is not in the source, and no flag gets lost. -/
theorem mem_mergeFlags :
    (flag ∈ (mergeFlags visitedFlags target source).2 → flag ∈ target ∨ flag ∈ source) ∧
      (flag ∈ target → flag ∈ (mergeFlags visitedFlags target source).2) := by
  induction source generalizing visitedFlags target with
  | nil => simp [mergeFlags]
  | cons f source ih =>
      unfold mergeFlags
      split
      · have h := @ih visitedFlags (target ++ [f])
        simp only [List.mem_append, List.mem_cons] at h ⊢
        tauto
      · split
        · have h := @ih visitedFlags target
          simp only [List.mem_cons]
          tauto
        · have h := @ih (f :: visitedFlags) (target ++ [f])
          simp only [List.mem_append, List.mem_cons] at h ⊢
          tauto

/-- The flags that were seen are those before and those of the source that cannot have
duplicates. -/
theorem mem_visitedFlags_mergeFlags :
    flag ∈ (mergeFlags visitedFlags target source).1 ↔
      flag ∈ visitedFlags ∨ flag ∈ source ∧ canHaveDuplicates flag.type = false := by
  induction source generalizing visitedFlags target with
  | nil => simp [mergeFlags]
  | cons f source ih =>
      unfold mergeFlags
      split
      · rename_i hduplicates
        rw [ih, List.mem_cons]
        constructor
        · tauto
        · intro h
          rcases h with h | ⟨heq | h, hno⟩
          · exact Or.inl h
          · rw [heq, hduplicates] at hno
            simp at hno
          · exact Or.inr ⟨h, hno⟩
      · rename_i hno
        rw [Bool.not_eq_true] at hno
        split
        · rename_i hvisited
          rw [ih, List.mem_cons]
          constructor
          · tauto
          · intro h
            rcases h with h | ⟨heq | h, hflag⟩
            · exact Or.inl h
            · exact Or.inl (heq ▸ hvisited)
            · exact Or.inr ⟨h, hflag⟩
        · rw [ih, List.mem_cons, List.mem_cons]
          constructor
          · intro h
            rcases h with (heq | h) | h
            · exact Or.inr ⟨Or.inl heq, heq ▸ hno⟩
            · exact Or.inl h
            · exact Or.inr ⟨Or.inr h.1, h.2⟩
          · tauto

/-- A flag that can have duplicates is appended as often as it is in the source. -/
theorem count_mergeFlags_of_duplicates (h : canHaveDuplicates flag.type = true) :
    (mergeFlags visitedFlags target source).2.count flag = target.count flag + source.count flag := by
  induction source generalizing visitedFlags target with
  | nil => simp [mergeFlags]
  | cons f source ih =>
      unfold mergeFlags
      split
      · rw [ih, List.count_append, List.count_cons, List.count_cons, List.count_nil]
        omega
      · rename_i hno
        have hne : f ≠ flag := fun heq => hno (heq ▸ h)
        split
        · rw [ih, List.count_cons_of_ne hne]
        · rw [ih, List.count_append, List.count_cons_of_ne hne, List.count_cons_of_ne hne]
          simp

/-- Any other flag is appended once if it was not seen and is in the source. -/
theorem count_mergeFlags (h : canHaveDuplicates flag.type = false) :
    (mergeFlags visitedFlags target source).2.count flag =
      target.count flag + if flag ∉ visitedFlags ∧ flag ∈ source then 1 else 0 := by
  induction source generalizing visitedFlags target with
  | nil => simp [mergeFlags]
  | cons f source ih =>
      unfold mergeFlags
      split
      · rename_i hduplicates
        have hne : flag ≠ f := by
          intro heq
          rw [heq, hduplicates] at h
          simp at h
        rw [ih, List.count_append, List.count_singleton]
        simp [hne, hne.symm]
      · split
        · rename_i hvisited
          rw [ih]
          by_cases heq : flag = f
          · simp [heq, hvisited]
          · simp [heq]
        · rename_i hvisited
          rw [ih, List.count_append, List.count_singleton]
          by_cases heq : flag = f
          · simp [heq, hvisited]
          · simp [heq, Ne.symm heq]

/-! ## The flags of all packages -/

/-- How often each flag is in the list that was merged from some lists of flags. -/
structure Merged (target : List Flag) (sources : List (List Flag)) : Prop where
  mem_iff : ∀ flag, flag ∈ target ↔ ∃ source, source ∈ sources ∧ flag ∈ source
  count_le : ∀ flag, canHaveDuplicates flag.type = false → target.count flag ≤ 1
  count_eq : ∀ flag, canHaveDuplicates flag.type = true →
    target.count flag = (sources.map fun source => source.count flag).sum

/-- Another list is merged, of which just those flags were seen that are in the target. -/
theorem Merged.mergeFlags {sources : List (List Flag)} (h : Merged target sources)
    (hvisited : ∀ flag, flag ∈ source → canHaveDuplicates flag.type = false →
      (flag ∈ visitedFlags ↔ flag ∈ target)) :
    Merged (mergeFlags visitedFlags target source).2 (sources ++ [source]) := by
  have hcount : ∀ flag, canHaveDuplicates flag.type = false →
      ((PkgConfig.mergeFlags visitedFlags target source).2.count flag =
        target.count flag + if flag ∉ target ∧ flag ∈ source then 1 else 0) := by
    intro flag hflag
    rw [count_mergeFlags hflag]
    by_cases hsource : flag ∈ source
    · simp [hvisited flag hsource hflag]
    · simp [hsource]
  constructor
  · intro flag
    simp only [List.mem_append, List.mem_singleton, or_and_right, exists_or, exists_eq_left]
    rw [← h.mem_iff]
    constructor
    · exact mem_mergeFlags.1
    · intro hmem
      rcases hmem with hmem | hmem
      · exact mem_mergeFlags.2 hmem
      · rw [← List.count_pos_iff]
        cases hduplicates : canHaveDuplicates flag.type with
        | true =>
            rw [count_mergeFlags_of_duplicates hduplicates]
            have hpos := List.count_pos_iff.mpr hmem
            omega
        | false =>
            rw [hcount flag hduplicates]
            by_cases htarget : flag ∈ target
            · have hpos := List.count_pos_iff.mpr htarget
              omega
            · simp [htarget, hmem]
  · intro flag hflag
    have hle := h.count_le flag hflag
    rw [hcount flag hflag]
    split
    · rename_i hnew
      simp [List.count_eq_zero_of_not_mem hnew.1]
    · exact hle
  · intro flag hflag
    rw [count_mergeFlags_of_duplicates hflag, h.count_eq flag hflag]
    simp

/-- What holds of the flags that were merged from some packages. -/
structure MergedFlags.Sound (m : MergedFlags) (deps : List PcPackage) : Prop where
  libs : Merged m.libs (deps.map PcPackage.libs)
  cflags : Merged m.cflags (deps.map PcPackage.cflags)
  visitedFlags : ∀ flag, flag ∈ m.visitedFlags ↔
    (flag ∈ m.libs ∨ flag ∈ m.cflags) ∧ canHaveDuplicates flag.type = false

theorem Merged.kind {sources : List (List Flag)} (h : Merged target sources) {kind : Bool}
    (hkind : ∀ source, source ∈ sources → ∀ flag, flag ∈ source → flag.type.isLibsType = kind)
    (hflag : flag ∈ target) : flag.type.isLibsType = kind := by
  rcases (h.mem_iff flag).mp hflag with ⟨source, hsource, hmem⟩
  exact hkind source hsource flag hmem

theorem MergedFlags.Sound.libs_kind {m : MergedFlags} (h : m.Sound deps) :
    ∀ flag, flag ∈ m.libs → flag.type.isLibsType = true := by
  intro flag hflag
  refine h.libs.kind ?_ hflag
  intro source hsource
  rcases List.mem_map.mp hsource with ⟨dep, -, heq⟩
  rw [← heq]
  exact dep.libs_kind

theorem MergedFlags.Sound.cflags_kind {m : MergedFlags} (h : m.Sound deps) :
    ∀ flag, flag ∈ m.cflags → flag.type.isLibsType = false := by
  intro flag hflag
  refine h.cflags.kind ?_ hflag
  intro source hsource
  rcases List.mem_map.mp hsource with ⟨dep, -, heq⟩
  rw [← heq]
  exact dep.cflags_kind

/-- One more package. That the flags for the linker and the compiler are of different kinds is why
they can share the set of flags that were seen. -/
theorem MergedFlags.Sound.add {m : MergedFlags} (h : m.Sound deps) (dep : PcPackage) :
    (m.add dep).Sound (deps ++ [dep]) := by
  have hlibs : Merged (m.add dep).libs ((deps ++ [dep]).map PcPackage.libs) := by
    rw [List.map_append]
    refine h.libs.mergeFlags ?_
    intro flag hflag hno
    rw [h.visitedFlags]
    have hcflags : flag ∉ m.cflags := by
      intro hmem
      have hkind := h.cflags_kind flag hmem
      rw [dep.libs_kind flag hflag] at hkind
      simp at hkind
    simp [hcflags, hno]
  have hcflags : Merged (m.add dep).cflags ((deps ++ [dep]).map PcPackage.cflags) := by
    rw [List.map_append]
    refine h.cflags.mergeFlags ?_
    intro flag hflag hno
    rw [mem_visitedFlags_mergeFlags, h.visitedFlags]
    have hkind := dep.cflags_kind flag hflag
    have hlibs : flag ∉ m.libs := by
      intro hmem
      rw [h.libs_kind flag hmem] at hkind
      simp at hkind
    have hdep : flag ∉ dep.libs := by
      intro hmem
      rw [dep.libs_kind flag hmem] at hkind
      simp at hkind
    simp [hlibs, hdep, hno]
  refine ⟨hlibs, hcflags, ?_⟩
  intro flag
  rw [hlibs.mem_iff, hcflags.mem_iff]
  show flag ∈ (mergeFlags (mergeFlags m.visitedFlags m.libs dep.libs).1 m.cflags dep.cflags).1 ↔ _
  rw [mem_visitedFlags_mergeFlags, mem_visitedFlags_mergeFlags, h.visitedFlags, h.libs.mem_iff,
    h.cflags.mem_iff]
  simp only [List.map_append, List.map_cons, List.map_nil, List.mem_append, List.mem_singleton,
    or_and_right, exists_or, exists_eq_left]
  generalize (∃ source, source ∈ deps.map PcPackage.libs ∧ flag ∈ source) = inLibs
  generalize (∃ source, source ∈ deps.map PcPackage.cflags ∧ flag ∈ source) = inCflags
  tauto

/-- The merged flags of some packages. -/
theorem merged_mergedFlags (deps : List PcPackage) : (mergedFlags deps).Sound deps := by
  unfold mergedFlags
  induction deps using List.reverseRecOn with
  | nil =>
      constructor
      · exact ⟨by simp, by simp, by simp⟩
      · exact ⟨by simp, by simp, by simp⟩
      · simp
  | append_singleton deps dep ih =>
      rw [List.foldl_append]
      exact ih.add dep

end PkgConfig

end Qbs
