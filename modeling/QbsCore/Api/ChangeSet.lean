import Mathlib.Data.List.Induction
import Mathlib.Logic.Function.Iterate
import QbsCore.Library.SimultaneousEdits

/-!
# Change sets

A change set collects operations on a text, with positions in the text as it is, and rejects
operations that overlap.  When it is applied, the operations become replacements that are carried
out one after the other, and each of them shifts the ones that remain.

Main results:

- Theorem {lit}`ChangeSet.compatible_of_accepted`: the replacements of accepted operations are
  compatible.
-/

namespace Qbs

namespace ChangeSet

open SimultaneousEdits

/-! ## Operations -/

inductive EditOp where
  | replace (pos1 length1 : ℕ) (text : List Char)
  | move (pos1 length1 pos2 : ℕ)
  | insert (pos1 : ℕ) (text : List Char)
  | remove (pos1 length1 : ℕ)
  | flip (pos1 length1 pos2 length2 : ℕ)
  | copy (pos1 length1 pos2 : ℕ)

/-- A change set that is being filled. -/
structure State where
  operationList : List EditOp
  error : Bool

def overlaps (posA lengthA posB lengthB : ℕ) : Bool :=
  if lengthB > 0 then
    -- right edge of B contained in A
    (posA < posB + lengthB && posA + lengthA ≥ posB + lengthB) ||
      -- left edge of B contained in A
      (posA ≤ posB && posA + lengthA > posB) ||
      -- A contained in B
      (posB < posA && posB + lengthB > posA + lengthA)
  else posB > posA && posB < posA + lengthA

/-- An operation overlaps a range. -/
def EditOp.hasOverlap (pos length : ℕ) : EditOp → Bool
  | .replace pos1 length1 _ => overlaps pos length pos1 length1
  | .move pos1 length1 pos2 =>
      overlaps pos length pos1 length1 || (pos2 > pos && pos2 < pos + length)
  | .insert pos1 _ => pos1 > pos && pos1 < pos + length
  | .remove pos1 length1 => overlaps pos length pos1 length1
  | .flip pos1 length1 pos2 length2 =>
      overlaps pos length pos1 length1 || overlaps pos length pos2 length2
  | .copy pos1 length1 pos2 =>
      overlaps pos length pos1 length1 || (pos2 > pos && pos2 < pos + length)

namespace State

def empty : State where
  operationList := []
  error := false

def hasOverlap (s : State) (pos length : ℕ) : Bool :=
  s.operationList.any (EditOp.hasOverlap pos length)

/-- Add an operation. The error is kept. -/
def push (s : State) (overlap : Bool) (cmd : EditOp) : State where
  operationList := s.operationList ++ [cmd]
  error := s.error || overlap

def replaceHelper (s : State) (pos length : ℕ) (replacement : List Char) : State :=
  s.push (s.hasOverlap pos length) (.replace pos length replacement)

def moveHelper (s : State) (pos length target : ℕ) : State :=
  s.push (s.hasOverlap pos length || s.hasOverlap target 0 || overlaps pos length target 0)
    (.move pos length target)

def insert (s : State) (pos : ℕ) (text : List Char) : State :=
  s.push (s.hasOverlap pos 0) (.insert pos text)

def removeHelper (s : State) (pos length : ℕ) : State :=
  s.push (s.hasOverlap pos length) (.remove pos length)

def flipHelper (s : State) (pos1 length1 pos2 length2 : ℕ) : State :=
  s.push (s.hasOverlap pos1 length1 || s.hasOverlap pos2 length2 ||
    overlaps pos1 length1 pos2 length2) (.flip pos1 length1 pos2 length2)

def copyHelper (s : State) (pos length target : ℕ) : State :=
  s.push (s.hasOverlap pos length || s.hasOverlap target 0 || overlaps pos length target 0)
    (.copy pos length target)

def add (s : State) : EditOp → State
  | .replace pos1 length1 text => s.replaceHelper pos1 length1 text
  | .move pos1 length1 pos2 => s.moveHelper pos1 length1 pos2
  | .insert pos1 text => s.insert pos1 text
  | .remove pos1 length1 => s.removeHelper pos1 length1
  | .flip pos1 length1 pos2 length2 => s.flipHelper pos1 length1 pos2 length2
  | .copy pos1 length1 pos2 => s.copyHelper pos1 length1 pos2

end State

/-- The change set that the operations give when they are added one after the other. -/
def fill (ops : List EditOp) : State :=
  ops.foldl State.add State.empty

def hadErrors (ops : List EditOp) : Bool :=
  (fill ops).error

/-! ## Applying -/

/-- Part of a text. -/
def textAt (s : List Char) (pos length : ℕ) : List Char :=
  (s.drop pos).take length

/-- The replacements of an operation; texts come from the text as it is. -/
def convertToReplace (s : List Char) : EditOp → List (Edit Char)
  | .replace pos1 length1 text => [⟨pos1, length1, text⟩]
  | .move pos1 length1 pos2 => [⟨pos1, length1, []⟩, ⟨pos2, 0, textAt s pos1 length1⟩]
  | .insert pos1 text => [⟨pos1, 0, text⟩]
  | .remove pos1 length1 => [⟨pos1, length1, []⟩]
  | .flip pos1 length1 pos2 length2 =>
      [⟨pos1, length1, textAt s pos2 length2⟩, ⟨pos2, length2, textAt s pos1 length1⟩]
  | .copy pos1 length1 pos2 => [⟨pos2, 0, textAt s pos1 length1⟩]

def replaceList (s : List Char) (ops : List EditOp) : List (Edit Char) :=
  ops.flatMap (convertToReplace s)

/-- A replacement that remains, with the position to which it has been shifted. -/
structure Pending where
  pos1 : Int
  length1 : ℕ
  text : List Char

def Pending.start (e : Edit Char) : Pending where
  pos1 := e.pos
  length1 := e.len
  text := e.text

/-- What a replacement that is carried out does to one that remains. The second comparison sees the
position that the first one has shifted. -/
def Pending.shifted (r c : Pending) : Pending :=
  let pos1 := if r.pos1 ≤ c.pos1 then c.pos1 + r.text.length else c.pos1
  { c with pos1 := if r.pos1 < pos1 then pos1 - r.length1 else pos1 }

/-- There is nothing to replace at a position that is not in the text. -/
def Pending.carryOut (r : Pending) (s : List Char) : List Char :=
  if r.pos1 < 0 ∨ s.length < r.pos1 then s else splice s r.pos1.toNat r.length1 r.text

/-- Carry out the first replacement, and shift the other ones. -/
def doReplace : List Pending × List Char → List Pending × List Char
  | ([], s) => ([], s)
  | (r :: l, s) => (l.map r.shifted, r.carryOut s)

/-- Carry out all replacements. -/
def execute (l : List Pending) (s : List Char) : List Char :=
  (doReplace^[l.length] (l, s)).2

def apply (ops : List EditOp) (s : List Char) : List Char :=
  execute ((replaceList s ops).map Pending.start) s

/-! ## Accepted operations -/

theorem stop_le_of_overlaps {posA lengthA posB lengthB : ℕ}
    (h : overlaps posA lengthA posB lengthB = false) :
    posB + lengthB ≤ posA ∨ posA + lengthA ≤ posB := by
  unfold overlaps at h
  split_ifs at h with hlength
  · simp only [Bool.or_eq_false_iff, Bool.and_eq_false_iff, decide_eq_false_iff_not] at h
    omega
  · simp only [Bool.and_eq_false_iff, decide_eq_false_iff_not] at h
    omega

/-- An operation that does not overlap a range is compatible with a replacement of the range. -/
theorem EditOp.compatible_of_hasOverlap {cmd : EditOp} {pos length : ℕ}
    (h : cmd.hasOverlap pos length = false) (s text : List Char) :
    ∀ e ∈ convertToReplace s cmd, Compatible e ⟨pos, length, text⟩ := by
  cases cmd with
  | replace pos1 length1 new =>
      have hstop := stop_le_of_overlaps h
      simpa [convertToReplace, Compatible, Edit.stop] using hstop
  | move pos1 length1 pos2 =>
      obtain ⟨hrange, hinsert⟩ := Bool.or_eq_false_iff.mp h
      have hstop := stop_le_of_overlaps hrange
      simp only [Bool.and_eq_false_iff, decide_eq_false_iff_not] at hinsert
      simp [convertToReplace, Compatible, Edit.stop]
      omega
  | insert pos1 new =>
      simp only [hasOverlap, Bool.and_eq_false_iff, decide_eq_false_iff_not] at h
      simp [convertToReplace, Compatible, Edit.stop]
      omega
  | remove pos1 length1 =>
      have hstop := stop_le_of_overlaps h
      simpa [convertToReplace, Compatible, Edit.stop] using hstop
  | flip pos1 length1 pos2 length2 =>
      obtain ⟨hfirst, hsecond⟩ := Bool.or_eq_false_iff.mp h
      have hstop₁ := stop_le_of_overlaps hfirst
      have hstop₂ := stop_le_of_overlaps hsecond
      simp [convertToReplace, Compatible, Edit.stop]
      omega
  | copy pos1 length1 pos2 =>
      obtain ⟨_, hinsert⟩ := Bool.or_eq_false_iff.mp h
      simp only [Bool.and_eq_false_iff, decide_eq_false_iff_not] at hinsert
      simp [convertToReplace, Compatible, Edit.stop]
      omega

/-- An operation is accepted if none of its replacements overlaps those of the earlier operations,
and they do not overlap each other. -/
theorem State.error_add {st : State} {cmd : EditOp} (h : (st.add cmd).error = false)
    (s : List Char) :
    st.error = false ∧ (convertToReplace s cmd).Pairwise Compatible ∧
      ∀ e ∈ replaceList s st.operationList, ∀ f ∈ convertToReplace s cmd, Compatible e f := by
  have hold : ∀ pos length text, st.hasOverlap pos length = false →
      ∀ e ∈ replaceList s st.operationList, Compatible e ⟨pos, length, text⟩ := by
    intro pos length text hoverlap e he
    obtain ⟨old, hmem, he⟩ := List.mem_flatMap.mp he
    have hnone := List.any_eq_false.mp hoverlap old hmem
    exact EditOp.compatible_of_hasOverlap (by simpa using hnone) s text e he
  -- The ranges of an operation are checked one by one, and then against each other.
  cases cmd with
  | replace pos1 length1 text =>
      obtain ⟨herror, hrange⟩ := Bool.or_eq_false_iff.mp h
      refine ⟨herror, by simp [convertToReplace], fun e he => ?_⟩
      simpa [convertToReplace] using hold _ _ _ hrange e he
  | move pos1 length1 pos2 =>
      obtain ⟨herror, hoverlap⟩ := Bool.or_eq_false_iff.mp h
      obtain ⟨hboth, hinside⟩ := Bool.or_eq_false_iff.mp hoverlap
      obtain ⟨hrange, htarget⟩ := Bool.or_eq_false_iff.mp hboth
      have hstop := stop_le_of_overlaps hinside
      refine ⟨herror, ?_, fun e he => ?_⟩
      · simpa [convertToReplace, Compatible, Edit.stop] using hstop.symm
      · simpa [convertToReplace] using
          ⟨hold _ _ _ hrange e he, hold _ _ _ htarget e he⟩
  | insert pos1 text =>
      obtain ⟨herror, hrange⟩ := Bool.or_eq_false_iff.mp h
      refine ⟨herror, by simp [convertToReplace], fun e he => ?_⟩
      simpa [convertToReplace] using hold _ _ _ hrange e he
  | remove pos1 length1 =>
      obtain ⟨herror, hrange⟩ := Bool.or_eq_false_iff.mp h
      refine ⟨herror, by simp [convertToReplace], fun e he => ?_⟩
      simpa [convertToReplace] using hold _ _ _ hrange e he
  | flip pos1 length1 pos2 length2 =>
      obtain ⟨herror, hoverlap⟩ := Bool.or_eq_false_iff.mp h
      obtain ⟨hboth, hinside⟩ := Bool.or_eq_false_iff.mp hoverlap
      obtain ⟨hfirst, hsecond⟩ := Bool.or_eq_false_iff.mp hboth
      have hstop := stop_le_of_overlaps hinside
      refine ⟨herror, ?_, fun e he => ?_⟩
      · simpa [convertToReplace, Compatible, Edit.stop] using hstop.symm
      · simpa [convertToReplace] using
          ⟨hold _ _ _ hfirst e he, hold _ _ _ hsecond e he⟩
  | copy pos1 length1 pos2 =>
      obtain ⟨herror, hoverlap⟩ := Bool.or_eq_false_iff.mp h
      obtain ⟨hboth, _⟩ := Bool.or_eq_false_iff.mp hoverlap
      obtain ⟨_, htarget⟩ := Bool.or_eq_false_iff.mp hboth
      refine ⟨herror, by simp [convertToReplace], fun e he => ?_⟩
      simpa [convertToReplace] using hold _ _ _ htarget e he

@[simp]
theorem operationList_add (st : State) (cmd : EditOp) :
    (st.add cmd).operationList = st.operationList ++ [cmd] := by
  cases cmd <;> rfl

theorem operationList_fill (ops : List EditOp) : (fill ops).operationList = ops := by
  induction ops using List.reverseRecOn with
  | nil => simp [fill, State.empty]
  | append_singleton ops cmd ih =>
      simp only [fill, List.foldl_append, List.foldl_cons, List.foldl_nil] at ih ⊢
      rw [operationList_add, ih]

/-- The replacements of accepted operations are compatible. -/
theorem compatible_of_accepted {ops : List EditOp} (h : hadErrors ops = false) (s : List Char) :
    (replaceList s ops).Pairwise Compatible := by
  induction ops using List.reverseRecOn with
  | nil => simp [replaceList]
  | append_singleton ops cmd ih =>
      have hfill : fill (ops ++ [cmd]) = (fill ops).add cmd := by
        simp [fill]
      rw [hadErrors, hfill] at h
      obtain ⟨herror, hnew, hold⟩ := State.error_add h s
      rw [operationList_fill] at hold
      have hlist : replaceList s (ops ++ [cmd]) = replaceList s ops ++ convertToReplace s cmd := by
        simp [replaceList]
      rw [hlist]
      exact List.pairwise_append.mpr ⟨ih herror, hnew, hold⟩

end ChangeSet

end Qbs
