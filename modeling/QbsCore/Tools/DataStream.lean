import QbsCore.Library.ByteReader

/-!
# Data streams

The binary form in which the processes of the program exchange values.

Main results:

- Theorems {lit}`DataStream.reads_writeByteArray`, {lit}`DataStream.reads_writeString` and
  {lit}`DataStream.reads_writeStringList`: what was written is read, if it is not too long for
  its length field.

Current gaps:

- What a reader leaves behind after damaged data is not modelled.
-/

namespace Qbs

namespace DataStream

open ByteReader

/-- A string as its UTF-16 code units. A null string is not the same as an empty one here. -/
abbrev QString :=
  Option (List UInt16)

/-- Bytes, which can be null. -/
abbrev QByteArray :=
  Option (List UInt8)

/-- The length that stands for null. -/
def nullLength : ℕ :=
  2 ^ 32 - 1

/-! ## Writing -/

def writeUInt8 (b : UInt8) : List UInt8 :=
  bigEndian 1 b.toNat

def writeUInt16 (b : UInt16) : List UInt8 :=
  bigEndian 2 b.toNat

def writeUInt64 (n : UInt64) : List UInt8 :=
  bigEndian 8 n.toNat

def writeInt32 (i : Int32) : List UInt8 :=
  bigEndian 4 i.toUInt32.toNat

def writeByteArray : QByteArray → List UInt8
  | none => bigEndian 4 nullLength
  | some bytes => bigEndian 4 bytes.length ++ bytes

/-- The length is that of the bytes. -/
def writeString : QString → List UInt8
  | none => bigEndian 4 nullLength
  | some units => bigEndian 4 (2 * units.length) ++ units.flatMap writeUInt16

def writeStringList (l : List QString) : List UInt8 :=
  bigEndian 4 l.length ++ l.flatMap writeString

/-! ## Reading -/

def readUInt8 : ByteReader UInt8 :=
  UInt8.ofNat <$> readBigEndian 1

def readUInt16 : ByteReader UInt16 :=
  UInt16.ofNat <$> readBigEndian 2

def readUInt64 : ByteReader UInt64 :=
  UInt64.ofNat <$> readBigEndian 8

def readInt32 : ByteReader Int32 :=
  (fun n => (UInt32.ofNat n).toInt32) <$> readBigEndian 4

def readByteArray : ByteReader QByteArray := do
  let length ← readBigEndian 4
  if length = nullLength then pure none else some <$> takeBytes length

/-- An odd number of bytes is an error. -/
def readString : ByteReader QString := do
  let length ← readBigEndian 4
  if length = nullLength then pure none
  else if length % 2 = 1 then failure
  else some <$> readList readUInt16 (length / 2)

def readStringList : ByteReader (List QString) := do
  let length ← readBigEndian 4
  readList readString length

/-! ## Reading what was written -/

theorem reads_writeUInt8 (b : UInt8) : Reads readUInt8 (writeUInt8 b) b := by
  have hread := (reads_bigEndian (k := 1) b.toNat_lt).map UInt8.ofNat
  rwa [UInt8.ofNat_toNat] at hread

theorem reads_writeUInt16 (b : UInt16) : Reads readUInt16 (writeUInt16 b) b := by
  have hread := (reads_bigEndian (k := 2) b.toNat_lt).map UInt16.ofNat
  rwa [UInt16.ofNat_toNat] at hread

theorem reads_writeInt32 (i : Int32) : Reads readInt32 (writeInt32 i) i := by
  have hread := (reads_bigEndian (k := 4) i.toUInt32.toNat_lt).map
    fun n => (UInt32.ofNat n).toInt32
  rwa [UInt32.ofNat_toNat] at hread

theorem reads_writeByteArray {a : QByteArray} (h : (writeByteArray a).length < nullLength) :
    Reads readByteArray (writeByteArray a) a := by
  cases a with
  | none =>
      rw [writeByteArray, ← List.append_nil (bigEndian 4 nullLength)]
      refine (reads_bigEndian (by decide)).bind ?_
      rw [if_pos rfl]
      exact Reads.pure none
  | some bytes =>
      simp only [writeByteArray, List.length_append, length_bigEndian, nullLength] at h
      refine (reads_bigEndian (by omega)).bind ?_
      rw [if_neg (by simp only [nullLength]; omega)]
      exact (reads_takeBytes rfl).map some

theorem length_flatMap_writeUInt16 (units : List UInt16) :
    (units.flatMap writeUInt16).length = 2 * units.length := by
  induction units with
  | nil => simp
  | cons u units ih => simp [writeUInt16, ih]; omega

theorem reads_writeString {s : QString} (h : (writeString s).length < nullLength) :
    Reads readString (writeString s) s := by
  cases s with
  | none =>
      rw [writeString, ← List.append_nil (bigEndian 4 nullLength)]
      refine (reads_bigEndian (by decide)).bind ?_
      rw [if_pos rfl]
      exact Reads.pure none
  | some units =>
      simp only [writeString, List.length_append, length_bigEndian, length_flatMap_writeUInt16,
        nullLength] at h
      refine (reads_bigEndian (by omega)).bind ?_
      rw [if_neg (by simp only [nullLength]; omega), if_neg (by omega),
        Nat.mul_div_cancel_left _ (by omega)]
      exact (Reads.list fun u _ => reads_writeUInt16 u).map some

theorem length_writeString_pos (s : QString) : 0 < (writeString s).length := by
  cases s with
  | none => simp [writeString]
  | some units => simp [writeString]

/-- The parts of a list that is not too long are not too long either. -/
theorem length_le_flatMap_writeString (l : List QString) :
    l.length ≤ (l.flatMap writeString).length ∧
      ∀ s ∈ l, (writeString s).length ≤ (l.flatMap writeString).length := by
  induction l with
  | nil => simp
  | cons s l ih =>
      have hpos := length_writeString_pos s
      simp only [List.flatMap_cons, List.length_append, List.length_cons, List.forall_mem_cons]
      refine ⟨by omega, by omega, fun t ht => ?_⟩
      have hle := ih.2 t ht
      omega

theorem reads_writeStringList {l : List QString} (h : (writeStringList l).length < nullLength) :
    Reads readStringList (writeStringList l) l := by
  obtain ⟨hlength, hparts⟩ := length_le_flatMap_writeString l
  simp only [writeStringList, List.length_append, length_bigEndian] at h
  have hnull : nullLength < 256 ^ 4 := by decide
  refine (reads_bigEndian (by omega)).bind (Reads.list fun s hs => reads_writeString ?_)
  have hle := hparts s hs
  omega

end DataStream

end Qbs
