import Mathlib.Data.List.Basic
import Mathlib.Tactic.Ring

/-!
# Reading what was written as bytes

A reader takes a value off the front of some bytes.  It reads a value from the bytes that were
written for it if it finds the value whatever bytes come after them.

Main results:

- Theorem {lit}`ByteReader.Reads.bind`: values that are written one after the other.
- Theorem {lit}`ByteReader.reads_bigEndian`: numbers of a fixed width.
- Theorem {lit}`ByteReader.Reads.list`: as many values as there are.
-/

/-- Take a value off the front of the bytes; there is none if the bytes are not those of a value. -/
abbrev ByteReader (α : Type) :=
  StateT (List UInt8) Option α

namespace ByteReader

variable {α β : Type}

/-- The value is read from the bytes, whatever comes after them. -/
def Reads (r : ByteReader α) (bytes : List UInt8) (a : α) : Prop :=
  ∀ rest, r.run (bytes ++ rest) = some (a, rest)

theorem Reads.pure (a : α) : Reads (pure a) [] a := by
  intro rest
  simp

variable {r : ByteReader α}

theorem Reads.bind {f : α → ByteReader β} {first second : List UInt8} {a : α} {b : β}
    (hr : Reads r first a) (hf : Reads (f a) second b) :
    Reads (r >>= f) (first ++ second) b := by
  intro rest
  rw [StateT.run_bind, List.append_assoc, hr]
  exact hf rest

variable {bytes : List UInt8}

theorem Reads.map {a : α} (hr : Reads r bytes a) (f : α → β) :
    Reads (f <$> r) bytes (f a) := by
  intro rest
  simp [hr rest]

/-- A value that is computed from the last value that is read. -/
theorem Reads.bind_pure {a : α} (hr : Reads r bytes a) (f : α → β) :
    Reads (r >>= fun a => Pure.pure (f a)) bytes (f a) := by
  simpa using hr.bind (f := fun a => Pure.pure (f a)) (Reads.pure (f a))

/-! ## Bytes -/

/-- Take a number of bytes. -/
def takeBytes (n : ℕ) : ByteReader (List UInt8) := fun bytes =>
  if n ≤ bytes.length then some (bytes.take n, bytes.drop n) else none

theorem reads_takeBytes {n : ℕ} (h : bytes.length = n) :
    Reads (takeBytes n) bytes bytes := by
  intro rest
  simp [takeBytes, StateT.run, ← h]

/-! ## Numbers -/

/-- The bytes of a number, with the most significant one first. -/
def bigEndian : ℕ → ℕ → List UInt8
  | 0, _ => []
  | k + 1, n => bigEndian k (n / 256) ++ [UInt8.ofNat n]

/-- The number that bytes stand for. -/
def ofBigEndian (bytes : List UInt8) : ℕ :=
  bytes.foldl (fun n b => n * 256 + b.toNat) 0

@[simp]
theorem length_bigEndian (k n : ℕ) : (bigEndian k n).length = k := by
  induction k generalizing n with
  | zero => simp [bigEndian]
  | succ k ih => simp [bigEndian, ih]

theorem ofBigEndian_bigEndian {k n : ℕ} (h : n < 256 ^ k) : ofBigEndian (bigEndian k n) = n := by
  induction k generalizing n with
  | zero =>
      have hzero : n = 0 := by simpa using h
      simp [bigEndian, ofBigEndian, hzero]
  | succ k ih =>
      have hlt : n / 256 < 256 ^ k := Nat.div_lt_of_lt_mul (by rwa [pow_succ'] at h)
      have hstarts := ih hlt
      simp only [ofBigEndian] at hstarts
      simp only [bigEndian, ofBigEndian, List.foldl_append, hstarts, List.foldl_cons,
        List.foldl_nil, UInt8.toNat_ofNat']
      omega

/-- Read a number of a fixed width. -/
def readBigEndian (k : ℕ) : ByteReader ℕ :=
  ofBigEndian <$> takeBytes k

theorem reads_bigEndian {k n : ℕ} (h : n < 256 ^ k) : Reads (readBigEndian k) (bigEndian k n) n := by
  have hread := (reads_takeBytes (length_bigEndian k n)).map ofBigEndian
  rwa [ofBigEndian_bigEndian h] at hread

/-! ## Lists -/

/-- Read a number of values. -/
def readList (r : ByteReader α) : ℕ → ByteReader (List α)
  | 0 => pure []
  | n + 1 => do
      let a ← r
      (a :: ·) <$> readList r n

theorem Reads.list {write : α → List UInt8} {l : List α} (hr : ∀ a ∈ l, Reads r (write a) a) :
    Reads (readList r l.length) (l.flatMap write) l := by
  induction l with
  | nil => exact Reads.pure []
  | cons a l ih =>
      have hrest := (ih fun b hb => hr b (by simp [hb])).map (a :: ·)
      exact (hr a (by simp)).bind (f := fun a => (a :: ·) <$> readList r l.length) hrest

end ByteReader
