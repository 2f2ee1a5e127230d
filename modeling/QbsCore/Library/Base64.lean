import Mathlib.Algebra.Group.Nat.Defs
import Mathlib.Data.List.GetD

/-!
# Base64

Bytes written as characters of an alphabet of 64, three bytes at a time, with padding at
the end.

Main results:

- Theorem {lit}`Base64.decode_encode`: decoding the code of some bytes gives the bytes.
- Theorem {lit}`Base64.encode_injective`: different byte lists have different codes.
-/

namespace Base64

/-- The characters that stand for six bits. -/
def alphabet : List Char :=
  "ABCDEFGHIJKLMNOPQRSTUVWXYZabcdefghijklmnopqrstuvwxyz0123456789+/".toList

/-- The character for six bits. -/
def digit (n : Nat) : Char :=
  alphabet.getD n '='

theorem toNat_digit_lt (n : Nat) : (digit n).toNat < 128 := by
  have hall : alphabet.all (·.toNat < 128) = true := by
    decide +kernel
  by_cases hn : n < alphabet.length
  · rw [digit, List.getD_eq_getElem _ _ hn]
    exact of_decide_eq_true (List.all_eq_true.mp hall _ (List.getElem_mem hn))
  · rw [digit, List.getD_eq_default _ _ (Nat.not_lt.mp hn)]
    decide

/-- The code of some bytes. -/
def encode : List UInt8 → List Char
  | [] => []
  | [a] => [digit (a.toNat / 4), digit (a.toNat % 4 * 16), '=', '=']
  | [a, b] =>
      [digit (a.toNat / 4), digit (a.toNat % 4 * 16 + b.toNat / 16), digit (b.toNat % 16 * 4), '=']
  | a :: b :: c :: bytes =>
      digit (a.toNat / 4) :: digit (a.toNat % 4 * 16 + b.toNat / 16) ::
        digit (b.toNat % 16 * 4 + c.toNat / 64) :: digit (c.toNat % 64) :: encode bytes

/-! ## Decoding -/

/-- The six bits for a character of the alphabet. -/
def digitValue (c : Char) : Option Nat :=
  alphabet.idxOf? c

theorem digitValue_digit {n : Nat} (hn : n < 64) : digitValue (digit n) = some n := by
  have hall : ∀ m < 64, digitValue (digit m) = some m := by
    decide +kernel
  exact hall n hn

theorem digitValue_padding : digitValue '=' = none := by
  decide +kernel

/-- Collect six bits for each character of the alphabet, and skip the other characters.  There is a
byte as soon as there are eight bits. -/
def decodeFrom (buf nbits : Nat) : List Char → List UInt8
  | [] => []
  | c :: text =>
      match digitValue c with
      | none => decodeFrom buf nbits text
      | some d =>
          if 8 ≤ nbits + 6 then
            UInt8.ofNat ((buf * 64 + d) / 2 ^ (nbits - 2)) ::
              decodeFrom ((buf * 64 + d) % 2 ^ (nbits - 2)) (nbits - 2) text
          else decodeFrom (buf * 64 + d) (nbits + 6) text

/-- The bytes for a text. -/
def decode (text : List Char) : List UInt8 :=
  decodeFrom 0 0 text

@[simp]
theorem decodeFrom_nil (buf nbits : Nat) : decodeFrom buf nbits [] = [] := by
  simp [decodeFrom]

@[simp]
theorem decodeFrom_padding (buf nbits : Nat) (text : List Char) :
    decodeFrom buf nbits ('=' :: text) = decodeFrom buf nbits text := by
  simp [decodeFrom, digitValue_padding]

theorem decodeFrom_digit (buf nbits : Nat) {d : Nat} (hd : d < 64) (text : List Char) :
    decodeFrom buf nbits (digit d :: text) =
      if 8 ≤ nbits + 6 then
        UInt8.ofNat ((buf * 64 + d) / 2 ^ (nbits - 2)) ::
          decodeFrom ((buf * 64 + d) % 2 ^ (nbits - 2)) (nbits - 2) text
      else decodeFrom (buf * 64 + d) (nbits + 6) text := by
  rw [decodeFrom, digitValue_digit hd]

/-- The first byte of a group comes from the first two digits. -/
theorem decodeFrom_first (a : UInt8) {high : Nat} (hhigh : high < 16) (text : List Char) :
    decodeFrom 0 0 (digit (a.toNat / 4) :: digit (a.toNat % 4 * 16 + high) :: text) =
      a :: decodeFrom high 4 text := by
  have ha := a.toNat_lt
  have hbyte : (a.toNat / 4 * 64 + (a.toNat % 4 * 16 + high)) / 16 = a.toNat := by
    omega
  have hleft : (a.toNat / 4 * 64 + (a.toNat % 4 * 16 + high)) % 16 = high := by
    omega
  rw [decodeFrom_digit 0 0 (by omega), if_neg (by omega), decodeFrom_digit _ _ (by omega)]
  simp [hbyte, hleft]

/-- The second byte of a group comes from what is left and the third digit. -/
theorem decodeFrom_second (b : UInt8) {high : Nat} (hhigh : high < 4) (text : List Char) :
    decodeFrom (b.toNat / 16) 4 (digit (b.toNat % 16 * 4 + high) :: text) =
      b :: decodeFrom high 2 text := by
  have hbyte : (b.toNat / 16 * 64 + (b.toNat % 16 * 4 + high)) / 4 = b.toNat := by
    omega
  have hleft : (b.toNat / 16 * 64 + (b.toNat % 16 * 4 + high)) % 4 = high := by
    omega
  rw [decodeFrom_digit _ _ (by omega)]
  simp [hbyte, hleft]

/-- The third byte of a group comes from what is left and the fourth digit. -/
theorem decodeFrom_third (c : UInt8) (text : List Char) :
    decodeFrom (c.toNat / 64) 2 (digit (c.toNat % 64) :: text) = c :: decodeFrom 0 0 text := by
  have hbyte : c.toNat / 64 * 64 + c.toNat % 64 = c.toNat := by
    omega
  rw [decodeFrom_digit _ _ (by omega)]
  simp [hbyte, Nat.mod_one]

/-- The code of some bytes is decoded to the bytes. -/
theorem decode_encode (bytes : List UInt8) : decode (encode bytes) = bytes := by
  unfold decode
  fun_induction encode bytes with
  | case1 => simp
  | case2 a =>
      have hfirst := @decodeFrom_first a 0 (by omega)
      rw [Nat.add_zero] at hfirst
      simp [hfirst]
  | case3 a b =>
      have hb := b.toNat_lt
      have hsecond := @decodeFrom_second b 0 (by omega)
      rw [Nat.add_zero] at hsecond
      rw [decodeFrom_first a (by omega), hsecond]
      simp
  | case4 a b c bytes ih =>
      have hb := b.toNat_lt
      have hc := c.toNat_lt
      rw [decodeFrom_first a (by omega), decodeFrom_second b (by omega), decodeFrom_third, ih]

/-- Different bytes have different codes. -/
theorem encode_injective {bytes bytes' : List UInt8} (h : encode bytes = encode bytes') :
    bytes = bytes' := by
  rw [← decode_encode bytes, h, decode_encode]

/-- A code has characters of a single byte only. -/
theorem toNat_lt_of_mem_encode (bytes : List UInt8) : ∀ c ∈ encode bytes, c.toNat < 128 := by
  fun_induction encode bytes with
  | case1 => simp
  | case2 a => simp [toNat_digit_lt]
  | case3 a b => simp [toNat_digit_lt]
  | case4 a b c bytes ih => simpa [toNat_digit_lt] using ih

end Base64
