import Mathlib

/-! # Fixed-width big-endian bytes -/

namespace Bytes

/-- The `width` low bytes of a number, the most significant first. -/
def bigEndian : Nat → Nat → List UInt8
  | 0, _ => []
  | width + 1, value => UInt8.ofNat (value >>> (8 * width)) :: bigEndian width value

/-- The number a byte string denotes, the most significant byte first. -/
def ofBigEndian : List UInt8 → Nat
  | [] => 0
  | byte :: rest => byte.toNat * 256 ^ rest.length + ofBigEndian rest

@[simp] theorem length_bigEndian (width value : Nat) : (bigEndian width value).length = width := by
  induction width with
  | zero => rfl
  | succ width ih => simp [bigEndian, ih]

/-- Reading a fixed-width encoding back keeps the bits that fit the width. -/
theorem ofBigEndian_bigEndian (width value : Nat) :
    ofBigEndian (bigEndian width value) = value % 256 ^ width := by
  induction width with
  | zero => simp [bigEndian, ofBigEndian, Nat.mod_one]
  | succ width ih =>
      have hbyte : (UInt8.ofNat (value >>> (8 * width))).toNat = value / 256 ^ width % 256 := by
        rw [UInt8.toNat_ofNat', Nat.shiftRight_eq_div_pow, pow_mul]
        rfl
      rw [bigEndian, ofBigEndian, hbyte, length_bigEndian, ih, Nat.mod_pow_succ]
      ring

theorem ofBigEndian_bigEndian_of_lt (width value : Nat) (hlt : value < 256 ^ width) :
    ofBigEndian (bigEndian width value) = value := by
  rw [ofBigEndian_bigEndian, Nat.mod_eq_of_lt hlt]

theorem ofBigEndian_lt (bytes : List UInt8) : ofBigEndian bytes < 256 ^ bytes.length := by
  induction bytes with
  | nil => simp [ofBigEndian]
  | cons byte rest ih =>
      have hbyte : byte.toNat * 256 ^ rest.length ≤ 255 * 256 ^ rest.length :=
        Nat.mul_le_mul_right _ (Nat.le_of_lt_succ byte.toNat_lt)
      rw [ofBigEndian, List.length_cons, pow_succ]
      omega

theorem ofBigEndian_lt_of_length_le {bytes : List UInt8} {width : Nat}
    (hlength : bytes.length ≤ width) : ofBigEndian bytes < 256 ^ width :=
  Nat.lt_of_lt_of_le (ofBigEndian_lt bytes) (Nat.pow_le_pow_right (by decide) hlength)

end Bytes
