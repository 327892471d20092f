import Mathlib

/-! # Machine integers and run-time faults

A C++ `int` is an integer in the range of 32 bits; a conversion to it wraps.
The unsigned types are Lean's own. A computation that leaves the language's
defined behaviour, or throws, ends in a `Fault`.
-/

namespace CppFragments

/-- How a computation can fail to return. -/
inductive Fault
  /-- `std::out_of_range`, thrown by `std::vector::at`. -/
  | outOfRange
  /-- A raw pointer is read past the end of the memory behind it. -/
  | overrun
  /-- `std::length_error`, thrown by a container asked for too many elements. -/
  | lengthError
  /-- A failed `RAPIDJSON_ASSERT`, which aborts the process. -/
  | assertionFailed
  deriving DecidableEq, Repr

/-- The bytes of a string literal. -/
def literal (text : String) : List UInt8 :=
  text.toList.map fun char => UInt8.ofNat char.toNat

/-- Conversion to a 32-bit signed `int`. -/
def toInt32 (value : Int) : Int :=
  value.bmod (2 ^ 32)

/-- Addition of two `int`s, undefined when it overflows. -/
def addInt (first second : Int) : Option Int :=
  if -2 ^ 31 ≤ first + second ∧ first + second < 2 ^ 31 then some (first + second) else none

theorem addInt_eq_some_iff {first second sum : Int} :
    addInt first second = some sum ↔
      (-2 ^ 31 ≤ first + second ∧ first + second < 2 ^ 31) ∧ first + second = sum := by
  unfold addInt
  split
  next hrange => rw [Option.some.injEq, and_iff_right hrange]
  next hrange => exact iff_of_false (by simp) fun hsum => hrange hsum.1

theorem toInt32_natCast {n : Nat} (hlt : n < 2 ^ 31) : toInt32 (n : Int) = n := by
  unfold toInt32
  apply Int.bmod_eq_of_le <;> omega

theorem toInt32_natCast_le (n : Nat) : toInt32 (n : Int) ≤ n := by
  unfold toInt32
  rw [Int.bmod_def]
  split <;> omega

theorem toInt32_lt (value : Int) : toInt32 value < 2 ^ 31 := by
  unfold toInt32
  rw [Int.bmod_def]
  split <;> omega

@[simp] theorem toNat_uint32_ofInt_natCast (n : Nat) :
    (UInt32.ofInt (n : Int)).toNat = n % 2 ^ 32 := by
  simp only [UInt32.ofInt, UInt32.toNat_ofNat']
  omega

theorem uint32_ofInt_natCast (n : Nat) : UInt32.ofInt (n : Int) = UInt32.ofNat n := by
  apply UInt32.toNat_inj.mp
  rw [toNat_uint32_ofInt_natCast, UInt32.toNat_ofNat']

@[simp] theorem toNat_uint64_ofInt_natCast (n : Nat) :
    (UInt64.ofInt (n : Int)).toNat = n % 2 ^ 64 := by
  simp only [UInt64.ofInt, UInt64.toNat_ofNat']
  omega

theorem uint64_ofInt_natCast (n : Nat) : UInt64.ofInt (n : Int) = UInt64.ofNat n := by
  apply UInt64.toNat_inj.mp
  rw [toNat_uint64_ofInt_natCast, UInt64.toNat_ofNat']

theorem uint64_eq_zero_iff (value : UInt64) : value = 0 ↔ value.toNat = 0 :=
  UInt64.toNat_inj.symm

/-- An offset that fits is not mistaken for 0, which asks for more data. -/
theorem toUInt32_ofNat_ne_zero {n : Nat} (hpos : 0 < n) (hlt : n < 2 ^ 32) :
    (UInt64.ofNat n).toUInt32 ≠ 0 := by
  intro hzero
  have hnat := congrArg UInt32.toNat hzero
  rw [UInt64.toNat_toUInt32, UInt64.toNat_ofNat'] at hnat
  change _ = 0 at hnat
  omega

theorem uint64_ofNat_ne_zero {n : Nat} (hpos : 0 < n) (hlt : n < 2 ^ 32) : UInt64.ofNat n ≠ 0 := by
  intro hzero
  apply toUInt32_ofNat_ne_zero hpos hlt
  rw [hzero]
  rfl

end CppFragments
