import Mathlib

/-! # Base64

The encoding takes three bytes at a time to four characters. A streaming encoder
takes one byte at a time and keeps the bits that do not fill a character yet.
-/

namespace Bytes

/-- The character of a 6-bit value in the standard alphabet. -/
def base64Char (value : Nat) : UInt8 :=
  if value < 26 then UInt8.ofNat ('A'.toNat + value)
  else if value < 52 then UInt8.ofNat ('a'.toNat + (value - 26))
  else if value < 62 then UInt8.ofNat ('0'.toNat + (value - 52))
  else if value = 62 then UInt8.ofNat '+'.toNat
  else UInt8.ofNat '/'.toNat

/-- The character that fills up the last group. -/
def base64Pad : UInt8 :=
  UInt8.ofNat '='.toNat

/-- The encoding of a byte string. The bits of one or two bytes that are left are
padded with zeros to whole characters, and these to a group of four. -/
def base64 : List UInt8 → List UInt8
  | [] => []
  | [first] =>
      [base64Char (first.toNat / 4), base64Char (first.toNat % 4 * 16), base64Pad, base64Pad]
  | [first, second] =>
      [base64Char (first.toNat / 4), base64Char (first.toNat % 4 * 16 + second.toNat / 16),
        base64Char (second.toNat % 16 * 4), base64Pad]
  | first :: second :: third :: rest =>
      [base64Char (first.toNat / 4), base64Char (first.toNat % 4 * 16 + second.toNat / 16),
        base64Char (second.toNat % 16 * 4 + third.toNat / 64), base64Char (third.toNat % 64)] ++
          base64 rest

/-! ## One byte at a time -/

/-- The bits seen that do not fill a character yet. -/
inductive Leftover
  | none
  | two (bits : Nat)
  | four (bits : Nat)

/-- The characters a byte completes. -/
def Leftover.chars : Leftover → UInt8 → List UInt8
  | .none, byte => [base64Char (byte.toNat / 4)]
  | .two bits, byte => [base64Char (bits * 16 + byte.toNat / 16)]
  | .four bits, byte => [base64Char (bits * 4 + byte.toNat / 64), base64Char (byte.toNat % 64)]

/-- The bits left after a byte. -/
def Leftover.next : Leftover → UInt8 → Leftover
  | .none, byte => .two (byte.toNat % 4)
  | .two _, byte => .four (byte.toNat % 16)
  | .four _, _ => .none

/-- The last group, when no more bytes come. -/
def Leftover.flush : Leftover → List UInt8
  | .none => []
  | .two bits => [base64Char (bits * 16), base64Pad, base64Pad]
  | .four bits => [base64Char (bits * 4), base64Pad]

/-- The characters still to come, given the bits left so far. -/
def Leftover.stream (left : Leftover) : List UInt8 → List UInt8
  | [] => left.flush
  | byte :: rest => left.chars byte ++ (left.next byte).stream rest

theorem stream_none (input : List UInt8) : Leftover.none.stream input = base64 input := by
  fun_induction base64 input with
  | case1 => rfl
  | case2 first => rfl
  | case3 first second => rfl
  | case4 first second third rest ih =>
      simp only [Leftover.stream, Leftover.chars, Leftover.next, ih]
      rfl

end Bytes
