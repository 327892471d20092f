import CppFragments.Bytes.Base64

/-! # Decoding base64

A decoder that takes nothing but what the encoding produces: whole groups, with
padding in the last one only and zeros in the bits that are left over.
-/

namespace Bytes

def base64Value (char : UInt8) : Option Nat :=
  (List.range 64).find? fun value => base64Char value == char

/-- The bytes of a group without padding. -/
def threeBytes (first second third fourth : UInt8) : Option (List UInt8) := do
  let first ← base64Value first
  let second ← base64Value second
  let third ← base64Value third
  let fourth ← base64Value fourth
  return [UInt8.ofNat (first * 4 + second / 16), UInt8.ofNat (second % 16 * 16 + third / 4),
    UInt8.ofNat (third % 4 * 64 + fourth)]

def twoBytes (first second third : UInt8) : Option (List UInt8) := do
  let first ← base64Value first
  let second ← base64Value second
  let third ← base64Value third
  if third % 4 = 0 then
    return [UInt8.ofNat (first * 4 + second / 16), UInt8.ofNat (second % 16 * 16 + third / 4)]
  else none

def oneByte (first second : UInt8) : Option (List UInt8) := do
  let first ← base64Value first
  let second ← base64Value second
  if second % 16 = 0 then
    return [UInt8.ofNat (first * 4 + second / 16)]
  else none

def lastGroup (first second third fourth : UInt8) : Option (List UInt8) :=
  if fourth = base64Pad then
    if third = base64Pad then oneByte first second else twoBytes first second third
  else threeBytes first second third fourth

def base64Decode : List UInt8 → Option (List UInt8)
  | [] => some []
  | [first, second, third, fourth] => lastGroup first second third fourth
  | first :: second :: third :: fourth :: rest => do
      let bytes ← threeBytes first second third fourth
      let more ← base64Decode rest
      return bytes ++ more
  | _ => none

/-! ## Characters -/

theorem base64Value_eq_some {char : UInt8} {value : Nat} :
    base64Value char = some value ↔ value < 64 ∧ base64Char value = char := by
  constructor
  · intro hvalue
    unfold base64Value at hvalue
    have hmem := List.mem_range.mp (List.mem_of_find?_eq_some hvalue)
    have hchar := List.find?_some hvalue
    exact ⟨hmem, beq_iff_eq.mp hchar⟩
  · intro hchar
    obtain ⟨hlt, rfl⟩ := hchar
    have hall : ∀ n < 64, base64Value (base64Char n) = some n := by
      decide +kernel
    exact hall value hlt

/-! ## One group -/

section Groups

variable {first second third fourth : UInt8} {bytes : List UInt8}

theorem threeBytes_eq_some :
    threeBytes first second third fourth = some bytes ↔ ∃ x y z : UInt8, bytes = [x, y, z] ∧
      base64Char (x.toNat / 4) = first ∧ base64Char (x.toNat % 4 * 16 + y.toNat / 16) = second ∧
      base64Char (y.toNat % 16 * 4 + z.toNat / 64) = third ∧
      base64Char (z.toNat % 64) = fourth := by
  simp only [threeBytes, Option.bind_eq_bind, Option.bind_eq_some_iff, base64Value_eq_some,
    Option.pure_def, Option.some.injEq]
  constructor
  · intro hgroup
    obtain ⟨a, ⟨ha, rfl⟩, b, ⟨hb, rfl⟩, c, ⟨hc, rfl⟩, d, ⟨hd, rfl⟩, rfl⟩ := hgroup
    refine ⟨_, _, _, rfl, ?_⟩
    simp only [UInt8.toNat_ofNat']
    refine ⟨?_, ?_, ?_, ?_⟩ <;> congr 1 <;> omega
  · intro hgroup
    obtain ⟨x, y, z, rfl, rfl, rfl, rfl, rfl⟩ := hgroup
    have hx := x.toNat_lt
    have hy := y.toNat_lt
    have hz := z.toNat_lt
    refine ⟨_, ⟨by omega, rfl⟩, _, ⟨by omega, rfl⟩, _, ⟨by omega, rfl⟩, _, ⟨by omega, rfl⟩, ?_⟩
    simp only [List.cons.injEq, ← UInt8.toNat_inj, UInt8.toNat_ofNat', and_true]
    omega

theorem twoBytes_eq_some :
    twoBytes first second third = some bytes ↔ ∃ x y : UInt8, bytes = [x, y] ∧
      base64Char (x.toNat / 4) = first ∧ base64Char (x.toNat % 4 * 16 + y.toNat / 16) = second ∧
      base64Char (y.toNat % 16 * 4) = third := by
  simp only [twoBytes, Option.bind_eq_bind, Option.bind_eq_some_iff, base64Value_eq_some,
    Option.pure_def, Option.ite_none_right_eq_some, Option.some.injEq]
  constructor
  · intro hgroup
    obtain ⟨a, ⟨ha, rfl⟩, b, ⟨hb, rfl⟩, c, ⟨hc, rfl⟩, hzero, rfl⟩ := hgroup
    refine ⟨_, _, rfl, ?_⟩
    simp only [UInt8.toNat_ofNat']
    refine ⟨?_, ?_, ?_⟩ <;> congr 1 <;> omega
  · intro hgroup
    obtain ⟨x, y, rfl, rfl, rfl, rfl⟩ := hgroup
    have hx := x.toNat_lt
    have hy := y.toNat_lt
    refine ⟨_, ⟨by omega, rfl⟩, _, ⟨by omega, rfl⟩, _, ⟨by omega, rfl⟩, by omega, ?_⟩
    simp only [List.cons.injEq, ← UInt8.toNat_inj, UInt8.toNat_ofNat', and_true]
    omega

theorem oneByte_eq_some :
    oneByte first second = some bytes ↔ ∃ x : UInt8, bytes = [x] ∧
      base64Char (x.toNat / 4) = first ∧ base64Char (x.toNat % 4 * 16) = second := by
  simp only [oneByte, Option.bind_eq_bind, Option.bind_eq_some_iff, base64Value_eq_some,
    Option.pure_def, Option.ite_none_right_eq_some, Option.some.injEq]
  constructor
  · intro hgroup
    obtain ⟨a, ⟨ha, rfl⟩, b, ⟨hb, rfl⟩, hzero, rfl⟩ := hgroup
    refine ⟨_, rfl, ?_⟩
    simp only [UInt8.toNat_ofNat']
    refine ⟨?_, ?_⟩ <;> congr 1 <;> omega
  · intro hgroup
    obtain ⟨x, rfl, rfl, rfl⟩ := hgroup
    have hx := x.toNat_lt
    refine ⟨_, ⟨by omega, rfl⟩, _, ⟨by omega, rfl⟩, by omega, ?_⟩
    simp only [List.cons.injEq, ← UInt8.toNat_inj, UInt8.toNat_ofNat', and_true]
    omega

/-- The encoding begins with a group for one or two bytes, and nothing after it,
or with one for three. -/
theorem base64_eq_group {rest : List UInt8} :
    base64 bytes = first :: second :: third :: fourth :: rest ↔
      (oneByte first second = some bytes ∧ third = base64Pad ∧ fourth = base64Pad ∧ rest = []) ∨
      (twoBytes first second third = some bytes ∧ fourth = base64Pad ∧ rest = []) ∨
      ∃ group more, threeBytes first second third fourth = some group ∧ base64 more = rest ∧
        bytes = group ++ more := by
  simp only [oneByte_eq_some, twoBytes_eq_some, threeBytes_eq_some]
  constructor
  · intro hencode
    match bytes with
    | [] => cases hencode
    | [x] =>
        cases hencode
        exact Or.inl ⟨⟨x, rfl, rfl, rfl⟩, rfl, rfl, rfl⟩
    | [x, y] =>
        cases hencode
        exact Or.inr (Or.inl ⟨⟨x, y, rfl, rfl, rfl, rfl⟩, rfl, rfl⟩)
    | x :: y :: z :: more =>
        cases hencode
        exact Or.inr (Or.inr ⟨_, more, ⟨x, y, z, rfl, rfl, rfl, rfl, rfl⟩, rfl, rfl⟩)
  · intro hgroup
    rcases hgroup with ⟨⟨x, rfl, rfl, rfl⟩, rfl, rfl, rfl⟩ |
      ⟨⟨x, y, rfl, rfl, rfl, rfl⟩, rfl, rfl⟩ |
      ⟨group, more, ⟨x, y, z, rfl, rfl, rfl, rfl, rfl⟩, rfl, rfl⟩
    · rfl
    · rfl
    · rfl

theorem base64Value_pad : base64Value base64Pad = none := by
  decide +kernel

theorem twoBytes_pad : twoBytes first second base64Pad = none := by
  simp [twoBytes, base64Value_pad]

theorem threeBytes_pad : threeBytes first second third base64Pad = none := by
  simp [threeBytes, base64Value_pad]

theorem base64_eq_nil : base64 bytes = [] ↔ bytes = [] := by
  constructor
  · intro hencode
    match bytes with
    | [] => rfl
    | [_] => cases hencode
    | [_, _] => cases hencode
    | _ :: _ :: _ :: _ => cases hencode
  · intro hnil
    rw [hnil]
    rfl

theorem lastGroup_eq_some :
    lastGroup first second third fourth = some bytes ↔
      base64 bytes = [first, second, third, fourth] := by
  rw [base64_eq_group, lastGroup]
  split
  next hfourth =>
    subst hfourth
    split
    next hthird =>
      subst hthird
      simp [twoBytes_pad, threeBytes_pad]
    next hthird => simp [hthird, threeBytes_pad]
  next hfourth => simp [hfourth, base64_eq_nil]

end Groups

/-- **The decoder takes exactly the encodings**, each back to what it encodes. -/
theorem base64Decode_eq_some (chars bytes : List UInt8) :
    base64Decode chars = some bytes ↔ base64 bytes = chars := by
  fun_induction base64Decode chars generalizing bytes with
  | case1 => rw [base64_eq_nil, Option.some.injEq, eq_comm]
  | case2 first second third fourth => exact lastGroup_eq_some
  | case3 first second third fourth rest hmore ih =>
      have hrest : rest ≠ [] := hmore
      rw [base64_eq_group]
      simp only [Option.bind_eq_bind, Option.bind_eq_some_iff, ih, Option.pure_def,
        Option.some.injEq, hrest, and_false, false_or]
      constructor
      · intro hgroup
        obtain ⟨group, hthree, more, hencode, rfl⟩ := hgroup
        exact ⟨group, more, hthree, hencode, rfl⟩
      · intro hgroup
        obtain ⟨group, more, hthree, hencode, rfl⟩ := hgroup
        exact ⟨group, hthree, more, hencode, rfl⟩
  | case4 chars hnil hlast hgroup =>
      refine iff_of_false nofun ?_
      rintro rfl
      match bytes with
      | [] => exact hnil rfl
      | [_] => exact hgroup _ _ _ _ _ rfl
      | [_, _] => exact hgroup _ _ _ _ _ rfl
      | _ :: _ :: _ :: _ => exact hgroup _ _ _ _ _ rfl

end Bytes
