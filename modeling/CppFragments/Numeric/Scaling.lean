import Mathlib

/-! # Truncation and scaling

Truncation toward zero in an ordered field with a floor, to whole numbers and to
multiples of the inverse of a unit, and the powers that scale a number up to 1.
-/

namespace Scaling

variable {K : Type*} [Field K] [LinearOrder K] [IsStrictOrderedRing K] [FloorRing K]

/-! ## Truncation toward zero -/

/-- The whole number next to `value` on the side of zero. -/
def truncate (value : K) : ℤ :=
  if 0 ≤ value then ⌊value⌋ else ⌈value⌉

omit [IsStrictOrderedRing K] in
theorem truncate_of_nonneg {value : K} (hsign : 0 ≤ value) : truncate value = ⌊value⌋ :=
  if_pos hsign

theorem truncate_of_nonpos {value : K} (hsign : value ≤ 0) : truncate value = ⌈value⌉ := by
  unfold truncate
  split
  next hnonneg => rw [le_antisymm hsign hnonneg, Int.floor_zero, Int.ceil_zero]
  next => rfl

theorem truncate_neg (value : K) : truncate (-value) = -truncate value := by
  rcases le_total 0 value with hsign | hsign
  · rw [truncate_of_nonneg hsign, truncate_of_nonpos (neg_nonpos.mpr hsign), Int.ceil_neg]
  · rw [truncate_of_nonpos hsign, truncate_of_nonneg (neg_nonneg.mpr hsign), Int.floor_neg]

@[simp] theorem truncate_intCast (whole : ℤ) : truncate (whole : K) = whole := by
  unfold truncate
  split
  next => exact Int.floor_intCast whole
  next => exact Int.ceil_intCast whole

theorem truncate_mono {value other : K} (hle : value ≤ other) :
    truncate value ≤ truncate other := by
  rcases le_total 0 value with hsign | hsign
  · rw [truncate_of_nonneg hsign, truncate_of_nonneg (hsign.trans hle)]
    exact Int.floor_mono hle
  rcases le_total 0 other with hother | hother
  · rw [truncate_of_nonpos hsign, truncate_of_nonneg hother]
    exact (Int.ceil_le.mpr (by exact_mod_cast hsign)).trans (Int.floor_nonneg.mpr hother)
  · rw [truncate_of_nonpos hsign, truncate_of_nonpos hother]
    exact Int.ceil_mono hle

theorem abs_truncate_sub_lt_one (value : K) : |(truncate value : K) - value| < 1 := by
  rw [abs_lt]
  rcases le_total 0 value with hsign | hsign
  · rw [truncate_of_nonneg hsign]
    constructor
    · linarith [Int.lt_floor_add_one value]
    · linarith [Int.floor_le value]
  · rw [truncate_of_nonpos hsign]
    constructor
    · linarith [Int.le_ceil value]
    · linarith [Int.ceil_lt_add_one value]

theorem truncate_lt_iff (value : K) {bound : ℤ} (hbound : 0 < bound) :
    truncate value < bound ↔ value < bound := by
  rcases le_total 0 value with hsign | hsign
  · rw [truncate_of_nonneg hsign]
    exact Int.floor_lt
  · have hceil : ⌈value⌉ ≤ 0 := Int.ceil_le.mpr (by exact_mod_cast hsign)
    have hpos : (0 : K) < bound := by exact_mod_cast hbound
    rw [truncate_of_nonpos hsign]
    exact iff_of_true (hceil.trans_lt hbound) (hsign.trans_lt hpos)

theorem le_truncate_iff (value : K) {bound : ℤ} (hbound : bound ≤ 0) :
    bound ≤ truncate value ↔ (bound : K) - 1 < value := by
  have hpos : 0 < 1 - bound := by omega
  have hlt := truncate_lt_iff (-value) hpos
  rw [truncate_neg] at hlt
  push_cast at hlt
  constructor
  · intro hle
    linarith [hlt.mp (by omega)]
  · intro hrange
    have := hlt.mpr (by linarith)
    omega

/-! ## Truncation to a unit -/

/-- Truncation to whole multiples of `1 / unit`. -/
def truncateTo (unit value : K) : K :=
  truncate (value * unit) / unit

section Unit

variable {unit : K}

omit [IsStrictOrderedRing K] in
theorem truncateTo_one (value : K) : truncateTo 1 value = truncate value := by
  rw [truncateTo, mul_one, div_one]

theorem truncate_truncateTo_mul (hunit : unit ≠ 0) (value : K) :
    truncate (truncateTo unit value * unit) = truncate (value * unit) := by
  rw [truncateTo, div_mul_cancel₀ _ hunit, truncate_intCast]

theorem truncateTo_idempotent (hunit : unit ≠ 0) (value : K) :
    truncateTo unit (truncateTo unit value) = truncateTo unit value := by
  rw [truncateTo, truncate_truncateTo_mul hunit, truncateTo]

theorem truncateTo_mono (hunit : 0 < unit) {value other : K} (hle : value ≤ other) :
    truncateTo unit value ≤ truncateTo unit other := by
  have hscaled := truncate_mono (mul_le_mul_of_nonneg_right hle hunit.le)
  apply div_le_div_of_nonneg_right _ hunit.le
  exact_mod_cast hscaled

theorem abs_truncateTo_sub_lt (hunit : 0 < unit) (value : K) :
    |truncateTo unit value - value| < 1 / unit := by
  have hdiff : truncateTo unit value - value = (truncate (value * unit) - value * unit) / unit := by
    rw [truncateTo, sub_div, mul_div_cancel_right₀ _ hunit.ne']
  rw [hdiff, abs_div, abs_of_pos hunit]
  exact div_lt_div_of_pos_right (abs_truncate_sub_lt_one _) hunit

end Unit

/-! ## Scaling up to one -/

section Power

omit [FloorRing K]

variable {base step : K} {power other : ℕ}

/-- The powers that scale `step` up to 1, the power 0 apart. -/
def ScalesUp (base step : K) : Set ℕ :=
  {power | 0 < power ∧ 1 ≤ step * base ^ power}

/-- A larger power scales at least as far. -/
theorem one_le_mul_pow_mono (hbase : 1 ≤ base) (hle : power ≤ other)
    (hscaled : 1 ≤ step * base ^ power) : 1 ≤ step * base ^ other := by
  have hpow := pow_le_pow_right₀ hbase hle
  have hpos : 0 < base ^ power := pow_pos (zero_lt_one.trans_le hbase) power
  have hstep : 0 < step := pos_of_mul_pos_left (zero_lt_one.trans_le hscaled) hpos.le
  exact hscaled.trans (mul_le_mul_of_nonneg_left hpow hstep.le)

omit [IsStrictOrderedRing K] in
theorem isLeast_scalesUp_of_le (hscaled : 1 ≤ step * base) :
    IsLeast (ScalesUp base step) power ↔ power = 1 := by
  have hone : IsLeast (ScalesUp base step) 1 := by
    refine ⟨⟨zero_lt_one, ?_⟩, fun _ hother => hother.1⟩
    rw [pow_one]
    exact hscaled
  constructor
  · exact fun hleast => hleast.unique hone
  · intro hpower
    rw [hpower]
    exact hone

omit [IsStrictOrderedRing K] in
/-- A step that one factor does not bring up to 1 needs one power more than
the step scaled by it. -/
theorem isLeast_scalesUp_of_lt (hscaled : step * base < 1) :
    IsLeast (ScalesUp base step) power ↔
      ∃ rest, IsLeast (ScalesUp base (step * base)) rest ∧ power = rest + 1 := by
  have hmul (rest : ℕ) : step * base * base ^ rest = step * base ^ (rest + 1) := by
    rw [pow_succ', mul_assoc]
  have hmem {rest : ℕ} : rest + 1 ∈ ScalesUp base step ↔ rest ∈ ScalesUp base (step * base) := by
    cases rest with
    | zero => simp [ScalesUp, hscaled.not_ge]
    | succ rest => simp [ScalesUp, hmul]
  constructor
  · intro hleast
    rcases Nat.exists_eq_add_one.mpr hleast.1.1 with ⟨rest, rfl⟩
    refine ⟨rest, ⟨hmem.mp hleast.1, ?_⟩, rfl⟩
    intro other hother
    exact Nat.le_of_succ_le_succ (hleast.2 (hmem.mpr hother))
  · intro hrest
    rcases hrest with ⟨rest, hleast, rfl⟩
    refine ⟨hmem.mpr hleast.1, ?_⟩
    intro other hother
    rcases Nat.exists_eq_add_one.mpr hother.1 with ⟨fewer, rfl⟩
    exact Nat.succ_le_succ (hleast.2 (hmem.mp hother))

/-- A step below 1 is scaled up by some power up to a bound if the bound
scales it up. -/
theorem exists_isLeast_scalesUp_iff (hbase : 1 ≤ base) (hstep : step < 1) {bound : ℕ} :
    (∃ power, IsLeast (ScalesUp base step) power ∧ power ≤ bound) ↔ 1 ≤ step * base ^ bound := by
  classical
  constructor
  · intro hpower
    rcases hpower with ⟨power, hleast, hle⟩
    exact one_le_mul_pow_mono hbase hle hleast.1.2
  · intro hscaled
    have hpos : 0 < bound := by
      apply Nat.pos_of_ne_zero
      rintro rfl
      rw [pow_zero, mul_one] at hscaled
      exact hstep.not_ge hscaled
    have hmem : ∃ power, power ∈ ScalesUp base step := ⟨bound, hpos, hscaled⟩
    refine ⟨Nat.find hmem, ⟨Nat.find_spec hmem, ?_⟩, Nat.find_min' hmem ⟨hpos, hscaled⟩⟩
    exact fun other hother => Nat.find_min' hmem hother

omit [IsStrictOrderedRing K] in
theorem scalesUp_eq_of_lt (hstep : step < 1) :
    ScalesUp base step = {power | 1 ≤ step * base ^ power} := by
  ext power
  constructor
  · exact fun hmem => hmem.2
  · intro hscaled
    refine ⟨Nat.pos_of_ne_zero ?_, hscaled⟩
    rintro rfl
    rw [Set.mem_ofPred_eq, pow_zero, mul_one] at hscaled
    exact hstep.not_ge hscaled

end Power

end Scaling
