import CppFragments.Numeric.Scaling
import CppFragments.Util.Machine

/-! # Decimal places

The two numeric functions of `main.cpp`. A `double` is an exact rational number.
A conversion or a sum outside the range of its type has no result.
-/

namespace CppFragments

open Scaling

/-- Conversion to a signed integer of `width` bits. It truncates. -/
def castInt (width : Nat) (value : ℚ) : Option Int :=
  let whole := truncate value
  if -2 ^ (width - 1) ≤ whole ∧ whole < 2 ^ (width - 1) then some whole else none

def decimalProcess (value : ℚ) (decimal : Int) : Option ℚ :=
  if decimal = 0 then do
    let whole ← castInt 32 value
    return whole
  else do
    let pow ← castInt 64 (10 ^ decimal)
    let whole ← castInt 64 (value * pow)
    -- A negative `decimal` makes `pow` 0, and the quotient is no number.
    if pow = 0 then none else return whole / pow

/-- The loop of `calculate_precision_by_min_step`. It has no other bound than
the range of its counter. -/
def precisionLoop (minStep : ℚ) (precision : Int) : Option Int :=
  match _hsum : addInt precision 1 with
  | none => none
  | some precision =>
      if minStep * 10 < 1 then precisionLoop (minStep * 10) precision else some precision
termination_by (2 ^ 31 - precision).toNat
decreasing_by
  have hsum := addInt_eq_some_iff.mp _hsum
  omega

def calculatePrecisionByMinStep (minStep : ℚ) : Option Int :=
  if 1 ≤ minStep then some 0 else precisionLoop minStep 0

/-! ## Truncation to decimal places -/

section Truncation

variable {value : ℚ} {decimal : ℕ}

theorem castInt_eq_some_iff {width : ℕ} {whole : ℤ} :
    castInt width value = some whole ↔
      (-2 ^ (width - 1) - 1 < value ∧ value < 2 ^ (width - 1)) ∧ whole = truncate value := by
  have hpos : (0 : ℤ) < 2 ^ (width - 1) := by positivity
  have hlow := le_truncate_iff value (Int.neg_nonpos_of_nonneg hpos.le)
  have hhigh := truncate_lt_iff value hpos
  push_cast at hlow hhigh
  rw [← hlow, ← hhigh, castInt]
  split
  next hrange => rw [Option.some.injEq, and_iff_right hrange, eq_comm]
  next hrange => exact iff_of_false (by simp) fun hwhole => hrange hwhole.1

theorem cast_range_truncate (width : ℕ)
    (hrange : -2 ^ (width - 1) - 1 < value ∧ value < 2 ^ (width - 1)) :
    -2 ^ (width - 1) - 1 < (truncate value : ℚ) ∧ (truncate value : ℚ) < 2 ^ (width - 1) := by
  have hcast := castInt_eq_some_iff.mpr ⟨hrange, rfl⟩
  have hwhole : castInt width (truncate value : ℚ) = some (truncate value) := by
    unfold castInt at hcast ⊢
    rw [truncate_intCast]
    exact hcast
  exact (castInt_eq_some_iff.mp hwhole).1

/-- The power of ten fits 64 bits. -/
theorem castInt_ten_pow (hdecimal : decimal ≤ 18) :
    castInt 64 (10 ^ (decimal : ℤ)) = some (10 ^ decimal) := by
  have hpow : (10 : ℚ) ^ (decimal : ℤ) = ((10 ^ decimal : ℤ) : ℚ) := by
    rw [zpow_natCast]
    push_cast
    rfl
  have hle : (10 : ℤ) ^ decimal ≤ 10 ^ 18 := pow_le_pow_right₀ (by decide) hdecimal
  have hpos : (0 : ℤ) < 10 ^ decimal := by positivity
  have hrange : (10 : ℤ) ^ decimal < 2 ^ 63 := hle.trans_lt (by decide)
  rw [castInt_eq_some_iff, hpow, truncate_intCast]
  refine ⟨⟨?_, by exact_mod_cast hrange⟩, rfl⟩
  exact lt_trans (by norm_num) (Int.cast_pos.mpr hpos)

/-- The cast of the branch taken has the value in its range. -/
def InCastRange (value : ℚ) (decimal : ℕ) : Prop :=
  if decimal = 0 then -2 ^ 31 - 1 < value ∧ value < 2 ^ 31
  else -2 ^ 63 - 1 < value * 10 ^ decimal ∧ value * 10 ^ decimal < 2 ^ 63

/-- Both branches truncate to the decimal places, where their cast is defined. -/
theorem decimalProcess_eq_some_iff {result : ℚ} (hdecimal : decimal ≤ 18) :
    decimalProcess value decimal = some result ↔
      InCastRange value decimal ∧ result = truncateTo (10 ^ decimal) value := by
  by_cases hzero : decimal = 0
  · subst hzero
    simp only [decimalProcess, InCastRange, Nat.cast_zero, if_true, pow_zero, truncateTo_one,
      Option.bind_eq_bind, Option.bind_eq_some_iff, castInt_eq_some_iff, Option.pure_def,
      Option.some.injEq]
    constructor
    · intro hreturn
      rcases hreturn with ⟨whole, ⟨hrange, rfl⟩, rfl⟩
      exact ⟨hrange, rfl⟩
    · intro htruncated
      exact ⟨_, ⟨htruncated.1, rfl⟩, htruncated.2.symm⟩
  · have hcast : (decimal : ℤ) ≠ 0 := by exact_mod_cast hzero
    have hpow : (10 : ℤ) ^ decimal ≠ 0 := by positivity
    simp only [decimalProcess, InCastRange, if_neg hcast, if_neg hzero, if_neg hpow,
      castInt_ten_pow hdecimal, Option.bind_eq_bind, Option.bind_some, Option.bind_eq_some_iff,
      castInt_eq_some_iff, Option.pure_def, Option.some.injEq]
    push_cast
    rw [and_iff_left rfl]
    exact and_congr_right fun _ => eq_comm

/-- The law of truncation to decimal places at a value: it is what is returned,
and returned again for the result, never above the result for a larger value,
and next to the value. -/
structure TruncatesTo (value : ℚ) (decimal : ℕ) : Prop where
  eq : decimalProcess value decimal = some (truncateTo (10 ^ decimal) value)
  idempotent : decimalProcess (truncateTo (10 ^ decimal) value) decimal =
    some (truncateTo (10 ^ decimal) value)
  mono : ∀ other result, value ≤ other → decimalProcess other decimal = some result →
    truncateTo (10 ^ decimal) value ≤ result
  near : |truncateTo (10 ^ decimal) value - value| < 1 / 10 ^ decimal

/-- Truncation stays in the range of the cast. -/
theorem InCastRange.truncateTo (hrange : InCastRange value decimal) :
    InCastRange (truncateTo (10 ^ decimal) value) decimal := by
  have hunit : (10 : ℚ) ^ decimal ≠ 0 := by positivity
  unfold InCastRange at hrange ⊢
  split at hrange
  next hzero =>
    rw [if_pos hzero, hzero, pow_zero, truncateTo_one]
    exact cast_range_truncate 32 hrange
  next hzero =>
    rw [if_neg hzero, Scaling.truncateTo, div_mul_cancel₀ _ hunit]
    exact cast_range_truncate 64 hrange

theorem truncatesTo_iff_inCastRange (hdecimal : decimal ≤ 18) :
    TruncatesTo value decimal ↔ InCastRange value decimal := by
  constructor
  · intro htruncates
    exact ((decimalProcess_eq_some_iff hdecimal).mp htruncates.eq).1
  · intro hrange
    have hunit : (0 : ℚ) < 10 ^ decimal := by positivity
    refine ⟨(decimalProcess_eq_some_iff hdecimal).mpr ⟨hrange, rfl⟩, ?_, ?_, ?_⟩
    · rw [decimalProcess_eq_some_iff hdecimal, truncateTo_idempotent hunit.ne']
      exact ⟨hrange.truncateTo, rfl⟩
    · intro other result hle hreturn
      rw [((decimalProcess_eq_some_iff hdecimal).mp hreturn).2]
      exact truncateTo_mono hunit hle
    · exact abs_truncateTo_sub_lt hunit value

/-- **Truncation to decimal places follows its law unless the narrower cast of
the branch for no decimals overflows.** -/
theorem truncatesTo_iff (value : ℚ) (decimal : ℕ) (hdecimal : decimal ≤ 18)
    (hvalue : |value| * 10 ^ decimal < 2 ^ 63) :
    TruncatesTo value decimal ↔ decimal ≠ 0 ∨ (-2 ^ 31 - 1 < value ∧ value < 2 ^ 31) := by
  rw [truncatesTo_iff_inCastRange hdecimal, InCastRange]
  by_cases hzero : decimal = 0
  · rw [if_pos hzero, or_iff_right (not_not.mpr hzero)]
  · have hscaled : |value * 10 ^ decimal| < 2 ^ 63 := by
      rw [abs_mul, abs_of_pos (by positivity : (0 : ℚ) < 10 ^ decimal)]
      exact hvalue
    rw [abs_lt] at hscaled
    rw [if_neg hzero]
    exact iff_of_true ⟨by linarith, hscaled.2⟩ (Or.inl hzero)

/-- The sample of `main`. -/
theorem truncatesTo_iff_pi :
    TruncatesTo (314159261415926 / 10 ^ 14) 5 ↔
      (5 : ℕ) ≠ 0 ∨ (-2 ^ 31 - 1 < (314159261415926 / 10 ^ 14 : ℚ) ∧
        (314159261415926 / 10 ^ 14 : ℚ) < 2 ^ 31) :=
  truncatesTo_iff _ 5 (by decide) (by norm_num [abs_of_pos])

/-- A value of 2³¹ with no decimals. -/
theorem int_max_succ_not_truncatesTo :
    ¬∀ (value : ℚ) (decimal : ℕ), decimal ≤ 18 → |value| * 10 ^ decimal < 2 ^ 63 →
      TruncatesTo value decimal := by
  intro htruncates
  have hlarge := htruncates (2 ^ 31) 0 (by decide) (by norm_num [abs_of_pos])
  rw [truncatesTo_iff_inCastRange (by decide)] at hlarge
  exact lt_irrefl _ hlarge.2

end Truncation

/-! ## The precision of a step -/

section Precision

/-- The counter is raised by the least number of times that scales the step up. -/
theorem precisionLoop_eq_some_iff {minStep : ℚ} {precision result : ℤ} (hcount : 0 ≤ precision)
    (hlt : precision < 2 ^ 31) :
    precisionLoop minStep precision = some result ↔
      ∃ power : ℕ, IsLeast (ScalesUp 10 minStep) power ∧ result = precision + power ∧
        result < 2 ^ 31 := by
  -- What is left of the range of the counter decreases.
  induction hleft : (2 ^ 31 - precision).toNat using Nat.strong_induction_on
    generalizing minStep precision with
  | h left ih =>
      rw [precisionLoop]
      cases hsum : addInt precision 1 with
      | none =>
          have hover : ¬precision + 1 < 2 ^ 31 := by
            intro hrange
            have hsome := addInt_eq_some_iff.mpr ⟨⟨by omega, hrange⟩, rfl⟩
            rw [hsum] at hsome
            cases hsome
          refine iff_of_false (by simp) ?_
          intro hpower
          rcases hpower with ⟨power, hleast, rfl, hrange⟩
          have hpos : 0 < power := hleast.1.1
          omega
      | some next =>
          rcases addInt_eq_some_iff.mp hsum with ⟨⟨_, hrange⟩, rfl⟩
          dsimp only
          split
          next hscaled =>
            rw [ih _ (by omega) (by omega) hrange rfl]
            simp only [isLeast_scalesUp_of_lt hscaled]
            constructor
            · intro hpower
              rcases hpower with ⟨power, hleast, rfl, htotal⟩
              exact ⟨power + 1, ⟨power, hleast, rfl⟩, by push_cast; ring, htotal⟩
            · intro hpower
              rcases hpower with ⟨_, ⟨power, hleast, rfl⟩, rfl, htotal⟩
              exact ⟨power, hleast, by push_cast; ring, htotal⟩
          next hscaled =>
            simp only [isLeast_scalesUp_of_le (not_lt.mp hscaled), exists_eq_left]
            rw [Option.some.injEq]
            constructor
            · intro hreturn
              rw [← hreturn]
              exact ⟨by simp, hrange⟩
            · intro hresult
              rw [hresult.1]
              simp

/-- The search returns, and for a positive step what it returns is the least
power of ten that scales the step up to 1. -/
def FindsPrecision (minStep : ℚ) : Prop :=
  ∃ precision : ℕ, calculatePrecisionByMinStep minStep = some (precision : ℤ) ∧
    (0 < minStep → IsLeast {power : ℕ | 1 ≤ minStep * 10 ^ power} precision)

theorem calculatePrecision_of_lt {minStep : ℚ} (hstep : minStep < 1) {precision : ℕ} :
    calculatePrecisionByMinStep minStep = some (precision : ℤ) ↔
      IsLeast {power : ℕ | 1 ≤ minStep * 10 ^ power} precision ∧ precision < 2 ^ 31 := by
  rw [calculatePrecisionByMinStep, if_neg hstep.not_ge,
    precisionLoop_eq_some_iff (by decide) (by decide), scalesUp_eq_of_lt hstep]
  constructor
  · intro hreturn
    rcases hreturn with ⟨power, hleast, hsum, hrange⟩
    have hpower : precision = power := by omega
    rw [hpower]
    exact ⟨hleast, by omega⟩
  · intro hleast
    exact ⟨precision, hleast.1, by omega, by omega⟩

/-- A step that is not positive is never scaled up, and the counter overflows. -/
theorem calculatePrecision_of_nonpos {minStep : ℚ} (hstep : minStep ≤ 0) {precision : ℕ} :
    calculatePrecisionByMinStep minStep ≠ some (precision : ℤ) := by
  intro hreturn
  rw [calculatePrecision_of_lt (by linarith)] at hreturn
  have hscaled : 1 ≤ minStep * 10 ^ precision := hreturn.1.1
  have hnonpos := mul_nonpos_of_nonpos_of_nonneg hstep (by positivity : (0 : ℚ) ≤ 10 ^ precision)
  linarith

/-- **The search ends exactly when the largest power of ten that its counter can
hold scales the step up to 1.** -/
theorem findsPrecision_iff (minStep : ℚ) :
    FindsPrecision minStep ↔ 1 ≤ minStep * 10 ^ (2 ^ 31 - 1) := by
  by_cases hstep : 1 ≤ minStep
  · refine iff_of_true ⟨0, if_pos hstep, ?_⟩ ?_
    · intro _
      refine ⟨?_, fun _ _ => Nat.zero_le _⟩
      rw [Set.mem_ofPred_eq, pow_zero, mul_one]
      exact hstep
    · apply one_le_mul_pow_mono (by norm_num) (Nat.zero_le _)
      rw [pow_zero, mul_one]
      exact hstep
  · have hlt : minStep < 1 := not_le.mp hstep
    rw [← exists_isLeast_scalesUp_iff (by norm_num) hlt, scalesUp_eq_of_lt hlt]
    constructor
    · intro hfinds
      rcases hfinds with ⟨precision, hreturn, _⟩
      rcases (calculatePrecision_of_lt hlt).mp hreturn with ⟨hleast, hrange⟩
      exact ⟨precision, hleast, Nat.le_sub_one_of_lt hrange⟩
    · intro hpower
      rcases hpower with ⟨power, hleast, hle⟩
      have hrange : power < 2 ^ 31 := Nat.lt_of_le_sub_one (by positivity) hle
      exact ⟨power, (calculatePrecision_of_lt hlt).mpr ⟨hleast, hrange⟩, fun _ => hleast⟩

/-- A step of 0. -/
theorem zero_not_findsPrecision : ¬FindsPrecision 0 := by
  intro hfinds
  rcases hfinds with ⟨precision, hreturn, _⟩
  exact calculatePrecision_of_nonpos le_rfl hreturn

end Precision

end CppFragments
