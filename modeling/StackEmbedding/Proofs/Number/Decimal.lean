import Mathlib.Tactic.Ring
import StackEmbedding.Number.Decimal
import StackEmbedding.Proofs.Number.Ratio

/-!
# Decimals as numbers

A decimal is a rational number, `Decimal.value`. Counting digits bounds it by two powers of ten
(`Decimal.value_bounds`), and gives the exponent of the leading digit of a ratio
(`floorLog10_spec`).

`RoundsToDigits count r v` says what it means to round a positive number to a count of
significant digits: the exponent of the leading digit fixes the unit, and `v` is the nearest
multiple of that unit, an even one in a tie. `Decimal.significant` computes it
(`Decimal.significant_rounds`), the carry into a new power of ten included.
-/

set_option autoImplicit false

namespace StackEmbedding

variable {num den n count : Nat} {r v : ℚ}

theorem ten_zpow_pos (e : Int) : (0 : ℚ) < 10 ^ e := zpow_pos (by norm_num) e

/-- Dividing a ratio by a power of ten. -/
theorem ratio_div_ten_zpow (num den : Nat) (e : Int) :
    ((num * Nat.pow 10 (-e).toNat : Nat) : ℚ) / (den * Nat.pow 10 e.toNat : Nat) =
      (num : ℚ) / den / 10 ^ e := by
  rw [scaled_ratio (by decide), Nat.cast_ofNat]

/-! ## Counting digits -/

theorem digitCount_pos (n : Nat) : 0 < digitCount n := Nat.length_toDigits_pos

theorem lt_pow_digitCount (n : Nat) : n < 10 ^ digitCount n :=
  (Nat.length_toDigits_le_iff (by decide) (digitCount_pos n)).mp le_rfl

theorem pow_digitCount_le (h : 0 < n) : 10 ^ (digitCount n - 1) ≤ n := by
  obtain hone | hmore : digitCount n = 1 ∨ 0 < digitCount n - 1 := by
    have := digitCount_pos n
    omega
  · rw [hone]
    exact h
  · apply Nat.le_of_not_lt
    intro hlt
    have := (Nat.length_toDigits_le_iff (b := 10) (by decide) hmore).mpr hlt
    have : digitCount n ≤ digitCount n - 1 := this
    omega

/-- The exponent found for a ratio is that of the greatest power of ten the ratio reaches. -/
theorem floorLog10_spec (hnum : 0 < num) (hden : 0 < den) :
    (10 : ℚ) ^ floorLog10 num den ≤ (num : ℚ) / den ∧
      (num : ℚ) / den < 10 ^ (floorLog10 num den + 1) := by
  have hden' : (0 : ℚ) < den := Nat.cast_pos.mpr hden
  rw [floorLog10]
  split
  next hle =>
    -- The whole part has as many digits as the exponent asks for.
    have hwhole := Nat.div_pos hle hden
    obtain ⟨k, hk⟩ : ∃ k, digitCount (num / den) = k + 1 :=
      ⟨digitCount (num / den) - 1, by have := digitCount_pos (num / den); omega⟩
    have hlow := pow_digitCount_le hwhole
    have hhigh := lt_pow_digitCount (num / den)
    rw [hk] at hlow hhigh ⊢
    rw [Nat.add_sub_cancel, Nat.le_div_iff_mul_le hden] at hlow
    rw [Nat.div_lt_iff_lt_mul hden] at hhigh
    rw [show ((k + 1 : Nat) : Int) - 1 = k by omega, ← Nat.cast_succ, zpow_natCast, zpow_natCast,
      le_div_iff₀ hden', div_lt_iff₀ hden']
    exact ⟨by exact_mod_cast hlow, by exact_mod_cast hhigh⟩
  next hlt =>
    -- The inverse, rounded down from a little below, has one digit less than the exponent.
    have hinverse : 0 < (den - 1) / num := Nat.div_pos (by omega) hnum
    obtain ⟨k, hk⟩ : ∃ k, digitCount ((den - 1) / num) = k + 1 :=
      ⟨digitCount ((den - 1) / num) - 1, by have := digitCount_pos ((den - 1) / num); omega⟩
    have hlow := pow_digitCount_le hinverse
    have hhigh := lt_pow_digitCount ((den - 1) / num)
    rw [hk] at hlow hhigh ⊢
    rw [Nat.add_sub_cancel, Nat.le_div_iff_mul_le hnum] at hlow
    rw [Nat.div_lt_iff_lt_mul hnum] at hhigh
    have hlow' : num * 10 ^ k < den := by rw [Nat.mul_comm]; omega
    have hhigh' : den ≤ num * 10 ^ (k + 1) := by rw [Nat.mul_comm]; omega
    rw [show -((k + 1 : Nat) : Int) + 1 = -(k : Int) by omega, zpow_neg, zpow_neg, zpow_natCast,
      zpow_natCast]
    constructor
    · rw [inv_le_iff_one_le_mul₀ (by positivity), div_mul_eq_mul_div, le_div_iff₀ hden', one_mul]
      exact_mod_cast hhigh'
    · rw [div_lt_iff₀ hden', inv_mul_eq_div, lt_div_iff₀ (by positivity)]
      exact_mod_cast hlow'

/-! ## The number of a decimal -/

namespace Decimal

/-- The number that a decimal writes. -/
def value (d : Decimal) : ℚ := d.digits * 10 ^ d.exponent

theorem denominator_pos (d : Decimal) : 0 < d.denominator := Nat.pow_pos (by decide)

theorem numerator_div_denominator (d : Decimal) :
    (d.numerator : ℚ) / d.denominator = d.value := by
  rw [numerator, denominator, ratio_zpow (by decide), Nat.cast_ofNat, value]

/-- A positive decimal lies between the powers of ten of its leading digit. -/
theorem value_bounds {d : Decimal} (h : 0 < d.digits) :
    10 ^ d.leading ≤ d.value ∧ d.value < 10 ^ (d.leading + 1) := by
  have hlow := pow_digitCount_le h
  have hhigh := lt_pow_digitCount d.digits
  have hcount := digitCount_pos d.digits
  rw [value, leading]
  constructor
  · rw [show (digitCount d.digits : Int) + d.exponent - 1 =
      ((digitCount d.digits - 1 : Nat) : Int) + d.exponent by omega, zpow_add₀ (by norm_num),
      zpow_natCast]
    exact mul_le_mul_of_nonneg_right (by exact_mod_cast hlow) (ten_zpow_pos _).le
  · rw [sub_add_cancel, zpow_add₀ (by norm_num), zpow_natCast]
    exact mul_lt_mul_of_pos_right (by exact_mod_cast hhigh) (ten_zpow_pos _)

end Decimal

/-! ## Significant digits -/

/-- The number `v` is the positive number `r` rounded to `count` significant digits: a multiple of
the unit of the last of these digits, the nearest one, and an even one in a tie. -/
def RoundsToDigits (count : Nat) (r v : ℚ) : Prop :=
  ∃ e : Int, 10 ^ e ≤ r ∧ r < 10 ^ (e + 1) ∧
    ∃ k : Nat, RoundsTo (r / 10 ^ (e - (count - 1 : Nat))) k ∧ v = k * 10 ^ (e - (count - 1 : Nat))

namespace Decimal

/-- A ratio is rounded to its significant digits. The decimal has exactly that many, and its
digits are also what the ratio rounds to in the unit of the decimal, which is a coarser one after a
carry. -/
theorem significant_rounds (hcount : 0 < count) (hnum : 0 < num) (hden : 0 < den) :
    RoundsToDigits count ((num : ℚ) / den) (significant count num den).value ∧
      RoundsTo ((num : ℚ) / den / 10 ^ (significant count num den).exponent)
        (significant count num den).digits ∧
      10 ^ (count - 1) ≤ (significant count num den).digits ∧
      (significant count num den).digits < 10 ^ count := by
  obtain ⟨hlow, hhigh⟩ := floorLog10_spec hnum hden
  have hround := roundsTo_roundDiv
    (num * Nat.pow 10 (-(floorLog10 num den - (count - 1 : Nat))).toNat)
    (scaled_pos (b := 10) (by decide) hden (floorLog10 num den - (count - 1 : Nat)))
  rw [ratio_div_ten_zpow] at hround
  simp only [significant]
  generalize floorLog10 num den = e at *
  generalize (num : ℚ) / den = r at *
  generalize hunit : e - ((count - 1 : Nat) : Int) = unit at *
  generalize roundDiv _ _ = k at *
  have hleast : 10 ^ (count - 1) ≤ k := by
    apply hround.le_of_le
    rw [le_div_iff₀ (ten_zpow_pos _)]
    push_cast
    rw [← zpow_natCast, ← zpow_add₀ (by norm_num),
      show ((count - 1 : Nat) : Int) + unit = e by omega]
    exact hlow
  have hmost : k ≤ 10 ^ count := by
    apply hround.le_of_ge
    rw [div_le_iff₀ (ten_zpow_pos _)]
    push_cast
    rw [← zpow_natCast, ← zpow_add₀ (by norm_num), show (count : Int) + unit = e + 1 by omega]
    exact hhigh.le
  split
  next hcarry =>
    obtain ⟨c, rfl⟩ : ∃ c, count = c + 1 := ⟨count - 1, by omega⟩
    simp only [Nat.pow_eq, Nat.add_sub_cancel] at hcarry hunit hround ⊢
    refine ⟨⟨e, hlow, hhigh, k, by rwa [Nat.add_sub_cancel, hunit], ?_⟩, ?_, le_rfl,
      Nat.pow_lt_pow_right (by decide) (Nat.lt_succ_self c)⟩
    · rw [Nat.add_sub_cancel, hunit, hcarry, value, zpow_add_one₀ (by norm_num)]
      push_cast
      ring
    · rw [hcarry, Nat.pow_succ] at hround
      have hcoarse := hround.coarsen (by decide)
      rwa [div_div, Nat.cast_ofNat, ← zpow_add_one₀ (by norm_num)] at hcoarse
  next hroom =>
    exact ⟨⟨e, hlow, hhigh, k, by rwa [hunit], by rw [hunit]; rfl⟩, hround, hleast,
      Nat.lt_of_le_of_ne hmost hroom⟩

end Decimal

end StackEmbedding
