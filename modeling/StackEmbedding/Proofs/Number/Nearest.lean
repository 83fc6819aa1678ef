import Mathlib.Tactic.NormNum
import StackEmbedding.Proofs.Number.Decimal
import StackEmbedding.Proofs.Number.Magnitude

/-!
# The nearest float

`BinaryFormat.Nearest r code` says what it means to round a nonnegative number `r` correctly: no
code up to that of infinity has a magnitude nearer to `r`, and where another one is as near the
code is even. Infinity takes part with the magnitude that would follow the greatest finite one, so
that a number overflows from half a step beyond that one (`Nearest.infinite_iff`). The relation
does not mention how a code is computed, and fixes it (`Nearest.unique`).

**What is established here.** `codeOfRatio_nearest`: every ratio is rounded to the nearest code.
`Decimal.toBinary_nearest`: so is every decimal, also where its float is answered without building
the power of ten.
-/

set_option autoImplicit false

namespace StackEmbedding

namespace BinaryFormat

variable {f : BinaryFormat} {code other num den m : Nat} {r : ℚ}

/-! ## The order of magnitudes -/

/-- The magnitude at a place, also where the significand was rounded up to the next exponent. -/
theorem magnitude_carry {n : Nat} (hm : m ≤ 2 * f.stride) (hplace : n = 0 ∨ f.stride ≤ m) :
    f.magnitude (n * f.stride + m) = m * 2 ^ (f.leastExponent + n) := by
  rcases Nat.lt_or_eq_of_le hm with hroom | rfl
  · exact magnitude_place hroom hplace
  · have hstride := f.stride_pos
    have hcarry : n * f.stride + 2 * f.stride = (n + 1) * f.stride + f.stride := by
      rw [Nat.add_mul]
      omega
    rw [hcarry, magnitude_place (by omega) (.inr le_rfl), Nat.cast_succ, ← add_assoc,
      zpow_add_one₀ two_ne_zero]
    push_cast
    ring

/-- The magnitude after that of a code is one step away. -/
theorem magnitude_succ (f : BinaryFormat) (code : Nat) :
    f.magnitude (code + 1) = f.magnitude code + 2 ^ f.exponent code := by
  have hplace := f.code_eq code
  obtain ⟨hleast, hfull⟩ := f.exponent_or_full code
  have hsignificand := f.significand_lt code
  rw [magnitude.eq_def f code]
  generalize f.significand code = m at *
  obtain ⟨n, hn⟩ : ∃ n : Nat, f.exponent code = f.leastExponent + n :=
    ⟨(f.exponent code - f.leastExponent).toNat, by omega⟩
  rw [hn] at hplace hfull ⊢
  rw [show (f.leastExponent + n - f.leastExponent).toNat = n by omega] at hplace
  rw [← hplace, Nat.add_assoc, magnitude_carry hsignificand (by omega)]
  push_cast
  ring

theorem magnitude_strictMono (f : BinaryFormat) : StrictMono f.magnitude :=
  strictMono_nat_of_lt_succ fun code => by
    rw [magnitude_succ]
    exact lt_add_of_pos_right _ (two_zpow_pos _)

/-! ## Rounding correctly -/

/-- The code is that of the magnitude nearest to `r`, infinity included at the place after the
greatest finite magnitude, and of two codes as near it is the even one. -/
structure Nearest (f : BinaryFormat) (r : ℚ) (code : Nat) : Prop where
  le : code ≤ f.infinityCode
  near : ∀ other ≤ f.infinityCode, |r - f.magnitude code| ≤ |r - f.magnitude other|
  even : ∀ other ≤ f.infinityCode, other ≠ code →
    |r - f.magnitude other| = |r - f.magnitude code| → code % 2 = 0

namespace Nearest

/-- A number is rounded to one code. -/
theorem unique (h : f.Nearest r code) (h' : f.Nearest r other) : code = other := by
  wlog hlt : code < other generalizing code other with hwlog
  · rcases Nat.lt_or_eq_of_le (Nat.le_of_not_lt hlt) with hgt | heq
    · exact (hwlog h' h hgt).symm
    · exact heq.symm
  have htie : |r - f.magnitude code| = |r - f.magnitude other| :=
    le_antisymm (h.near _ h'.le) (h'.near _ h.le)
  have heven := h.even _ h'.le (Nat.ne_of_gt hlt) htie.symm
  have heven' := h'.even _ h.le (Nat.ne_of_lt hlt) htie
  -- Two even codes have one between them, and in a tie that one would be nearer.
  have hbelow := f.magnitude_strictMono (Nat.lt_succ_self code)
  have habove := f.magnitude_strictMono (show code + 1 < other by omega)
  have hmiddle := h.near (code + 1) (by have := h'.le; omega)
  rcases abs_eq_abs.mp htie with heq | heq
  · linarith
  · rw [abs_of_nonneg (by linarith)] at hmiddle
    rcases le_abs'.mp hmiddle with hside | hside <;> linarith

end Nearest

theorem two_dvd_stride (hprecision : 1 < f.precision) : f.stride % 2 = 0 := by
  obtain ⟨k, hk⟩ : ∃ k, f.precision - 1 = k + 1 := ⟨f.precision - 2, by omega⟩
  rw [stride, hk, Nat.pow_eq, Nat.pow_succ, Nat.mul_mod_left]

theorem infinityCode_even (hprecision : 1 < f.precision) : f.infinityCode % 2 = 0 := by
  rw [infinityCode, Nat.mul_mod, two_dvd_stride hprecision, Nat.mul_zero, Nat.zero_mod]

/-- A number becomes infinite from half a step beyond the greatest finite magnitude. -/
theorem Nearest.infinite_iff (h : f.Nearest r code) (hprecision : 1 < f.precision)
    (hrange : 0 < f.infinityCode) :
    code = f.infinityCode ↔
      (f.magnitude (f.infinityCode - 1) + f.magnitude f.infinityCode) / 2 ≤ r := by
  have hlast := f.magnitude_strictMono (Nat.sub_lt hrange Nat.one_pos)
  constructor
  · rintro rfl
    have hnear := h.near (f.infinityCode - 1) (Nat.sub_le _ _)
    by_contra hless
    rw [abs_of_neg (by linarith : r - f.magnitude f.infinityCode < 0)] at hnear
    rcases le_abs'.mp hnear with hside | hside <;> linarith
  · intro hr
    by_contra hne
    have hle : code ≤ f.infinityCode - 1 := by have := h.le; omega
    have hmagnitude := f.magnitude_strictMono.monotone hle
    have hnear := h.near f.infinityCode le_rfl
    rw [abs_of_pos (by linarith : 0 < r - f.magnitude code)] at hnear
    -- Infinity is as near as the greatest finite magnitude, so only a tie is left.
    have hcode : f.magnitude code = f.magnitude (f.infinityCode - 1) := by
      rcases le_abs'.mp hnear with hside | hside <;> linarith
    have htie : |r - f.magnitude f.infinityCode| = |r - f.magnitude code| := by
      rw [abs_of_pos (by linarith : 0 < r - f.magnitude code)]
      refine le_antisymm ?_ hnear
      rw [abs_le]
      constructor <;> linarith
    have heven := h.even _ le_rfl (Ne.symm hne) htie
    have hinfinity := infinityCode_even hprecision
    have := f.magnitude_strictMono.injective hcode
    omega

/-- Beyond the magnitude that infinity stands for, a number is rounded to infinity. -/
theorem nearest_infinity (h : f.magnitude f.infinityCode ≤ r) : f.Nearest r f.infinityCode := by
  have habs : ∀ other ≤ f.infinityCode, |r - f.magnitude other| = r - f.magnitude other := by
    intro other hother
    exact abs_of_nonneg (sub_nonneg.mpr ((f.magnitude_strictMono.monotone hother).trans h))
  refine ⟨le_rfl, fun other hother => ?_, fun other hother hne htie => ?_⟩
  · rw [habs _ le_rfl, habs other hother]
    exact sub_le_sub_left (f.magnitude_strictMono.monotone hother) r
  · rw [habs _ le_rfl, habs other hother] at htie
    exact absurd (f.magnitude_strictMono.injective (sub_right_inj.mp htie)) hne

/-- Below half of the least positive magnitude, a number is rounded to zero. -/
theorem nearest_zero (hr : 0 ≤ r) (h : 2 * r < f.magnitude 1) : f.Nearest r 0 := by
  have hself : |r - f.magnitude 0| = r := by rw [magnitude_zero, sub_zero, abs_of_nonneg hr]
  have hfar : ∀ other, other ≠ 0 → r < |r - f.magnitude other| := by
    intro other hother
    have := f.magnitude_strictMono.monotone (Nat.one_le_iff_ne_zero.mpr hother)
    exact lt_abs.mpr (.inr (by linarith))
  refine ⟨Nat.zero_le _, fun other _ => ?_, fun _ _ _ _ => rfl⟩
  rw [hself]
  by_cases hother : other = 0
  · rw [hother, hself]
  · exact (hfar other hother).le

/-! ## Rounding a ratio -/

/-- A magnitude of an exponent from `q` on is a multiple of the unit of `q`. -/
theorem exists_multiple {q : Int} (h : q ≤ f.exponent other) :
    ∃ k : Nat, f.magnitude other = k * 2 ^ q := by
  refine ⟨f.significand other * 2 ^ (f.exponent other - q).toNat, ?_⟩
  have hsplit : f.exponent other = ((f.exponent other - q).toNat : Int) + q := by omega
  rw [magnitude]
  conv_lhs => rw [hsplit, zpow_add₀ two_ne_zero, zpow_natCast]
  push_cast
  ring

/-- A magnitude of an exponent below `q` lies below the full significands of `q`. -/
theorem magnitude_lt_full {q : Int} (h : f.exponent other < q) :
    f.magnitude other < f.stride * 2 ^ q := by
  have hstep : (2 : ℚ) ^ (f.exponent other + 1) ≤ 2 ^ q := zpow_le_zpow_right₀ one_le_two (by omega)
  calc f.magnitude other
      < (2 * f.stride : Nat) * 2 ^ f.exponent other :=
        mul_lt_mul_of_pos_right (Nat.cast_lt.mpr (f.significand_lt other)) (two_zpow_pos _)
    _ = f.stride * 2 ^ (f.exponent other + 1) := by
        rw [zpow_add_one₀ two_ne_zero]
        push_cast
        ring
    _ ≤ f.stride * 2 ^ q := mul_le_mul_of_nonneg_left hstep (Nat.cast_nonneg _)

/-- In the range of an exponent `q`, the code with the rounded significand is the nearest of all
codes, those beyond infinity included. -/
theorem place_nearest {n : Nat} (hprecision : 1 < f.precision)
    (hlow : n = 0 ∨ f.stride * (2 : ℚ) ^ (f.leastExponent + n) ≤ r)
    (hhigh : r < (2 * f.stride : Nat) * 2 ^ (f.leastExponent + n))
    (hm : RoundsTo (r / 2 ^ (f.leastExponent + n)) m) (other : Nat) :
    |r - f.magnitude (n * f.stride + m)| ≤ |r - f.magnitude other| ∧
      (other ≠ n * f.stride + m →
        |r - f.magnitude other| = |r - f.magnitude (n * f.stride + m)| →
        (n * f.stride + m) % 2 = 0) := by
  have hunit := two_zpow_pos (f.leastExponent + n)
  have hmagnitude : f.magnitude (n * f.stride + m) = m * 2 ^ (f.leastExponent + n) :=
    magnitude_carry (hm.le_of_ge ((div_le_iff₀ hunit).mpr hhigh.le))
      (hlow.imp_right fun h => hm.le_of_le ((le_div_iff₀ hunit).mpr h))
  obtain ⟨hleast, -⟩ := f.exponent_or_full other
  generalize hq : f.leastExponent + n = q at *
  -- Distances from multiples of the unit are distances of integers.
  have hdistance : ∀ k : Nat, |r - k * 2 ^ q| = |r / 2 ^ q - k| * 2 ^ q := by
    intro k
    rw [← abs_of_pos hunit, ← abs_mul, sub_mul, abs_of_pos hunit, div_mul_cancel₀ _ hunit.ne']
  have hnear : ∀ k : Nat, |r - m * 2 ^ q| ≤ |r - k * 2 ^ q| := by
    intro k
    rw [hdistance, hdistance]
    exact mul_le_mul_of_nonneg_right (hm.nearest k) hunit.le
  rw [hmagnitude]
  rcases le_or_gt q (f.exponent other) with hcoarse | hfine
  · obtain ⟨k, hk⟩ := exists_multiple hcoarse
    refine ⟨hk ▸ hnear k, fun hne htie => ?_⟩
    have hkm : k ≠ m := by
      rintro rfl
      exact hne (f.magnitude_strictMono.injective (hk.trans hmagnitude.symm))
    rw [hk, hdistance, hdistance, mul_left_inj' hunit.ne'] at htie
    have heven := hm.even_of_tie hkm htie
    rw [Nat.add_mod, Nat.mul_mod, two_dvd_stride hprecision, Nat.mul_zero, Nat.zero_mod, heven]
  · -- Below the range, the first multiple in it is nearer.
    have hstart := hlow.resolve_left (by omega)
    have hbelow := magnitude_lt_full hfine
    have hfar : |r - m * 2 ^ q| < |r - f.magnitude other| := by
      refine (hnear f.stride).trans_lt ?_
      rw [abs_of_nonneg (sub_nonneg.mpr hstart), abs_of_pos (by linarith)]
      exact sub_lt_sub_left hbelow r
    exact ⟨hfar.le, fun _ htie => absurd htie hfar.ne'⟩

/-- The nearest of all codes, capped at infinity, is the nearest of those up to infinity. -/
theorem nearest_capped
    (h : ∀ other, |r - f.magnitude code| ≤ |r - f.magnitude other| ∧
      (other ≠ code → |r - f.magnitude other| = |r - f.magnitude code| → code % 2 = 0)) :
    f.Nearest r (min f.infinityCode code) := by
  rcases Nat.lt_or_ge f.infinityCode code with hlt | hle
  · -- Rounded beyond infinity, the number is beyond the magnitude that infinity stands for.
    rw [Nat.min_eq_left hlt.le]
    apply nearest_infinity
    have hbeyond := f.magnitude_strictMono hlt
    have hnear := (h f.infinityCode).1
    by_contra hless
    rw [abs_of_neg (by linarith), abs_of_neg (by linarith)] at hnear
    linarith
  · rw [Nat.min_eq_right hle]
    exact ⟨hle, fun other _ => (h other).1, fun other _ => (h other).2⟩

theorem codeOfRatio_zero (f : BinaryFormat) (den : Nat) : f.codeOfRatio 0 den = 0 := if_pos rfl

/-- A ratio is rounded to the nearest code. -/
theorem codeOfRatio_nearest (hprecision : 1 < f.precision) (hden : 0 < den) (num : Nat) :
    f.Nearest ((num : ℚ) / den) (f.codeOfRatio num den) := by
  rw [codeOfRatio]
  split
  next hzero =>
    rw [hzero, Nat.cast_zero, zero_div]
    refine nearest_zero le_rfl ?_
    rw [mul_zero, ← f.magnitude_zero]
    exact f.magnitude_strictMono Nat.one_pos
  next hpositive =>
    obtain ⟨hlow, hhigh⟩ := floorLog2_spec (Nat.pos_of_ne_zero hpositive) hden
    dsimp only
    generalize hq : max f.leastExponent (floorLog2 num den - (f.precision - 1 : Nat)) = q
    obtain ⟨n, rfl⟩ : ∃ n : Nat, q = f.leastExponent + n :=
      ⟨(q - f.leastExponent).toNat, by omega⟩
    have hround := roundsTo_roundDiv (num * Nat.pow 2 (-(f.leastExponent + n)).toNat)
      (scaled_pos two_ne_zero hden (f.leastExponent + n))
    rw [ratio_div_two_zpow] at hround
    rw [show (f.leastExponent + n - f.leastExponent).toNat = n by omega]
    -- The exponent is the least one, or the leading bit of the ratio is that of a full significand.
    have hstart : n = 0 ∨ f.stride * (2 : ℚ) ^ (f.leastExponent + n) ≤ (num : ℚ) / den := by
      rw [two_pow_stride, ← zpow_add₀ two_ne_zero]
      by_cases hn : n = 0
      · exact .inl hn
      · exact .inr ((zpow_le_zpow_right₀ one_le_two (by omega)).trans hlow)
    have hend : (num : ℚ) / den < (2 * f.stride : Nat) * 2 ^ (f.leastExponent + n) := by
      push_cast
      rw [two_pow_stride, mul_assoc, ← zpow_add₀ two_ne_zero, ← zpow_one_add₀ two_ne_zero]
      exact hhigh.trans_le (zpow_le_zpow_right₀ one_le_two (by omega))
    exact nearest_capped (place_nearest hprecision hstart hend hround)

/-! ## The format of 64 bits -/

/-- Infinity stands for the power of two after the greatest finite magnitude. -/
theorem magnitude_infinity : binary64.magnitude binary64.infinityCode = 2 ^ (1024 : Int) := by
  have hcode : binary64.infinityCode = 2046 * binary64.stride + binary64.stride := by decide
  rw [hcode, magnitude_place (by decide) (.inr le_rfl), two_pow_stride, ← zpow_add₀ two_ne_zero]
  rfl

/-- Numbers from half a step beyond the greatest finite magnitude are rounded to infinity. -/
theorem Nearest.overflow (h : binary64.Nearest r code) :
    code = binary64.infinityCode ↔ 2 ^ (1024 : Int) - 2 ^ (970 : Int) ≤ r := by
  have hstep := binary64.magnitude_succ (binary64.infinityCode - 1)
  rw [Nat.sub_add_cancel (by decide), magnitude_infinity,
    show binary64.exponent (binary64.infinityCode - 1) = 970 + 1 by decide,
    zpow_add_one₀ two_ne_zero] at hstep
  have hhalf : (binary64.magnitude (binary64.infinityCode - 1) +
      binary64.magnitude binary64.infinityCode) / 2 = 2 ^ (1024 : Int) - 2 ^ (970 : Int) := by
    rw [magnitude_infinity]
    linarith
  rw [h.infinite_iff (by decide) (by decide), hhalf]

end BinaryFormat

/-! ## Rounding a decimal -/

namespace Decimal

theorem toBinary_negative (f : BinaryFormat) (negative : Bool) (d : Decimal) :
    (d.toBinary f negative).negative = negative := by
  unfold toBinary
  split
  · rfl
  · split
    · rfl
    · split <;> rfl

theorem two_zpow_le_ten_zpow (n : Nat) : (2 : ℚ) ^ (3 * n : Int) ≤ 10 ^ (n : Int) := by
  rw [zpow_mul, zpow_natCast, zpow_natCast]
  exact pow_le_pow_left₀ (by norm_num) (by norm_num) n

theorem lt_magnitude_one :
    2 * 10 ^ (-400 : Int) < BinaryFormat.binary64.magnitude 1 := by
  have hcode : 1 = 0 * BinaryFormat.binary64.stride + 1 := by decide
  rw [hcode, BinaryFormat.magnitude_place (by decide) (.inl rfl), Nat.cast_one, one_mul]
  have hinverse : (10 : ℚ) ^ (-400 : Int) ≤ 2 ^ (-1200 : Int) := by
    rw [zpow_neg, zpow_neg]
    exact inv_anti₀ (BinaryFormat.two_zpow_pos _) (two_zpow_le_ten_zpow 400)
  calc 2 * (10 : ℚ) ^ (-400 : Int) ≤ 2 * 2 ^ (-1200 : Int) :=
        mul_le_mul_of_nonneg_left hinverse zero_le_two
    _ = 2 ^ (1 + -1200 : Int) := (zpow_one_add₀ two_ne_zero _).symm
    _ < _ := zpow_lt_zpow_right₀ one_lt_two (by decide)

/-- A decimal is read as the nearest float, however great or small it is. -/
theorem toBinary_nearest (negative : Bool) (d : Decimal) :
    BinaryFormat.binary64.Nearest d.value (d.toBinary .binary64 negative).code := by
  have hzero : (Binary.ofRatio negative 0 1 : Binary64).code = 0 :=
    BinaryFormat.codeOfRatio_zero .binary64 1
  unfold toBinary
  split
  next hdigits =>
    have hnearest := BinaryFormat.codeOfRatio_nearest (f := .binary64) (by decide) Nat.one_pos 0
    have hvalue : d.value = 0 := by rw [value, hdigits, Nat.cast_zero, zero_mul]
    rwa [Nat.cast_zero, zero_div, ← hvalue] at hnearest
  next hdigits =>
    obtain ⟨hlow, hhigh⟩ := value_bounds (Nat.pos_of_ne_zero hdigits)
    split
    next hgreat =>
      apply BinaryFormat.nearest_infinity
      rw [BinaryFormat.magnitude_infinity]
      calc (2 : ℚ) ^ (1024 : Int) ≤ 2 ^ (3 * (400 : Nat) : Int) :=
            zpow_le_zpow_right₀ one_le_two (by decide)
        _ ≤ 10 ^ (400 : Int) := two_zpow_le_ten_zpow 400
        _ ≤ 10 ^ d.leading := zpow_le_zpow_right₀ (by norm_num) hgreat
        _ ≤ d.value := hlow
    next =>
      split
      next hsmall =>
        rw [hzero]
        apply BinaryFormat.nearest_zero ((ten_zpow_pos _).le.trans hlow)
        refine lt_trans (mul_lt_mul_of_pos_left ?_ two_pos) lt_magnitude_one
        exact hhigh.trans_le (zpow_le_zpow_right₀ (by norm_num) (by omega))
      next =>
        rw [← numerator_div_denominator]
        exact BinaryFormat.codeOfRatio_nearest (by decide) d.denominator_pos _

end Decimal

end StackEmbedding
