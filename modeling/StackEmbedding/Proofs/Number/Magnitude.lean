import Mathlib.Tactic.Ring
import StackEmbedding.Number.Binary
import StackEmbedding.Proofs.Number.Ratio

/-!
# Exact magnitudes of floats

A finite float is exactly a rational number. `BinaryFormat.magnitude` is the magnitude of a code,
and `Binary.toRat` the number with its sign. Rounding a ratio that is a magnitude of the format
gives the code of that magnitude, so a code is known by its magnitude, and a conversion between two
formats loses nothing where the target has the magnitude too.

**What is established here.**
* `BinaryFormat.codeOfRatio_of_eq`: a magnitude of the format is kept by rounding.
* `BinaryFormat.exists_code`: which `m * 2 ^ q` are magnitudes of a format.
* `Binary.toInt?_eq_some_iff`: a float is an integer exactly when its number is that integer.
* `Binary.narrow_widen`: a float of 32 bits comes back from the format of 64 bits.

Nothing is said here about ratios between two magnitudes.
-/

set_option autoImplicit false

namespace StackEmbedding

namespace BinaryFormat

variable {f : BinaryFormat} {code other num den : Nat}

/-- The exact magnitude with a code. -/
def magnitude (f : BinaryFormat) (code : Nat) : ℚ := f.significand code * 2 ^ f.exponent code

/-! ## Ratios and powers of two -/

theorem two_zpow_pos (e : Int) : (0 : ℚ) < 2 ^ e := zpow_pos two_pos e

/-- Scaling a ratio by a power of two. -/
theorem ratio_div_two_zpow (num den : Nat) (e : Int) :
    ((num * Nat.pow 2 (-e).toNat : Nat) : ℚ) / (den * Nat.pow 2 e.toNat : Nat) =
      (num : ℚ) / den / 2 ^ e := by
  rw [scaled_ratio two_ne_zero, Nat.cast_ofNat]

theorem lt_of_two_zpow {r : ℚ} {a b : Int} (ha : 2 ^ a ≤ r) (hb : r < 2 ^ b) : a < b :=
  (zpow_lt_zpow_iff_right₀ one_lt_two).mp (ha.trans_lt hb)

/-- The exponent found for a ratio is that of the greatest power of two the ratio reaches. -/
theorem floorLog2_spec (hnum : 0 < num) (hden : 0 < den) :
    (2 : ℚ) ^ floorLog2 num den ≤ (num : ℚ) / den ∧
      (num : ℚ) / den < 2 ^ (floorLog2 num den + 1) := by
  have hden' : (0 : ℚ) < den := Nat.cast_pos.mpr hden
  have hnum_le : (2 : ℚ) ^ (num.log2 : Int) ≤ num := by
    rw [zpow_natCast]
    exact_mod_cast Nat.log2_self_le (Nat.ne_of_gt hnum)
  have hnum_lt : (num : ℚ) < 2 ^ ((num.log2 : Int) + 1) := by
    exact_mod_cast Nat.lt_log2_self
  have hden_le : (2 : ℚ) ^ (den.log2 : Int) ≤ den := by
    rw [zpow_natCast]
    exact_mod_cast Nat.log2_self_le (Nat.ne_of_gt hden)
  have hden_lt : (den : ℚ) < 2 ^ ((den.log2 : Int) + 1) := by
    exact_mod_cast Nat.lt_log2_self
  -- The two lengths give the exponent up to one; the comparison settles which it is.
  have hbelow : (2 : ℚ) ^ ((num.log2 : Int) - den.log2 - 1) ≤ num / den := by
    rw [le_div_iff₀ hden']
    calc (2 : ℚ) ^ ((num.log2 : Int) - den.log2 - 1) * den
        ≤ 2 ^ ((num.log2 : Int) - den.log2 - 1) * 2 ^ ((den.log2 : Int) + 1) :=
          mul_le_mul_of_nonneg_left hden_lt.le (two_zpow_pos _).le
      _ = 2 ^ (num.log2 : Int) := by
          rw [← zpow_add₀ two_ne_zero]
          congr 1
          omega
      _ ≤ num := hnum_le
  have habove : (num : ℚ) / den < 2 ^ ((num.log2 : Int) - den.log2 + 1) := by
    rw [div_lt_iff₀ hden']
    calc (num : ℚ) < 2 ^ ((num.log2 : Int) + 1) := hnum_lt
      _ = 2 ^ ((num.log2 : Int) - den.log2 + 1) * 2 ^ (den.log2 : Int) := by
          rw [← zpow_add₀ two_ne_zero]
          congr 1
          omega
      _ ≤ 2 ^ ((num.log2 : Int) - den.log2 + 1) * den :=
          mul_le_mul_of_nonneg_left hden_le (two_zpow_pos _).le
  have hcompare : ∀ e : Int, num * Nat.pow 2 (-e).toNat < den * Nat.pow 2 e.toNat ↔
      (num : ℚ) / den < 2 ^ e := by
    intro e
    rw [← div_lt_one₀ (two_zpow_pos e), ← ratio_div_two_zpow,
      div_lt_one₀ (Nat.cast_pos.mpr (scaled_pos two_ne_zero hden e)), Nat.cast_lt]
  simp only [floorLog2]
  split
  next hless =>
    rw [sub_add_cancel]
    exact ⟨hbelow, (hcompare _).mp hless⟩
  next hmore => exact ⟨not_lt.mp (mt (hcompare _).mpr hmore), habove⟩

/-! ## Codes and magnitudes -/

theorem significand_lt (f : BinaryFormat) (code : Nat) : f.significand code < 2 * f.stride := by
  have := Nat.mod_lt code f.stride_pos
  unfold significand
  split <;> omega

theorem magnitude_nonneg (f : BinaryFormat) (code : Nat) : 0 ≤ f.magnitude code :=
  mul_nonneg (Nat.cast_nonneg _) (two_zpow_pos _).le

/-- A code is the place of its magnitude: its exponent above the least one, in strides, and its
significand. -/
theorem code_eq (f : BinaryFormat) (code : Nat) :
    (f.exponent code - f.leastExponent).toNat * f.stride + f.significand code = code := by
  have hsplit := Nat.div_add_mod code f.stride
  have hexponent : (f.exponent code - f.leastExponent).toNat = code / f.stride - 1 := by
    unfold exponent
    omega
  rw [hexponent, significand]
  split
  next hzero =>
    rw [hzero] at hsplit ⊢
    simpa using hsplit
  next hpositive =>
    obtain ⟨k, hk⟩ := Nat.exists_eq_succ_of_ne_zero hpositive
    rw [hk, Nat.mul_succ, Nat.mul_comm] at hsplit
    rw [hk, Nat.succ_sub_one]
    omega

/-- The exponent of a magnitude is the least one, or its significand is full. -/
theorem exponent_or_full (f : BinaryFormat) (code : Nat) :
    f.leastExponent ≤ f.exponent code ∧
      (f.exponent code = f.leastExponent ∨ f.stride ≤ f.significand code) := by
  unfold exponent significand
  split
  next hzero =>
    rw [hzero]
    omega
  next hpositive => omega

theorem two_pow_stride (f : BinaryFormat) :
    (f.stride : ℚ) = 2 ^ ((f.precision - 1 : Nat) : Int) := by
  rw [stride, Nat.pow_eq, zpow_natCast]
  norm_cast

/-- A ratio that is a magnitude of the format is rounded to the code of that magnitude. -/
theorem codeOfRatio_of_eq (hden : 0 < den) (hcode : code ≤ f.infinityCode)
    (h : (num : ℚ) / den = f.magnitude code) : f.codeOfRatio num den = code := by
  have hplace := f.code_eq code
  obtain ⟨hleast, hfull⟩ := f.exponent_or_full code
  have hsignificand := f.significand_lt code
  unfold magnitude at h
  generalize f.significand code = m at *
  generalize f.exponent code = q at *
  have hden' : (den : ℚ) ≠ 0 := Nat.cast_ne_zero.mpr (Nat.ne_of_gt hden)
  rw [codeOfRatio]
  split
  next hzero =>
    rw [hzero, Nat.cast_zero, zero_div, eq_comm, mul_eq_zero, Nat.cast_eq_zero] at h
    obtain rfl := h.resolve_right (two_zpow_pos q).ne'
    have := f.stride_pos
    obtain rfl : q = f.leastExponent := hfull.resolve_right (by omega)
    simpa using hplace
  next hpositive =>
    have hm : 0 < m := by
      apply Nat.pos_of_ne_zero
      rintro rfl
      rw [Nat.cast_zero, zero_mul, div_eq_zero_iff, Nat.cast_eq_zero] at h
      exact hpositive (h.resolve_right hden')
    obtain ⟨hlow, hhigh⟩ := floorLog2_spec (Nat.pos_of_ne_zero hpositive) hden
    have hq : max f.leastExponent (floorLog2 num den - (f.precision - 1 : Nat)) = q := by
      have hbelow : (m : ℚ) * 2 ^ q < 2 ^ ((f.precision - 1 : Nat) + q + 1 : Int) := by
        rw [zpow_add_one₀ two_ne_zero, zpow_add₀ two_ne_zero, ← two_pow_stride, mul_right_comm]
        apply mul_lt_mul_of_pos_right _ (two_zpow_pos q)
        rw [mul_comm]
        exact_mod_cast hsignificand
      have hupper := lt_of_two_zpow (hlow.trans_eq h) hbelow
      rcases hfull with rfl | hfull
      · omega
      · have habove : (2 : ℚ) ^ ((f.precision - 1 : Nat) + q : Int) ≤ m * 2 ^ q := by
          rw [zpow_add₀ two_ne_zero, ← two_pow_stride]
          exact mul_le_mul_of_nonneg_right (Nat.cast_le.mpr hfull) (two_zpow_pos q).le
        have hlower := lt_of_two_zpow habove (h.symm.trans_lt hhigh)
        omega
    have hround : roundDiv (num * Nat.pow 2 (-q).toNat) (den * Nat.pow 2 q.toNat) = m := by
      have hexact : num * Nat.pow 2 (-q).toNat = m * (den * Nat.pow 2 q.toNat) := by
        have hscaled := ratio_div_two_zpow num den q
        have hne : ((den * Nat.pow 2 q.toNat : Nat) : ℚ) ≠ 0 :=
          Nat.cast_ne_zero.mpr (Nat.ne_of_gt (scaled_pos two_ne_zero hden q))
        rw [h, mul_div_cancel_right₀ _ (two_zpow_pos q).ne', div_eq_iff hne] at hscaled
        exact_mod_cast hscaled
      rw [hexact, roundDiv_mul (scaled_pos two_ne_zero hden q)]
    dsimp only
    rw [hq, hround, hplace]
    exact Nat.min_eq_right hcode

/-- The magnitude of a code as a ratio of natural numbers. -/
theorem ratio_magnitude (f : BinaryFormat) (code : Nat) :
    ((f.significand code * Nat.pow 2 (f.exponent code).toNat : Nat) : ℚ) /
      (Nat.pow 2 (-f.exponent code).toNat : Nat) = f.magnitude code := by
  rw [ratio_zpow two_ne_zero, Nat.cast_ofNat, magnitude]

/-- A code is known by its magnitude. -/
theorem magnitude_injective (hcode : code ≤ f.infinityCode) (hother : other ≤ f.infinityCode)
    (h : f.magnitude code = f.magnitude other) : code = other := by
  have hratio := f.ratio_magnitude code
  have hden : 0 < Nat.pow 2 (-f.exponent code).toNat := Nat.pow_pos (by decide)
  rw [← codeOfRatio_of_eq hden hcode hratio, codeOfRatio_of_eq hden hother (hratio.trans h)]

theorem magnitude_zero (f : BinaryFormat) : f.magnitude 0 = 0 := by
  simp [magnitude, significand]

/-- The magnitude at a place: so many strides above the least exponent, and a significand. -/
theorem magnitude_place {m n : Nat} (hm : m < 2 * f.stride) (hplace : n = 0 ∨ f.stride ≤ m) :
    f.magnitude (n * f.stride + m) = m * 2 ^ (f.leastExponent + n) := by
  have hstride := f.stride_pos
  by_cases hfull : f.stride ≤ m
  · have hcode : n * f.stride + m = f.stride * (n + 1) + (m - f.stride) := by
      rw [Nat.mul_succ, Nat.mul_comm]
      omega
    have hdiv : (n * f.stride + m) / f.stride = n + 1 := by
      rw [hcode, Nat.mul_add_div hstride, Nat.div_eq_of_lt (by omega), Nat.add_zero]
    have hmod : (n * f.stride + m) % f.stride = m - f.stride := by
      rw [hcode, Nat.mul_add_mod, Nat.mod_eq_of_lt (by omega)]
    rw [magnitude, significand, exponent, hdiv, hmod, if_neg (Nat.succ_ne_zero n),
      Nat.sub_add_cancel hfull, Nat.add_sub_cancel]
  · obtain rfl := hplace.resolve_right hfull
    have hlt : m < f.stride := Nat.lt_of_not_le hfull
    rw [Nat.zero_mul, Nat.zero_add, magnitude, significand, exponent, Nat.div_eq_of_lt hlt,
      Nat.mod_eq_of_lt hlt, if_pos rfl]

theorem place_lt {m n : Nat} (hm : m < 2 * f.stride)
    (hrange : f.leastExponent + n ≤ f.greatestExponent) : n * f.stride + m < f.infinityCode := by
  have hn : n + 2 ≤ (f.greatestExponent - f.leastExponent + 2).toNat := by omega
  have := Nat.mul_le_mul_right f.stride hn
  rw [Nat.add_mul] at this
  unfold infinityCode
  omega

/-- What is less than two strides times a power of two in range is a magnitude of the format. -/
theorem exists_code {m : Nat} (hm : m < 2 * f.stride) {q : Int} (hleast : f.leastExponent ≤ q)
    (hgreatest : q ≤ f.greatestExponent) :
    ∃ code, code < f.infinityCode ∧ f.magnitude code = m * 2 ^ q := by
  obtain ⟨n, rfl⟩ : ∃ n : Nat, q = f.leastExponent + n := ⟨(q - f.leastExponent).toNat, by omega⟩
  -- A significand that is not full is doubled as long as the exponent can go down.
  induction n generalizing m with
  | zero =>
    exact ⟨0 * f.stride + m, place_lt hm hgreatest, magnitude_place hm (.inl rfl)⟩
  | succ n ih =>
    by_cases hfull : f.stride ≤ m
    · exact ⟨(n + 1) * f.stride + m, place_lt hm hgreatest, magnitude_place hm (.inr hfull)⟩
    · obtain ⟨code, hcode, hmagnitude⟩ := ih (m := 2 * m) (by omega) (by omega) (by omega)
      refine ⟨code, hcode, hmagnitude.trans ?_⟩
      rw [Nat.cast_succ, ← add_assoc, zpow_add_one₀ two_ne_zero]
      push_cast
      ring

/-- The exponents of finite magnitudes are in range. -/
theorem exponent_le (hcode : code < f.infinityCode)
    (hrange : f.leastExponent ≤ f.greatestExponent) :
    f.exponent code ≤ f.greatestExponent := by
  have hdiv : code / f.stride < (f.greatestExponent - f.leastExponent + 2).toNat :=
    Nat.div_lt_of_lt_mul (by rwa [Nat.mul_comm])
  unfold exponent
  omega

end BinaryFormat

/-! ## Floats as numbers -/

namespace Binary

variable {f g : BinaryFormat} {x y : Binary f}

/-- The number that a finite float is. -/
def toRat (x : Binary f) : ℚ := if x.negative then -f.magnitude x.code else f.magnitude x.code

theorem abs_toRat (x : Binary f) : |x.toRat| = f.magnitude x.code := by
  unfold toRat
  split
  · rw [abs_neg, abs_of_nonneg (f.magnitude_nonneg _)]
  · rw [abs_of_nonneg (f.magnitude_nonneg _)]

theorem denominator_pos (x : Binary f) : 0 < x.denominator := Nat.pow_pos (by decide)

theorem numerator_div_denominator (x : Binary f) :
    (x.numerator : ℚ) / x.denominator = f.magnitude x.code := f.ratio_magnitude x.code

theorem magnitude_eq_natCast_iff {k : Nat} :
    f.magnitude x.code = k ↔ x.numerator = k * x.denominator := by
  rw [← numerator_div_denominator,
    div_eq_iff (Nat.cast_ne_zero.mpr (Nat.ne_of_gt x.denominator_pos))]
  norm_cast

/-- A float is an integer exactly when it is finite and its number is that integer. -/
theorem toInt?_eq_some_iff {n : Int} :
    x.toInt? = some n ↔ x.isFinite = true ∧ x.toRat = n := by
  rw [toInt?, Option.ite_none_right_eq_some, Bool.and_eq_true, decide_eq_true_eq, and_assoc]
  refine and_congr_right fun _ => ?_
  dsimp only
  constructor
  · rintro ⟨hexact, hn⟩
    have hmagnitude : f.magnitude x.code = (x.numerator / x.denominator : Nat) :=
      magnitude_eq_natCast_iff.mpr (Nat.div_mul_cancel (Nat.dvd_of_mod_eq_zero hexact)).symm
    rw [toRat, hmagnitude, ← Option.some.inj hn]
    split
    · rw [Int.cast_neg, Int.cast_natCast]
    · rw [Int.cast_natCast]
  · intro hn
    have hmagnitude : f.magnitude x.code = (n.natAbs : Nat) := by
      rw [← abs_toRat, hn, Nat.cast_natAbs, Int.cast_abs]
    have hsign : x.negative = true ∧ n ≤ 0 ∨ x.negative = false ∧ 0 ≤ n := by
      have hnonneg := f.magnitude_nonneg x.code
      unfold toRat at hn
      cases hnegative : x.negative with
      | true =>
        rw [hnegative, if_pos rfl] at hn
        exact .inl ⟨rfl, by exact_mod_cast hn.symm.trans_le (neg_nonpos.mpr hnonneg)⟩
      | false =>
        rw [hnegative, if_neg nofun] at hn
        exact .inr ⟨rfl, by exact_mod_cast hnonneg.trans_eq hn⟩
    have hnumerator := magnitude_eq_natCast_iff.mp hmagnitude
    rw [hnumerator, Nat.mul_mod_left, Nat.mul_div_cancel _ x.denominator_pos]
    refine ⟨rfl, congrArg some ?_⟩
    obtain ⟨hnegative, hn⟩ | ⟨hnegative, hn⟩ := hsign
    · rw [hnegative, if_pos rfl]
      omega
    · rw [hnegative, if_neg nofun]
      omega

/-- Floats that are the same integer are equal as numbers. -/
theorem numEq_of_toInt? {n : Int} (hx : x.toInt? = some n) (hy : y.toInt? = some n) :
    x.numEq y = true := by
  obtain ⟨hxfinite, hxrat⟩ := toInt?_eq_some_iff.mp hx
  obtain ⟨hyfinite, hyrat⟩ := toInt?_eq_some_iff.mp hy
  have hxcode := of_decide_eq_true hxfinite
  have hycode := of_decide_eq_true hyfinite
  have hrat : x.toRat = y.toRat := hxrat.trans hyrat.symm
  have hcode : x.code = y.code := by
    apply BinaryFormat.magnitude_injective hxcode.le hycode.le
    rw [← abs_toRat, hrat, abs_toRat]
  have hxnan : x.isNaN = false := decide_eq_false hxcode.le.not_gt
  have hynan : y.isNaN = false := decide_eq_false hycode.le.not_gt
  rw [numEq, hxnan, hynan]
  by_cases hsign : x.negative = y.negative
  · have hsame : x = y := by
      cases x
      cases y
      simp_all only
    simp [hsame]
  · -- A number that is its own negative is zero, and zero has one code.
    have hopposite : -f.magnitude x.code = f.magnitude x.code := by
      unfold toRat at hrat
      rw [← hcode] at hrat
      cases hxsign : x.negative with
      | true =>
        have hysign : y.negative = false := by
          rw [hxsign] at hsign
          exact Bool.eq_false_iff.mpr (Ne.symm hsign)
        rwa [hxsign, hysign, if_pos rfl, if_neg nofun] at hrat
      | false =>
        have hysign : y.negative = true := by
          rw [hxsign] at hsign
          exact Bool.eq_true_of_not_eq_false (Ne.symm hsign)
        rw [hxsign, hysign, if_neg nofun, if_pos rfl] at hrat
        exact hrat.symm
    have hzero : f.magnitude x.code = f.magnitude 0 := by
      rw [f.magnitude_zero, neg_eq_self.mp hopposite]
    have hxzero := BinaryFormat.magnitude_injective hxcode.le (Nat.zero_le _) hzero
    simp [hxzero, hcode ▸ hxzero]

/-- A conversion to a format that has the magnitude keeps it. -/
theorem convertTo_of_magnitude (hx : x.isFinite = true) {code : Nat} (hcode : code < g.infinityCode)
    (h : g.magnitude code = f.magnitude x.code) :
    x.convertTo g = ⟨x.negative, code, hcode.trans g.infinityCode_lt⟩ := by
  have hlt := of_decide_eq_true hx
  have hnan : x.isNaN = false := decide_eq_false hlt.le.not_gt
  have hinfinite : x.isInfinite = false := decide_eq_false hlt.ne
  have hround : g.codeOfRatio (1 * x.numerator) x.denominator = code := by
    apply BinaryFormat.codeOfRatio_of_eq x.denominator_pos hcode.le
    rw [one_mul, numerator_div_denominator, h]
  simp only [convertTo, scaleTo, hnan, hinfinite, Bool.false_eq_true, if_false, ofRatio, hround]

/-- A float of 32 bits that is no NaN comes back from the format of 64 bits. -/
theorem narrow_widen {x : Binary32} (hx : x.isNaN = false) :
    (x.convertTo .binary64).isNaN = false ∧ (x.convertTo .binary64).convertTo .binary32 = x := by
  rcases Nat.lt_or_eq_of_le (Nat.le_of_not_lt (of_decide_eq_false hx)) with hlt | hinfinite
  · have hexponent := BinaryFormat.exponent_le hlt (by decide)
    obtain ⟨hleast, -⟩ := BinaryFormat.binary32.exponent_or_full x.code
    have hsignificand := BinaryFormat.binary32.significand_lt x.code
    obtain ⟨code, hcode, hmagnitude⟩ := BinaryFormat.exists_code (f := .binary64)
      (hsignificand.trans_le (by decide)) (Int.le_trans (by decide) hleast)
      (Int.le_trans hexponent (by decide))
    rw [convertTo_of_magnitude (decide_eq_true hlt) hcode hmagnitude]
    exact ⟨decide_eq_false hcode.le.not_gt,
      convertTo_of_magnitude (decide_eq_true hcode) hlt hmagnitude.symm⟩
  · have hwide : x.convertTo .binary64 = infinity x.negative := by
      simp [convertTo, scaleTo, isNaN, isInfinite, hinfinite]
    have hnarrow : (infinity x.negative : Binary64).convertTo .binary32 = infinity x.negative := rfl
    rw [hwide, hnarrow]
    refine ⟨rfl, ?_⟩
    cases x
    simp_all [infinity]

end Binary

end StackEmbedding
