import Mathlib.Algebra.Order.Field.Rat
import Mathlib.Algebra.Order.Ring.Abs
import Mathlib.Tactic.FieldSimp
import Mathlib.Tactic.Linarith
import StackEmbedding.Number.Rounding

/-!
# Ratios, scaled and rounded

Numbers are computed as ratios of natural numbers. A ratio is scaled by a power of a base by
multiplying above or below, whichever the sign of the exponent asks for (`ratio_zpow`,
`scaled_ratio`).

`RoundsTo r n` says that `n` is the integer nearest to `r`, and even where two are equally near.
It is about the rational number alone and fixes `n` (`RoundsTo.unique`); the division that rounds
comes to it (`roundsTo_roundDiv`).
-/

set_option autoImplicit false

namespace StackEmbedding

variable {b num den n k : Nat} {r : ℚ}

/-! ## Scaling -/

theorem zpow_eq_div (hb : b ≠ 0) (e : Int) : (b : ℚ) ^ e = b ^ e.toNat / b ^ (-e).toNat := by
  have hsplit : e = (e.toNat : Int) - ((-e).toNat : Int) := by omega
  conv_lhs => rw [hsplit]
  rw [zpow_sub₀ (Nat.cast_ne_zero.mpr hb), zpow_natCast, zpow_natCast]

/-- A multiple of a power of a base as a ratio of natural numbers. -/
theorem ratio_zpow (hb : b ≠ 0) (n : Nat) (e : Int) :
    ((n * Nat.pow b e.toNat : Nat) : ℚ) / (Nat.pow b (-e).toNat : Nat) = n * (b : ℚ) ^ e := by
  rw [zpow_eq_div hb, Nat.pow_eq, Nat.pow_eq]
  push_cast
  rw [mul_div_assoc]

/-- Dividing a ratio by a power of a base, in natural numbers. -/
theorem scaled_ratio (hb : b ≠ 0) (num den : Nat) (e : Int) :
    ((num * Nat.pow b (-e).toNat : Nat) : ℚ) / (den * Nat.pow b e.toNat : Nat) =
      (num : ℚ) / den / (b : ℚ) ^ e := by
  rw [zpow_eq_div hb, Nat.pow_eq, Nat.pow_eq]
  push_cast
  field_simp

theorem scaled_pos (hb : b ≠ 0) (hden : 0 < den) (e : Int) : 0 < den * Nat.pow b e.toNat :=
  Nat.mul_pos hden (Nat.pow_pos (Nat.pos_of_ne_zero hb))

/-! ## Rounding to the nearest integer -/

/-- The integer `n` is the one nearest to `r`, and even if another one is as near. -/
structure RoundsTo (r : ℚ) (n : Nat) : Prop where
  near : |r - n| ≤ 1 / 2
  even : |r - n| = 1 / 2 → n % 2 = 0

/-- Integers that are not nearer than half a unit are not nearer than the rounded one. -/
theorem half_le_abs (h : |r - n| ≤ 1 / 2) (hne : k ≠ n) : 1 / 2 ≤ |r - k| := by
  rw [abs_le] at h
  rcases Nat.lt_or_gt_of_ne hne with hlt | hgt
  · have hstep : (k : ℚ) + 1 ≤ n := by exact_mod_cast hlt
    exact le_abs.mpr (.inl (by linarith))
  · have hstep : (n : ℚ) + 1 ≤ k := by exact_mod_cast hgt
    exact le_abs.mpr (.inr (by linarith))

namespace RoundsTo

theorem nearest (h : RoundsTo r n) (k : Nat) : |r - n| ≤ |r - k| := by
  by_cases hk : k = n
  · rw [hk]
  · exact h.near.trans (half_le_abs h.near hk)

theorem even_of_tie (h : RoundsTo r n) (hk : k ≠ n) (htie : |r - k| = |r - n|) : n % 2 = 0 :=
  h.even (le_antisymm h.near (htie ▸ half_le_abs h.near hk))

/-- Rounding does not cross an integer from below. -/
theorem le_of_ge (h : RoundsTo r n) (hk : r ≤ k) : n ≤ k := by
  have hnear := abs_le.mp h.near
  exact Nat.lt_succ_iff.mp (by exact_mod_cast (by linarith : (n : ℚ) < k + 1))

/-- Rounding does not cross an integer from above. -/
theorem le_of_le (h : RoundsTo r n) (hk : (k : ℚ) ≤ r) : k ≤ n := by
  have hnear := abs_le.mp h.near
  exact Nat.lt_succ_iff.mp (by exact_mod_cast (by linarith : (k : ℚ) < n + 1))

/-- What rounds to a multiple of a base is rounded to the same number in the coarser unit, and no
tie arises there. -/
theorem coarsen (hb : 1 < b) (h : RoundsTo r (n * b)) : RoundsTo (r / b) n := by
  have hb' : (0 : ℚ) < b := Nat.cast_pos.mpr (by omega)
  have hdistance : |r / b - n| * b = |r - (n * b : Nat)| := by
    rw [← abs_of_pos hb', ← abs_mul, abs_of_pos hb', sub_mul, div_mul_cancel₀ _ hb'.ne',
      Nat.cast_mul]
  have hstep : (2 : ℚ) ≤ b := by exact_mod_cast hb
  have hless : |r / b - n| < 1 / 2 := by
    rw [← mul_lt_mul_iff_of_pos_right hb', hdistance]
    linarith [h.near]
  exact ⟨hless.le, fun htie => absurd htie hless.ne⟩

/-- A number rounds to one integer. -/
theorem unique (h : RoundsTo r n) (hk : RoundsTo r k) : n = k := by
  by_contra hne
  have htie : |r - k| = |r - n| := le_antisymm (hk.nearest n) (h.nearest k)
  have hn := h.even_of_tie (Ne.symm hne) htie
  have hk' := hk.even_of_tie hne htie.symm
  -- Both are even and no more than one unit apart.
  have hnear := abs_le.mp h.near
  have hnear' := abs_le.mp hk.near
  have hupper : n ≤ k + 1 := by exact_mod_cast (by linarith : (n : ℚ) ≤ k + 1)
  have hlower : k ≤ n + 1 := by exact_mod_cast (by linarith : (k : ℚ) ≤ n + 1)
  omega

end RoundsTo

/-- The quotient of a division is rounded to the nearest integer. -/
theorem roundsTo_roundDiv (num : Nat) (hden : 0 < den) :
    RoundsTo ((num : ℚ) / den) (roundDiv num den) := by
  have hden' : (0 : ℚ) < den := Nat.cast_pos.mpr hden
  have hsplit : (num : ℚ) / den = (num / den : Nat) + (num % den : Nat) / (den : ℚ) := by
    rw [eq_comm, add_div_eq_mul_add_div _ _ hden'.ne', mul_comm]
    congr 1
    exact_mod_cast Nat.div_add_mod num den
  have hrest : 0 ≤ ((num % den : Nat) : ℚ) / den := div_nonneg (Nat.cast_nonneg _) hden'.le
  rw [hsplit, roundDiv]
  generalize num / den = below at *
  generalize hpart : ((num % den : Nat) : ℚ) / den = part at *
  have hless : 2 * (num % den) < den ↔ part < 1 / 2 := by
    rw [← hpart, div_lt_div_iff₀ hden' two_pos, one_mul, mul_comm]
    norm_cast
  have hmore : den < 2 * (num % den) ↔ 1 / 2 < part := by
    rw [← hpart, div_lt_div_iff₀ two_pos hden', one_mul, mul_comm]
    norm_cast
  have hwhole : part < 1 := by
    rw [← hpart, div_lt_one₀ hden']
    exact_mod_cast Nat.mod_lt num hden
  have hbelow : |(below : ℚ) + part - below| = part := by
    rw [add_sub_cancel_left, abs_of_nonneg hrest]
  have habove : |(below : ℚ) + part - (below + 1 : Nat)| = 1 - part := by
    rw [Nat.cast_succ, add_sub_add_left_eq_sub, abs_sub_comm, abs_of_pos (by linarith)]
  split
  next h =>
    have := hless.mp h
    exact ⟨by rw [hbelow]; exact this.le, fun htie => absurd (hbelow ▸ htie) this.ne⟩
  next hnotless =>
    split
    next h =>
      have := hmore.mp h
      exact ⟨by rw [habove]; linarith, fun htie => by rw [habove] at htie; linarith⟩
    next hnotmore =>
      have htie : part = 1 / 2 :=
        le_antisymm (not_lt.mp (mt hmore.mpr hnotmore)) (not_lt.mp (mt hless.mpr hnotless))
      split
      next heven => exact ⟨by rw [hbelow, htie], fun _ => heven⟩
      next hodd => exact ⟨by rw [habove, htie]; norm_num, fun _ => by omega⟩

end StackEmbedding
