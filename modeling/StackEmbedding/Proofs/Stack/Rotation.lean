import Mathlib.Data.List.Rotate
import StackEmbedding.Proofs.Stack.Top

/-!
# Rotations

A stack rotates its upper slots by an integer number of places, towards the top or towards the
bottom. On lists this is `List.rotate`, which counts natural numbers towards the front, by the
Euclidean remainder of the integer (`rotateBy`, `rotated_eq_rotateBy`). Remainders add up, so that
rotations do (`rotateBy_rotateBy`), and a multiple of the length is no rotation.

Moving the highest slot of a stack down to an index is the rotation by one place, in the stamps as
in the values (`insert_dropTop`).
-/

set_option autoImplicit false

namespace StackEmbedding

/-! ## Lists -/

section Lists

variable {α : Type}

/-- The list rotated by an integer: by `n` places towards the front, by a negative `n` towards the
end. -/
def rotateBy (xs : List α) (n : Int) : List α := xs.rotate (n % (xs.length : Int)).toNat

@[simp] theorem length_rotateBy (xs : List α) (n : Int) : (rotateBy xs n).length = xs.length :=
  List.length_rotate xs _

@[simp] theorem rotateBy_nil (n : Int) : rotateBy ([] : List α) n = [] := List.rotate_nil _

theorem rotateBy_ofNat (xs : List α) (n : Nat) : rotateBy xs n = xs.rotate n := by
  rw [rotateBy, ← Int.natCast_emod, Int.toNat_natCast, List.rotate_mod]

theorem toNat_emod_add {length : Nat} (h : 0 < length) (a b : Int) :
    ((a % (length : Int)).toNat + (b % (length : Int)).toNat) % length =
      ((a + b) % (length : Int)).toNat := by
  have hcast : ∀ n : Int, ((n % (length : Int)).toNat : Int) = n % (length : Int) :=
    fun n => Int.toNat_of_nonneg (Int.emod_nonneg n (by omega))
  apply Int.ofNat.inj
  rw [Int.ofNat_eq_natCast, Int.ofNat_eq_natCast, Int.natCast_emod, Int.natCast_add, hcast, hcast,
    hcast, ← Int.add_emod]

/-- Rotations add up. -/
theorem rotateBy_rotateBy (xs : List α) (a b : Int) :
    rotateBy (rotateBy xs a) b = rotateBy xs (a + b) := by
  cases hxs : xs with
  | nil => simp
  | cons x rest =>
    have hpositive : 0 < xs.length := by simp [hxs]
    rw [← hxs, rotateBy, length_rotateBy, rotateBy, List.rotate_rotate, ← List.rotate_mod,
      toNat_emod_add hpositive, rotateBy]

/-- A multiple of the length is no rotation. -/
theorem rotateBy_mul_length (xs : List α) (k : Int) : rotateBy xs (k * xs.length) = xs := by
  rw [rotateBy, Int.mul_emod_left, Int.toNat_zero, List.rotate_zero]

theorem rotateBy_zero (xs : List α) : rotateBy xs 0 = xs := by
  simpa using rotateBy_mul_length xs 0

theorem rotateBy_one (x : α) (rest : List α) : rotateBy (x :: rest) 1 = rest ++ [x] := by
  rw [show (1 : Int) = (1 : Nat) from rfl, rotateBy_ofNat, List.rotate_cons_succ, List.rotate_zero]

theorem rotateBy_neg_one (rest : List α) (x : α) : rotateBy (rest ++ [x]) (-1) = x :: rest := by
  rw [← rotateBy_one, rotateBy_rotateBy, Int.add_right_neg, rotateBy_zero]

/-- Moving towards the end is moving as far in the opposite direction. -/
theorem rotated_eq_rotateBy (xs : List α) (n : Int) : rotated xs n = rotateBy xs (-n) := by
  rw [rotateBy, List.rotate_eq_drop_append_take_mod, rotated]
  cases hxs : xs with
  | nil => simp
  | cons x rest =>
    have hpositive : 0 < xs.length := by simp [hxs]
    rw [← hxs]
    have hlow : 0 ≤ n % (xs.length : Int) := Int.emod_nonneg n (by omega)
    have hhigh : n % (xs.length : Int) < xs.length := Int.emod_lt_of_pos n (by omega)
    -- Both cut the list at one place, save that the trivial rotation is cut at either end.
    by_cases hwhole : (xs.length : Int) ∣ n
    · have hopposite := Int.emod_eq_zero_of_dvd (Int.dvd_neg.mpr hwhole)
      simp [hopposite, Int.emod_eq_zero_of_dvd hwhole]
    · have hopposite : -n % (xs.length : Int) = xs.length - n % (xs.length : Int) := by
        rw [Int.neg_emod, if_neg hwhole, Int.natAbs_natCast]
      have hne : n % (xs.length : Int) ≠ 0 := fun h => hwhole (Int.dvd_of_emod_eq_zero h)
      have hcut : xs.length - (n % (xs.length : Int)).toNat =
          (-n % (xs.length : Int)).toNat % xs.length := by
        rw [hopposite, Nat.mod_eq_of_lt (by omega)]
        omega
      simp only [hcut]

end Lists

/-! ## Stacks -/

theorem length_rotated {α : Type} (xs : List α) (n : Int) : (rotated xs n).length = xs.length := by
  rw [rotated_eq_rotateBy, length_rotateBy]

namespace Stack

variable {s : Stack} {i : Nat}

theorem height_insert (h : i ≤ s.height) (v : Value) : (s.insert i v).height = s.height + 1 := by
  rw [insert_eq_replaceFrom h, height_replaceFrom h, List.length_cons, length_valuesFrom]
  omega

theorem height_remove (h : i < s.height) : (s.remove i).height = s.height - 1 := by
  have hle : i ≤ s.height := Nat.le_of_lt h
  rw [remove_eq_replaceFrom hle, height_replaceFrom hle, length_valuesFrom]
  omega

theorem height_rotate (h : i ≤ s.height) (n : Int) : (s.rotate i n).height = s.height := by
  rw [rotate_eq_replaceFrom h, height_replaceFrom h, length_rotated, length_valuesFrom]
  omega

theorem take_dropTop (h : i < s.height) : s.dropTop.slots.take i = s.slots.take i := by
  rw [dropTop, truncate, List.take_take, Nat.min_eq_left (by omega)]

/-- The values from an index upward end in the highest value. -/
theorem valuesFrom_eq_dropTop (h : i < s.height) :
    s.valuesFrom i = s.dropTop.valuesFrom i ++ [.orNil s.top?] := by
  have hne : s.valuesFrom i ≠ [] := by
    rw [← List.length_pos_iff, length_valuesFrom]
    omega
  rw [valuesFrom_dropTop h, top?_eq_getLast? h, List.getLast?_eq_some_getLast hne]
  exact (List.dropLast_append_getLast hne).symm

/-- Rotating from an index upward rotates the end of what lies above a lower one. -/
theorem valuesFrom_rotate {b k : Nat} (h : b + k ≤ s.height) (n : Int) :
    (s.rotate (b + k) n).valuesFrom b =
      (s.valuesFrom b).take k ++ rotateBy ((s.valuesFrom b).drop k) (-n) := by
  rw [rotate_eq_replaceFrom h, valuesFrom_replaceFrom h, rotated_eq_rotateBy, valuesFrom_add]

/-- Moving the highest slot to an index is rotating by one place from there. -/
theorem insert_dropTop (h : i < s.height) :
    s.dropTop.insert i (.orNil s.top?) = s.rotate i 1 := by
  have hle : i ≤ s.dropTop.height := by
    rw [height_dropTop]
    omega
  rw [insert_eq_replaceFrom hle, rotate_eq_replaceFrom (Nat.le_of_lt h), rotated_eq_rotateBy,
    valuesFrom_eq_dropTop h, rotateBy_neg_one, replaceFrom, replaceFrom, take_dropTop h]
  rfl

end Stack

end StackEmbedding
