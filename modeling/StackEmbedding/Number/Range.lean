/-!
# Ranges of integers of a fixed width

`fitsSigned bits n` says that `n` is an integer of `bits` bits in two's complement, and
`fitsUnsigned bits n` that it is one without sign. `int64?` is the checked way from an integer to
the machine's integers of 64 bits.

Powers are written with `Nat.pow` throughout the library, so that a definition is the same term
whatever algebraic structure on the natural numbers is in scope.

**What is established here.** `int64?_eq_some_iff`: the integers that have an image are those in
range, and the image of an integer is that integer.
-/

namespace StackEmbedding

/-- How many integers there are of `bits` bits. -/
def countOfBits (bits : Nat) : Int := Nat.pow 2 bits

/-- Whether an integer has `bits` bits in two's complement. -/
def fitsSigned (bits : Nat) (n : Int) : Bool :=
  -countOfBits (bits - 1) ≤ n && n < countOfBits (bits - 1)

/-- Whether an integer has `bits` bits without sign. -/
def fitsUnsigned (bits : Nat) (n : Int) : Bool := 0 ≤ n && n < countOfBits bits

/-- The integer of 64 bits that an integer is, if it is in range. -/
def int64? (n : Int) : Option Int64 := if fitsSigned 64 n then some (Int64.ofInt n) else none

/-- The range of the integers of 64 bits. -/
theorem fitsSigned_64 (n : Int) :
    fitsSigned 64 n = true ↔ -9223372036854775808 ≤ n ∧ n < 9223372036854775808 := by
  have hcount : countOfBits 63 = 9223372036854775808 := rfl
  simp [fitsSigned, hcount]

/-- An integer has an image exactly when it is an integer of 64 bits, and the image is it. -/
theorem int64?_eq_some_iff {n : Int} {i : Int64} : int64? n = some i ↔ i.toInt = n := by
  simp only [int64?, fitsSigned_64]
  constructor
  · intro h
    split at h
    · cases h
      exact Int64.toInt_ofInt_of_le (by omega) (by omega)
    · cases h
  · rintro rfl
    have hlow := i.le_toInt
    have hhigh := i.toInt_lt
    rw [if_pos (by omega), Int64.ofInt_toInt]

end StackEmbedding
