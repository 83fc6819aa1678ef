/-!
# Rounding a quotient to the nearest integer

`roundDiv num den` is the integer nearest to `num / den`; a quotient half way between two
integers goes to the even one. Every conversion that can lose digits rounds through this one
function: a decimal read as a float, an integer widened to a float, a float narrowed, and a
float printed with a fixed count of significant digits.

**What is established here.** `roundDiv_mul`: an exact quotient is kept.
-/

namespace StackEmbedding

/-- The integer nearest to `num / den`, a tie going to the even neighbour. -/
def roundDiv (num den : Nat) : Nat :=
  let below := num / den
  let rest := num % den
  if 2 * rest < den then below
  else if den < 2 * rest then below + 1
  else if below % 2 = 0 then below else below + 1

/-- An exact quotient is kept. -/
theorem roundDiv_mul {den : Nat} (h : 0 < den) (n : Nat) : roundDiv (n * den) den = n := by
  simp [roundDiv, Nat.mul_div_cancel n h, h]

end StackEmbedding
