/-!
# Digits of a base

`digitOf? base c` is the value of the character `c` as a digit of a base up to sixteen, letters of
either case standing for ten to fifteen. Numerals and escapes are read through this one function.
-/

namespace StackEmbedding

/-- The value of a hexadecimal digit. -/
def hexDigit? (c : Char) : Option Nat :=
  if c.isDigit then some (c.toNat - '0'.toNat)
  else if 'a' ≤ c ∧ c ≤ 'f' then some (c.toNat - 'a'.toNat + 10)
  else if 'A' ≤ c ∧ c ≤ 'F' then some (c.toNat - 'A'.toNat + 10)
  else none

/-- The value of a digit of a base up to sixteen. -/
def digitOf? (base : Nat) (c : Char) : Option Nat := (hexDigit? c).filter (· < base)

end StackEmbedding
