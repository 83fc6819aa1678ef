import StackEmbedding.Number.Binary

/-!
# Decimals and their exchange with floats

A `Decimal` is `digits · 10^exponent`. Three exchanges are defined, all in exact arithmetic:

- `Decimal.toBinary`, the float nearest to a decimal;
- `Decimal.significant`, a positive ratio rounded to a given count of significant digits;
- `Decimal.shortest?`, the decimal of fewest digits that reads back as a given magnitude.

**Why the guards in `toBinary` are right.** A decimal of `10^400` or more is beyond every finite
magnitude of the two formats, and one below `10^-400` is below half of the least positive one, so
answering infinity or zero is the rounded result, found without building the power of ten.
-/

namespace StackEmbedding

/-- How many decimal digits `n` is written with. -/
def digitCount (n : Nat) : Nat := (Nat.toDigits 10 n).length

/-- The greatest `e` with `10^e ≤ num / den`, for positive `num` and `den`. -/
def floorLog10 (num den : Nat) : Int :=
  if den ≤ num then (digitCount (num / den) : Int) - 1 else -(digitCount ((den - 1) / num) : Int)

/-- The nonnegative decimal `digits · 10^exponent`. -/
structure Decimal where
  digits : Nat
  exponent : Int
  deriving DecidableEq

namespace Decimal

/-- The numerator of the decimal's value. -/
def numerator (d : Decimal) : Nat := d.digits * Nat.pow 10 d.exponent.toNat

/-- The denominator of the decimal's value, a power of ten. -/
def denominator (d : Decimal) : Nat := Nat.pow 10 (-d.exponent).toNat

/-- The exponent of the leading digit: `10^leading ≤ value < 10^(leading + 1)` for a positive
decimal. -/
def leading (d : Decimal) : Int := digitCount d.digits + d.exponent - 1

/-- The float nearest to `± d`, for a format whose positive magnitudes lie between `10^-400` and
`10^400`. -/
def toBinary (f : BinaryFormat) (negative : Bool) (d : Decimal) : Binary f :=
  if d.digits = 0 then .ofRatio negative 0 1
  else if 400 ≤ d.leading then .infinity negative
  else if d.leading < -400 then .ofRatio negative 0 1
  else .ofRatio negative d.numerator d.denominator

/-- A positive ratio rounded to `count` significant digits, ties going to the even digit. A carry
into a new power of ten leaves the digits at `10^(count - 1)`. -/
def significant (count : Nat) (num den : Nat) : Decimal :=
  let exponent := floorLog10 num den - (count - 1 : Nat)
  let digits := roundDiv (num * Nat.pow 10 (-exponent).toNat) (den * Nat.pow 10 exponent.toNat)
  if digits = Nat.pow 10 count then ⟨Nat.pow 10 (count - 1), exponent + 1⟩
  else ⟨digits, exponent⟩

/-- Of the two decimals of `count` significant digits around a positive magnitude, the nearer one
that reads back as that magnitude; an exact tie goes to the greater. -/
def nearestReading? {f : BinaryFormat} (x : Binary f) (count : Nat) : Option Decimal :=
  let exponent := floorLog10 x.numerator x.denominator - (count - 1 : Nat)
  let num := x.numerator * Nat.pow 10 (-exponent).toNat
  let den := x.denominator * Nat.pow 10 exponent.toNat
  let below : Decimal := ⟨num / den, exponent⟩
  let above : Decimal := ⟨num / den + 1, exponent⟩
  let reads (d : Decimal) : Bool := d.toBinary f x.negative = x
  if reads below && reads above then
    if 2 * (num % den) < den then some below else some above
  else if reads below then some below
  else if reads above then some above
  else none

/-- The decimal of fewest digits that reads back as a positive finite magnitude, and of those the
nearest. Seventeen digits always suffice for 64 bits. -/
def shortest? {f : BinaryFormat} (x : Binary f) : Option Decimal :=
  (List.range 17).findSome? fun i => nearestReading? x (i + 1)

end Decimal

end StackEmbedding
