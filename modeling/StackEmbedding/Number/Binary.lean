import StackEmbedding.Number.Range
import StackEmbedding.Number.Rounding

/-!
# Binary floating-point numbers as sign and code

A float of a format is its sign and its **code**: the remaining bits read as one natural
number. Codes count the magnitudes in order, so a finite magnitude `m · 2^q` has the code
`(q - leastExponent) · 2^(precision - 1) + m`, which also holds when `m` was rounded up to
`2^precision`: the carry lands in the next exponent by itself. Infinity has the code after the
greatest finite magnitude and every greater code is a NaN.

All arithmetic is exact, on natural numbers and integers; a result is rounded once, to the
nearest float with ties to the even code (`BinaryFormat.codeOfRatio`).

**What it does not model.** The payload of a NaN made by an operation: an operation on a NaN
answers the quiet NaN of the same sign.
-/

namespace StackEmbedding

/-- A binary interchange format: significands have `precision` bits, and a finite magnitude is
`m · 2^q` with `leastExponent ≤ q ≤ greatestExponent`. -/
structure BinaryFormat where
  precision : Nat
  leastExponent : Int
  greatestExponent : Int

namespace BinaryFormat

/-- The format of 64 bits. -/
def binary64 : BinaryFormat := ⟨53, -1074, 971⟩

/-- The format of 32 bits. -/
def binary32 : BinaryFormat := ⟨24, -149, 104⟩

variable (f : BinaryFormat)

/-- How many codes share one exponent. -/
def stride : Nat := Nat.pow 2 (f.precision - 1)

/-- The code of infinity, the one after the greatest finite magnitude. -/
def infinityCode : Nat := (f.greatestExponent - f.leastExponent + 2).toNat * f.stride

/-- How many codes there are, NaNs included. -/
def codeCount : Nat := f.infinityCode + f.stride

/-- The code of the quiet NaN. -/
def quietCode : Nat := f.infinityCode + f.stride / 2

/-- The integer `m` of the magnitude `m · 2^q` with this code. -/
def significand (code : Nat) : Nat :=
  if code / f.stride = 0 then code % f.stride else code % f.stride + f.stride

/-- The exponent `q` of the magnitude `m · 2^q` with this code. -/
def exponent (code : Nat) : Int := f.leastExponent + (code / f.stride - 1 : Nat)

theorem stride_pos : 0 < f.stride := Nat.pow_pos (by decide)

/-- The greatest `e` with `2^e ≤ num / den`, for positive `num` and `den`. -/
def floorLog2 (num den : Nat) : Int :=
  let e : Int := (num.log2 : Int) - den.log2
  if num * Nat.pow 2 (-e).toNat < den * Nat.pow 2 e.toNat then e - 1 else e

/-- The code of the magnitude nearest to `num / den`, ties going to the even code; magnitudes
beyond the greatest finite one by half a step or more are infinite. -/
def codeOfRatio (num den : Nat) : Nat :=
  if num = 0 then 0
  else
    let q := max f.leastExponent (floorLog2 num den - (f.precision - 1 : Nat))
    let m := roundDiv (num * Nat.pow 2 (-q).toNat) (den * Nat.pow 2 q.toNat)
    min f.infinityCode ((q - f.leastExponent).toNat * f.stride + m)

theorem infinityCode_lt : f.infinityCode < f.codeCount :=
  Nat.lt_add_of_pos_right f.stride_pos

theorem codeOfRatio_lt (num den : Nat) : f.codeOfRatio num den < f.codeCount := by
  have h := f.infinityCode_lt
  simp only [codeOfRatio]
  split
  · omega
  · exact Nat.lt_of_le_of_lt (Nat.min_le_left _ _) h

theorem quietCode_lt : f.quietCode < f.codeCount :=
  Nat.add_lt_add_left (Nat.div_lt_self f.stride_pos (by decide)) _

end BinaryFormat

/-- A float of a format: its sign and its code. Two floats are equal as data when they have the
same bits; `Binary.numEq` is the comparison of numbers. -/
structure Binary (f : BinaryFormat) where
  negative : Bool
  code : Nat
  code_lt : code < f.codeCount
  deriving DecidableEq

/-- A float of 64 bits. -/
abbrev Binary64 := Binary .binary64

/-- A float of 32 bits. -/
abbrev Binary32 := Binary .binary32

namespace Binary

variable {f : BinaryFormat}

/-- The float with these bits, the sign being the highest. -/
def ofBits (f : BinaryFormat) (bits : Nat) : Binary f :=
  ⟨bits / f.codeCount % 2 = 1, bits % f.codeCount,
    Nat.mod_lt _ (Nat.lt_of_le_of_lt (Nat.zero_le _) f.infinityCode_lt)⟩

/-- The bits of a float, the sign being the highest. -/
def toBits (x : Binary f) : Nat := x.code + if x.negative then f.codeCount else 0

def isNaN (x : Binary f) : Bool := f.infinityCode < x.code

def isInfinite (x : Binary f) : Bool := x.code = f.infinityCode

def isFinite (x : Binary f) : Bool := x.code < f.infinityCode

/-- The numerator of the exact magnitude of a finite float. -/
def numerator (x : Binary f) : Nat := f.significand x.code * Nat.pow 2 (f.exponent x.code).toNat

/-- The denominator of the exact magnitude of a finite float, a power of two. -/
def denominator (x : Binary f) : Nat := Nat.pow 2 (-f.exponent x.code).toNat

/-- The float nearest to `± num / den`. -/
def ofRatio (negative : Bool) (num den : Nat) : Binary f :=
  ⟨negative, f.codeOfRatio num den, f.codeOfRatio_lt num den⟩

/-- The float nearest to an integer. -/
def ofInt (i : Int) : Binary f := ofRatio (i < 0) i.natAbs 1

def infinity (negative : Bool) : Binary f := ⟨negative, f.infinityCode, f.infinityCode_lt⟩

def quietNaN (negative : Bool) : Binary f := ⟨negative, f.quietCode, f.quietCode_lt⟩

/-- Equality of numbers: a NaN differs from everything, and the two zeros are equal. -/
def numEq (x y : Binary f) : Bool :=
  !x.isNaN && !y.isNaN && (x = y || (x.code = 0 && y.code = 0))

/-- The integer that a float is exactly, if it is one. -/
def toInt? (x : Binary f) : Option Int :=
  if x.isFinite && x.numerator % x.denominator = 0 then
    let n : Int := (x.numerator / x.denominator : Nat)
    some (if x.negative then -n else n)
  else none

/-- The exact image of `x` under multiplication by `num`, rounded to the format `g`; NaN and
infinity keep their sign. -/
def scaleTo (g : BinaryFormat) (num : Nat) (x : Binary f) : Binary g :=
  if x.isNaN then quietNaN x.negative
  else if x.isInfinite then infinity x.negative
  else ofRatio x.negative (num * x.numerator) x.denominator

/-- The nearest float of another format. -/
def convertTo (g : BinaryFormat) (x : Binary f) : Binary g := x.scaleTo g 1

/-- Twice a float, rounded. -/
def double (x : Binary f) : Binary f := x.scaleTo f 2

/-- The 64-bit integer that a float is exactly. Floats with a fraction, beyond the range, infinite
or NaN have none; `2^63` is out of range and `-2^63` is in it. -/
def toInt64? (x : Binary f) : Option Int64 := x.toInt?.bind int64?

end Binary

end StackEmbedding
