import StackEmbedding.Number.Decimal

/-!
# Writing floats as text

There are two texts of a float.

- `Binary.coercedText` is what a number turns into when it is used as a string: fourteen
  significant digits, positional from `10^-4` to below `10^14`, and recognisable as a float. The
  magnitude is rounded to fourteen digits first. Where the exponent of that rounding says
  positional, the magnitude is rounded once more, to as many places after the point as show
  fourteen digits.
- `Binary.plainText` is the text of diagnostics: the fewest digits that read back, always
  positional.

Both write a natural number with a point in it (`fixedText`) and then drop the zeros at the end of
the fraction (`trimFraction`).
-/

namespace StackEmbedding

namespace FloatText

/-- A number in scientific form: its fourteen digits as one number, and the exponent of the first
of them. -/
structure Scientific where
  digits : Nat
  exponent : Int

/-- The decimal digits of `n`, zeros in front up to a width. -/
def padded (width n : Nat) : List Char :=
  let digits := Nat.toDigits 10 n
  List.replicate (width - digits.length) '0' ++ digits

/-- The text of `n / 10^places` with that many digits after the point, and without a point where
there are none. -/
def fixedText (places n : Nat) : List Char :=
  Nat.toDigits 10 (n / Nat.pow 10 places) ++
    if places = 0 then [] else '.' :: padded places (n % Nat.pow 10 places)

/-- A text without the occurrences of a character at its end. -/
def trimEnd (c : Char) (cs : List Char) : List Char := (cs.reverse.dropWhile (· = c)).reverse

/-- A text with a point without the zeros at its end and the point, if that is last then. -/
def trimFraction (cs : List Char) : List Char :=
  if cs.contains '.' then trimEnd '.' (trimEnd '0' cs) else cs

/-- The exponent of a scientific text: its sign and at least two digits. -/
def exponentText (e : Int) : List Char := (if e < 0 then '-' else '+') :: padded 2 e.natAbs

/-- The mark of a minus. -/
def signText (negative : Bool) : List Char := if negative then ['-'] else []

/-- A text that shows that it is a float's: one with neither point nor exponent gets a fraction. -/
def marked (cs : List Char) : List Char :=
  if cs.contains '.' || cs.contains 'e' then cs else cs ++ ['.', '0']

end FloatText

namespace Binary

open FloatText

/-- A finite float in scientific form, rounded. Zero has the exponent zero. -/
def scientific (x : Binary64) : Scientific :=
  if x.code = 0 then ⟨0, 0⟩
  else
    let d := Decimal.significant 14 x.numerator x.denominator
    ⟨d.digits, d.exponent + 13⟩

/-- The magnitude of a finite float in units of `10^-places`, rounded. -/
def inPlaces (x : Binary64) (places : Nat) : Nat :=
  roundDiv (x.numerator * Nat.pow 10 places) x.denominator

/-- The text of a finite float used as a string, before it is marked. -/
def digitsText (x : Binary64) : List Char :=
  let s := x.scientific
  if -4 ≤ s.exponent && s.exponent < 14 then
    let places := (13 - s.exponent).toNat
    trimFraction (signText x.negative ++ fixedText places (x.inPlaces places))
  else
    trimFraction (signText x.negative ++ fixedText 13 s.digits) ++ 'e' :: exponentText s.exponent

/-- The text of a number used as a string. -/
def coercedText (x : Binary64) : String :=
  if x.isNaN then if x.negative then "-nan" else "nan"
  else if x.isInfinite then if x.negative then "-inf" else "inf"
  else String.ofList (marked x.digitsText)

/-- The decimal of fewest digits that reads back as a finite float. -/
def shortestDecimal (x : Binary64) : Decimal :=
  if x.code = 0 then ⟨0, 0⟩
  else (Decimal.shortest? x).getD (Decimal.significant 17 x.numerator x.denominator)

/-- The text of a number in diagnostics. A NaN has no sign there. -/
def plainText (x : Binary64) : String :=
  if x.isNaN then "NaN"
  else if x.isInfinite then if x.negative then "-inf" else "inf"
  else
    let d := x.shortestDecimal
    let magnitude := fixedText (-d.exponent).toNat (d.digits * Nat.pow 10 d.exponent.toNat)
    String.ofList (signText x.negative ++ trimFraction magnitude)

end Binary

end StackEmbedding
