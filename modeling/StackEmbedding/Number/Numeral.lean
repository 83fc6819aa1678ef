import StackEmbedding.Number.Decimal
import StackEmbedding.Text.Bytes
import StackEmbedding.Text.Digit

/-!
# Numerals

`Numeral.parse?` reads the number a string stands for, once the ASCII blanks around it are gone.
What follows the sign decides how it is read:

- after `0x` or `0X`, hexadecimal digits and nothing else: the 64 bits they write, two's
  complement, so that no hexadecimal numeral is too long;
- otherwise the text first passes a filter of characters, and is then read as an integer of 64
  bits or, failing that, as a float.

The integer and the float reader take a whole text with its sign. The float reader also knows the
words `inf`, `infinity` and `nan`; they are no numerals because the filter stops them. The filter
looks at single characters only, so it lets through texts such as `1-2`, `+` or `e5`, which neither
reader takes.
-/

namespace StackEmbedding

/-- The number a string stands for, in one of the two kinds of number. -/
inductive Numeral where
  | int (value : Int64)
  | float (value : Binary64)
  deriving DecidableEq

namespace Numeral

/-- The blanks that may surround a numeral: space, tab, line feed, form feed, carriage return. -/
def isBlank (c : Char) : Bool := c ∈ [' ', '\t', '\n', '\x0c', '\r']

/-- The text between its surrounding blanks. -/
def trim (cs : List Char) : List Char :=
  ((cs.dropWhile isBlank).reverse.dropWhile isBlank).reverse

/-- Whether a sign is a minus, and what follows the sign if there is one. -/
def splitSign : List Char → Bool × List Char
  | '-' :: rest => (true, rest)
  | '+' :: rest => (false, rest)
  | cs => (false, cs)

/-! ## Hexadecimal numerals -/

/-- What follows the mark of hexadecimal digits. -/
def stripMark? : List Char → Option (List Char)
  | '0' :: 'x' :: rest => some rest
  | '0' :: 'X' :: rest => some rest
  | _ => none

/-- The 64 bits that hexadecimal digits write, one digit at least. Digits too many push the first
ones out. -/
def bits? (cs : List Char) : Option UInt64 :=
  if cs.isEmpty then none
  else (cs.mapM hexDigit?).map fun digits => digits.foldl (fun n d => n * 16 + UInt64.ofNat d) 0

/-! ## The reader of integers -/

/-- The integer that the whole of `cs` writes: a sign, if any, and one digit at least. -/
def wholeInt? (cs : List Char) : Option Int :=
  let (negative, digits) := splitSign cs
  if digits.isEmpty || !digits.all Char.isDigit then none
  else
    let n : Int := Nat.ofDigitChars 10 digits 0
    some (if negative then -n else n)

/-- The integer of 64 bits that the whole of `cs` writes. -/
def readInt64? (cs : List Char) : Option Int64 := (wholeInt? cs).bind int64?

/-! ## The reader of floats -/

/-- The longest run of decimal digits at the front, and the rest. -/
def splitDigits (cs : List Char) : List Char × List Char :=
  (cs.takeWhile Char.isDigit, cs.dropWhile Char.isDigit)

/-- The fields of a decimal after its sign. -/
structure Fields where
  whole : List Char
  /-- The digits after the point; `none` where there is no point. -/
  fraction : Option (List Char)
  exponent : Option Int

/-- The digits after a point at the front, and the rest; without a point all is rest. -/
def splitFraction : List Char → Option (List Char) × List Char
  | '.' :: rest => (some (splitDigits rest).1, (splitDigits rest).2)
  | rest => (none, rest)

/-- The exponent that the whole of `cs` writes after its mark; nothing is no exponent. -/
def exponent? : List Char → Option (Option Int)
  | [] => some none
  | mark :: rest => if mark = 'e' || mark = 'E' then (wholeInt? rest).map some else none

/-- The fields of a decimal, if the whole of `cs` is one without its sign. -/
def fields? (cs : List Char) : Option Fields :=
  let (whole, rest) := splitDigits cs
  let (fraction, rest) := splitFraction rest
  if whole.isEmpty && (fraction.getD []).isEmpty then none
  else (exponent? rest).map fun exponent => ⟨whole, fraction, exponent⟩

/-- The decimal that the fields write. -/
def Fields.decimal (fields : Fields) : Decimal :=
  let fraction := fields.fraction.getD []
  ⟨Nat.ofDigitChars 10 (fields.whole ++ fraction) 0, fields.exponent.getD 0 - fraction.length⟩

/-- The float that the whole of `cs` writes: a word or a decimal, after a sign if there is one. -/
def readBinary64? (cs : List Char) : Option Binary64 :=
  let (negative, unsigned) := splitSign cs
  let word := String.ofList (unsigned.map Char.toLower)
  if word = "inf" || word = "infinity" then some (.infinity negative)
  else if word = "nan" then some (.quietNaN negative)
  else (fields? unsigned).map fun fields => fields.decimal.toBinary .binary64 negative

/-! ## Both together -/

/-- The characters that a decimal numeral may have after its sign. -/
def isDecimalChar (c : Char) : Bool := c.isDigit || c ∈ ['.', 'e', 'E', '+', '-']

/-- The number of a trimmed text. -/
def ofChars? (cs : List Char) : Option Numeral :=
  let (negative, unsigned) := splitSign cs
  match stripMark? unsigned with
  | some hex =>
    (bits? hex).map fun bits => int (if negative then -bits.toInt64 else bits.toInt64)
  | none =>
    if unsigned.all isDecimalChar then
      match readInt64? cs with
      | some n => some (int n)
      | none => (readBinary64? cs).map float
    else none

/-- The number that a byte string stands for, if it is a numeral between blanks. -/
def parse? (bytes : Bytes) : Option Numeral :=
  bytes.text?.bind fun text => ofChars? (trim text.toList)

end Numeral

end StackEmbedding
