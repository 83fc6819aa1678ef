import Mathlib.Data.Nat.Digits.Defs
import StackEmbedding.Number.Numeral
import StackEmbedding.Proofs.Number.Nearest

/-!
# The grammar of numerals and what they denote

A `Form` is a numeral taken apart. Its text and its well-formedness give the grammar

```
numeral     = [+-]? 0 [xX] H+
            | [+-]? (D+ | D+ . D* | . D+) ([eE] [+-]? D+)?
```

with `D` a decimal and `H` a hexadecimal digit. `Form.Denotes` says which number a form stands
for: the 64 bits that hexadecimal digits write, the integer of a decimal without point and
exponent that fits 64 bits, and in all other cases the float nearest to the exact value. Nothing
here refers to the reader of numerals; digits have their values from `Nat.digitChar` and
`Nat.ofDigitChars`.

A form denotes one number (`Form.Denotes.unique`).
-/

set_option autoImplicit false

namespace StackEmbedding

namespace Numeral

/-- The sign in front of digits. -/
inductive Sign where
  | none
  | plus
  | minus
  deriving DecidableEq

namespace Sign

def text : Sign → List Char
  | none => []
  | plus => ['+']
  | minus => ['-']

def isMinus : Sign → Bool
  | minus => true
  | _ => false

/-- A number with the sign in front. -/
def apply (sign : Sign) (n : Int) : Int := if sign.isMinus then -n else n

/-- The sign that is written for a minus, and for none. -/
def ofMinus (negative : Bool) : Sign := if negative then minus else none

end Sign

/-- Decimal digits and nothing else. -/
def IsDigits (cs : List Char) : Prop := ∀ c ∈ cs, c.isDigit = true

instance (cs : List Char) : Decidable (IsDigits cs) :=
  decidable_of_iff (cs.all Char.isDigit = true) List.all_eq_true

/-- The hexadecimal digits from zero to fifteen. -/
def hexDigits : List Char :=
  ['0', '1', '2', '3', '4', '5', '6', '7', '8', '9', 'a', 'b', 'c', 'd', 'e', 'f']

/-- A sign, a mark and hexadecimal digits. -/
structure HexForm where
  sign : Sign
  mark : Char
  digits : List Char

namespace HexForm

def text (h : HexForm) : List Char := h.sign.text ++ '0' :: h.mark :: h.digits

structure WellFormed (h : HexForm) : Prop where
  mark : h.mark = 'x' ∨ h.mark = 'X'
  nonempty : h.digits ≠ []
  digits : ∀ c ∈ h.digits, c.toLower ∈ hexDigits

/-- The natural number that the digits write. -/
def value (h : HexForm) : Nat :=
  Nat.ofDigits 16 (h.digits.reverse.map fun c => hexDigits.idxOf c.toLower)

end HexForm

/-- The exponent of a decimal: a mark, a sign and digits. -/
structure ExponentForm where
  mark : Char
  sign : Sign
  digits : List Char

namespace ExponentForm

def text (e : ExponentForm) : List Char := e.mark :: (e.sign.text ++ e.digits)

structure WellFormed (e : ExponentForm) : Prop where
  mark : e.mark = 'e' ∨ e.mark = 'E'
  nonempty : e.digits ≠ []
  digits : IsDigits e.digits

def value (e : ExponentForm) : Int := e.sign.apply (Nat.ofDigitChars 10 e.digits 0)

end ExponentForm

/-- A sign, digits, a point with digits after it if there is one, and an exponent if there is
one. -/
structure DecimalForm where
  sign : Sign
  whole : List Char
  fraction : Option (List Char)
  exponent : Option ExponentForm

namespace DecimalForm

def fractionText (d : DecimalForm) : List Char := d.fraction.elim [] ('.' :: ·)

def exponentText (d : DecimalForm) : List Char := d.exponent.elim [] ExponentForm.text

/-- The text after the sign. -/
def unsigned (d : DecimalForm) : List Char := d.whole ++ (d.fractionText ++ d.exponentText)

def text (d : DecimalForm) : List Char := d.sign.text ++ d.unsigned

structure WellFormed (d : DecimalForm) : Prop where
  whole : IsDigits d.whole
  fraction : ∀ digits ∈ d.fraction, IsDigits digits
  nonempty : d.whole ≠ [] ∨ d.fraction.getD [] ≠ []
  exponent : ∀ e ∈ d.exponent, e.WellFormed

/-- The exact magnitude of what is written. -/
def magnitude (d : DecimalForm) : ℚ :=
  (Nat.ofDigitChars 10 d.whole 0 +
    Nat.ofDigitChars 10 (d.fraction.getD []) 0 / 10 ^ (d.fraction.getD []).length) *
    10 ^ (d.exponent.elim 0 ExponentForm.value)

/-- The integer that is written, where there is neither point nor exponent. -/
def integer (d : DecimalForm) : Int := d.sign.apply (Nat.ofDigitChars 10 d.whole 0)

/-- Whether what is written is an integer of 64 bits. -/
def IsInt64 (d : DecimalForm) : Prop :=
  d.fraction = none ∧ d.exponent = none ∧ -2 ^ 63 ≤ d.integer ∧ d.integer < 2 ^ 63

end DecimalForm

/-- A numeral between its blanks. -/
inductive Form where
  | hexadecimal (h : HexForm)
  | decimal (d : DecimalForm)

namespace Form

def text : Form → List Char
  | hexadecimal h => h.text
  | decimal d => d.text

def WellFormed : Form → Prop
  | hexadecimal h => h.WellFormed
  | decimal d => d.WellFormed

/-- The number that a form stands for. -/
inductive Denotes : Form → Numeral → Prop
  /-- The value modulo `2^64` as two's complement; a minus negates that, wrapping around. -/
  | bits {h : HexForm} {i : Int64} (value : i.toInt = (h.value : Int).bmod (2 ^ 64)) :
      Denotes (hexadecimal h) (.int (if h.sign.isMinus then -i else i))
  | integer {d : DecimalForm} {i : Int64} (range : d.IsInt64) (value : i.toInt = d.integer) :
      Denotes (decimal d) (.int i)
  /-- The nearest float with the sign that is written; a zero can be negative. -/
  | nearest {d : DecimalForm} {x : Binary64} (range : ¬ d.IsInt64)
      (sign : x.negative = d.sign.isMinus)
      (value : BinaryFormat.binary64.Nearest d.magnitude x.code) :
      Denotes (decimal d) (.float x)

/-- The bytes are the text of the form between blanks. -/
def WrittenIn (form : Form) (bytes : Bytes) : Prop :=
  ∃ front back : List Char, (∀ c ∈ front ++ back, isBlank c = true) ∧
    bytes = Bytes.ofString (String.ofList (front ++ form.text ++ back))

/-- A form denotes one number. -/
theorem Denotes.unique {form : Form} {m n : Numeral} (hm : form.Denotes m) (hn : form.Denotes n) :
    m = n := by
  cases hm with
  | bits hi =>
    cases hn with
    | bits hj => rw [Int64.toInt_inj.mp (hi.trans hj.symm)]
  | integer hrange hi =>
    cases hn with
    | integer _ hj => rw [Int64.toInt_inj.mp (hi.trans hj.symm)]
    | nearest hfar _ _ => exact absurd hrange hfar
  | @nearest _ x hfar hsign hx =>
    cases hn with
    | integer hrange _ => exact absurd hrange hfar
    | @nearest _ y _ hsign' hy =>
      have hcode := hx.unique hy
      cases x
      cases y
      simp_all only

end Form

end Numeral

end StackEmbedding
