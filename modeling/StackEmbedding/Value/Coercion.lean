import StackEmbedding.Value
import StackEmbedding.Number.FloatText
import StackEmbedding.Number.Numeral

/-!
# Coercions between numbers and strings

A string that is a numeral reads as its number, a number reads as its text, and a float with an
exact integer value reads as that integer. Nothing else coerces: booleans, nil, functions and
tables are neither numbers nor strings.
-/

namespace StackEmbedding

/-- The integer that a numeral stands for exactly. -/
def Numeral.toInt64? : Numeral → Option Int64
  | int i => some i
  | float x => x.toInt64?

/-- The float nearest to what a numeral stands for. -/
def Numeral.toBinary64 : Numeral → Binary64
  | int i => .ofInt i.toInt
  | float x => x

namespace Value

/-- The value as an integer: integers, floats with an exact integer value in range, and numerals
for one of these. -/
def toInt64? : Value → Option Int64
  | int i => some i
  | number x => x.toInt64?
  | str bytes => (Numeral.parse? bytes).bind Numeral.toInt64?
  | _ => none

/-- The value as a float: numbers, rounded to the nearest float, and numerals. -/
def toBinary64? : Value → Option Binary64
  | int i => some (.ofInt i.toInt)
  | number x => some x
  | str bytes => (Numeral.parse? bytes).map Numeral.toBinary64
  | _ => none

/-- The value as a string: strings, integers in decimal, and floats in their coerced text. -/
def toBytes? : Value → Option Bytes
  | str bytes => some bytes
  | int i => some (.ofString (toString i.toInt))
  | number x => some (.ofString x.coercedText)
  | _ => none

/-- The native function that a value is; closures are none. -/
def toNative? : Value → Option Native
  | function f => some f
  | _ => none

/-- Whether a value is of the integer sub-kind. -/
def isInteger : Value → Bool
  | int _ => true
  | _ => false

end Value

end StackEmbedding
