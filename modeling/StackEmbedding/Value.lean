import StackEmbedding.Number.Binary
import StackEmbedding.Text.Bytes

/-!
# Runtime values

A `Value` is what a stack slot, a global or a table entry holds. Integers and floats are two
sub-kinds of one type, number. Tables and closures are named by their numbers in the heaps of the
machine; native functions are named by a name that the host gives a meaning to.

Two equalities are kept apart. Equality as data (`=`) tells apart the two sub-kinds of number, the
two zeros and every NaN payload. `Value.rawEq` is the equality of the machine: numbers compare by
mathematical value, everything else as data.
-/

namespace StackEmbedding

/-- The type of what a position holds; `none` is the type of a position that holds nothing. -/
inductive TypeTag where
  | none | nil | boolean | number | string | function | table
  deriving DecidableEq

/-- The word for a type. -/
def TypeTag.name : TypeTag → String
  | none => "no value"
  | nil => "nil"
  | boolean => "boolean"
  | number => "number"
  | string => "string"
  | function => "function"
  | table => "table"

/-- A native function, known to the machine by its name only. -/
structure Native where
  name : String
  deriving DecidableEq

/-- The number of a table in the heap. -/
abbrev TableId := Nat

/-- The number of a closure in the heap. -/
abbrev ClosureId := Nat

/-- What a slot holds. -/
inductive Value where
  | nil
  | bool (b : Bool)
  | int (i : Int64)
  | number (x : Binary64)
  | str (bytes : Bytes)
  | function (f : Native)
  | closure (id : ClosureId)
  | table (id : TableId)
  deriving DecidableEq

namespace Value

/-- The type of a value. -/
def tag : Value → TypeTag
  | nil => .nil
  | bool _ => .boolean
  | int _ | number _ => .number
  | str _ => .string
  | function _ | closure _ => .function
  | table _ => .table

/-- Whether a value is nil. -/
def isNil : Value → Bool
  | nil => true
  | _ => false

/-- Truth: nil and false are false, and every other value is true. -/
def truthy : Value → Bool
  | nil | bool false => false
  | _ => true

/-- Raw equality: numbers by mathematical value across their sub-kinds, all else as data. -/
def rawEq : Value → Value → Bool
  | int i, number x | number x, int i => x.toInt64? = some i
  | number x, number y => x.numEq y
  | a, b => a = b

/-- The value of an optional slot, nil where there is none. -/
def orNil (v : Option Value) : Value := v.getD nil

end Value

/-- The type of what a position holds, if it holds anything. -/
def TypeTag.ofSlot (v : Option Value) : TypeTag := v.elim .none Value.tag

end StackEmbedding
