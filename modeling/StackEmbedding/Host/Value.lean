import StackEmbedding.Host.Variant

/-!
# Host values: what can be pushed, and what a slot can be read as

A `HostValue` is a value of the host with its type: integers of several widths, floats of two
formats, booleans, text, raw bytes, strings of the machine, native functions, optional values,
handles and variants. Pushing one writes exactly one slot. A `HostType` names a type that a slot can
be read as; reading never pops, and answers none where the slot does not hold a compatible value.

**Integers.** Reading checks the range, but for the unsigned types of 64 bits: these travel as the
bit pattern of a signed integer, so that every value of them survives the way out and back.

**Optional values.** Nil reads as the absent value of any optional type; a value that does not fit
the type inside still fails.
-/

namespace StackEmbedding

/-- The integer types of the host; `isize` and `usize` have 64 bits. -/
inductive IntKind where
  | i8 | i16 | i32 | i64 | isize | u8 | u16 | u32 | u64 | usize
  deriving DecidableEq

namespace IntKind

/-- How many bits a type has. -/
def bits : IntKind → Nat
  | i8 | u8 => 8
  | i16 | u16 => 16
  | i32 | u32 => 32
  | i64 | isize | u64 | usize => 64

/-- Whether a type has negative values. -/
def isSigned : IntKind → Bool
  | i8 | i16 | i32 | i64 | isize => true
  | u8 | u16 | u32 | u64 | usize => false

/-- Whether an integer is a value of a type. -/
def holds (k : IntKind) (n : Int) : Bool :=
  if k.isSigned then fitsSigned k.bits n else fitsUnsigned k.bits n

/-- Whether the values of a type travel as bit patterns. -/
def isBitPattern : IntKind → Bool
  | u64 | usize => true
  | _ => false

/-- The value of a type that an integer of the machine stands for. -/
def ofInt64? (k : IntKind) (i : Int64) : Option Int :=
  if k.isBitPattern then some (i.toInt % countOfBits 64)
  else if k.holds i.toInt then some i.toInt
  else none

end IntKind

/-- A type that a slot can be read as. -/
inductive HostType where
  | int (k : IntKind)
  | float64
  | float32
  | bool
  /-- Text, so UTF-8 only. -/
  | text
  | bytes
  | runtimeString
  | native
  | table
  | variant
  | option (t : HostType)
  deriving DecidableEq

/-- A value of the host. -/
inductive HostValue where
  | int (k : IntKind) (n : Int)
  | float64 (x : Binary64)
  | float32 (x : Binary32)
  | bool (b : Bool)
  | text (s : String)
  | bytes (bytes : Bytes)
  | runtimeString (bytes : Bytes)
  | native (f : Native)
  /-- The marker of no value; it can only be pushed. -/
  | nil
  | table (h : Handle)
  | variant (v : Variant)
  /-- The absent value of an optional type. -/
  | absent
  /-- A present value of an optional type. -/
  | present (v : HostValue)
  deriving DecidableEq

namespace HostValue

variable {κ σ : Type}

/-- Pushes a value as one slot. -/
def push : HostValue → Program κ σ Unit
  | int _ n => .push (.int (Int64.ofInt n))
  | float64 x => .push (.number x)
  | float32 x => .push (.number (x.convertTo .binary64))
  | bool b => .push (.bool b)
  | text s => .push (.str (.ofString s))
  | bytes b | runtimeString b => .push (.str b)
  | native f => .push (.function f)
  | nil | absent => .push .nil
  | table h => h.push
  | variant v => v.push
  | present v => v.push

/-- Whether a value holds no handle that is stale or unbound. Stores refuse a value that is not
live, where a push would silently write nil. Other machines are not modelled, so a handle of another
one is never live here; that machine may well find it, and pushing it then panics. -/
def isLive : HostValue → Program κ σ Bool
  | table h => return (← h.position?).isSome
  | variant v => v.isLive
  | present v => v.isLive
  | _ => return true

/-- Whether a value refers to the slot it was read from. -/
def pinsSlot : HostValue → Bool
  | table _ => true
  | variant v => v.pinsSlot
  | present v => v.pinsSlot
  | _ => false

/-- The name that a value is as a key, if it is text. Raw bytes are no text even where they are
UTF-8. -/
def fieldName? : HostValue → Option Bytes
  | text s => some (.ofString s)
  | runtimeString b => if b.text?.isSome then some b else none
  | variant v => v.fieldName?
  | _ => none

/-- The variant that holds a value. -/
def toVariant : HostValue → Variant
  | int _ n => .int (Int64.ofInt n)
  | float64 x => .number x
  | float32 x => .number (x.convertTo .binary64)
  | bool b => .bool b
  | text s => .str (.ofString s)
  | bytes b | runtimeString b => .str b
  | native f => .function f
  | nil | absent => .nil
  | table h => .table h
  | variant v => v
  | present v => v.toVariant

/-- What a read makes of an out-parameter that holds `held`: whether it succeeded, and what the
parameter holds afterwards. -/
def received (held : HostValue) (answer : Option HostValue) : Bool × HostValue :=
  (answer.isSome, answer.getD held)

end HostValue

namespace HostType

variable {κ σ : Type}

/-- Reads the slot at a position as a value of a type, leaving it in place. -/
def read (position : Int) : HostType → Program κ σ (Option HostValue)
  | int k => return (((← .value position).bind Value.toInt64?).bind k.ofInt64?).map (.int k)
  | float64 => return ((← .value position).bind Value.toBinary64?).map .float64
  | float32 =>
    return ((← .value position).bind Value.toBinary64?).map fun x =>
      .float32 (x.convertTo .binary32)
  | bool => return some (.bool ((← .value position).elim false Value.truthy))
  | text => return (((← .value position).bind Value.toBytes?).bind Bytes.text?).map .text
  | bytes => return ((← .value position).bind Value.toBytes?).map .bytes
  | runtimeString => return ((← .value position).bind Value.toBytes?).map .runtimeString
  | native => return ((← .value position).bind Value.toNative?).map .native
  | table => return (← Handle.bind? position).map .table
  | variant => return (← Variant.read position).map .variant
  | option t => do
    if (← .typeAt position) = .nil then return some .absent
    else return (← t.read position).map .present

/-- Reads the highest slot and pops it, unless it is to be kept or the value refers to it. A slot
that does not hold a compatible value is popped too. -/
def take (keep : Bool) (t : HostType) : Program κ σ (Option HostValue) := do
  let result ← t.read (-1)
  if !keep && !(result.elim false HostValue.pinsSlot) then .pop 1
  return result

end HostType

end StackEmbedding
