import StackEmbedding.Host.Handle
import StackEmbedding.Value.Coercion
import StackEmbedding.Value.Diagnostic

/-!
# Variants: any one value that crosses between host and machine

A `Variant` holds one value of any case that the host can keep, or nothing yet. A table is held as
a handle, so a variant never owns a slot. Closures cannot be held: they have no name outside the
machine.

Reading a variant as a case it does not hold is a breach of contract (`Variant.expect`); the
projections (`int?`, `bool?`, …) answer nothing instead.
-/

namespace StackEmbedding

/-- Any one value of the host's side. -/
inductive Variant where
  /-- Nothing yet; it pushes as nil. -/
  | unset
  | int (i : Int64)
  | bool (b : Bool)
  | number (x : Binary64)
  | str (bytes : Bytes)
  | function (f : Native)
  | table (h : Handle)
  | nil
  deriving DecidableEq

namespace Variant

variable {κ σ : Type}

/-- The case that a variant holds. -/
def kind : Variant → VariantKind
  | unset => .unset
  | int _ => .int
  | bool _ => .bool
  | number _ => .number
  | str _ => .str
  | function _ => .function
  | table _ => .table
  | nil => .nil

/-! ## Projections -/

def int? : Variant → Option Int64
  | int i => some i
  | _ => none

def bool? : Variant → Option Bool
  | bool b => some b
  | _ => none

def number? : Variant → Option Binary64
  | number x => some x
  | _ => none

/-- A number of either sub-kind, an integer as the nearest float. -/
def widened? : Variant → Option Binary64
  | number x => some x
  | int i => some (.ofInt i.toInt)
  | _ => none

def str? : Variant → Option Bytes
  | str bytes => some bytes
  | _ => none

def function? : Variant → Option Native
  | function f => some f
  | _ => none

def table? : Variant → Option Handle
  | table h => some h
  | _ => none

def nil? : Variant → Option Unit
  | nil => some ()
  | _ => none

/-- What a projection to the case `wanted` answers, or a panic. -/
def expect {α : Type} (v : Variant) (wanted : VariantKind) (projection : Variant → Option α) :
    Except Panic α :=
  match projection v with
  | some a => .ok a
  | none => .error (.variantMismatch wanted v.kind)

/-- Equality of variants: the same case and the same payload, floats compared as numbers and
tables by the slot their handles name. -/
def same : Variant → Variant → Bool
  | number x, number y => x.numEq y
  | v, w => v = w

/-! ## Texts -/

/-- The text of a variant; functions have no lasting one. -/
def text? (m : Machine κ) : Variant → Option String
  | unset => some "<unset>"
  | int i => some (toString i.toInt)
  | bool b => some (toString b)
  | number x => some x.coercedText
  | str bytes => some bytes.lossy
  | function _ => none
  | table h =>
    match h.locate m with
    | some p => some s!"table@{p}"
    | none => some "table@stale"
  | nil => some "nil"

/-- The diagnostic text of a variant; functions have no lasting one. -/
def diagnostic? (m : Machine κ) : Variant → Option String
  | unset => some "Unset"
  | int i => (Value.int i).diagnostic?
  | bool b => (Value.bool b).diagnostic?
  | number x => (Value.number x).diagnostic?
  | str bytes => (Value.str bytes).diagnostic?
  | function _ => none
  | table h => some (h.diagnostic m)
  | nil => (Value.nil).diagnostic?

/-! ## Exchange with the machine -/

/-- Pushes a variant as one slot. -/
def push : Variant → Program κ σ Unit
  | unset | nil => .push .nil
  | int i => .push (.int i)
  | bool b => .push (.bool b)
  | number x => .push (.number x)
  | str bytes => .push (.str bytes)
  | function f => .push (.function f)
  | table h => h.push

/-- Whether a variant holds no handle that is stale or unbound; one of another machine counts as
stale, as `Handle.position?` says. -/
def isLive : Variant → Program κ σ Bool
  | table h => return (← h.position?).isSome
  | _ => return true

/-- Whether a variant refers to the slot it was read from. -/
def pinsSlot : Variant → Bool
  | table _ => true
  | _ => false

/-- The name that a variant is as a key, if it is text. -/
def fieldName? : Variant → Option Bytes
  | str bytes => if bytes.text?.isSome then some bytes else none
  | _ => none

/-- Reads whatever a position holds, by its type; none for a closure, a panic for a position that
holds nothing. -/
def read (position : Int) : Program κ σ (Option Variant) := do
  match ← .typeAt position with
  | .nil => return some nil
  | .boolean => return some (bool ((← .value position).elim false Value.truthy))
  | .number =>
    if (← .value position).elim false Value.isInteger then
      return ((← .value position).bind Value.toInt64?).map int
    else return ((← .value position).bind Value.toBinary64?).map number
  | .string => return ((← .value position).bind Value.toBytes?).map str
  | .function => return ((← .value position).bind Value.toNative?).map function
  | .table => return (← Handle.bind? position).map table
  | .none => .panic (.nothingToRead position)

end Variant

end StackEmbedding
