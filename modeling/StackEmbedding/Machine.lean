import StackEmbedding.Heap
import StackEmbedding.Stack
import StackEmbedding.Table

/-!
# The machine and its positions

A machine is a stack, a table of globals, the heaps of tables and closures, and a frame: the slots
from `base` upward are what the running function sees. `κ` is the type of the code that closures
carry; the machine never looks into it.

**Positions.** Positive positions count from the base of the frame, negative ones from the top, and
zero is never valid. `Machine.resolve?` turns a position into a raw index.

**Slot identities.** A `SlotId` is a raw index with the stamp it had. It resolves to a position for
as long as that slot keeps its stamp and is visible from the frame.
-/

namespace StackEmbedding

/-- The limits of a machine. `initialStack` is a hint that no operation depends on. -/
structure Limits where
  initialStack : Nat := 64
  maxStack : Nat := 1000000
  maxCallDepth : Nat := 200
  deriving DecidableEq

/-- One slot of a stack at one moment. -/
structure SlotId where
  index : Nat
  stamp : Nat
  deriving DecidableEq

/-- A machine whose closures carry code of type `κ`. -/
structure Machine (κ : Type) where
  /-- Tells machines apart; a handle belongs to one machine. -/
  identity : Nat
  limits : Limits
  stack : Stack
  /-- The raw index of position 1. -/
  base : Nat
  /-- How many calls have been entered and not left. -/
  depth : Nat
  globals : Table
  tables : Heap Table
  closures : Heap κ

namespace Machine

variable {κ : Type}

/-- A machine before its first operation. -/
def new (identity : Nat) (limits : Limits) : Machine κ :=
  ⟨identity, limits, ∅, 0, 0, ∅, ∅, ∅⟩

/-- The slots that the running function sees, bottom first. -/
def frame (m : Machine κ) : List Slot := m.stack.slots.drop m.base

/-- The position of the highest slot, which is the size of the frame. -/
def top (m : Machine κ) : Nat := m.stack.height - m.base

/-- The raw index that a position names. -/
def resolve? (m : Machine κ) (position : Int) : Option Nat :=
  if 0 < position then
    let raw := m.base + (position.toNat - 1)
    if raw < m.stack.height then some raw else none
  else if position < 0 then
    let back := (-position).toNat
    if back ≤ m.top then some (m.stack.height - back) else none
  else none

/-- The value at a position. -/
def value? (m : Machine κ) (position : Int) : Option Value :=
  (m.resolve? position).bind m.stack.value?

/-- The identity of the slot at a position. -/
def slotId? (m : Machine κ) (position : Int) : Option SlotId :=
  (m.resolve? position).bind fun raw => (m.stack.stamp? raw).map fun stamp => ⟨raw, stamp⟩

/-- The position of a slot, if it is still the slot it was and the frame holds it. -/
def positionOf? (m : Machine κ) (slot : SlotId) : Option Int :=
  if m.base ≤ slot.index ∧ m.stack.stamp? slot.index = some slot.stamp then
    some (slot.index - m.base + 1 : Nat)
  else none

/-- The position equivalent to `position` that counts from the base. -/
def absolute (m : Machine κ) (position : Int) : Int :=
  if 0 < position then position else m.top + position + 1

/-- The contents of a table. -/
def table (m : Machine κ) (id : TableId) : Table := (m.tables.get? id).getD ∅

/-- The machine with another stack. -/
def withStack (m : Machine κ) (stack : Stack) : Machine κ := { m with stack }

/-- The machine with one more value on the stack. -/
def push (m : Machine κ) (v : Value) : Machine κ := m.withStack (m.stack.push v)

end Machine

end StackEmbedding
