import StackEmbedding.Machine

/-!
# Bookkeeping of a frame

The primitives that move, drop and copy slots. Each names its slots by position, acts on the frame
as a list and leaves what lies below the affected position untouched. A position that names no slot,
or a count larger than the frame, panics and changes nothing.

A primitive answers an outcome, a result or a panic, together with the machine after it; after a
panic that machine is what the primitive had done so far.
-/

namespace StackEmbedding

/-- A result or a panic, and the state after it. -/
abbrev Outcome (σ α : Type) := Except Panic α × σ

namespace Machine

variable {κ α : Type}

/-- Goes on with the raw index of a position, or panics in the name of an operation. -/
def atPosition (m : Machine κ) (operation : Operation) (position : Int)
    (act : Nat → Outcome (Machine κ) α) : Outcome (Machine κ) α :=
  match m.resolve? position with
  | some raw => act raw
  | none => (.error (.invalidPosition operation position), m)

/-- Sets the size of the frame, growing with nils. A negative position is the new top itself, one
below the lowest slot at the least. -/
def setTop (m : Machine κ) (position : Int) : Outcome (Machine κ) Unit :=
  if 0 ≤ position then (.ok (), m.withStack (m.stack.resize (m.base + position.toNat)))
  else
    let back := (-position).toNat - 1
    if back ≤ m.top then (.ok (), m.withStack (m.stack.resize (m.stack.height - back)))
    else (.error (.invalidTop position), m)

/-- Drops the `n` highest slots. -/
def pop (m : Machine κ) (n : Nat) : Outcome (Machine κ) Unit :=
  if n ≤ m.top then (.ok (), m.withStack (m.stack.resize (m.stack.height - n)))
  else (.error (.popTooMany n m.top), m)

/-- Whether `n` more slots fit under the limit. -/
def hasCapacity (m : Machine κ) (n : Nat) : Bool := m.stack.height + n ≤ m.limits.maxStack

/-- Takes the slot at a position away, the slots above moving down. -/
def remove (m : Machine κ) (position : Int) : Outcome (Machine κ) Unit :=
  m.atPosition .remove position fun raw => (.ok (), m.withStack (m.stack.remove raw))

/-- Moves the highest value to a position, the slots from there moving up. -/
def insert (m : Machine κ) (position : Int) : Outcome (Machine κ) Unit :=
  m.atPosition .insert position fun raw =>
    (.ok (), m.withStack (m.stack.dropTop.insert raw (.orNil m.stack.top?)))

/-- Takes the highest slot away and overwrites a position with its value. -/
def replace (m : Machine κ) (position : Int) : Outcome (Machine κ) Unit :=
  m.atPosition .replace position fun raw =>
    let rest := m.stack.dropTop
    (.ok (), m.withStack
      (if raw < rest.height then rest.overwrite raw (.orNil m.stack.top?) else rest))

/-- Overwrites a position with the value at another. -/
def copy (m : Machine κ) (source target : Int) : Outcome (Machine κ) Unit :=
  m.atPosition .copy source fun src =>
    m.atPosition .copy target fun dst =>
      (.ok (), m.withStack (m.stack.overwrite dst (.orNil (m.stack.value? src))))

/-- Rotates the values from a position upward by `n` places towards the top. -/
def rotate (m : Machine κ) (position n : Int) : Outcome (Machine κ) Unit :=
  m.atPosition .rotate position fun raw => (.ok (), m.withStack (m.stack.rotate raw n))

/-- Pushes the value at a position. -/
def pushValue (m : Machine κ) (position : Int) : Outcome (Machine κ) Unit :=
  m.atPosition .pushValue position fun raw =>
    (.ok (), m.push (.orNil (m.stack.value? raw)))

end Machine

end StackEmbedding
