import StackEmbedding.Value

/-!
# The stack of stamped slots

A slot holds a value and a **stamp**. Stamps are drawn from a counter that only grows, and every
operation that puts a value at an index, the same or another, gives that index a stamp that was
never issued before. Whoever remembers an index with its stamp can therefore tell later whether
the slot is still the one that was meant. Indices are raw here: they count from zero at the bottom.

**One way to draw stamps.** Pushing and growing replace the values from some index upward
(`Stack.replaceFrom`). Inserting, removing and rotating move slots with the stamps they have, and
then stamp all from some index upward anew (`Stack.restampFrom`), which comes to the same. Only
`Stack.overwrite` writes a single index. The laws on stamps need those two cases and truncation, and
no more.

**What is not checked here.** The operations are total: an index beyond the height is treated as
the height. `StackEmbedding.Stack.Operation` holds the operations that check their indices.
-/

namespace StackEmbedding

/-- A place of the stack: a value and the stamp of its last writing. -/
structure Slot where
  value : Value
  stamp : Nat
  deriving DecidableEq

/-- The slots, bottom first, and the next stamp to be issued. -/
structure Stack where
  slots : List Slot
  nextStamp : Nat
  deriving DecidableEq

/-- Values with consecutive stamps. -/
def stamped (first : Nat) (values : List Value) : List Slot :=
  values.mapIdx fun i v => ⟨v, first + i⟩

/-- The stamp of a slot that was put in place and not stamped yet. It is never issued. -/
def unboundStamp : Nat := 0

/-- A list in cyclic order, moved `n` places towards its end; a negative `n` moves it towards the
front. -/
def rotated {α : Type} (xs : List α) (n : Int) : List α :=
  let shift := (n % (xs.length : Int)).toNat
  xs.drop (xs.length - shift) ++ xs.take (xs.length - shift)

namespace Stack

/-- The stack without slots. -/
def empty : Stack := ⟨[], unboundStamp + 1⟩

instance : EmptyCollection Stack := ⟨empty⟩

/-- How many slots the stack has. -/
def height (s : Stack) : Nat := s.slots.length

/-- The value at a raw index. -/
def value? (s : Stack) (i : Nat) : Option Value := s.slots[i]?.map Slot.value

/-- The stamp at a raw index. -/
def stamp? (s : Stack) (i : Nat) : Option Nat := s.slots[i]?.map Slot.stamp

/-- The values from a raw index upward. -/
def valuesFrom (s : Stack) (i : Nat) : List Value := (s.slots.drop i).map Slot.value

/-- The value of the highest slot. -/
def top? (s : Stack) : Option Value := s.slots.getLast?.map Slot.value

/-- The stack with other values from a raw index upward, all freshly stamped. -/
def replaceFrom (s : Stack) (i : Nat) (values : List Value) : Stack :=
  ⟨s.slots.take i ++ stamped s.nextStamp values, s.nextStamp + values.length⟩

/-- The stack with another value at a raw index, freshly stamped. -/
def overwrite (s : Stack) (i : Nat) (v : Value) : Stack :=
  ⟨s.slots.set i ⟨v, s.nextStamp⟩, s.nextStamp + 1⟩

/-- The stack without the slots from a raw index upward. -/
def truncate (s : Stack) (i : Nat) : Stack := { s with slots := s.slots.take i }

/-- The stack with one more value. -/
def push (s : Stack) (v : Value) : Stack := s.replaceFrom s.height [v]

/-- The stack without its highest slot. -/
def dropTop (s : Stack) : Stack := s.truncate (s.height - 1)

/-- The stack with fresh stamps from a raw index upward. -/
def restampFrom (s : Stack) (i : Nat) : Stack := s.replaceFrom i (s.valuesFrom i)

/-- The stack with a value put at a raw index, the slots above moved up. -/
def insert (s : Stack) (i : Nat) (v : Value) : Stack :=
  { s with slots := s.slots.insertIdx i ⟨v, unboundStamp⟩ }.restampFrom i

/-- The stack without the slot at a raw index, the slots above moved down. -/
def remove (s : Stack) (i : Nat) : Stack :=
  { s with slots := s.slots.eraseIdx i }.restampFrom i

/-- The stack with the slots from a raw index upward rotated towards the top. -/
def rotate (s : Stack) (i : Nat) (n : Int) : Stack :=
  { s with slots := s.slots.take i ++ rotated (s.slots.drop i) n }.restampFrom i

/-- The stack cut, or grown with nils, to a height. -/
def resize (s : Stack) (n : Nat) : Stack :=
  if n ≤ s.height then s.truncate n
  else s.replaceFrom s.height (List.replicate (n - s.height) .nil)

/-- The stack with several more values, the last on top. -/
def pushAll (s : Stack) (values : List Value) : Stack := s.replaceFrom s.height values

end Stack

end StackEmbedding
