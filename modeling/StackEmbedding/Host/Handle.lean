import StackEmbedding.Program

/-!
# Table handles and guards

A `Handle` names a table by the slot it lies in. It owns nothing: several handles may name one
slot, and dropping one does nothing. It remembers the identity of the slot, so it notices when the
slot was popped, reused or shifted, or lies outside the current frame; it is then **stale**, and
every operation on it fails instead of touching what lies there now. An unbound handle names no
slot and behaves like a stale one.

A `Guard` owns the slot of its handle: dropping the guard releases that slot, if it is still the
same slot, and nothing otherwise.

`Handle.locate` reads the position of a handle off a machine. `Handle.position?` finds it by
primitives, as host code does.
-/

namespace StackEmbedding

/-- A table by the slot of its machine, or by none. -/
structure Handle where
  owner : Nat
  slot : Option SlotId
  deriving DecidableEq

namespace Handle

variable {κ σ : Type}

/-- The position of the table that a handle names: the slot is unchanged, the frame holds it, and
it holds a table. -/
def locate (m : Machine κ) (h : Handle) : Option Int :=
  if h.owner = m.identity then
    (h.slot.bind m.positionOf?).filter fun p => TypeTag.ofSlot (m.value? p) = .table
  else none

/-- Whether a handle names a slot, stale or not. -/
def isBound (h : Handle) : Bool := h.slot.isSome

/-- The diagnostic text of a handle. -/
def diagnostic (m : Machine κ) (h : Handle) : String :=
  match h.slot, h.locate m with
  | none, _ => "Table(unbound)"
  | some _, some p => s!"Table(@{p})"
  | some _, none => "Table(stale)"

/-- A handle of this machine that names no slot. -/
def unbound : Program κ σ Handle := return ⟨← .perform .identity, none⟩

/-- A handle for the slot at a position, whatever it holds. -/
def ofPosition (position : Int) : Program κ σ Handle := do
  let owner ← .perform .identity
  return ⟨owner, ← .perform (.slotId position)⟩

/-- A handle for the table at a position, if there is one. -/
def bind? (position : Int) : Program κ σ (Option Handle) := do
  if (← .typeAt position) = .table then return some (← ofPosition position) else return none

/-- Pushes a new table and answers a handle for it. -/
def create : Program κ σ Handle := do
  .perform .createTable
  ofPosition (-1)

/-- The position of the table, none when the handle is stale or unbound. There is one machine here,
and others are not modelled: a handle of another machine answers none, even where that machine would
find its table. -/
def position? (h : Handle) : Program κ σ (Option Int) := do
  if h.owner ≠ (← .perform .identity) then return none
  let some slot := h.slot | return none
  let some p ← .perform (.positionOf slot) | return none
  if (← .typeAt p) = .table then return some p else return none

/-- Pushes the table that a handle names, nil when it is stale. A handle of another machine
panics. -/
def push (h : Handle) : Program κ σ Unit := do
  if h.owner ≠ (← .perform .identity) then .panic .foreignHandle
  else
    match ← h.position? with
    | some p => .perform (.pushValue p)
    | none => .push .nil

end Handle

/-- The ownership of a handle's slot. -/
structure Guard where
  table : Handle
  deriving DecidableEq

namespace Guard

variable {κ σ : Type}

/-- Releases the slot: a pop where it is the highest, a removal otherwise, and nothing where the
handle is stale. -/
def drop (g : Guard) : Program κ σ Unit := do
  match ← g.table.position? with
  | none => return
  | some p =>
    if p = (← .top) then .pop 1 else .perform (.remove p)

/-- Gives the ownership up; the slot stays. -/
def release (g : Guard) : Handle := g.table

/-- The diagnostic text of a guard that has not been given up. -/
def diagnostic (m : Machine κ) (g : Guard) : String :=
  s!"TableGuard \x7b table: {g.table.diagnostic m}, armed: true \x7d"

end Guard

end StackEmbedding
