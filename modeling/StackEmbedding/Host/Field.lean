import StackEmbedding.Host.Value

/-!
# Fields of a table through a handle

Storing and reading `table[key]` for keys and values of any host type. A key that is text goes by
name, any other is pushed and goes through the stack; both ways reach the same entry.

**Stores are all or nothing.** `Handle.set` refuses a stale handle as the table, in the key and in
the value before it pushes anything; a key that no table takes (nil, NaN) is refused by the machine.
**Reads leave the frame as it was,** but for a value that refers to its slot, such as a nested
table, and for reads that are told to keep the slot.
-/

namespace StackEmbedding

variable {κ σ : Type}

namespace Handle

/-- Stores a value under a key, and answers whether it was stored. -/
def set (h : Handle) (key value : HostValue) : Program κ σ Bool := do
  let some position ← h.position? | return false
  if !(← key.isLive) then return false
  if !(← value.isLive) then return false
  let stored ←
    match key.fieldName? with
    | some name => do
      value.push
      .perform (.setField position name)
    | none => do
      key.push
      value.push
      .perform (.setTable position)
  return stored.toBool

/-- Reads what is stored under a key as a value of a type; with `keep` its slot stays. -/
def fetch (h : Handle) (key : HostValue) (keep : Bool) (t : HostType) :
    Program κ σ (Option HostValue) := do
  let some position ← h.position? | return none
  let fetched ←
    match key.fieldName? with
    | some name => .perform (.getField position name)
    | none => do
      key.push
      .perform (.getTable position)
  match fetched with
  | .ok _ => t.take keep
  | .error _ =>
    if !keep then .pop 1
    return none

/-- Reads what is stored under a key into an out-parameter that holds `held`. -/
def fetchInto (h : Handle) (key : HostValue) (keep : Bool) (t : HostType) (held : HostValue) :
    Program κ σ (Bool × HostValue) :=
  return held.received (← h.fetch key keep t)

/-- The border of the table, zero when the handle is stale. -/
def length (h : Handle) : Program κ σ Int64 := do
  let some position ← h.position? | return 0
  let _ ← .perform (.length position)
  let n := (← .value (-1)).bind Value.toInt64?
  .pop 1
  return n.getD 0

/-- Whether the border is zero. -/
def isEmpty (h : Handle) : Program κ σ Bool := return (← h.length) = 0

end Handle

/-- Access to one key of one table that remembers what it read last. The cached value is what the
table held at the last read, `unset` where that read failed. -/
structure Entry where
  table : Handle
  key : Variant
  cached : Variant

namespace Entry

/-- Reads the key again, and answers whether the read succeeded. -/
def refresh (e : Entry) : Program κ σ (Bool × Entry) := do
  match ← e.table.fetch (.variant e.key) false .variant with
  | some (.variant v) => return (true, { e with cached := v })
  | _ => return (false, { e with cached := .unset })

/-- An entry, read at once. -/
def create (table : Handle) (key : Variant) : Program κ σ Entry :=
  return (← refresh ⟨table, key, .unset⟩).2

/-- Stores a value under the key and reads it back; answers whether it was stored. -/
def assign (e : Entry) (value : Variant) : Program κ σ (Bool × Entry) := do
  let stored ← e.table.set (.variant e.key) (.variant value)
  return (stored, (← e.refresh).2)

end Entry

end StackEmbedding
