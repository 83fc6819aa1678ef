import StackEmbedding.Machine.Frame

/-!
# Tables and globals on the stack

The primitives that read and write tables and globals. They take keys and values from the top of
the stack and leave results there; a failure that is a result, such as indexing a number, takes and
leaves as many slots as success does.

**Positions come first.** A primitive resolves its position before it takes its operands. A position
that names one of the operands is valid at that moment and its slot is gone afterwards: reading it
then panics with `Panic.outOfBounds`, the operands taken.
-/

namespace StackEmbedding.Machine

variable {κ α : Type}

/-- Goes on with the value at a raw index, or panics if the stack does not reach it. -/
def atRaw (m : Machine κ) (raw : Nat) (act : Value → Outcome (Machine κ) α) :
    Outcome (Machine κ) α :=
  match m.stack.value? raw with
  | some v => act v
  | none => (.error (.outOfBounds m.stack.height raw), m)

/-- The table that a value names, or the error of indexing any other value. -/
def indexable (operation : Operation) : Value → Except RuntimeError TableId
  | .table id => .ok id
  | v => .error (.notIndexable operation v.tag)

/-- Pushes what was fetched and answers its type; what could not be fetched leaves nil. -/
def pushFetched (m : Machine κ) :
    Except RuntimeError Value → Outcome (Machine κ) (Except RuntimeError TypeTag)
  | .ok v => (.ok (.ok v.tag), m.push v)
  | .error e => (.ok (.error e), m.push .nil)

/-- Stores a value under a key of the table that a value names. -/
def store (m : Machine κ) (operation : Operation) (target key value : Value) :
    Outcome (Machine κ) (Except RuntimeError Unit) :=
  match indexable operation target with
  | .error e => (.ok (.error e), m)
  | .ok id =>
    match (m.table id).set key value with
    | .error e => (.ok (.error e), m)
    | .ok t => (.ok (.ok ()), { m with tables := m.tables.set id t })

/-- Pushes a new empty table. -/
def createTable (m : Machine κ) : Machine κ :=
  let (id, tables) := m.tables.create ∅
  { m with tables }.push (.table id)

/-- Pushes a new closure. -/
def pushClosure (m : Machine κ) (code : κ) : Machine κ :=
  let (id, closures) := m.closures.create code
  { m with closures }.push (.closure id)

/-- Takes a key and pushes what the table at the position holds under it. -/
def getTable (m : Machine κ) (position : Int) :
    Outcome (Machine κ) (Except RuntimeError TypeTag) :=
  m.atPosition .getTable position fun raw =>
    let key := Value.orNil m.stack.top?
    let rest := m.withStack m.stack.dropTop
    rest.atRaw raw fun target =>
      rest.pushFetched ((indexable .getTable target).map fun id => (rest.table id).get key)

/-- Pushes what the table at the position holds under a name. -/
def getField (m : Machine κ) (position : Int) (name : Bytes) :
    Outcome (Machine κ) (Except RuntimeError TypeTag) :=
  m.atPosition .getField position fun raw =>
    m.atRaw raw fun target =>
      m.pushFetched ((indexable .getField target).map fun id => (m.table id).getField name)

/-- Takes a value and, below it, a key, and stores them in the table at the position. -/
def setTable (m : Machine κ) (position : Int) : Outcome (Machine κ) (Except RuntimeError Unit) :=
  m.atPosition .setTable position fun raw =>
    if m.top < 2 then (.error .missingOperands, m)
    else
      let value := Value.orNil m.stack.top?
      let key := Value.orNil m.stack.dropTop.top?
      let rest := m.withStack m.stack.dropTop.dropTop
      rest.atRaw raw fun target => rest.store .setTable target key value

/-- Takes a value and stores it under a name in the table at the position. -/
def setField (m : Machine κ) (position : Int) (name : Bytes) :
    Outcome (Machine κ) (Except RuntimeError Unit) :=
  m.atPosition .setField position fun raw =>
    let value := Value.orNil m.stack.top?
    let rest := m.withStack m.stack.dropTop
    rest.atRaw raw fun target => rest.store .setField target (.str name) value

/-- The length of a value: the bytes of a string, the border of a table. -/
def lengthOf (m : Machine κ) : Value → Except RuntimeError Nat
  | .str bytes => .ok bytes.length
  | .table id => .ok (m.table id).border
  | v => .error (.noLength v.tag)

/-- Pushes the length of the value at the position. -/
def length (m : Machine κ) (position : Int) : Outcome (Machine κ) (Except RuntimeError Unit) :=
  m.atPosition .length position fun raw =>
    m.atRaw raw fun target =>
      match m.lengthOf target with
      | .ok n => (.ok (.ok ()), m.push (.int (Int64.ofNat n)))
      | .error e => (.ok (.error e), m.push .nil)

/-- Pushes a global, nil where there is none, and answers its type. -/
def getGlobal (m : Machine κ) (name : Bytes) : Outcome (Machine κ) TypeTag :=
  let v := m.globals.getField name
  (.ok v.tag, m.push v)

/-- Takes a value and makes it a global; nil removes the global. -/
def setGlobal (m : Machine κ) (name : Bytes) : Outcome (Machine κ) Unit :=
  if m.top < 1 then (.error .emptyFrame, m)
  else
    let value := Value.orNil m.stack.top?
    (.ok (), { m with stack := m.stack.dropTop, globals := m.globals.setKey (.str name) value })

end StackEmbedding.Machine
