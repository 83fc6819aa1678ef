import StackEmbedding.FiniteMap
import StackEmbedding.Failure

/-!
# Keys and tables

A table maps keys to values. A `Key` is the form under which a value is stored: an integer key
stands for every number of that integer value, so that `1` and `1.0` name one entry, and a float
without an exact 64-bit integer value is its own key. Nil and NaN have no key.

Storing nil under a key removes the entry, so an absent key and a stored nil read the same.

**The border** of a table is the greatest `n` such that all of `1, …, n` are keys. It is found among
the first `size` integers, since a table with a border `n` has at least `n` entries.
-/

namespace StackEmbedding

/-- The form under which a value is a key. -/
inductive Key where
  | bool (b : Bool)
  | int (i : Int64)
  | float (x : Binary64)
  | str (bytes : Bytes)
  | function (f : Native)
  | closure (id : ClosureId)
  | table (id : TableId)
  deriving DecidableEq

namespace Key

/-- The key of a value, if it can be one: nil and NaN cannot. -/
def ofValue? : Value → Option Key
  | .nil => none
  | .bool b => some (bool b)
  | .int i => some (int i)
  | .number x =>
    if x.isNaN then none
    else match x.toInt64? with
      | some i => some (int i)
      | none => some (float x)
  | .str bytes => some (str bytes)
  | .function f => some (function f)
  | .closure id => some (closure id)
  | .table id => some (table id)

/-- The value that a key is read back as. -/
def toValue : Key → Value
  | bool b => .bool b
  | int i => .int i
  | float x => .number x
  | str bytes => .str bytes
  | function f => .function f
  | closure id => .closure id
  | table id => .table id

end Key

/-- The contents of a table. -/
structure Table where
  entries : FiniteMap Key Value

namespace Table

/-- The table without entries. -/
def empty : Table := ⟨∅⟩

instance : EmptyCollection Table := ⟨empty⟩

/-- The value under a key, nil where there is none. -/
def getKey (t : Table) (k : Key) : Value := .orNil (t.entries.get? k)

/-- The value under a value used as a key; what cannot be a key reads as nil. -/
def get (t : Table) (key : Value) : Value := (Key.ofValue? key).elim .nil t.getKey

/-- The value under a string. -/
def getField (t : Table) (name : Bytes) : Value := t.getKey (.str name)

/-- The table with a value under a key; nil removes the entry. -/
def setKey (t : Table) (k : Key) (value : Value) : Table :=
  ⟨if value.isNil then t.entries.erase k else t.entries.insert k value⟩

/-- The table with a value under a value used as a key, which must not be nil or NaN. -/
def set (t : Table) (key value : Value) : Except RuntimeError Table :=
  match Key.ofValue? key with
  | some k => .ok (t.setKey k value)
  | none => .error (if key.isNil then .nilKey else .nanKey)

/-- Whether the integer `n` is a key; an integer beyond 64 bits is none. -/
def hasIndex (t : Table) (n : Nat) : Bool := (int64? n).any fun i => t.entries.contains (.int i)

/-- The greatest `n` such that all of `1, …, n` are keys. -/
def border (t : Table) : Nat :=
  ((List.range t.entries.size).takeWhile fun i => t.hasIndex (i + 1)).length

/-- How many entries a table has. -/
def entryCount (t : Table) : Nat := t.entries.size

end Table

end StackEmbedding
