import StackEmbedding.Value

/-!
# Failures: runtime errors and panics

Two kinds of failure are kept apart. A `RuntimeError` is a result: a primitive or a host function
reports it and its caller goes on. A `Panic` is a breach of a contract, such as naming a position
that holds nothing; it unwinds to the enclosing protected call, which turns it into a runtime
error. Both are causes here; their wording stands in `Panic.message` and `RuntimeError.message`
and nowhere else.
-/

namespace StackEmbedding

/-- The primitives that take a position and panic on one that holds nothing. -/
inductive Operation where
  | remove | insert | replace | copy | rotate | pushValue
  | getTable | getField | setTable | setField | length | protectedCall
  deriving DecidableEq

/-- The name under which an operation reports its failures. -/
def Operation.name : Operation → String
  | remove => "remove"
  | insert => "insert"
  | replace => "replace"
  | copy => "copy"
  | rotate => "rotate"
  | pushValue => "push_value"
  | getTable => "get_table"
  | getField => "get_field"
  | setTable => "set_table"
  | setField => "set_field"
  | length => "length"
  | protectedCall => "pcall"

/-- The cases of a value that can cross between host and machine. -/
inductive VariantKind where
  | unset | int | bool | number | str | function | table | nil
  deriving DecidableEq

/-- The word for a case. -/
def VariantKind.name : VariantKind → String
  | unset => "unset"
  | int => "integer"
  | bool => "boolean"
  | number => "number"
  | str => "string"
  | function => "function"
  | table => "table"
  | nil => "nil"

/-- A breach of a contract. -/
inductive Panic where
  /-- The position names no slot of the frame. -/
  | invalidPosition (operation : Operation) (position : Int)
  /-- The new top lies below the frame. -/
  | invalidTop (position : Int)
  /-- More slots to pop than the frame has. -/
  | popTooMany (count available : Nat)
  /-- A value was wanted from a stack without slots. -/
  | emptyStack
  /-- A store without both a key and a value in the frame. -/
  | missingOperands
  /-- A global was to be set from an empty frame. -/
  | emptyFrame
  /-- A call without a callee below its arguments. -/
  | missingCallee (arguments available : Nat)
  /-- A raw index at or above the height of the stack. -/
  | outOfBounds (height index : Nat)
  /-- A handle of another machine. -/
  | foreignHandle
  /-- A variant read as a case that it does not hold. -/
  | variantMismatch (wanted held : VariantKind)
  /-- A variant read from a position that holds nothing. -/
  | nothingToRead (position : Int)
  /-- Raised by host code, with a text or with something that has none. -/
  | host (text : Option String)
  deriving DecidableEq

/-- The wording of a panic. -/
def Panic.message : Panic → String
  | invalidPosition operation position => s!"{operation.name}: invalid stack position {position}"
  | invalidTop position => s!"set_top: invalid stack position {position}"
  | popTooMany count available => s!"pop: cannot pop {count} of {available} slots"
  | emptyStack => "pop: stack is empty"
  | missingOperands => "set_table: missing key or value"
  | emptyFrame => "set_global: stack is empty"
  | missingCallee arguments available =>
    s!"pcall: expected a callee and {arguments} arguments, frame holds {available}"
  | outOfBounds height index =>
    s!"index out of bounds: the len is {height} but the index is {index}"
  | foreignHandle => "table handle pushed onto a different state"
  | variantMismatch wanted held =>
    s!"variant accessor mismatch: wanted {wanted.name}, holds {held.name}"
  | nothingToRead position => s!"variant conversion from invalid stack position {position}"
  | host text => text.getD "unknown panic"

/-- A failure that is reported as a result. -/
inductive RuntimeError where
  /-- Raised by host code. -/
  | raised (text : String)
  /-- Nil as a key of a store. -/
  | nilKey
  /-- A NaN as a key of a store. -/
  | nanKey
  /-- A value of this type was indexed. -/
  | notIndexable (operation : Operation) (type : TypeTag)
  /-- The length of a value of this type was asked for. -/
  | noLength (type : TypeTag)
  /-- A call beyond the limit on nested calls. -/
  | callDepth
  /-- A value of this type was called. -/
  | notCallable (type : TypeTag)
  /-- A function reported more results than its frame holds. -/
  | overReported (reported available : Nat)
  /-- A function panicked. -/
  | panicked (panic : Panic)
  deriving DecidableEq

/-- The wording of a runtime error. -/
def RuntimeError.message : RuntimeError → String
  | raised text => text
  | nilKey => "index is nil"
  | nanKey => "index is NaN"
  | notIndexable operation type => s!"{operation.name}: attempt to index a {type.name} value"
  | noLength type => s!"attempt to get length of a {type.name} value"
  | callDepth => "stack overflow (call depth)"
  | notCallable type => s!"attempt to call a {type.name} value"
  | overReported reported available => s!"function reported {reported} results but left {available}"
  | panicked panic => panic.message

end StackEmbedding
