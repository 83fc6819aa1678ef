import StackEmbedding.Host.Environment
import StackEmbedding.Settings

/-!
# Scripts: what a step asks for and what it answers

A script is a list of steps over one environment. Steps name positions of the frame, host values
and variables; a variable holds what a host would keep between two operations: a handle, a guard, a
variant, an entry or a slot identity. A step that makes a closure holds the closure's own steps.

A `Reply` is what a step answered, kept as data. How a reply reads depends on the machine at that
moment, since a handle is shown by its position; a `Report` holds both.
-/

namespace StackEmbedding.Script

/-- A host value in a step, with variables not yet looked up. -/
inductive Operand where
  | value (v : HostValue)
  | unbound
  | named (name : String)
  | present (o : Operand)
  | variant (o : Operand)

/-- How many results a closure reports: a number, or as many as its frame holds. -/
inductive ResultCount where
  | exactly (n : Nat)
  | all

/-- How a typed read answers: with the value, or by replacing `initial` on success. -/
inductive ReadMode where
  | answer
  | replace (initial : HostValue) (keep : Bool)

/-- Whether a read keeps its slot. -/
def ReadMode.keeps : ReadMode → Bool
  | answer => false
  | replace _ keep => keep

/-- One step of a script. -/
inductive Step where
  -- Control.
  | raise (text : String)
  | panic (text : String)
  /-- Raises if the step answers a runtime error. -/
  | insist (s : Step)
  -- The stack.
  | push (o : Operand)
  | pushRaw (v : Value)
  | pop (n : Nat)
  | setTop (position : Int)
  | remove (position : Int)
  | insert (position : Int)
  | replace (position : Int)
  | copy (source target : Int)
  | rotate (position n : Int)
  | pushValue (position : Int)
  | hasCapacity (n : Nat)
  | size
  | errorMessage (position : Int)
  | describe
  | settings
  | absolute (position : Int)
  | value (position : Int)
  | query (position : Int)
  | slotId (position : Int) (name : String)
  | positionOf (name : String)
  | sameSlot (a b : String)
  -- Tables and globals.
  | createTable
  | getTable (position : Int)
  | getField (position : Int) (name : String)
  | setTable (position : Int)
  | setField (position : Int) (name : String)
  | length (position : Int)
  | getGlobal (name : String)
  | setGlobal (name : String)
  | contents (position : Int)
  -- Calls.
  | call (arguments : Nat) (results handler : Int)
  | pushClosure (steps : List Step) (results : ResultCount)
  | register (name : String) (f : Native)
  | registerClosure (name : String) (steps : List Step) (results : ResultCount)
  | callGlobal (name : String) (handler : Int) (drop : Bool) (arguments : List Operand)
      (types : List HostType) (save : List (Option String))
  -- Typed access.
  | storeGlobal (name : String) (o : Operand)
  | readGlobal (name : String) (mode : ReadMode) (t : HostType) (save : Option String)
  | read (position : Int) (mode : ReadMode) (t : HostType) (save : Option String)
  -- Handles.
  | createHandle (name : String)
  | createGuard (name : String)
  | unboundHandle (name : String)
  | bindHandle (name : String) (position : Int)
  | inspectHandle (name : String)
  | storeField (name : String) (key value : Operand)
  | readField (name : String) (key : Operand) (mode : ReadMode) (t : HostType)
      (save : Option String)
  | handleLength (name : String)
  | sameHandle (a b : String)
  /-- Offers a handle to another machine that holds one table. -/
  | offerElsewhere (name : String)
  -- Guards.
  | guard (name handle : String)
  | dropGuard (name : String)
  | releaseGuard (name : String)
  | describeGuard (name : String)
  -- Entries.
  | openEntry (name handle : String) (key : Operand)
  | assignEntry (name : String) (o : Operand)
  | refreshEntry (name : String)
  | inspectEntry (name : String)
  | takeCached (name target : String)
  -- Variants.
  | saveVariant (name : String) (o : Operand)
  | inspectVariant (o other : Operand)

/-- The code of a closure made by a script. -/
structure Code where
  steps : List Step
  results : ResultCount

/-- What a step answered. -/
inductive Reply where
  | done
  | flag (b : Bool)
  | integer (n : Int)
  | position (p : Option Int)
  | type (t : TypeTag)
  | text (s : Option String)
  | size (n : Nat)
  | description
  | settings
  | value (v : Option Value)
  | query (v : Option Value)
  | contents (t : Option Table)
  | status (s : Status)
  | called (r : Except CallError (List HostValue))
  | read (v : Option HostValue)
  | replaced (ok : Bool) (out : HostValue)
  | live (b : Bool)
  | handle (h : Handle)
  | length (n : Int64)
  | elsewhere (same : Bool) (pushed : Except Panic Unit) (top : Nat)
  | guard (g : Guard)
  | opened (e : Entry)
  | entry (stored : Option Bool) (e : Entry)
  | variant (v : Variant)
  | variants (v other : Variant)
  | failed (e : RuntimeError)

/-- A reply, and the machine in which it was given. -/
structure Report where
  reply : Reply
  machine : Machine Code

/-- What a variable holds. -/
inductive Variable where
  | handle (h : Handle)
  | guard (g : Guard)
  | variant (v : Variant)
  | entry (e : Entry)
  | slot (s : SlotId)

/-- The memory of a script: its variables, and the reports of the closure steps that completed
during the current step, newest first. -/
structure Memory where
  bindings : FiniteMap String Variable
  log : List Report

namespace Memory

/-- The memory with a variable. -/
def bind (m : Memory) (name : String) (v : Variable) : Memory :=
  { m with bindings := m.bindings.insert name v }

/-- The memory without a variable. -/
def forget (m : Memory) (name : String) : Memory := { m with bindings := m.bindings.erase name }

/-- The handle that a variable stands for, if it stands for one. -/
def handle? (m : Memory) (name : String) : Option Handle :=
  match m.bindings.get? name with
  | some (.handle h) | some (.variant (.table h)) => some h
  | some (.guard g) => some g.table
  | _ => none

/-- The host value that a variable stands for, if it stands for one. -/
def value? (m : Memory) (name : String) : Option HostValue :=
  match m.bindings.get? name with
  | some (.handle h) => some (.table h)
  | some (.guard g) => some (.table g.table)
  | some (.variant v) => some (.variant v)
  | some (.entry e) => some (.variant e.cached)
  | some (.slot _) | none => none

/-- The slot identity that a variable holds. -/
def slot? (m : Memory) (name : String) : Option SlotId :=
  match m.bindings.get? name with
  | some (.slot s) => some s
  | _ => none

end Memory

end StackEmbedding.Script
