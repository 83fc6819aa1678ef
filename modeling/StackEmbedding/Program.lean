import StackEmbedding.Machine.Primitive
import StackEmbedding.Status

/-!
# Host programs

Host code is data: a `Program` is a tree whose nodes are instructions and whose branches are the
answers they may get. An instruction performs a primitive of the machine, makes a protected call,
panics, or reads or writes the host's own memory. `κ` is the code that closures carry and `σ` the
type of the host's memory.

A program is finite in depth along every sequence of answers, and it can do nothing to the machine
but through primitives and protected calls. What code a callable value stands for is given by a
`Host`; running programs is the business of `StackEmbedding.Program.Run`.
-/

namespace StackEmbedding

/-- One step of a host program. -/
inductive Instruction (κ σ : Type) where
  | primitive (p : Primitive κ)
  /-- Calls the value below `arguments` arguments, keeping `results` results, all of them when
  negative; `handler` is the position of a message handler, zero for none. -/
  | call (arguments : Nat) (results handler : Int)
  | panic (cause : Panic)
  | readMemory
  | writeMemory (memory : σ)

/-- The type of an instruction's answer. -/
@[reducible] def Instruction.Reply {κ σ : Type} : Instruction κ σ → Type
  | primitive p => p.Reply
  | call .. => Status
  | panic _ => Empty
  | readMemory => σ
  | writeMemory _ => Unit

/-- Host code that answers an `α`. -/
inductive Program (κ σ α : Type) where
  | done (a : α)
  | step (i : Instruction κ σ) (next : i.Reply → Program κ σ α)

namespace Program

variable {κ σ α β : Type}

/-- One program after another. -/
def andThen (p : Program κ σ α) (next : α → Program κ σ β) : Program κ σ β :=
  match p with
  | done a => next a
  | step i rest => .step i fun r => (rest r).andThen next

instance : Monad (Program κ σ) where
  pure := done
  bind := andThen

/-- The program of one primitive. -/
def perform (p : Primitive κ) : Program κ σ p.Reply := .step (.primitive p) done

/-- A protected call. -/
def call (arguments : Nat) (results handler : Int) : Program κ σ Status :=
  .step (.call arguments results handler) done

/-- A panic. -/
def panic (cause : Panic) : Program κ σ α := .step (.panic cause) fun r => r.elim

/-- The host's memory. -/
def memory : Program κ σ σ := .step .readMemory done

/-- Changes the host's memory. -/
def modifyMemory (f : σ → σ) : Program κ σ Unit :=
  .step .readMemory fun memory => .step (.writeMemory (f memory)) done

/-! ## Questions to the machine -/

/-- The size of the frame. -/
def top : Program κ σ Nat := perform .top

/-- The value at a position. -/
def value (position : Int) : Program κ σ (Option Value) := perform (.value position)

/-- The type of what a position holds. -/
def typeAt (position : Int) : Program κ σ TypeTag := return .ofSlot (← value position)

/-- The position equivalent to `position` that counts from the base. -/
def absolute (position : Int) : Program κ σ Int :=
  if 0 < position then return position else return (← top) + position + 1

/-- Pushes a value. -/
def push (v : Value) : Program κ σ Unit := perform (.push v)

/-- Drops the `n` highest slots. -/
def pop (n : Nat) : Program κ σ Unit := perform (.pop n)

end Program

/-- How a called function ends: how many of the highest slots are its results, or an error. -/
abbrev Ending := Except RuntimeError Nat

/-- What a callable value does, with its arguments as its frame. -/
abbrev Body (κ σ : Type) := Program κ σ Ending

/-- The meaning of callable values. -/
structure Host (κ σ : Type) where
  native : Native → Body κ σ
  closure : κ → Body κ σ

/-- A machine together with the memory of its host. -/
structure World (κ σ : Type) where
  machine : Machine κ
  memory : σ

end StackEmbedding
