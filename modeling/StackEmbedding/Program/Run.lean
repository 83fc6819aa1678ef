import StackEmbedding.Program

/-!
# Running host programs, and protected calls

`World.run` runs a program on a world. Running is structural twice over: in the program
(`Program.runWith`), and in the number of nested calls that are still allowed (`World.runner`). At
the top level that number is the machine's limit less its depth, so the limit on nested calls is
the termination measure itself: every run ends, and a call beyond the limit is refused because no
call is left, not because an interpreter gave up.

**A protected call** takes a callee and its arguments off the frame. If the callee succeeds its
results stand in their place, cut or padded with nil to the wanted count. If it cannot be called,
reports an error, reports more results than it left, or panics, one error object stands in their
place: the message, or what the message handler makes of it. A handler that fails itself leaves the
message as it was.

**What a panic undoes.** Nothing but the frame: base and depth are those of the caller again,
the slots from the callee upward are dropped, and every other effect stays.
-/

namespace StackEmbedding

variable {κ σ : Type}

/-- The code behind a callable value. A closure that the heap does not know does nothing. -/
def Host.body? (host : Host κ σ) (m : Machine κ) : Value → Option (Body κ σ)
  | .function f => some (host.native f)
  | .closure id => some ((m.closures.get? id).elim (.done (.ok 0)) host.closure)
  | _ => none

namespace Machine

/-- The machine inside a call of the value at the raw index `callee`. -/
def enter (m : Machine κ) (callee : Nat) : Machine κ :=
  { m with base := callee + 1, depth := m.depth + 1 }

/-- The machine after a call, in the frame of its caller. -/
def leave (m : Machine κ) (base : Nat) : Machine κ := { m with base, depth := m.depth - 1 }

/-- The machine with its slots from a raw index upward replaced by values. -/
def settle (m : Machine κ) (raw : Nat) (values : List Value) : Machine κ :=
  m.withStack ((m.stack.resize raw).pushAll values)

/-- Results cut or padded with nil to the wanted count; a negative count keeps all. -/
def adjust (results : Int) (values : List Value) : List Value :=
  if results < 0 then values
  else values.take results.toNat ++ List.replicate (results.toNat - values.length) .nil

/-- Puts the `reported` highest values in the place of the callee and all above it. -/
def deliver (m : Machine κ) (callee : Nat) (results : Int) (reported : Nat) :
    Except RuntimeError Unit × Machine κ :=
  let available := m.stack.height - (callee + 1)
  if available < reported then (.error (.overReported reported available), m)
  else
    (.ok (), m.settle callee (adjust results (m.stack.valuesFrom (m.stack.height - reported))))

end Machine

namespace World

/-- Runs bodies on worlds; none where no further call is allowed. -/
abbrev Runner (κ σ : Type) :=
  Option (Body κ σ → World κ σ → Outcome (World κ σ) Ending)

/-- The world with another machine. -/
def withMachine (w : World κ σ) (machine : Machine κ) : World κ σ := { w with machine }

/-- Calls the value at a raw index with the slots above it as its frame. -/
def invoke (host : Host κ σ) (runner : Runner κ σ) (callee : Nat) (results : Int)
    (w : World κ σ) : Except RuntimeError Unit × World κ σ :=
  match runner with
  | none => (.error .callDepth, w)
  | some run =>
    let target := Value.orNil (w.machine.stack.value? callee)
    match host.body? w.machine target with
    | none => (.error (.notCallable target.tag), w)
    | some body =>
      let (outcome, after) := run body (w.withMachine (w.machine.enter callee))
      let left := after.machine.leave w.machine.base
      match outcome with
      | .ok (.ok reported) =>
        let (delivered, m) := left.deliver callee results reported
        (delivered, after.withMachine m)
      | .ok (.error e) => (.error e, after.withMachine left)
      | .error cause => (.error (.panicked cause), after.withMachine left)

/-- The message of an error as a value. -/
def messageOf (e : RuntimeError) : Value := .str (.ofString e.message)

/-- What a message handler makes of an error: its first result, or the message if it fails. -/
def handle (host : Host κ σ) (runner : Runner κ σ) (callee : Nat) (handler : Value)
    (e : RuntimeError) (w : World κ σ) : Value × World κ σ :=
  let prepared := w.withMachine (w.machine.settle callee [handler, messageOf e])
  match prepared.invoke host runner callee 1 with
  | (.ok (), after) =>
    (.orNil after.machine.stack.top?,
      after.withMachine (after.machine.withStack after.machine.stack.dropTop))
  | (.error _, after) => (messageOf e, after)

/-- Ends a failed call with one error object in the place of the callee and all above it. -/
def fail (callee : Nat) (object : Value) (w : World κ σ) : World κ σ :=
  w.withMachine (w.machine.settle callee [object])

/-- A protected call of the value below `arguments` arguments. -/
def protectedCall (host : Host κ σ) (runner : Runner κ σ) (arguments : Nat)
    (results handler : Int) (w : World κ σ) : Outcome (World κ σ) Status :=
  let m := w.machine
  if m.top ≤ arguments then (.error (.missingCallee arguments m.top), w)
  else
    let callee := m.stack.height - arguments - 1
    let attempt (handlerValue : Option Value) : Outcome (World κ σ) Status :=
      match w.invoke host runner callee results with
      | (.ok (), after) => (.ok .ok, after)
      | (.error e, after) =>
        let (object, after) :=
          match handlerValue with
          | none => (messageOf e, after)
          | some h => after.handle host runner callee h e
        (.ok .runtime, after.fail callee object)
    if handler = 0 then attempt none
    else
      match m.value? handler with
      | some h => attempt (some h)
      | none => (.error (.invalidPosition .protectedCall handler), w)

/-- Carries out one instruction. -/
def carryOut (host : Host κ σ) (runner : Runner κ σ) (w : World κ σ) :
    (i : Instruction κ σ) → Outcome (World κ σ) i.Reply
  | .primitive p =>
    let (reply, machine) := w.machine.perform p
    (reply, w.withMachine machine)
  | .call arguments results handler => w.protectedCall host runner arguments results handler
  | .panic cause => (.error cause, w)
  | .readMemory => (.ok w.memory, w)
  | .writeMemory memory => (.ok (), { w with memory })

end World

namespace Program

variable {α : Type}

/-- Runs a program, its calls by `runner`. A panic ends the run. -/
def runWith (host : Host κ σ) (runner : World.Runner κ σ) :
    Program κ σ α → World κ σ → Outcome (World κ σ) α
  | done a, w => (.ok a, w)
  | step i next, w =>
    match w.carryOut host runner i with
    | (.ok reply, after) => (next reply).runWith host runner after
    | (.error cause, after) => (.error cause, after)

end Program

/-- Runs a body whose own calls may nest `calls - 1` deep; none when no call is left. -/
def World.runner (host : Host κ σ) : (calls : Nat) → World.Runner κ σ
  | 0 => none
  | calls + 1 => some fun body w => body.runWith host (World.runner host calls) w

/-- How many calls may still be nested in a machine. -/
def Machine.callsLeft {κ : Type} (m : Machine κ) : Nat := m.limits.maxCallDepth - m.depth

/-- Runs a program as far as the machine's limit on nested calls allows. -/
def World.run {α : Type} (host : Host κ σ) (w : World κ σ) (p : Program κ σ α) :
    Outcome (World κ σ) α :=
  p.runWith host (World.runner host w.machine.callsLeft) w

end StackEmbedding
