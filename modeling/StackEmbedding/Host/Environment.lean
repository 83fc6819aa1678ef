import StackEmbedding.Host.Field
import StackEmbedding.Text.Quoted

/-!
# Globals and typed calls

Globals are read and written with host types, and global functions are called with host values as
arguments and host types for their results.

**A typed call is strict.** If one declared result does not convert, the whole call fails with the
position of the first that does not, although the function ran. The results are popped in either
case when the caller asks for popping. A call that fails leaves one error object on the stack, but
for a call that is refused for lack of room, which pushes nothing.
-/

namespace StackEmbedding

variable {κ σ : Type}

/-- Why a typed call failed. -/
inductive CallError where
  /-- The global holds no function; nothing was called. -/
  | notAFunction (name : String)
  /-- The protected call failed. -/
  | failed (status : Status)
  /-- The declared result at this place, counted from one, did not convert. -/
  | mismatch (place : Nat)
  deriving DecidableEq

/-- The wording of a failed call. -/
def CallError.message : CallError → String
  | notAFunction name => s!"global '{name}' is not a function"
  | failed status => s!"call failed: {status.text}"
  | mismatch place => s!"result {place} has an unexpected type"

namespace Environment

/-- Makes a value a global, nil removing it, and answers whether that was done: a value with a
stale handle is refused. -/
def setGlobal (name : String) (value : HostValue) : Program κ σ Bool := do
  if !(← value.isLive) then return false
  value.push
  .perform (.setGlobal (.ofString name))
  return true

/-- Reads a global as a value of a type; with `keep` its slot stays. -/
def global (name : String) (keep : Bool) (t : HostType) : Program κ σ (Option HostValue) := do
  let _ ← .perform (.getGlobal (.ofString name))
  t.take keep

/-- Reads a global into an out-parameter that holds `held`. -/
def globalInto (name : String) (keep : Bool) (t : HostType) (held : HostValue) :
    Program κ σ (Bool × HostValue) :=
  return held.received (← global name keep t)

/-- Makes a native function a global. -/
def register (name : String) (f : Native) : Program κ σ Unit := do
  .push (.function f)
  .perform (.setGlobal (.ofString name))

/-- Makes a new closure a global. -/
def registerClosure (name : String) (code : κ) : Program κ σ Unit := do
  .perform (.pushClosure code)
  .perform (.setGlobal (.ofString name))

/-- Pushes values in order. -/
def pushAll : List HostValue → Program κ σ Unit
  | [] => return
  | v :: rest => do
    v.push
    pushAll rest

/-- Reads the results of the given types, the first of them at `position`; where one does not
convert, its place counted from `place`. -/
def readResults (position : Int) (place : Nat) :
    List HostType → Program κ σ (Except Nat (List HostValue))
  | [] => return .ok []
  | t :: rest => do
    match ← t.read position with
    | none => return .error place
    | some v => return (← readResults (position + 1) (place + 1) rest).map (v :: ·)

/-- Calls a global function. `handler` is the position of a message handler, zero for none; with
`drop` the results are popped after they were read. -/
def call (name : String) (handler : Int) (drop : Bool) (arguments : List HostValue)
    (types : List HostType) : Program κ σ (Except CallError (List HostValue)) := do
  let handler ← if handler = 0 then pure 0 else .absolute handler
  if !(← .perform (.hasCapacity (arguments.length + 1))) then return .error (.failed .memory)
  if (← .perform (.getGlobal (.ofString name))) ≠ .function then
    .pop 1
    return .error (.notAFunction name)
  pushAll arguments
  let status ← .call arguments.length types.length handler
  if !status.isOk then return .error (.failed status)
  let results ← readResults (-(types.length : Int)) 1 types
  if drop then .pop types.length
  return results.mapError .mismatch

/-- The diagnostic text of a named environment. -/
def diagnostic (name : String) (m : Machine κ) : String :=
  s!"Env \x7b name: {quoted name}, state: State \x7b top: {m.top}, base: {m.base}, " ++
    s!"depth: {m.depth} \x7d \x7d"

end Environment

end StackEmbedding
