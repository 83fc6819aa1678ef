import StackEmbedding.Host.Environment

/-!
# A collection of native functions

Native functions that exercise every way a call can end: results in any number, errors with fixed
and computed texts, panics with and without text, a false report, a breach of contract and
unbounded recursion. They are found by name; a name that is not in the collection does nothing.
-/

namespace StackEmbedding.Native

variable {κ σ : Type}

/-- The text of the value at a position, empty where it has none. -/
def textAt (position : Int) : Program κ σ String :=
  return ((← .value position).bind Value.toBytes?).elim "" Bytes.lossy

/-- The values of the frame, first to last. -/
def arguments : Program κ σ (List Value) := do
  let n ← .top
  (List.range n).mapM fun i => return .orNil (← .value (i + 1 : Nat))

/-- Pushes a text. -/
def pushText (s : String) : Program κ σ Unit := .push (.str (.ofString s))

/-- The integer at a position. -/
def integerAt (position : Int) : Program κ σ (Option Int64) :=
  return (← .value position).bind Value.toInt64?

def addOne : Program κ σ Ending := do
  let some n ← integerAt 1 | return .error (.raised "add_one: expected an integer")
  .push (.int (n + 1))
  return .ok 1

def double : Program κ σ Ending := do
  let some x := (← .value 1).bind Value.toBinary64?
    | return .error (.raised "double: not a number")
  .push (.number x.double)
  return .ok 1

def twoResults : Program κ σ Ending := do
  .push (.int 1)
  .push (.int 2)
  return .ok 2

def overReport : Program κ σ Ending := do
  .push (.int 1)
  return .ok 9

def decorate : Program κ σ Ending := do
  pushText ("handled: " ++ (← textAt 1))
  return .ok 1

def echoShifted : Program κ σ Ending := do
  let some n ← integerAt 1 | return .error (.raised "echo_shifted: a must be an integer")
  .push (.int (n + 1))
  .perform (.pushValue 2)
  .push .nil
  return .ok 3

def greeting : Program κ σ Ending := do
  pushText "hello"
  return .ok 1

def frameTop : Program κ σ Ending := do
  .push (.int (Int64.ofNat (← .top)))
  return .ok 1

def join : Program κ σ Ending := do
  let texts := (← arguments).map fun v => v.toBytes?.elim "nil" Bytes.lossy
  pushText (",".intercalate texts)
  return .ok 1

def kinds : Program κ σ Ending := do
  let values ← arguments
  pushText (" ".intercalate (values.map fun v => v.tag.name))
  .push (.int (Int64.ofNat values.length))
  return .ok 2

def recurse : Program κ σ Ending := do
  let _ ← .perform (.getGlobal (.ofString "recurse"))
  if (← .call 0 0 0).isOk then return .ok 0
  else return .error (.raised (← textAt (-1)))

def badPop : Program κ σ Ending := do
  .pop 100
  return .ok 0

/-- The code of a native function. -/
def body (f : Native) : Program κ σ Ending :=
  match f.name with
  | "add_one" => addOne
  | "double" => double
  | "fail" => return .error (.raised "boom")
  | "fail_arg" => return .error (.raised (← textAt 1))
  | "explode" => .panic (.host (some "native panic"))
  | "explode_owned" => do .panic (.host (some ("owned: " ++ (← textAt 1))))
  | "explode_any" => .panic (.host none)
  | "two_results" => twoResults
  | "over_report" => overReport
  | "decorate" => decorate
  | "echo_shifted" => echoShifted
  | "greeting" => greeting
  | "frame_top" => frameTop
  | "pass_all" => return .ok (← .top)
  | "join" => join
  | "kinds" => kinds
  | "recurse" => recurse
  | "bad_pop" => badPop
  | _ => return .ok 0

end StackEmbedding.Native
