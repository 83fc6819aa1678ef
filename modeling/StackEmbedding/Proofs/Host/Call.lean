import StackEmbedding.Proofs.Host.CallFailure
import StackEmbedding.Proofs.Host.Store
import StackEmbedding.Proofs.Machine.Position

/-!
# A typed call up to its protected call

A typed call looks up its function and pushes the arguments, and the protected call that follows
finds them on top of the frame that the caller had (`World.poised`). A typed call of a function is
that protected call and what `Environment.conclude` makes of its status (`callAt_function`); a
global that is no function is taken off the stack again (`callAt_notAFunction`).
-/

set_option autoImplicit false

namespace StackEmbedding

variable {κ σ : Type} {host : Host κ σ} {runner : World.Runner κ σ} {w : World κ σ}

/-- The world before the protected call of a typed call. -/
def World.poised (w : World κ σ) (f : Value) (arguments : List HostValue) : World κ σ :=
  w.withMachine (w.machine.withStack
    (w.machine.stack.pushAll (f :: arguments.map (HostValue.runtime w.machine))))

/-- What a look-up of a handler makes of what it found at a position. -/
def handlerAt (callee : Nat) (position : Int) : Option Value → Except Panic (Nat × Option Value)
  | some h => .ok (callee, some h)
  | none => .error (.invalidPosition .protectedCall position)

namespace World

theorem values_poised (hbase : w.machine.base ≤ w.machine.stack.height) (f : Value)
    (arguments : List HostValue) :
    (w.poised f arguments).machine.values =
      w.machine.values ++ f :: arguments.map (HostValue.runtime w.machine) :=
  Stack.valuesFrom_pushAll _ hbase

theorem height_poised (f : Value) (arguments : List HostValue) :
    (w.poised f arguments).machine.stack.height =
      w.machine.stack.height + arguments.length + 1 := by
  show (w.machine.stack.pushAll _).height = _
  rw [Stack.height_pushAll, List.length_cons, List.length_map, Nat.add_assoc]

/-- The callee of a typed call is the function, and its handler what the position names now. -/
theorem checkCall_poised (hbase : w.machine.base ≤ w.machine.stack.height) (f : Value)
    (arguments : List HostValue) (position : Int) :
    (w.poised f arguments).machine.checkCall arguments.length position =
      if position = 0 then .ok (w.machine.stack.height, none)
      else handlerAt w.machine.stack.height position
        ((w.poised f arguments).machine.value? position) := by
  have htop : arguments.length < (w.poised f arguments).machine.top := by
    rw [← Machine.length_values, values_poised hbase, List.length_append, List.length_cons,
      List.length_map]
    omega
  have hcallee : (w.poised f arguments).machine.stack.height - arguments.length - 1 =
      w.machine.stack.height := by
    rw [height_poised]
    omega
  rw [Machine.checkCall, if_neg (Nat.not_le_of_lt htop)]
  dsimp only
  rw [hcallee]
  by_cases hzero : position = 0
  · rw [if_pos hzero, if_pos hzero]
  · rw [if_neg hzero, if_neg hzero]
    cases (w.poised f arguments).machine.value? position <;> rfl

end World

namespace Environment

/-- What follows the protected call of a typed call. -/
def conclude (drop : Bool) (types : List HostType) (status : Status) :
    Program κ σ (Except CallError (List HostValue)) := do
  if !status.isOk then return .error (.failed status)
  let results ← readResults (-(types.length : Int)) 1 types
  if drop then .pop types.length
  return results.mapError .mismatch

/-- What a protected call comes to as a typed call. -/
def concluded (host : Host κ σ) (runner : World.Runner κ σ) (drop : Bool)
    (types : List HostType) :
    Outcome (World κ σ) Status → Outcome (World κ σ) (Except CallError (List HostValue))
  | (.ok status, after) => (conclude drop types status).runWith host runner after
  | (.error cause, after) => (.error cause, after)

/-- The position at which a typed call has its handler looked up. -/
def handlerPosition (m : Machine κ) (handler : Int) : Int :=
  if handler = 0 then 0 else m.absolute handler

variable {name : String} {handler : Int} {drop : Bool} {arguments : List HostValue}
  {types : List HostType}

theorem runWith_call_eq :
    (call name handler drop arguments types : Program κ σ _).runWith host runner w =
      (callAt name drop arguments types (handlerPosition w.machine handler)).runWith host runner
        w := by
  have hposition : (if handler = 0 then pure 0 else Program.absolute handler :
      Program κ σ Int).runWith host runner w = (.ok (handlerPosition w.machine handler), w) := by
    unfold handlerPosition
    split
    · rfl
    · exact Program.runWith_absolute_eq handler
  rw [call_eq_callAt, Program.runWith_bind, hposition]

/-- With room for its operands a typed call pushes the global and goes by its type. -/
theorem callAt_of_room (hroom : w.machine.hasCapacity (arguments.length + 1) = true) :
    (callAt name drop arguments types handler).runWith host runner w =
      (if (w.machine.globals.getField (.ofString name)).tag ≠ .function then do
        Program.pop 1
        return .error (.notAFunction name)
      else do
        pushAll arguments
        let status ← Program.call arguments.length types.length handler
        conclude drop types status : Program κ σ _).runWith host runner
          (w.withMachine (w.machine.push (w.machine.globals.getField (.ofString name)))) := by
  have hfits : (Program.perform (.hasCapacity (arguments.length + 1)) :
      Program κ σ Bool).runWith host runner w = (.ok true, w) := by
    rw [Program.runWith_perform, ← hroom]
    rfl
  have hfetch : w.machine.perform (.getGlobal (.ofString name)) =
    (.ok (w.machine.globals.getField (.ofString name)).tag,
      w.machine.push (w.machine.globals.getField (.ofString name))) := rfl
  unfold callAt
  rw [Program.runWith_guard hfits, if_pos rfl, Program.runWith_perform_bind hfetch]
  rfl

/-- A typed call of a function is the protected call of it on what the arguments stand for. -/
theorem callAt_function (hroom : w.machine.hasCapacity (arguments.length + 1) = true)
    (hfunction : (w.machine.globals.getField (.ofString name)).tag = .function)
    (harguments : ∀ v ∈ arguments, v.BelongsTo w.machine) :
    (callAt name drop arguments types handler).runWith host runner w =
      concluded host runner drop types
        ((w.poised (w.machine.globals.getField (.ofString name)) arguments).protectedCall host
          runner arguments.length types.length handler) := by
  rw [callAt_of_room hroom, if_neg (not_not.mpr hfunction)]
  generalize w.machine.globals.getField (.ofString name) = f
  obtain ⟨hbelong, hkept⟩ := HostValue.map_runtime_push harguments f
  have hpushed : (pushAll arguments : Program κ σ Unit).runWith host runner
      (w.withMachine (w.machine.push f)) = (.ok (), w.poised f arguments) := by
    rw [runWith_pushAll_eq (w := w.withMachine (w.machine.push f)) hbelong]
    show (_, w.withMachine (w.machine.withStack ((w.machine.stack.push f).pushAll
      (arguments.map (HostValue.runtime (w.machine.push f)))))) = _
    rw [hkept, Stack.pushAll_push]
    rfl
  rw [Program.runWith_bind, hpushed]
  dsimp only
  rw [Program.runWith_bind, Program.runWith_call]
  rcases (w.poised f arguments).protectedCall host runner arguments.length types.length handler with
    ⟨_ | _, after⟩ <;> rfl

/-- A typed call of anything else takes it off the stack again. -/
theorem callAt_notAFunction (hbase : w.machine.base ≤ w.machine.stack.height)
    (hroom : w.machine.hasCapacity (arguments.length + 1) = true)
    (hother : (w.machine.globals.getField (.ofString name)).tag ≠ .function) :
    (callAt name drop arguments types handler).runWith host runner w =
      (.ok (.error (.notAFunction name)), w.withMachine (w.machine.spend 1)) := by
  rw [callAt_of_room hroom, if_pos hother]
  exact Program.runWith_perform_bind (Machine.pop_push hbase _)

end Environment

end StackEmbedding
