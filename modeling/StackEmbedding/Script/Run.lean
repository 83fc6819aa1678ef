import StackEmbedding.Script.Native
import StackEmbedding.Script.Step
import StackEmbedding.Program.Run

/-!
# Running scripts

Each step is a host program over the script's memory (`Step.program`). A closure made by a script
runs its steps in order and reports each to the log when it completes, seen from the closure's own
frame; it ends at the first step that raises. A panic in a step of the top level is that step's
answer, and the next step goes on from whatever the panic left behind.
-/

namespace StackEmbedding.Script

/-- A host program of a script. -/
abbrev Action (α : Type) := Program Code Memory α

/-- The variables' memory with another variable. -/
def bind (name : String) (v : Variable) : Action Unit := .modifyMemory (·.bind name v)

/-- The handle of a variable; a variable that has none stands for an unbound handle. -/
def handleOf (name : String) : Action Handle := do
  match (← .memory).handle? name with
  | some h => return h
  | none => Handle.unbound

/-- The host value of an operand; a variable without value stands for nil. -/
def Operand.eval : Operand → Action HostValue
  | value v => return v
  | unbound => return .table (← Handle.unbound)
  | named name => return ((← .memory).value? name).getD .nil
  | present o => return .present (← o.eval)
  | variant o => return .variant (← o.eval).toVariant

/-- The values of operands, first to last. -/
def evalAll : List Operand → Action (List HostValue)
  | [] => return []
  | o :: rest => return (← o.eval) :: (← evalAll rest)

/-- The handle or variant to be stored when a read value is saved. -/
def saved? : HostValue → Option Variable
  | .table h => some (.handle h)
  | .variant v => some (.variant v)
  | .present v => saved? v
  | _ => none

/-- Stores a read value in a variable, if there is a name and something to store. -/
def save (name : Option String) (v : HostValue) : Action Unit :=
  match name, saved? v with
  | some name, some v => bind name v
  | _, _ => return

/-- Stores the results of a call. -/
def saveAll : List (Option String) → List HostValue → Action Unit
  | name :: names, v :: rest => do
    save name v
    saveAll names rest
  | _, _ => return

/-- The reply of a typed read, its value saved. -/
def readReply (mode : ReadMode) (name : Option String) (v : Option HostValue) : Action Reply := do
  if let some v := v then save name v
  match mode with
  | .answer => return .read v
  | .replace initial _ =>
    let (succeeded, held) := initial.received v
    return .replaced succeeded held

/-- The reply of a primitive that answers a runtime error or a type. -/
def typeReply : Except RuntimeError TypeTag → Reply
  | .ok t => .type t
  | .error e => .failed e

/-- The reply of a primitive that answers a runtime error or nothing. -/
def unitReply : Except RuntimeError Unit → Reply
  | .ok () => .done
  | .error e => .failed e

/-- A host without code, for machines on which nothing is called. -/
def silentHost : Host Empty Unit := ⟨fun _ => .done (.ok 0), fun code => code.elim⟩

/-- Offers a handle to another machine that holds one table: whether the handle equals that
table's handle, what pushing it there does, and the height there afterwards. -/
def offerElsewhere (h : Handle) : Reply :=
  let other : World Empty Unit := ⟨Machine.new 1 {}, ()⟩
  match other.run silentHost Handle.create with
  | (.error _, _) => .done
  | (.ok own, other) =>
    let (pushed, after) := other.run silentHost h.push
    .elsewhere (h = own) pushed after.machine.top

/-- The reply about an entry, which is stored in its variable. -/
def keepEntry (name : String) (stored : Bool) (e : Entry) : Action Reply := do
  bind name (.entry e)
  return .entry (some stored) e

/-- Goes on with the entry of a variable; without one the step does nothing. -/
def withEntry (name : String) (act : Entry → Action Reply) : Action Reply := do
  match (← .memory).bindings.get? name with
  | some (.entry e) => act e
  | _ => return .done

/-- Goes on with the guard of a variable; without one the step does nothing. -/
def withGuard (name : String) (act : Guard → Action Reply) : Action Reply := do
  match (← .memory).bindings.get? name with
  | some (.guard g) => act g
  | _ => return .done

/-- The program of a step: its reply, or the error that it raises. -/
def Step.program : Step → Action (Except RuntimeError Reply)
  | raise text => return .error (.raised text)
  | panic text => .panic (.host (some text))
  | insist s => do
    match ← s.program with
    | .ok (.failed e) => return .error e
    | r => return r
  | push o => do
    let v ← o.eval
    v.push
    return .ok (.live (← v.isLive))
  | pushRaw v => do .push v; return .ok .done
  | pop n => do .pop n; return .ok .done
  | setTop position => do .perform (.setTop position); return .ok .done
  | remove position => do .perform (.remove position); return .ok .done
  | insert position => do .perform (.insert position); return .ok .done
  | replace position => do .perform (.replace position); return .ok .done
  | copy source target => do .perform (.copy source target); return .ok .done
  | rotate position n => do .perform (.rotate position n); return .ok .done
  | pushValue position => do .perform (.pushValue position); return .ok .done
  | hasCapacity n => return .ok (.flag (← .perform (.hasCapacity n)))
  | size => return .ok (.size (← .top))
  | errorMessage position =>
    return .ok (.text (((← .value position).bind Value.toBytes?).map Bytes.lossy))
  | describe => return .ok .description
  | settings => return .ok .settings
  | absolute position => return .ok (.integer (← .absolute position))
  | value position => return .ok (.value (← .value position))
  | query position => return .ok (.query (← .value position))
  | slotId position name => do
    match ← .perform (.slotId position) with
    | some slot => do bind name (.slot slot); return .ok (.flag true)
    | none => return .ok (.flag false)
  | positionOf name => do
    match (← .memory).slot? name with
    | some slot => return .ok (.position (← .perform (.positionOf slot)))
    | none => return .ok (.position none)
  | sameSlot a b => do
    let memory ← .memory
    return .ok (.flag (memory.slot? a = memory.slot? b))
  | createTable => do .perform .createTable; return .ok .done
  | getTable position => return .ok (typeReply (← .perform (.getTable position)))
  | getField position name =>
    return .ok (typeReply (← .perform (.getField position (.ofString name))))
  | setTable position => return .ok (unitReply (← .perform (.setTable position)))
  | setField position name =>
    return .ok (unitReply (← .perform (.setField position (.ofString name))))
  | length position => return .ok (unitReply (← .perform (.length position)))
  | getGlobal name => return .ok (.type (← .perform (.getGlobal (.ofString name))))
  | setGlobal name => do .perform (.setGlobal (.ofString name)); return .ok .done
  | contents position => do
    match ← .value position with
    | some (.table id) => return .ok (.contents (some ((← .perform .snapshot).table id)))
    | _ => return .ok (.contents none)
  | call arguments results handler =>
    return .ok (.status (← .call arguments results handler))
  | pushClosure steps results => do .perform (.pushClosure ⟨steps, results⟩); return .ok .done
  | register name f => do Environment.register name f; return .ok .done
  | registerClosure name steps results => do
    Environment.registerClosure name ⟨steps, results⟩
    return .ok .done
  | callGlobal name handler drop arguments types names => do
    let result ← Environment.call name handler drop (← evalAll arguments) types
    if let .ok values := result then saveAll names values
    return .ok (.called result)
  | storeGlobal name o => return .ok (.flag (← Environment.setGlobal name (← o.eval)))
  | readGlobal name mode t var => do
    return .ok (← readReply mode var (← Environment.global name mode.keeps t))
  | read position mode t var => return .ok (← readReply mode var (← t.read position))
  | createHandle name => do bind name (.handle (← Handle.create)); return .ok .done
  | createGuard name => do bind name (.guard ⟨← Handle.create⟩); return .ok .done
  | unboundHandle name => do bind name (.handle (← Handle.unbound)); return .ok .done
  | bindHandle name position => do
    match ← Handle.bind? position with
    | some h => do bind name (.handle h); return .ok (.flag true)
    | none => return .ok (.flag false)
  | inspectHandle name => return .ok (.handle (← handleOf name))
  | storeField name key v => do
    let h ← handleOf name
    return .ok (.flag (← h.set (← key.eval) (← v.eval)))
  | readField name key mode t var => do
    let h ← handleOf name
    return .ok (← readReply mode var (← h.fetch (← key.eval) mode.keeps t))
  | handleLength name => return .ok (.length (← (← handleOf name).length))
  | sameHandle a b => return .ok (.flag ((← handleOf a) = (← handleOf b)))
  | offerElsewhere name => return .ok (Script.offerElsewhere (← handleOf name))
  | guard name handle => do
    bind name (.guard ⟨← handleOf handle⟩)
    return .ok .done
  | dropGuard name =>
    .ok <$> withGuard name fun g => do
      .modifyMemory (·.forget name)
      g.drop
      return .done
  | releaseGuard name =>
    .ok <$> withGuard name fun g => do
      bind name (.handle g.release)
      return .integer ((← g.release.position?).getD 0)
  | describeGuard name => .ok <$> withGuard name fun g => return .guard g
  | openEntry name handle key => do
    let e ← Entry.create (← handleOf handle) (← key.eval).toVariant
    bind name (.entry e)
    return .ok (.opened e)
  | assignEntry name o =>
    .ok <$> withEntry name fun e => do
      let (stored, e) ← e.assign (← o.eval).toVariant
      keepEntry name stored e
  | refreshEntry name =>
    .ok <$> withEntry name fun e => do
      let (refreshed, e) ← e.refresh
      keepEntry name refreshed e
  | inspectEntry name => .ok <$> withEntry name fun e => return .entry none e
  | takeCached name target =>
    .ok <$> withEntry name fun e => do
      .modifyMemory (·.forget name)
      bind target (.variant e.cached)
      return .variant e.cached
  | saveVariant name o => do
    bind name (.variant (← o.eval).toVariant)
    return .ok .done
  | inspectVariant o other =>
    return .ok (.variants (← o.eval).toVariant (← other.eval).toVariant)

/-- Runs steps in order, reporting each that completes; the error that one raises ends them. -/
def runSteps : List Step → Action (Except RuntimeError Unit)
  | [] => return .ok ()
  | s :: rest => do
    match ← s.program with
    | .error e => return .error e
    | .ok reply => do
      let machine ← .perform .snapshot
      .modifyMemory fun m => { m with log := ⟨reply, machine⟩ :: m.log }
      runSteps rest

/-- The body of a closure made by a script. -/
def Code.body (code : Code) : Action Ending := do
  match ← runSteps code.steps with
  | .error e => return .error e
  | .ok () =>
    match code.results with
    | .exactly n => return .ok n
    | .all => return .ok (← .top)

/-- The host that scripts run on. -/
def host : Host Code Memory := ⟨Native.body, Code.body⟩

/-- What a step of the top level came to. -/
structure Answer where
  outcome : Except Panic (Except RuntimeError Reply)
  machine : Machine Code
  /-- The reports of closure steps that completed during the step, in order. -/
  log : List Report

/-- Runs one step of the top level. -/
def runStep (w : World Code Memory) (s : Step) : Answer × World Code Memory :=
  let (outcome, after) := { w with memory := { w.memory with log := [] } }.run host s.program
  (⟨outcome, after.machine, after.memory.log.reverse⟩, after)

/-- Runs the steps of a script. -/
def runAll (w : World Code Memory) : List Step → List Answer
  | [] => []
  | s :: rest =>
    let (answer, after) := runStep w s
    answer :: runAll after rest

/-- Runs a script in a new environment. -/
def run (settings : Settings) (steps : List Step) : List Answer :=
  runAll ⟨Machine.new 0 settings.limits, ⟨∅, []⟩⟩ steps

end StackEmbedding.Script
