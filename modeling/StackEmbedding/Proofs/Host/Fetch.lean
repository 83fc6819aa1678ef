import StackEmbedding.Proofs.Host.Read
import StackEmbedding.Proofs.Host.Store

/-!
# Reads through a handle and of globals

A read puts the value that it looks up on the stack, converts it there, and takes it off again
unless it is to be kept or the result refers to its slot. Both ways to look a field up, by name and
by a key on the stack, come to the same (`Handle.runWith_fetch`); they differ in the stamps they use
up.

**What is established here.**
* `World.taken`: the answer and the state of a read, as a function of the value that was looked up.
* `Handle.fetch_reads`, `Handle.length_reads`, `Environment.global_reads`: a read answers, changes
  no table and no global, and leaves at most the slot that it read.

A key may hold handles of its own machine only: pushing another one panics.
-/

set_option autoImplicit false

namespace StackEmbedding

variable {κ σ : Type} {host : Host κ σ} {runner : World.Runner κ σ} {w : World κ σ}

/-! ## What is looked up -/

namespace Machine

variable {m : Machine κ} {position : Int}

theorem GrownBy.spend (m : Machine κ) (stamps : Nat) : GrownBy [] m (m.spend stamps) :=
  ⟨rfl, rfl, rfl, rfl, rfl, (List.append_nil _).symm⟩

/-- The slot that a push makes, after some stamps were used up. -/
def nextSlot (m : Machine κ) (stamps : Nat) : SlotId :=
  ⟨m.stack.height, m.stack.nextStamp + stamps⟩

theorem slotId?_top (hbase : m.base ≤ m.stack.height) (v : Value) :
    (m.push v).slotId? (-1) = some (m.nextSlot 0) :=
  slotId?_eq_some_iff.mpr ⟨resolve?_top hbase v, v, slot_top m v⟩

/-- Looking up a name in a table of the frame. -/
theorem getField_table (hpositive : 0 < position) {id : TableId}
    (h : m.value? position = some (.table id)) (name : Bytes) :
    m.getField position name =
      (.ok (.ok ((m.table id).getField name).tag), m.push ((m.table id).getField name)) :=
  getField_eq hpositive ((value?_eq_some_iff hpositive).mp h)

/-- Looking up the key that was just pushed in a table of the frame. -/
theorem getTable_push (hpositive : 0 < position) {id : TableId}
    (h : m.value? position = some (.table id)) (key : Value) :
    (m.push key).getTable position =
      (.ok (.ok ((m.table id).get key).tag), (m.spend 1).push ((m.table id).get key)) := by
  have hcontents : (m.push key).stack.contents = m.stack.contents ++ [key] :=
    Stack.contents_push _ key
  rw [getTable_eq hpositive hcontents ((value?_eq_some_iff hpositive).mp h), dropTop_push]
  rfl

end Machine

/-! ## Taking what was looked up -/

/-- The slots that a read leaves: the one it read, if that is to be kept or the answer refers to
it. -/
def Machine.leftBehind (m : Machine κ) (stamps : Nat) (v : Value) (keep : Bool)
    (answer : Option HostValue) : List Slot :=
  if keep || answer.elim false HostValue.pinsSlot then [⟨v, m.stack.nextStamp + stamps⟩] else []

/-- What a read answers and leaves when it looked `v` up and used up some stamps before. -/
def World.taken (w : World κ σ) (stamps : Nat) (v : Value) (keep : Bool) (t : HostType) :
    Outcome (World κ σ) (Option HostValue) :=
  let answer := t.convert w.machine.identity (w.machine.nextSlot stamps) v
  (.ok answer, w.withMachine
    (if keep || answer.elim false HostValue.pinsSlot then (w.machine.spend stamps).push v
      else w.machine.spend (stamps + 1)))

/-- Taking the value that was just pushed. -/
theorem HostType.runWith_take (hbase : w.machine.base ≤ w.machine.stack.height) (stamps : Nat)
    (v : Value) (keep : Bool) (t : HostType) :
    (t.take keep : Program κ σ (Option HostValue)).runWith host runner
      (w.withMachine ((w.machine.spend stamps).push v)) = w.taken stamps v keep t := by
  have hbase' : (w.machine.spend stamps).base ≤ (w.machine.spend stamps).stack.height := hbase
  have hread : (t.read (-1) : Program κ σ (Option HostValue)).runWith host runner
      (w.withMachine ((w.machine.spend stamps).push v)) =
        (.ok (t.convert w.machine.identity (w.machine.nextSlot stamps) v),
          w.withMachine ((w.machine.spend stamps).push v)) :=
    HostType.runWith_read (w := w.withMachine ((w.machine.spend stamps).push v))
      (Machine.value?_top hbase' v) (Machine.slotId?_top hbase' v) t
  have hpop := Machine.pop_push hbase' v
  rw [take, Program.runWith_bind, hread, World.taken]
  dsimp only
  rw [← Bool.not_or]
  cases keep || (t.convert w.machine.identity (w.machine.nextSlot stamps) v).elim false
    HostValue.pinsSlot with
  | true => rfl
  | false => exact Program.runWith_perform_bind (p := .pop 1) hpop

/-- A state that differs in nothing but slots on top of the frame. -/
structure World.OnlyGrown (above : List Slot) (w after : World κ σ) : Prop where
  grown : w.machine.GrownBy above after.machine
  tables : after.machine.tables = w.machine.tables
  globals : after.machine.globals = w.machine.globals
  memory : after.memory = w.memory

theorem World.OnlyGrown.refl (w : World κ σ) : w.OnlyGrown [] w := ⟨.refl _, rfl, rfl, rfl⟩

theorem World.onlyGrown_spend (w : World κ σ) (stamps : Nat) :
    w.OnlyGrown [] (w.withMachine (w.machine.spend stamps)) := ⟨.spend _ stamps, rfl, rfl, rfl⟩

theorem World.onlyGrown_push (w : World κ σ) (v : Value) :
    w.OnlyGrown [⟨v, w.machine.stack.nextStamp⟩] (w.withMachine (w.machine.push v)) :=
  ⟨.push _ v, rfl, rfl, rfl⟩

/-- A program that leaves the slots of its frame leaves the frame. -/
theorem World.SameFrame.grown {α : Type} {after : World κ σ}
    (hbase : w.machine.base ≤ w.machine.stack.height) {p : Program κ σ α} {result : Except Panic α}
    (hrun : w.run host p = (result, after)) (h : w.SameFrame after) :
    w.machine.GrownBy [] after.machine := by
  have hevolves := run_evolves host hbase p
  rw [hrun] at hevolves
  refine ⟨hevolves.identity, hevolves.limits, h.base, h.depth, h.closures, ?_⟩
  rw [h.slots, List.append_nil]

theorem World.taken_reads (w : World κ σ) (stamps : Nat) (v : Value) (keep : Bool) (t : HostType) :
    ∃ after, w.taken stamps v keep t =
        (.ok (t.convert w.machine.identity (w.machine.nextSlot stamps) v), after) ∧
      w.OnlyGrown (w.machine.leftBehind stamps v keep
        (t.convert w.machine.identity (w.machine.nextSlot stamps) v)) after := by
  rw [taken, Machine.leftBehind]
  refine ⟨_, rfl, ?_⟩
  split
  · exact ⟨(Machine.GrownBy.spend w.machine stamps).trans (.push (w.machine.spend stamps) v), rfl,
      rfl, rfl⟩
  · exact w.onlyGrown_spend (stamps + 1)

theorem Machine.length_leftBehind (m : Machine κ) (stamps : Nat) (v : Value) (keep : Bool)
    (answer : Option HostValue) :
    (m.leftBehind stamps v keep answer).length =
      if keep || answer.elim false HostValue.pinsSlot then 1 else 0 := by
  rw [leftBehind]
  split <;> rfl

/-! ## Fields -/

namespace Handle

variable {h : Handle} {p : Int} {id : TableId}

theorem base_le_of_locate {m : Machine κ} (hp : h.locate m = some p) :
    m.base ≤ m.stack.height := by
  obtain ⟨-, hslot, -⟩ := table_of_locate hp
  obtain ⟨slot, -, hposition⟩ := Option.bind_eq_some_iff.mp hslot
  obtain ⟨hle, ⟨v, hheld⟩, -⟩ := Machine.positionOf?_eq_some_iff.mp hposition
  exact Nat.le_trans hle (Nat.le_of_lt (List.getElem?_eq_some_iff.mp hheld).1)

/-- A handle for the slot that a push made of a table is found on top, and stands for the table. -/
theorem locate_top {m : Machine κ} (hbase : m.base ≤ m.stack.height) (id : TableId) :
    locate (m.push (.table id)) ⟨m.identity, some (m.nextSlot 0)⟩ =
        some ((m.push (.table id)).top : Int) ∧
      runtime (m.push (.table id)) ⟨m.identity, some (m.nextSlot 0)⟩ = .table id := by
  have htop : (m.push (.table id)).top = (m.nextSlot 0).index - (m.push (.table id)).base + 1 :=
    (Machine.GrownBy.push m (.table id)).top hbase
  rw [htop]
  exact locate_of_held hbase (Machine.slot_top m _)

/-- A read through a stale handle answers nothing and does nothing. -/
theorem runWith_fetch_stale (hp : h.locate w.machine = none) (key : HostValue) (keep : Bool)
    (t : HostType) : (h.fetch key keep t).runWith host runner w = (.ok none, w) := by
  rw [fetch, Program.runWith_bind, runWith_position?, hp]
  rfl

/-- A read through a handle takes what the table holds under the key. -/
theorem runWith_fetch (host : Host κ σ) (runner : World.Runner κ σ)
    (hp : h.locate w.machine = some p) (hid : h.runtime w.machine = .table id) {key : HostValue}
    (howner : ∀ h ∈ key.handles, h.owner = w.machine.identity) (keep : Bool) (t : HostType) :
    ∃ stamps, (h.fetch key keep t).runWith host runner w =
      w.taken stamps ((w.machine.table id).get (key.runtime w.machine)) keep t := by
  have hbase := base_le_of_locate hp
  have hnamed : w.machine.value? p = some (.table id) := by rw [runtime_of_locate hp, hid]
  unfold fetch
  rw [Program.runWith_bind, runWith_position?, hp]
  dsimp only
  cases hname : key.fieldName? with
  | some name =>
    refine ⟨0, ?_⟩
    rw [← HostType.runWith_take hbase, HostValue.runtime_of_fieldName? hname]
    exact Program.runWith_perform_bind (p := .getField p name)
      (Machine.getField_table (positive_of_locate hp) hnamed name)
  | none =>
    refine ⟨1, ?_⟩
    dsimp only
    rw [← HostType.runWith_take hbase, HostValue.runWith_push_bind howner]
    exact Program.runWith_perform_bind (p := .getTable p)
      (w := w.withMachine (w.machine.push (key.runtime w.machine)))
      (Machine.getTable_push (positive_of_locate hp) hnamed (key.runtime w.machine))

/-- A read through a handle answers nothing where the handle is stale, and else what the table holds
under the key as a value of the type. It leaves the slot it read if that is to be kept or the answer
refers to it, and changes nothing else. -/
theorem fetch_reads (host : Host κ σ) (runner : World.Runner κ σ) (w : World κ σ) (h : Handle)
    {key : HostValue} (howner : ∀ h ∈ key.handles, h.owner = w.machine.identity) (keep : Bool)
    (t : HostType) :
    ∃ answer above after, (h.fetch key keep t).runWith host runner w = (.ok answer, after) ∧
      w.OnlyGrown above after ∧
      above.length = if keep then (if (h.locate w.machine).isSome then 1 else 0)
        else if answer.elim false HostValue.pinsSlot then 1 else 0 := by
  cases hp : h.locate w.machine with
  | none =>
    refine ⟨none, [], w, runWith_fetch_stale hp key keep t, .refl w, ?_⟩
    cases keep <;> rfl
  | some p =>
    obtain ⟨id, hid⟩ := runtime_eq_table hp
    obtain ⟨stamps, hrun⟩ := runWith_fetch host runner hp hid howner keep t
    obtain ⟨after, htaken, hgrown⟩ :=
      w.taken_reads stamps ((w.machine.table id).get (key.runtime w.machine)) keep t
    refine ⟨_, _, after, hrun.trans htaken, hgrown, ?_⟩
    rw [Machine.length_leftBehind]
    cases keep <;> rfl

/-- The length of a table. The slot that the machine pushes for it is popped again. -/
theorem runWith_length (host : Host κ σ) (runner : World.Runner κ σ)
    (hp : h.locate w.machine = some p) (hid : h.runtime w.machine = .table id) :
    (h.length : Program κ σ Int64).runWith host runner w =
      (.ok (Int64.ofNat (w.machine.table id).border), w.withMachine (w.machine.spend 1)) := by
  have hbase := base_le_of_locate hp
  have hnamed : w.machine.value? p = some (.table id) := by rw [runtime_of_locate hp, hid]
  unfold length
  rw [Program.runWith_bind, runWith_position?, hp]
  dsimp only
  have hpositive := positive_of_locate hp
  have hlength := Machine.length_eq hpositive ((Machine.value?_eq_some_iff hpositive).mp hnamed)
  rw [Program.runWith_perform_bind (p := .length p) hlength,
    Program.runWith_value_bind (Machine.value?_top hbase _)]
  exact Program.runWith_perform_bind (p := .pop 1) (Machine.pop_push hbase _)

theorem length_reads (host : Host κ σ) (runner : World.Runner κ σ) (w : World κ σ) (h : Handle) :
    ∃ n after, (h.length : Program κ σ Int64).runWith host runner w = (.ok n, after) ∧
      w.OnlyGrown [] after := by
  cases hp : h.locate w.machine with
  | none =>
    refine ⟨0, w, ?_, .refl w⟩
    rw [length, Program.runWith_bind, runWith_position?, hp]
    rfl
  | some p =>
    obtain ⟨id, hid⟩ := runtime_eq_table hp
    exact ⟨_, _, runWith_length host runner hp hid, w.onlyGrown_spend 1⟩

end Handle

/-! ## Globals -/

namespace Environment

/-- A read of a global takes what the global is. -/
theorem runWith_global (hbase : w.machine.base ≤ w.machine.stack.height) (name : String)
    (keep : Bool) (t : HostType) :
    (global name keep t : Program κ σ (Option HostValue)).runWith host runner w =
      w.taken 0 (w.machine.globals.getField (.ofString name)) keep t := by
  rw [global, ← HostType.runWith_take hbase]
  exact Program.runWith_perform_bind (p := .getGlobal (.ofString name)) rfl

/-- A read of a global leaves the slot it read if that is to be kept or the answer refers to it, and
changes nothing else. -/
theorem global_reads (host : Host κ σ) (runner : World.Runner κ σ) {w : World κ σ}
    (hbase : w.machine.base ≤ w.machine.stack.height) (name : String) (keep : Bool) (t : HostType) :
    ∃ answer above after, (global name keep t : Program κ σ _).runWith host runner w =
        (.ok answer, after) ∧ w.OnlyGrown above after ∧
      above.length = if keep || answer.elim false HostValue.pinsSlot then 1 else 0 := by
  obtain ⟨after, htaken, hgrown⟩ :=
    w.taken_reads 0 (w.machine.globals.getField (.ofString name)) keep t
  exact ⟨_, _, after, (runWith_global hbase name keep t).trans htaken, hgrown,
    Machine.length_leftBehind _ _ _ _ _⟩

end Environment

end StackEmbedding
