import StackEmbedding.Proofs.Host.Runtime
import StackEmbedding.Proofs.Machine.Operands
import StackEmbedding.Proofs.Table.Entries

/-!
# Stores are all or nothing

A store through a handle looks at the table, the key and the value before it pushes anything, and
the machine takes what was pushed off the stack again whether it stores it or not. What a store
leaves is therefore the machine that it found, with some stamps used up, and one entry of one table
changed if it stored. Key and value are pushed one above the other; each stands for what it stood
for before, since neither holds a stale handle.

**What is established here.**
* `Handle.runWith_set`: the store as one update of one table, where nothing stands in its way.
* `Handle.tables_set`: however a store ends, it changes no table but the one that its handle names.
* `stores_all_or_nothing`: when a store is refused, in a table or as a global, and what it leaves.
-/

set_option autoImplicit false

namespace StackEmbedding

variable {κ σ : Type} {host : Host κ σ} {runner : World.Runner κ σ} {w : World κ σ}

/-! ## Taking off what was pushed -/

namespace Machine

variable {m n : Machine κ} {position : Int} {target : Value}

/-- The machine with some stamps used up. -/
def spend (m : Machine κ) (stamps : Nat) : Machine κ :=
  m.withStack { m.stack with nextStamp := m.stack.nextStamp + stamps }

theorem dropTop_push (m : Machine κ) (v : Value) :
    (m.push v).withStack (m.push v).stack.dropTop = m.spend 1 := by
  show m.withStack (m.stack.push v).dropTop = m.spend 1
  rw [Stack.dropTop_push]
  rfl

theorem dropTop_push_push (m : Machine κ) (v₁ v₂ : Value) :
    ((m.push v₁).push v₂).withStack ((m.push v₁).push v₂).stack.dropTop.dropTop = m.spend 2 := by
  show m.withStack ((m.stack.push v₁).push v₂).dropTop.dropTop = m.spend 2
  have hsecond : ((m.stack.push v₁).push v₂).dropTop.slots = (m.stack.push v₁).slots := by
    rw [Stack.dropTop_push]
  have hslots : ((m.stack.push v₁).push v₂).dropTop.dropTop.slots = m.stack.slots := by
    rw [Stack.dropTop, Stack.truncate, Stack.height, hsecond]
    show (m.stack.push v₁).dropTop.slots = m.stack.slots
    rw [Stack.dropTop_push]
  exact congrArg (fun slots => m.withStack ⟨slots, m.stack.nextStamp + 2⟩) hslots

/-- Popping what was just pushed. -/
theorem pop_push (hbase : m.base ≤ m.stack.height) (v : Value) :
    (m.push v).pop 1 = (.ok (), m.spend 1) := by
  have htop : 1 ≤ (m.push v).top := by
    rw [(GrownBy.push m v).top hbase]
    exact Nat.le_add_left 1 m.top
  rw [pop, if_pos htop, Stack.resize, if_pos (Nat.sub_le _ _)]
  exact congrArg (Prod.mk _) (m.dropTop_push v)

/-- Storing what was just pushed under a name. -/
theorem setField_push (hpositive : 0 < position) (h : m.value? position = some target)
    (name : Bytes) (v : Value) :
    (m.push v).setField position name = (m.spend 1).store .setField target (.str name) v := by
  have hcontents : (m.push v).stack.contents = m.stack.contents ++ [v] := Stack.contents_push _ v
  rw [setField_eq hpositive hcontents ((value?_eq_some_iff hpositive).mp h), dropTop_push]

/-- Storing what was just pushed under the key that was pushed before it. -/
theorem setTable_push_push (hpositive : 0 < position) (h : m.value? position = some target)
    (key v : Value) :
    ((m.push key).push v).setTable position = (m.spend 2).store .setTable target key v := by
  have hcontents : ((m.push key).push v).stack.contents = m.stack.contents ++ [key, v] := by
    show ((m.stack.push key).push v).contents = _
    rw [Stack.contents_push, Stack.contents_push, List.append_assoc]
    rfl
  rw [setTable_eq hpositive hcontents ((value?_eq_some_iff hpositive).mp h), dropTop_push_push]

/-- Making what was just pushed a global. -/
theorem setGlobal_push (hbase : m.base ≤ m.stack.height) (name : Bytes) (v : Value) :
    (m.push v).setGlobal name =
      (.ok (), { m.spend 1 with globals := m.globals.setKey (.str name) v }) := by
  have hoperand : ¬ (m.push v).top < 1 := by
    have hheight : (m.push v).stack.height = m.stack.height + 1 := Stack.height_push v
    rw [top, hheight]
    show ¬ m.stack.height + 1 - m.base < 1
    omega
  have htop : (m.push v).stack.top? = some v := Stack.top?_push v
  have hdropped : (m.push v).stack.dropTop = (m.spend 1).stack := congrArg stack (m.dropTop_push v)
  rw [setGlobal, if_neg hoperand, htop, hdropped]
  rfl

end Machine

/-! ## Stores through a handle -/

/-- The name of a key is what the key stands for. -/
theorem HostValue.runtime_of_fieldName? {key : HostValue} {name : Bytes}
    (h : key.fieldName? = some name) (m : Machine κ) : key.runtime m = .str name := by
  cases key with
  | text s =>
    cases h
    rfl
  | runtimeString b =>
    obtain ⟨-, hname⟩ := Option.ite_none_right_eq_some.mp h
    cases hname
    rfl
  | variant v =>
    cases v with
    | str b =>
      obtain ⟨-, hname⟩ := Option.ite_none_right_eq_some.mp h
      cases hname
      rfl
    | unset | int _ | bool _ | number _ | function _ | table _ | nil => cases h
  | int _ _ | float64 _ | float32 _ | bool _ | bytes _ | native _ | nil | table _ | absent
  | present _ => cases h

/-- What storing a value under a key of the table `id` answers and leaves. A key that no table takes
is refused. -/
def World.stored (w : World κ σ) (stamps : Nat) (id : TableId) (key value : Value) :
    Outcome (World κ σ) Bool :=
  match (w.machine.table id).set key value with
  | .ok t =>
    (.ok true, w.withMachine
      { w.machine.spend stamps with tables := w.machine.tables.set id t })
  | .error _ => (.ok false, w.withMachine (w.machine.spend stamps))

theorem World.store_stored (w : World κ σ) (stamps : Nat) (operation : Operation) (id : TableId)
    (key value : Value) :
    ∃ reply m, (w.machine.spend stamps).store operation (.table id) key value = (.ok reply, m) ∧
      w.stored stamps id key value = (.ok reply.toBool, w.withMachine m) := by
  cases hset : (w.machine.table id).set key value with
  | ok t =>
    refine ⟨.ok (), { w.machine.spend stamps with tables := w.machine.tables.set id t },
      Machine.store_accepted hset, ?_⟩
    rw [stored, hset]
    rfl
  | error e =>
    refine ⟨.error e, w.machine.spend stamps, Machine.store_refused hset, ?_⟩
    rw [stored, hset]
    rfl

namespace Handle

theorem runtime_eq_table {m : Machine κ} {h : Handle} {p : Int} (hp : h.locate m = some p) :
    ∃ id, h.runtime m = .table id := by
  obtain ⟨-, -, id, hid⟩ := table_of_locate hp
  exact ⟨id, Option.some.inj ((runtime_of_locate hp).symm.trans hid)⟩

/-- A store through a stale handle, or of a stale handle, is refused before anything is pushed. -/
theorem runWith_set_refused {h : Handle} {key value : HostValue}
    (hstale : ¬ ((h.locate w.machine).isSome = true ∧ key.Live w.machine ∧
      value.Live w.machine)) :
    (h.set key value).runWith host runner w = (.ok false, w) := by
  unfold set
  rw [Program.runWith_bind, runWith_position?]
  cases hp : h.locate w.machine with
  | none => rfl
  | some p =>
    dsimp only
    rw [Program.runWith_guard (key.runWith_isLive host runner w)]
    split
    next hkey =>
      rw [Program.runWith_guard (value.runWith_isLive host runner w)]
      split
      next hvalue =>
        refine absurd ⟨?_, List.all_eq_true.mp hkey, List.all_eq_true.mp hvalue⟩ hstale
        rw [hp, Option.isSome_some]
      next => rfl
    next => rfl

/-- A store with nothing stale about it is one update of the table that the handle names. -/
theorem runWith_set (host : Host κ σ) (runner : World.Runner κ σ) {h : Handle}
    {key value : HostValue} {p : Int} {id : TableId}
    (hp : h.locate w.machine = some p) (hid : h.runtime w.machine = .table id)
    (hkey : key.Live w.machine) (hvalue : value.Live w.machine) :
    ∃ stamps, (h.set key value).runWith host runner w =
      w.stored stamps id (key.runtime w.machine) (value.runtime w.machine) := by
  have hpositive := positive_of_locate hp
  have hnamed : w.machine.value? p = some (.table id) := by rw [runtime_of_locate hp, hid]
  unfold set
  rw [Program.runWith_bind, runWith_position?, hp]
  dsimp only
  rw [Program.runWith_guard (key.runWith_isLive host runner w), if_pos (List.all_eq_true.mpr hkey),
    Program.runWith_guard (value.runWith_isLive host runner w),
    if_pos (List.all_eq_true.mpr hvalue)]
  cases hname : key.fieldName? with
  | some name =>
    refine ⟨1, ?_⟩
    obtain ⟨reply, m, hstore, hstored⟩ :=
      w.store_stored 1 .setField id (key.runtime w.machine) (value.runtime w.machine)
    rw [HostValue.runtime_of_fieldName? hname,
      ← Machine.setField_push hpositive hnamed name] at hstore
    rw [hstored]
    dsimp only
    rw [HostValue.runWith_push_bind hvalue.owner]
    exact Program.runWith_perform_bind hstore
  | none =>
    refine ⟨2, ?_⟩
    obtain ⟨reply, m, hstore, hstored⟩ :=
      w.store_stored 2 .setTable id (key.runtime w.machine) (value.runtime w.machine)
    -- The value is pushed above the key, and stands there for what it stood for before.
    obtain ⟨hvalue', hsame⟩ := hvalue.grown (.push _ (key.runtime w.machine))
    rw [← Machine.setTable_push_push hpositive hnamed, ← hsame] at hstore
    rw [hstored]
    dsimp only
    rw [HostValue.runWith_push_bind hkey.owner, HostValue.runWith_push_bind
      (w := w.withMachine (w.machine.push (key.runtime w.machine))) hvalue'.owner]
    exact Program.runWith_perform_bind hstore

/-- Either something about a store is stale, or the handle names a table. -/
theorem stale_or_named (w : World κ σ) (h : Handle) (key value : HostValue) :
    ¬ ((h.locate w.machine).isSome = true ∧ key.Live w.machine ∧ value.Live w.machine) ∨
      ∃ p id, h.locate w.machine = some p ∧ h.runtime w.machine = .table id ∧
        key.Live w.machine ∧ value.Live w.machine := by
  by_cases hall : (h.locate w.machine).isSome = true ∧ key.Live w.machine ∧ value.Live w.machine
  · obtain ⟨hfound, hkey, hvalue⟩ := hall
    obtain ⟨p, hp⟩ := Option.isSome_iff_exists.mp hfound
    obtain ⟨id, hid⟩ := runtime_eq_table hp
    exact .inr ⟨p, id, hp, hid, hkey, hvalue⟩
  · exact .inl hall

/-- A store through a handle changes no table but the one the handle names. -/
theorem tables_set (h : Handle) (key value : HostValue) {t : TableId}
    (hother : ∀ p, h.locate w.machine = some p → w.machine.value? p ≠ some (.table t)) :
    ((h.set key value).runWith host runner w).2.machine.tables.get? t =
      w.machine.tables.get? t := by
  obtain hstale | ⟨p, id, hp, hid, hkey, hvalue⟩ := stale_or_named w h key value
  · rw [runWith_set_refused hstale]
  · have hne : t ≠ id := by
      rintro rfl
      exact hother p hp (by rw [runtime_of_locate hp, hid])
    obtain ⟨stamps, hrun⟩ := runWith_set host runner hp hid hkey hvalue
    rw [hrun, World.stored]
    split
    · simp only [World.withMachine, Heap.get?_set, if_neg hne]
    · rfl

end Handle

/-! ## All or nothing -/

/-- The machine has the frame it had, slots with their stamps, and the memory of the host and all
else but tables and globals is the same. -/
structure World.SameFrame (w after : World κ σ) : Prop where
  slots : after.machine.stack.slots = w.machine.stack.slots
  base : after.machine.base = w.machine.base
  depth : after.machine.depth = w.machine.depth
  closures : after.machine.closures = w.machine.closures
  memory : after.memory = w.memory

/-- Nothing was stored. -/
structure World.Unchanged (w after : World κ σ) : Prop extends w.SameFrame after where
  tables : after.machine.tables = w.machine.tables
  globals : after.machine.globals = w.machine.globals

/-- The entry under a key of one table was changed and nothing else. -/
structure World.Updated (id : TableId) (k : Key) (v : Value) (w after : World κ σ) : Prop
    extends w.SameFrame after where
  entry : (w.machine.table id).Updated k v (after.machine.table id)
  others : ∀ other, other ≠ id → after.machine.tables.get? other = w.machine.tables.get? other
  globals : after.machine.globals = w.machine.globals

/-- One global was changed and nothing else. -/
structure World.GlobalUpdated (name : Bytes) (v : Value) (w after : World κ σ) : Prop
    extends w.SameFrame after where
  entry : w.machine.globals.Updated (.str name) v after.machine.globals
  tables : after.machine.tables = w.machine.tables

theorem World.unchanged_spend (w : World κ σ) (stamps : Nat) :
    w.Unchanged (w.withMachine (w.machine.spend stamps)) := ⟨⟨rfl, rfl, rfl, rfl, rfl⟩, rfl, rfl⟩

theorem World.stored_eq_ok (w : World κ σ) (stamps : Nat) (id : TableId) {key : Value}
    (value : Value) {k : Key} (hk : Key.ofValue? key = some k) :
    ∃ after, w.stored stamps id key value = (.ok true, after) ∧ w.Updated id k value after := by
  have hset : (w.machine.table id).set key value = .ok ((w.machine.table id).setKey k value) := by
    rw [Table.set, hk]
  refine ⟨w.withMachine { w.machine.spend stamps with
    tables := w.machine.tables.set id ((w.machine.table id).setKey k value) },
    by rw [stored, hset], ⟨rfl, rfl, rfl, rfl, rfl⟩, ?_, fun other hne => ?_, rfl⟩
  · have hentry : (w.machine.tables.set id ((w.machine.table id).setKey k value)).get? id =
        some ((w.machine.table id).setKey k value) := by rw [Heap.get?_set, if_pos rfl]
    show (w.machine.table id).Updated k value
      (((w.machine.tables.set id ((w.machine.table id).setKey k value)).get? id).getD ∅)
    rw [hentry]
    exact Table.updated_setKey _ k value
  · show (w.machine.tables.set id ((w.machine.table id).setKey k value)).get? other = _
    rw [Heap.get?_set, if_neg hne]

theorem World.stored_refused {stamps : Nat} {id : TableId} {key value : Value}
    (hk : Key.ofValue? key = none) :
    w.stored stamps id key value = (.ok false, w.withMachine (w.machine.spend stamps)) := by
  rw [stored, Table.set, hk]

/-- A store through a handle is done unless something about it is stale or its key is nil or NaN;
then it changes nothing, and else one entry of one table. -/
theorem Handle.set_cases (host : Host κ σ) (runner : World.Runner κ σ) (w : World κ σ) (h : Handle)
    (key value : HostValue) :
    ∃ stored after, (h.set key value).runWith host runner w = (.ok stored, after) ∧
      (stored = true ↔ (h.locate w.machine).isSome = true ∧ key.Live w.machine ∧
        value.Live w.machine ∧ key.runtime w.machine ≠ .nil ∧
        ∀ x, key.runtime w.machine = .number x → x.isNaN = false) ∧
      (stored = false → w.Unchanged after) ∧
      (stored = true → ∃ id k, h.runtime w.machine = .table id ∧
        Key.ofValue? (key.runtime w.machine) = some k ∧
        w.Updated id k (value.runtime w.machine) after) := by
  rw [← Key.exists_ofValue?_iff]
  obtain hstale | ⟨p, id, hp, hid, hkey, hvalue⟩ := stale_or_named w h key value
  · refine ⟨false, w, runWith_set_refused hstale, ?_, fun _ => w.unchanged_spend 0, nofun⟩
    simp only [Bool.false_eq_true, false_iff]
    rintro ⟨hfound, hkey, hvalue, -⟩
    exact hstale ⟨hfound, hkey, hvalue⟩
  · obtain ⟨stamps, hrun⟩ := runWith_set host runner hp hid hkey hvalue
    cases hk : Key.ofValue? (key.runtime w.machine) with
    | none =>
      rw [World.stored_refused hk] at hrun
      refine ⟨false, _, hrun, ?_, fun _ => w.unchanged_spend stamps, nofun⟩
      simp only [Bool.false_eq_true, reduceCtorEq, exists_false, and_false]
    | some k =>
      obtain ⟨after, hstored, hupdated⟩ :=
        w.stored_eq_ok stamps id (value.runtime w.machine) hk
      rw [hstored] at hrun
      refine ⟨true, after, hrun, ?_, nofun, fun _ => ⟨id, k, hid, rfl, hupdated⟩⟩
      simp only [true_iff]
      exact ⟨by rw [hp, Option.isSome_some], hkey, hvalue, k, rfl⟩

/-- A value becomes a global unless a handle in it is stale; then nothing changes, and else one
global. -/
theorem Environment.setGlobal_cases (host : Host κ σ) (runner : World.Runner κ σ) {w : World κ σ}
    (hbase : w.machine.base ≤ w.machine.stack.height) (name : String) (value : HostValue) :
    ∃ stored after, (setGlobal name value).runWith host runner w = (.ok stored, after) ∧
      (stored = true ↔ value.Live w.machine) ∧ (stored = false → after = w) ∧
      (stored = true → w.GlobalUpdated (.ofString name) (value.runtime w.machine) after) := by
  unfold setGlobal
  rw [Program.runWith_guard (value.runWith_isLive host runner w)]
  split
  next hall =>
    have hvalue : value.Live w.machine := List.all_eq_true.mp hall
    have hset := Machine.setGlobal_push hbase (.ofString name) (value.runtime w.machine)
    rw [HostValue.runWith_push_bind hvalue.owner]
    refine ⟨true, _, Program.runWith_perform_bind hset, ?_, nofun, fun _ => ?_⟩
    · simp only [true_iff]
      exact hvalue
    · exact ⟨⟨rfl, rfl, rfl, rfl, rfl⟩, Table.updated_setKey _ _ _, rfl⟩
  next hstale =>
    refine ⟨false, w, rfl, ?_, fun _ => rfl, nofun⟩
    simp only [Bool.false_eq_true, false_iff]
    exact fun hall => hstale (List.all_eq_true.mpr hall)

/-- Stores are all or nothing. A store through a handle is refused exactly when the handle, or one
in the key or the value, is stale or unbound, or the key is nil or NaN; a value is refused as a
global exactly when a handle in it is stale or unbound. What is refused changes nothing but the
counter of stamps, and what is stored changes one entry. -/
theorem stores_all_or_nothing (host : Host κ σ) (w : World κ σ)
    (hbase : w.machine.base ≤ w.machine.stack.height) (key value : HostValue) :
    (∀ h : Handle, ∃ stored after, w.run host (h.set key value) = (.ok stored, after) ∧
      (stored = true ↔ (h.locate w.machine).isSome = true ∧ key.Live w.machine ∧
        value.Live w.machine ∧ key.runtime w.machine ≠ .nil ∧
        ∀ x, key.runtime w.machine = .number x → x.isNaN = false) ∧
      (stored = false → w.Unchanged after) ∧
      (stored = true → ∃ id k, h.runtime w.machine = .table id ∧
        Key.ofValue? (key.runtime w.machine) = some k ∧
        w.Updated id k (value.runtime w.machine) after)) ∧
    (∀ name : String, ∃ stored after,
      w.run host (Environment.setGlobal name value) = (.ok stored, after) ∧
      (stored = true ↔ value.Live w.machine) ∧ (stored = false → after = w) ∧
      (stored = true → w.GlobalUpdated (.ofString name) (value.runtime w.machine) after)) :=
  ⟨fun h => h.set_cases host _ w key value,
    fun name => Environment.setGlobal_cases host _ hbase name value⟩

/-- A world with one slot, which holds a table, and the handle of that slot. -/
def holdingTable : World Unit Unit := ⟨(Machine.new 0 {}).createTable, ()⟩

/-- The handle of the only slot of `holdingTable`. -/
def heldTable : Handle := ⟨0, some ⟨0, 1⟩⟩

/-- A host whose functions do nothing. -/
def passive : Host Unit Unit := ⟨fun _ => .done (.ok 0), fun _ => .done (.ok 0)⟩

/-- A table is stored in itself; a handle that names its slot at another time is not. -/
theorem held_table_holds_itself :
    holdingTable.machine.base ≤ holdingTable.machine.stack.height ∧
    (∃ after, holdingTable.run passive
        (heldTable.set (.text "self") (.present (.table heldTable))) = (.ok true, after) ∧
      holdingTable.Updated 0 (.str (.ofString "self")) (.table 0) after) ∧
    ∃ after, holdingTable.run passive
        (heldTable.set (.text "self") (.variant (.table ⟨0, some ⟨0, 9⟩⟩))) = (.ok false, after) ∧
      holdingTable.Unchanged after := by
  have hbase : holdingTable.machine.base ≤ holdingTable.machine.stack.height := by decide
  refine ⟨hbase, ?_, ?_⟩
  · obtain ⟨stored, after, hrun, hiff, -, hdone⟩ :=
      (stores_all_or_nothing passive holdingTable hbase (.text "self")
        (.present (.table heldTable))).1 heldTable
    have hlive : HostValue.Live holdingTable.machine (.present (.table heldTable)) := by
      rintro h hmem
      obtain rfl : h = heldTable := List.mem_singleton.mp hmem
      rfl
    obtain rfl : stored = true := hiff.mpr ⟨rfl, nofun, hlive, nofun, nofun⟩
    obtain ⟨id, k, hid, hk, hupdated⟩ := hdone rfl
    obtain rfl : 0 = id := Value.table.inj hid
    obtain rfl : Key.str (.ofString "self") = k := Option.some.inj hk
    exact ⟨after, hrun, hupdated⟩
  · obtain ⟨stored, after, hrun, hiff, hrefused, -⟩ :=
      (stores_all_or_nothing passive holdingTable hbase (.text "self")
        (.variant (.table ⟨0, some ⟨0, 9⟩⟩))).1 heldTable
    have hstale : stored = false := by
      apply Bool.eq_false_iff.mpr
      intro hstored
      have hlive := (hiff.mp hstored).2.2.1 _ (List.mem_singleton_self _)
      cases hlive
    subst hstale
    exact ⟨after, hrun, hrefused rfl⟩

end StackEmbedding
