import StackEmbedding.Proofs.Machine.Footprint
import StackEmbedding.Proofs.Table.Entries

/-!
# The objects of a machine

Globals, tables and closures outlive the slots that name them. `Machine.objects` is all of them at
one moment, and `Machine.ObjectStep` what a primitive can do to them: create one table or one
closure, make one store that a table accepts, set one global, or leave all of them alone.

`Machine.TablesStored` is what that makes of the tables: each of them arises from the empty one by
stores. A primitive keeps it, since the only way to write into a table is a store.
-/

set_option autoImplicit false

namespace StackEmbedding

variable {κ : Type}

/-- What of a machine outlives its frames. -/
structure Objects (κ : Type) where
  globals : Table
  tables : Heap Table
  closures : Heap κ

namespace Machine

variable {m n o : Machine κ}

/-- The objects of a machine. -/
def objects (m : Machine κ) : Objects κ := ⟨m.globals, m.tables, m.closures⟩

/-- `n` differs from `m` in at most one object. -/
inductive ObjectStep (m n : Machine κ) : Prop
  | same (h : n.objects = m.objects)
  | createTable (h : n.objects = { m.objects with tables := (m.tables.create ∅).2 })
  | createClosure (code : κ)
      (h : n.objects = { m.objects with closures := (m.closures.create code).2 })
  | store {id : TableId} {key value : Value} {t : Table} (hset : (m.table id).set key value = .ok t)
      (h : n.objects = { m.objects with tables := m.tables.set id t })
  | setGlobal (name : Bytes) (value : Value)
      (h : n.objects = { m.objects with globals := m.globals.setKey (.str name) value })

theorem ObjectStep.congr (h : m.ObjectStep n) (heq : o.objects = n.objects) : m.ObjectStep o := by
  cases h with
  | same h => exact .same (heq.trans h)
  | createTable h => exact .createTable (heq.trans h)
  | createClosure code h => exact .createClosure code (heq.trans h)
  | store hset h => exact .store hset (heq.trans h)
  | setGlobal name value h => exact .setGlobal name value (heq.trans h)

/-! ## Primitives -/

theorem pushFetched_objects (m : Machine κ) (fetched : Except RuntimeError Value) :
    (m.pushFetched fetched).2.objects = m.objects := by
  cases fetched <;> rfl

/-- A store that is refused, or that is made in no table, changes no object. -/
theorem store_step (m : Machine κ) (stack : Stack) (operation : Operation)
    (target key value : Value) :
    m.ObjectStep ((m.withStack stack).store operation target key value).2 := by
  unfold Machine.store
  split
  next => exact .same rfl
  next id _ =>
    split
    next => exact .same rfl
    next t hset => exact .store hset rfl

/-- A primitive changes at most one object. -/
theorem perform_step (m : Machine κ) (p : Primitive κ) : m.ObjectStep (m.perform p).2 := by
  have hsame : m.ObjectStep m := .same rfl
  cases p with
  | createTable => exact .createTable rfl
  | pushClosure code => exact .createClosure code rfl
  | setGlobal name =>
    simp only [perform, Machine.setGlobal]
    split
    · exact hsame
    · exact .setGlobal name _ rfl
  | setTable _ =>
    refine atPosition_snd hsame fun _ _ => ?_
    split
    · exact hsame
    · exact atRaw_snd (.same rfl) fun _ _ => store_step m _ _ _ _ _
  | setField _ _ =>
    exact atPosition_snd hsame fun _ _ => atRaw_snd (.same rfl) fun _ _ => store_step m _ _ _ _ _
  | top | hasCapacity _ | push _ | value _ | slotId _ | positionOf _ | identity | getGlobal _
  | snapshot => exact .same rfl
  | setTop _ | pop _ =>
    simp only [perform, setTop, pop]
    repeat' split
    all_goals exact .same rfl
  | remove _ | insert _ | replace _ | rotate _ _ | pushValue _ =>
    exact atPosition_snd hsame fun _ _ => .same rfl
  | copy _ _ => exact atPosition_snd hsame fun _ _ => atPosition_snd hsame fun _ _ => .same rfl
  | getTable _ =>
    refine atPosition_snd hsame fun _ _ => atRaw_snd (.same rfl) fun _ _ => ?_
    exact .same (pushFetched_objects _ _)
  | getField _ _ =>
    refine atPosition_snd hsame fun _ _ => atRaw_snd hsame fun _ _ => ?_
    exact .same (pushFetched_objects _ _)
  | length _ =>
    refine atPosition_snd hsame fun _ _ => atRaw_snd hsame fun _ _ => ?_
    split <;> exact .same rfl

/-! ## Tables arise by stores -/

/-- Every table arises from the empty one by stores. -/
def TablesStored (m : Machine κ) : Prop := ∀ id, ∃ stores, m.table id = Table.afterStores stores

theorem tablesStored_new (identity : Nat) (limits : Limits) :
    (Machine.new identity limits : Machine κ).TablesStored := fun _ => ⟨[], rfl⟩

theorem TablesStored.congr (hm : m.TablesStored) (h : n.tables = m.tables) : n.TablesStored := by
  intro id
  rw [table, h]
  exact hm id

theorem TablesStored.step (hm : m.TablesStored) (h : m.ObjectStep n) : n.TablesStored := by
  cases h with
  | same h | createClosure _ h | setGlobal _ _ h => exact hm.congr (congrArg Objects.tables h)
  | createTable h =>
    have htables : n.tables = (m.tables.create ∅).2 := congrArg Objects.tables h
    intro id
    rw [table, htables, Heap.get?_create]
    split
    · exact ⟨[], rfl⟩
    · exact hm id
  | @store at_ key value t hset h =>
    have htables : n.tables = m.tables.set at_ t := congrArg Objects.tables h
    intro id
    rw [table, htables, Heap.get?_set]
    split
    · obtain ⟨stores, hstores⟩ := hm at_
      refine ⟨stores ++ [(key, value)], ?_⟩
      rw [Table.afterStores_concat, ← hstores, Table.store, hset]
      rfl
    · exact hm id

end Machine

end StackEmbedding
