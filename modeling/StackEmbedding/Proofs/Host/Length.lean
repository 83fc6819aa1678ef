import StackEmbedding.Proofs.Host.Fetch
import StackEmbedding.Proofs.Program.Objects
import StackEmbedding.Proofs.Table.Border

/-!
# The length of a table through a handle

A handle asks the machine for the length of its table, the machine pushes the border, and the handle
takes it off again. The border counts entries and what is pushed is an integer of 64 bits; they are
the same number, since the border is a key unless it is zero.

What the border means rests on the table holding no nil. No run can put one in
(`Configuration.Reachable.table_stored`), so that at every moment of every run the length is the end
of the run of integers from one, and a table is empty exactly when one reads as nil.
-/

set_option autoImplicit false

namespace StackEmbedding

variable {κ σ : Type}

/-- Asked for the length of a table, at the position of a handle or through the handle, the machine
answers its border. -/
structure Handle.Measures (host : Host κ σ) (w : World κ σ) (h : Handle) (p : Int) (t : Table) :
    Prop where
  length : ∃ n : Int64, n.toInt = t.border ∧
    w.machine.length p = (.ok (.ok ()), w.machine.push (.int n)) ∧
    ∃ after, w.run host h.length = (.ok n, after) ∧ w.OnlyGrown [] after
  isEmpty : ∃ b after, w.run host h.isEmpty = (.ok b, after) ∧ w.OnlyGrown [] after ∧
    (b = true ↔ t.get (.int 1) = .nil)

theorem Handle.measures (host : Host κ σ) {w : World κ σ} {h : Handle} {p : Int} {id : TableId}
    (hp : h.locate w.machine = some p) (hid : h.runtime w.machine = .table id)
    (hnormal : (w.machine.table id).Normal) : h.Measures host w p (w.machine.table id) := by
  have hlength : w.run host h.length = (.ok (Int64.ofNat (w.machine.table id).border), _) :=
    runWith_length host _ hp hid
  have hborder := (w.machine.table id).toInt_border
  constructor
  · have hpositive := positive_of_locate hp
    have hnamed : w.machine.value? p = some (.table id) := by rw [runtime_of_locate hp, hid]
    have hpushed :=
      Machine.length_eq hpositive ((Machine.value?_eq_some_iff hpositive).mp hnamed)
    exact ⟨_, hborder, hpushed, _, hlength, w.onlyGrown_spend 1⟩
  · refine ⟨_, _, World.run_return hlength fun n => decide (n = 0), w.onlyGrown_spend 1, ?_⟩
    rw [decide_eq_true_iff, ← hnormal.border_eq_zero_iff, ← Int64.toInt_inj, hborder]
    exact Int.natCast_eq_zero

/-- Stores make tables in which the border is what it should be and moves as it should. At every
moment of every run a handle that is not stale stands for a table that stores made, and reports its
border as the length. -/
theorem length_is_border (host : Host κ σ) :
    (∀ stores, (Table.afterStores stores).BorderLaw) ∧
    ∀ c, Configuration.Reachable host c → ∀ (h : Handle) p, h.locate c.machine = some p →
      ∃ id stores, h.runtime c.machine = .table id ∧
        c.machine.table id = Table.afterStores stores ∧
        h.Measures host c.world p (Table.afterStores stores) := by
  refine ⟨fun stores => (Table.normal_afterStores stores).borderLaw, fun c hc h p hp => ?_⟩
  obtain ⟨id, hid⟩ := Handle.runtime_eq_table hp
  obtain ⟨stores, hstores⟩ := hc.table_stored id
  have hnormal : (c.machine.table id).Normal := by
    rw [hstores]
    exact Table.normal_afterStores stores
  refine ⟨id, stores, hid, hstores, ?_⟩
  rw [← hstores]
  exact Handle.measures host hp hid hnormal

/-- One and three are keys, and two is none. -/
def gapped : List (Value × Value) := [(.int 1, .bool true), (.int 3, .bool true)]

/-- The float two is a key as well. -/
def bridged : List (Value × Value) := gapped ++ [(.number (.ofInt 2), .bool true)]

/-- Creates a table and stores true under one. -/
def storingOne : Program Unit Unit Ending := do
  .perform .createTable
  .push (.int 1)
  .push (.bool true)
  let _ ← .perform (.setTable 1)
  return .ok 0

/-- The machine after the store. -/
def holdingOne : Machine Unit :=
  ((((Machine.new 0 {}).createTable.push (.int 1)).push (.bool true)).setTable 1).2

theorem reachable_holdingOne :
    Configuration.Reachable passive ⟨⟨holdingOne, ()⟩, .done (.ok 0), []⟩ :=
  ⟨0, {}, (), storingOne, Configuration.leads_of_iterate (n := 4) rfl⟩

/-- The float two joins one and three, and nil under the integer two parts them again. A table with
an entry under one has the length one and is not empty. -/
theorem length_of_bridged :
    2 ≤ (Table.afterStores bridged).border ∧
    (Table.afterStores (bridged ++ [(.int 2, .nil)])).border = 1 ∧
    (∃ after, World.run passive ⟨holdingOne, ()⟩ heldTable.length = (.ok 1, after)) ∧
    ∃ after, World.run passive ⟨holdingOne, ()⟩ heldTable.isEmpty = (.ok false, after) := by
  obtain ⟨hlaw, hreachable⟩ := length_is_border passive
  obtain ⟨hjoined, -⟩ := (hlaw gapped).joins (.number (.ofInt 2)) (.bool true)
    (Table.afterStores bridged) rfl ⟨2, by decide, by decide⟩ nofun
  have hjoined : 2 ≤ (Table.afterStores bridged).border := hjoined
  have hparted := (hlaw bridged).cuts (.int 2) (Table.afterStores (bridged ++ [(.int 2, .nil)])) 2
    rfl ⟨2, by decide, by decide⟩ (by decide) hjoined
  obtain ⟨id, stores, hid, hstores, ⟨n, hn, -, after, hlength, -⟩, b, after', hempty, -, hb⟩ :=
    hreachable _ reachable_holdingOne heldTable 1 rfl
  obtain rfl : 0 = id := Value.table.inj hid
  rw [← hstores] at hn hb
  obtain rfl : n = 1 := Int64.toInt_inj.mp hn
  have hheld : ¬ b = true := fun htrue => nomatch hb.mp htrue
  obtain rfl : b = false := Bool.eq_false_iff.mpr hheld
  exact ⟨hjoined, hparted, ⟨after, hlength⟩, after', hempty⟩

end StackEmbedding
