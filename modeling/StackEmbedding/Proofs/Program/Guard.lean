import StackEmbedding.Proofs.Host.Fetch
import StackEmbedding.Proofs.Program.Isolation
import StackEmbedding.Proofs.Program.Staleness

/-!
# Guards release their own slot and no other

A guard drops its slot by the identity of that slot, so what a drop does is decided by what became
of the slot since the handle was bound. `guards_release_only_own_slot` follows a run from the moment
of the binding to any later one.

**One guard.** Where the identity still resolves, its slot was not written since (`Sound`), and the
drop takes that slot away: the slots above move down and are stamped anew, so that no identity of
theirs, nor the one of the slot itself, resolves again. Everywhere else the drop does nothing.

**Guards of one frame.** `Scoped` follows a frame in which tables are created and their guards
dropped, the last created first, while other code adds and removes slots above them. The invariant
is `Owns`: the frame is the one at the start with one slot on top for each guard.

Stamps are natural numbers, so there is no bound on the length of a run.
-/

set_option autoImplicit false

namespace StackEmbedding

variable {κ σ : Type} {host : Host κ σ} {runner : World.Runner κ σ} {w after : World κ σ}

/-! ## Taking one slot away -/

namespace Stack

variable {s t : Stack} {raw : Nat}

/-- `t` is `s` without the slot at a raw index, what lay above moved down and stamped anew. -/
structure Without (raw : Nat) (s t : Stack) : Prop where
  height : t.height + 1 = s.height
  below : ∀ k < raw, t.slots[k]? = s.slots[k]?
  above : t.valuesFrom raw = s.valuesFrom (raw + 1)
  fresh : t.FreshFrom raw s.nextStamp

theorem without_remove (h : raw < s.height) : s.Without raw (s.remove raw) := by
  have hle := Nat.le_of_lt h
  rw [remove_eq_replaceFrom hle]
  refine ⟨?_, fun _ hk => slot_replaceFrom_below hle _ hk, valuesFrom_replaceFrom_self hle _,
    freshFrom_replaceFrom hle _⟩
  rw [height_replaceFrom hle, length_valuesFrom]
  omega

/-- Above the highest slot there is nothing to move. -/
theorem without_dropTop (h : raw + 1 = s.height) : s.Without raw s.dropTop := by
  have hheight : s.dropTop.height = raw := by rw [height_dropTop, ← h, Nat.add_sub_cancel]
  refine ⟨by rw [hheight, h], ?_, ?_, ?_⟩
  · intro k hk
    exact slot_truncate_below (by omega)
  · have hnone : ∀ u : Stack, u.height ≤ raw → u.valuesFrom raw = [] := by
      intro u hu
      rw [valuesFrom, List.drop_eq_nil_of_le hu, List.map_nil]
    rw [hnone _ (Nat.le_of_eq hheight), valuesFrom, List.drop_eq_nil_of_le (Nat.le_of_eq h.symm),
      List.map_nil]
  · intro k slot hk hslot
    rw [getElem?_slots_eq_none.mpr (by omega)] at hslot
    cases hslot

end Stack

namespace Machine

variable {m : Machine κ} {raw : Nat}

/-- The machine after a drop that found its slot: a pop where the slot is the highest, a removal
otherwise. -/
def released (m : Machine κ) (raw : Nat) : Machine κ :=
  m.withStack (if raw + 1 = m.stack.height then m.stack.dropTop else m.stack.remove raw)

theorem without_released (h : raw < m.stack.height) :
    m.stack.Without raw (m.released raw).stack := by
  simp only [released, withStack]
  split
  next htop => exact Stack.without_dropTop htop
  next => exact Stack.without_remove h

/-! ## The frame as a list -/

theorem length_frame (m : Machine κ) : m.frame.length = m.stack.height - m.base :=
  List.length_drop

theorem getElem?_frame (k : Nat) : m.frame[k]? = m.stack.slots[m.base + k]? :=
  List.getElem?_drop

theorem frame_push (hbase : m.base ≤ m.stack.height) (v : Value) :
    (m.push v).frame = m.frame ++ [⟨v, m.stack.nextStamp⟩] := by
  have hslots := (GrownBy.push m v).slots
  show (m.push v).stack.slots.drop m.base = m.stack.slots.drop m.base ++ _
  rw [hslots, List.drop_append_of_le_length hbase]

theorem frame_dropTop {below : List Slot} {slot : Slot} (h : m.frame = below ++ [slot]) :
    (m.withStack m.stack.dropTop).frame = below := by
  have hlength := m.length_frame
  rw [h, List.length_append, List.length_singleton] at hlength
  have hbelow : m.stack.height - 1 - m.base = below.length := by omega
  show (m.stack.slots.take (m.stack.height - 1)).drop m.base = below
  rw [List.drop_take, hbelow]
  show m.frame.take below.length = below
  rw [h, List.take_left]

end Machine

/-! ## Making and dropping guards -/

/-- Creating a table pushes it and answers a handle for the new slot. -/
theorem Handle.runWith_create (hbase : w.machine.base ≤ w.machine.stack.height) :
    (create : Program κ σ Handle).runWith host runner w =
      (.ok ⟨w.machine.identity, some (w.machine.nextSlot 0)⟩,
        w.withMachine w.machine.createTable) := by
  have hslot : w.machine.createTable.slotId? (-1) = some (w.machine.nextSlot 0) :=
    Machine.slotId?_top (m := { w.machine with tables := (w.machine.tables.create ∅).2 }) hbase _
  show (Except.ok (⟨w.machine.identity, w.machine.createTable.slotId? (-1)⟩ : Handle), _) = _
  rw [hslot]
  rfl

namespace Guard

variable {g : Guard} {id : SlotId} {t : TableId}

theorem runWith_drop_of_stale (h : g.table.locate w.machine = none) :
    (g.drop : Program κ σ Unit).runWith host runner w = (.ok (), w) := by
  rw [drop, Program.runWith_bind, Handle.runWith_position?, h]
  rfl

/-- A guard whose slot is what it was takes it away. -/
theorem runWith_drop_of_held (htable : g.table = ⟨w.machine.identity, some id⟩)
    (hbase : w.machine.base ≤ id.index)
    (hheld : w.machine.stack.slots[id.index]? = some ⟨.table t, id.stamp⟩) :
    (g.drop : Program κ σ Unit).runWith host runner w =
      (.ok (), w.withMachine (w.machine.released id.index)) := by
  have hlt : id.index < w.machine.stack.height := (List.getElem?_eq_some_iff.mp hheld).1
  have hresolve := Machine.resolve?_of_positionOf? (by omega)
    (Machine.position_of_held hbase hheld).1
  have hfound : g.table.locate w.machine = some ((id.index - w.machine.base + 1 : Nat) : Int) := by
    rw [htable]
    exact (Handle.locate_of_held hbase hheld).1
  rw [drop, Program.runWith_bind, Handle.runWith_position?, hfound]
  dsimp only
  rw [Program.top, Program.runWith_perform_bind rfl, World.withMachine_machine]
  unfold Machine.released
  by_cases htop : id.index + 1 = w.machine.stack.height
  · have hroom : 1 ≤ w.machine.top := by
      rw [Machine.top]
      omega
    have hhighest : ((id.index - w.machine.base + 1 : Nat) : Int) = (w.machine.top : Int) := by
      rw [Machine.top]
      omega
    rw [if_pos hhighest, if_pos htop, Program.pop, Program.runWith_perform]
    simp only [Machine.perform, Machine.pop, if_pos hroom, Stack.resize, if_pos (Nat.sub_le _ _)]
    rfl
  · have hlower : ¬ ((id.index - w.machine.base + 1 : Nat) : Int) = (w.machine.top : Int) := by
      rw [Machine.top]
      omega
    rw [if_neg hlower, if_neg htop, Program.runWith_perform]
    simp only [Machine.perform, Machine.remove, Machine.atPosition, hresolve]

/-- The handle of a guard was bound on the machine `m` to the slot `id`, which held the table
`t`. -/
structure BoundAt (m : Machine κ) (g : Guard) (id : SlotId) (t : TableId) : Prop where
  table : g.table = ⟨m.identity, some id⟩
  held : ∃ position, m.slotId? position = some id ∧ m.value? position = some (.table t)

/-- The guard of a new table is bound to its slot. -/
theorem boundAt_of_create (hbase : w.machine.base ≤ w.machine.stack.height) {h : Handle}
    (hrun : w.run host Handle.create = (.ok h, after)) :
    BoundAt after.machine ⟨h⟩ (w.machine.nextSlot 0) w.machine.tables.next := by
  rw [World.run, Handle.runWith_create hbase] at hrun
  cases hrun
  let m : Machine κ := { w.machine with tables := (w.machine.tables.create ∅).2 }
  exact ⟨rfl, -1, Machine.slotId?_top (m := m) hbase _, Machine.value?_top (m := m) hbase _⟩

/-- The guard of a table in the frame is bound to the slot of that table. -/
theorem boundAt_of_bind? {position : Int} {h : Handle}
    (hrun : w.run host (Handle.bind? position) = (.ok (some h), after)) :
    ∃ id t, BoundAt after.machine ⟨h⟩ id t := by
  cases hv : w.machine.value? position with
  | none =>
    have hnone : w.run host (Handle.bind? position) = (.ok none, w) := by
      rw [World.run, Handle.bind?, Program.runWith_bind, Program.runWith_typeAt, hv]
      rfl
    rw [hnone] at hrun
    cases hrun
  | some v =>
    obtain ⟨id, hid⟩ := Machine.slotId?_of_value? hv
    rw [World.run, Handle.runWith_bind? hv hid] at hrun
    cases v with
    | table t => cases hrun; exact ⟨id, t, rfl, position, hid, hv⟩
    | nil | bool _ | int _ | number _ | str _ | function _ | closure _ => cases hrun

end Guard

namespace Configuration

variable {c d e : Configuration κ σ} {g : Guard} {id : SlotId} {t : TableId}

/-! ## One guard -/

/-- A drop of `g` at the moment `d`, where its handle was bound to the slot `id` with the table
`t`. -/
structure Drops (host : Host κ σ) (d : Configuration κ σ) (g : Guard) (id : SlotId) (t : TableId)
    (after : World κ σ) : Prop where
  run : d.world.run host g.drop = (.ok (), after)
  steps : ∀ next : Unit → Program κ σ Ending, d.code = (g.drop >>= next : Program κ σ Ending) →
    ∃ n, iterate host n d = some ⟨after, next (), d.calls⟩
  /-- A slot that was written since or lies outside the frame is left alone, and all else, too. -/
  stale : d.machine.positionOf? id = none → after = d.world
  /-- Otherwise the slot holds the table still, and it alone is taken away. -/
  released : (d.machine.positionOf? id).isSome = true →
    d.machine.base ≤ id.index ∧ d.stack.slots[id.index]? = some ⟨.table t, id.stamp⟩ ∧
      after = d.world.withMachine (d.machine.withStack after.machine.stack) ∧
      d.stack.Without id.index after.machine.stack
  /-- After that no guard with this binding does anything, at any later moment. -/
  once : (d.machine.positionOf? id).isSome = true →
    ∀ (code : Body κ σ) (e : Configuration κ σ),
      Leads host (fun _ => True) ⟨after, code, d.calls⟩ e →
        ∀ other : Guard, other.table = g.table → e.world.run host other.drop = (.ok (), e.world)

/-- Where its identity does not resolve, a guard drops nothing. -/
theorem run_drop_of_stale (host : Host κ σ) (hslot : g.table.slot = some id)
    (h : d.machine.positionOf? id = none) :
    d.world.run host g.drop = (.ok (), d.world) := by
  apply Guard.runWith_drop_of_stale
  apply Option.eq_none_iff_forall_ne_some.mpr
  intro p hp
  obtain ⟨-, hposition, -⟩ := Handle.table_of_locate hp
  rw [hslot, Option.bind_some, h] at hposition
  cases hposition

/-- Where its identity resolves, the slot of a guard holds the table that it held when the handle
was bound. -/
theorem held_of_bound (hc : c.WellFormed) (hbound : g.BoundAt c.machine id t)
    (hd : Leads host (fun _ => True) c d) {p : Int} (hp : d.machine.positionOf? id = some p) :
    d.machine.base ≤ id.index ∧ d.stack.slots[id.index]? = some ⟨.table t, id.stamp⟩ := by
  obtain ⟨-, position, hid, hvalue⟩ := hbound
  obtain ⟨-, hresolve, v, hthen, hnow⟩ := (sound_of_leads hc hid hd).resolves p hp
  obtain ⟨hle, ⟨held, hheld⟩, -⟩ := Machine.positionOf?_eq_some_iff.mp hp
  obtain rfl : v = .table t := Option.some.inj (hthen.symm.trans hvalue)
  rw [Machine.value?, hresolve, Option.bind_some, Stack.value?, hheld] at hnow
  obtain rfl : held = .table t := Option.some.inj hnow
  exact ⟨hle, hheld⟩

/-- Once a drop took a slot away, the identity of that slot never resolves again. -/
theorem positionOf?_eq_none_of_released (hd : d.WellFormed)
    (hheld : d.stack.slots[id.index]? = some ⟨.table t, id.stamp⟩)
    (hrun : d.world.run host g.drop =
      (.ok (), d.world.withMachine (d.machine.released id.index))) (code : Body κ σ)
    (he : Leads host (fun _ => True)
      ⟨d.world.withMachine (d.machine.released id.index), code, d.calls⟩ e) :
    e.machine.positionOf? id = none := by
  have hlt : id.index < d.stack.height := (List.getElem?_eq_some_iff.mp hheld).1
  have hissued := hd.stamped.issued _ (List.mem_of_getElem? hheld)
  have hafter := hd.run host g.drop code
  have hnext := (World.run_evolves host hd.base_le_height g.drop).edit.nextStamp_le
  rw [hrun] at hafter hnext
  -- Every slot from the released one upward has a stamp that was issued by the drop.
  exact positionOf?_eq_none_of_fresh hafter (Machine.without_released hlt).fresh hnext
    (Nat.le_refl _) hissued he

theorem drops_of_bound (hc : c.WellFormed) (hbound : g.BoundAt c.machine id t)
    (hd : Leads host (fun _ => True) c d) : ∃ after, d.Drops host g id t after := by
  have hwell := hc.leads hd
  have htable : g.table = ⟨d.machine.identity, some id⟩ := by
    rw [hbound.table, hd.identity_eq hc]
  have hslot : g.table.slot = some id := by rw [htable]
  cases hposition : d.machine.positionOf? id with
  | none =>
    have hrun := run_drop_of_stale host hslot hposition
    have hnone : ¬ (d.machine.positionOf? id).isSome = true := by
      rw [hposition]
      exact Bool.false_ne_true
    exact ⟨d.world, hrun, fun _ hcode => iterate_bind hwell.base_le_height hcode hrun,
      fun _ => rfl, fun h => absurd h hnone, fun h => absurd h hnone⟩
  | some p =>
    obtain ⟨hle, hheld⟩ := held_of_bound hc hbound hd hposition
    have hrun : d.world.run host g.drop =
        (.ok (), d.world.withMachine (d.machine.released id.index)) :=
      Guard.runWith_drop_of_held htable hle hheld
    have hwithout := Machine.without_released (List.getElem?_eq_some_iff.mp hheld).1
    refine ⟨_, hrun, fun _ hcode => iterate_bind hwell.base_le_height hcode hrun, ?_,
      fun _ => ⟨hle, hheld, rfl, hwithout⟩, ?_⟩
    · intro hnone
      rw [hposition] at hnone
      cases hnone
    · intro _ code e he other hother
      exact run_drop_of_stale host (hother ▸ hslot)
        (positionOf?_eq_none_of_released hwell hheld hrun code he)

/-! ## Guards of one frame -/

/-- Between two events of guards, code adds and removes slots above those that are there, and leaves
as many, in the frame in which it began. -/
structure Stretch (host : Host κ σ) (c d : Configuration κ σ) : Prop where
  leads : Leads host (fun b => ∀ i, c.machine.base ≤ i → i < c.stack.height → b.Spares host i) c d
  calls : d.calls = c.calls
  height : d.stack.height = c.stack.height

theorem Stretch.frame_eq (hc : c.WellFormed) (h : Stretch host c d) :
    d.machine.base = c.machine.base ∧ d.machine.frame = c.machine.frame := by
  have hbase := h.leads.base_eq hc h.calls
  refine ⟨hbase, List.ext_getElem? fun k => ?_⟩
  rw [Machine.getElem?_frame, Machine.getElem?_frame, hbase]
  by_cases hk : c.machine.base + k < c.machine.stack.height
  · exact ((h.leads.mono fun b hb => hb _ (Nat.le_add_right _ k) hk).slot_eq hc
      (Nat.le_add_right _ k)).2
  · have hheight : d.machine.stack.height = c.machine.stack.height := h.height
    rw [Stack.getElem?_slots_eq_none.mpr (by omega), Stack.getElem?_slots_eq_none.mpr (by omega)]

/-- From `c` on, tables were created in one frame and their guards dropped, the last created first,
with stretches of other code between. The guards that are left are listed newest first. -/
inductive Scoped (host : Host κ σ) (c : Configuration κ σ) :
    List Guard → Configuration κ σ → Prop
  | start : Scoped host c [] c
  | create {guards : List Guard} {d : Configuration κ σ} {h : Handle} {after : World κ σ}
      {next : Handle → Program κ σ Ending} :
      Scoped host c guards d → d.code = (Handle.create >>= next : Program κ σ Ending) →
        d.world.run host Handle.create = (.ok h, after) →
          Scoped host c (⟨h⟩ :: guards) ⟨after, next h, d.calls⟩
  | drop {g : Guard} {guards : List Guard} {d : Configuration κ σ} {after : World κ σ}
      {next : Unit → Program κ σ Ending} :
      Scoped host c (g :: guards) d → d.code = (g.drop >>= next : Program κ σ Ending) →
        d.world.run host g.drop = (.ok (), after) →
          Scoped host c guards ⟨after, next (), d.calls⟩
  | other {guards : List Guard} {d e : Configuration κ σ} :
      Scoped host c guards d → Stretch host d e → Scoped host c guards e

/-- The frame is the slots `first` with one slot on top for each guard, which is bound to it. -/
inductive Owns (identity base : Nat) (first : List Slot) : List Guard → List Slot → Prop
  | none : Owns identity base first [] first
  | guard {guards : List Guard} {below : List Slot} (t : TableId) (stamp : Nat) :
      Owns identity base first guards below →
        Owns identity base first (⟨⟨identity, some ⟨base + below.length, stamp⟩⟩⟩ :: guards)
          (below ++ [⟨.table t, stamp⟩])

/-- What holds at every moment of a scope. -/
structure InScope (host : Host κ σ) (c : Configuration κ σ) (guards : List Guard)
    (d : Configuration κ σ) : Prop where
  leads : Leads host (fun _ => True) c d
  calls : d.calls = c.calls
  owns : Owns c.machine.identity c.machine.base c.machine.frame guards d.machine.frame

theorem InScope.create {guards : List Guard} {h : Handle} {next : Handle → Program κ σ Ending}
    (hc : c.WellFormed) (hd : c.InScope host guards d)
    (hcode : d.code = (Handle.create >>= next : Program κ σ Ending))
    (hrun : d.world.run host Handle.create = (.ok h, after)) :
    c.InScope host (⟨h⟩ :: guards) ⟨after, next h, d.calls⟩ := by
  have hwell := hc.leads hd.leads
  have hbase := hwell.base_le_height
  refine ⟨hd.leads.trans (leads_bind hwell hcode hrun), hd.calls, ?_⟩
  rw [World.run, Handle.runWith_create hbase] at hrun
  cases hrun
  have hframe : d.machine.createTable.frame =
      d.machine.frame ++ [⟨.table d.machine.tables.next, d.stack.nextStamp⟩] :=
    Machine.frame_push (m := { d.machine with tables := (d.machine.tables.create ∅).2 }) hbase _
  have hindex : d.machine.stack.height = c.machine.base + d.machine.frame.length := by
    rw [Machine.length_frame, ← hd.leads.base_eq hc hd.calls, Nat.add_sub_of_le hbase]
  show Owns _ _ _ _ d.machine.createTable.frame
  rw [hframe, Machine.nextSlot, hindex, hd.leads.identity_eq hc]
  exact .guard _ _ hd.owns

theorem InScope.drop {guards : List Guard} {next : Unit → Program κ σ Ending}
    (hc : c.WellFormed) (hd : c.InScope host (g :: guards) d)
    (hcode : d.code = (g.drop >>= next : Program κ σ Ending))
    (hrun : d.world.run host g.drop = (.ok (), after)) :
    c.InScope host guards ⟨after, next (), d.calls⟩ := by
  have hwell := hc.leads hd.leads
  have hbase := hd.leads.base_eq hc hd.calls
  refine ⟨hd.leads.trans (leads_bind hwell hcode hrun), hd.calls, ?_⟩
  have howns := hd.owns
  generalize hframe : d.machine.frame = frame at howns
  cases howns with
  | @guard _ below t stamp howns =>
    have hslot : d.stack.slots[c.machine.base + below.length]? = some ⟨.table t, stamp⟩ := by
      rw [← hbase, ← Machine.getElem?_frame, hframe, List.getElem?_concat_length]
    rw [World.run, Guard.runWith_drop_of_held (by rw [hd.leads.identity_eq hc])
      (by rw [hbase]; exact Nat.le_add_right _ _) hslot] at hrun
    cases hrun
    have htop : c.machine.base + below.length + 1 = d.machine.stack.height := by
      have hlength := d.machine.length_frame
      rw [hframe, List.length_append, List.length_singleton, hbase] at hlength
      omega
    have hafter : (d.machine.released (c.machine.base + below.length)).frame = below := by
      rw [Machine.released, if_pos htop]
      exact Machine.frame_dropTop hframe
    show Owns _ _ _ _ (d.machine.released (c.machine.base + below.length)).frame
    rw [hafter]
    exact howns

theorem Scoped.inScope (hc : c.WellFormed) {guards : List Guard} (h : Scoped host c guards d) :
    c.InScope host guards d := by
  induction h with
  | start => exact ⟨.refl, rfl, .none⟩
  | create _ hcode hrun ih => exact ih.create hc hcode hrun
  | drop _ hcode hrun ih => exact ih.drop hc hcode hrun
  | other _ hstretch ih =>
    obtain ⟨-, hframe⟩ := hstretch.frame_eq (hc.leads ih.leads)
    refine ⟨ih.leads.trans (hstretch.leads.mono fun _ _ => trivial),
      hstretch.calls.trans ih.calls, ?_⟩
    rw [hframe]
    exact ih.owns

/-- Every guard is bound to the slot of a table when its handle is made. At any later moment a drop
takes that slot away, if it still is what it was and the frame holds it, and does nothing otherwise;
and once the slot was taken away, guards with the same binding do nothing. Guards of one frame that
are dropped in the reverse order of their creation leave the frame as it was. -/
theorem guards_release_only_own_slot (hc : Reachable host c) :
    (∀ (h : Handle) (after : World κ σ), c.world.run host Handle.create = (.ok h, after) →
      ∃ id t, Guard.BoundAt after.machine ⟨h⟩ id t) ∧
    (∀ (position : Int) (h : Handle) (after : World κ σ),
      c.world.run host (Handle.bind? position) = (.ok (some h), after) →
        ∃ id t, Guard.BoundAt after.machine ⟨h⟩ id t) ∧
    (∀ g : Guard, g.table.slot = none → c.world.run host g.drop = (.ok (), c.world)) ∧
    (∀ (g : Guard) (id : SlotId) (t : TableId) (d : Configuration κ σ),
      g.BoundAt c.machine id t → Leads host (fun _ => True) c d →
        ∃ after, d.Drops host g id t after) ∧
    ∀ e : Configuration κ σ, Scoped host c [] e →
      e.machine.base = c.machine.base ∧ e.machine.frame = c.machine.frame := by
  have hwell := hc.wellFormed
  refine ⟨fun h after hrun => ⟨_, _, Guard.boundAt_of_create hwell.base_le_height hrun⟩,
    fun position h after => Guard.boundAt_of_bind?, ?_,
    fun g id t d hbound hd => drops_of_bound hwell hbound hd, ?_⟩
  · intro g hunbound
    apply Guard.runWith_drop_of_stale
    rw [Handle.locate, hunbound]
    split <;> rfl
  · intro e hscoped
    have hscope := hscoped.inScope hwell
    refine ⟨hscope.leads.base_eq hwell hscope.calls, ?_⟩
    have howns := hscope.owns
    generalize e.machine.frame = frame at howns ⊢
    cases howns
    rfl

/-- Creates two tables and drops their guards, the second first. -/
def guarding : Program Unit Unit Ending := do
  let first ← Handle.create
  let second ← Handle.create
  Guard.drop ⟨second⟩
  Guard.drop ⟨first⟩
  return .ok 0

/-- The moment before two guards are made in a frame that holds a table. -/
def beforeGuards : Configuration Unit Unit := ⟨⟨(Machine.new 0 {}).createTable, ()⟩, guarding, []⟩

theorem reachable_beforeGuards : Reachable idle beforeGuards :=
  ⟨0, {}, (), .step (.primitive .createTable) fun _ => guarding, leads_of_iterate (n := 1) rfl⟩

theorem scoped_guarding : ∃ e, Scoped idle beforeGuards [] e := by
  have hfirst : Scoped idle beforeGuards [_] _ := .create .start rfl rfl
  have hsecond := Scoped.create hfirst rfl rfl
  have hdropped := Scoped.drop hsecond rfl rfl
  exact ⟨_, Scoped.drop hdropped rfl rfl⟩

/-- The guard of the table in the frame takes its slot from below a new table, and only once; and
two guards that are made and dropped leave the frame with that table. -/
theorem buried_guard_releases_once :
    Reachable idle beforeGuards ∧
    (∃ d after, beforeGuards.step idle = some d ∧
      d.world.run idle (Guard.drop ⟨⟨0, some ⟨0, 1⟩⟩⟩) = (.ok (), after) ∧
      after.machine.stack.valuesFrom 0 = [.table 1] ∧
      after.run idle (Guard.drop ⟨⟨0, some ⟨0, 1⟩⟩⟩) = (.ok (), after)) ∧
    ∃ e, Scoped idle beforeGuards [] e ∧ e.machine.frame = beforeGuards.machine.frame := by
  obtain ⟨-, -, -, hdrops, hscope⟩ := guards_release_only_own_slot reachable_beforeGuards
  have hbound : Guard.BoundAt beforeGuards.machine ⟨⟨0, some ⟨0, 1⟩⟩⟩ ⟨0, 1⟩ 0 := ⟨rfl, 1, rfl, rfl⟩
  obtain ⟨after, hdrop⟩ := hdrops _ _ _ _ hbound (Leads.refl.step trivial rfl)
  obtain ⟨-, -, -, hwithout⟩ := hdrop.released rfl
  obtain ⟨e, he⟩ := scoped_guarding
  exact ⟨reachable_beforeGuards,
    ⟨_, after, rfl, hdrop.run, hwithout.above, hdrop.once rfl (.done (.ok 0)) _ .refl _ rfl⟩,
    e, he, (hscope e he).2⟩

end Configuration

end StackEmbedding
