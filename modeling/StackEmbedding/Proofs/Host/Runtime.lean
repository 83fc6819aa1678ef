import StackEmbedding.Proofs.Host.Push
import StackEmbedding.Proofs.Machine.SlotIdentity
import StackEmbedding.Proofs.Stack.Top

/-!
# Values of the host while others are pushed

What is pushed lies above every slot that a handle names, so a handle that is found stays where it
is, and a value without a stale handle keeps what it stands for.

A stale handle stays stale, too, if its identity was issued before: the identity with the next
stamp is that of the next slot. `HostValue.BelongsTo` is what a value gets that was made on its
machine. The values of a list can then be pushed one after the other, and each of them pushes what
it stood for before the first (`Environment.runWith_pushAll_eq`).
-/

set_option autoImplicit false

namespace StackEmbedding

variable {κ σ : Type} {host : Host κ σ} {runner : World.Runner κ σ} {w : World κ σ}
  {m n : Machine κ} {above : List Slot}

namespace Handle

/-- A handle of this machine; what it names, if anything, was a slot of it. -/
structure BelongsTo (m : Machine κ) (h : Handle) : Prop where
  owner : h.owner = m.identity
  issued : ∀ slot ∈ h.slot, slot.stamp < m.stack.nextStamp

/-- A handle that is made for a slot of the machine belongs to it. -/
theorem belongsTo_of_slotId? (position : Int) (hstamped : m.stack.WellStamped) {slot : SlotId}
    (hslot : m.slotId? position = some slot) : BelongsTo m ⟨m.identity, some slot⟩ where
  owner := rfl
  issued id hid := by
    obtain rfl := Option.some.inj hid
    obtain ⟨-, v, hheld⟩ := Machine.slotId?_eq_some_iff.mp hslot
    exact hstamped.issued _ (List.mem_of_getElem? hheld)

/-- A handle belongs to its machine for good. -/
theorem BelongsTo.evolves {h : Handle} (hm : h.BelongsTo m) {touched : Nat → Prop}
    (hevolves : m.Evolves touched n) : h.BelongsTo n where
  owner := hm.owner.trans hevolves.identity.symm
  issued slot hslot := Nat.lt_of_lt_of_le (hm.issued slot hslot) hevolves.edit.nextStamp_le

theorem locate_eq_some_iff {h : Handle} {p : Int} :
    h.locate m = some p ↔ h.owner = m.identity ∧ h.slot.bind m.positionOf? = some p ∧
      ∃ t, m.value? p = some (.table t) := by
  refine ⟨table_of_locate, ?_⟩
  rintro ⟨howner, hslot, t, ht⟩
  rw [locate, if_pos howner, hslot]
  simp only [Option.filter, ht, TypeTag.ofSlot, Option.elim_some, Value.tag, decide_true, if_true]

/-- The position at which a handle is found counts from the base. -/
theorem positive_of_locate {h : Handle} {p : Int} (hp : h.locate m = some p) : 0 < p := by
  obtain ⟨-, hslot, -⟩ := table_of_locate hp
  obtain ⟨id, -, hposition⟩ := Option.bind_eq_some_iff.mp hslot
  exact Machine.positive_of_positionOf? hposition

theorem runtime_of_locate {h : Handle} {p : Int} (hp : h.locate m = some p) :
    m.value? p = some (h.runtime m) := by
  obtain ⟨-, -, t, ht⟩ := table_of_locate hp
  simp only [runtime, hp, Option.bind_some, ht, Value.orNil, Option.getD_some]

/-- A handle for a slot of the frame that holds a table is found there, and stands for the table. -/
theorem locate_of_held {id : SlotId} {t : TableId} (hle : m.base ≤ id.index)
    (hheld : m.stack.slots[id.index]? = some ⟨.table t, id.stamp⟩) :
    locate m ⟨m.identity, some id⟩ = some ((id.index - m.base + 1 : Nat) : Int) ∧
      runtime m ⟨m.identity, some id⟩ = .table t := by
  obtain ⟨hposition, hvalue⟩ := Machine.position_of_held hle hheld
  have hfound : locate m ⟨m.identity, some id⟩ = some ((id.index - m.base + 1 : Nat) : Int) :=
    locate_eq_some_iff.mpr ⟨rfl, hposition, t, hvalue⟩
  exact ⟨hfound, Option.some.inj ((runtime_of_locate hfound).symm.trans hvalue)⟩

/-- A handle that is found stays where it is when slots come to lie above. -/
theorem locate_grown (hgrown : m.GrownBy above n) {h : Handle} {p : Int}
    (hp : h.locate m = some p) : h.locate n = some p := by
  obtain ⟨howner, hslot, t, ht⟩ := table_of_locate hp
  obtain ⟨id, hid, hposition⟩ := Option.bind_eq_some_iff.mp hslot
  refine locate_eq_some_iff.mpr ⟨howner.trans hgrown.identity.symm, ?_, t,
    hgrown.value? (positive_of_locate hp) ht⟩
  rw [hid]
  exact hgrown.positionOf? hposition

/-- A handle that is found goes on standing for its table. -/
theorem runtime_grown (hgrown : m.GrownBy above n) {h : Handle} {p : Int}
    (hp : h.locate m = some p) : h.runtime n = h.runtime m := by
  have hafter := hgrown.value? (positive_of_locate hp) (runtime_of_locate hp)
  rw [runtime_of_locate (locate_grown hgrown hp)] at hafter
  exact Option.some.inj hafter

/-- In the same frame every handle is found where it was, or is as stale. -/
theorem locate_same (hsame : m.GrownBy [] n) (h : Handle) : h.locate n = h.locate m := by
  apply Option.ext
  intro p
  exact ⟨locate_grown hsame.symm, locate_grown hsame⟩

theorem runtime_same (hsame : m.GrownBy [] n) (h : Handle) : h.runtime n = h.runtime m := by
  cases hp : h.locate m with
  | some p => exact runtime_grown hsame hp
  | none => rw [runtime, runtime, locate_same hsame, hp, Option.bind_none, Option.bind_none]

/-- A push makes no stale handle of the machine live again. -/
theorem BelongsTo.locate_push {h : Handle} (hm : h.BelongsTo m) (v : Value) :
    h.locate (m.push v) = h.locate m := by
  cases hp : h.locate m with
  | some p => exact locate_grown (.push m v) hp
  | none =>
    apply Option.eq_none_iff_forall_ne_some.mpr
    intro p hafter
    obtain ⟨howner, hslot, t, ht⟩ := table_of_locate hafter
    obtain ⟨id, hid, hposition⟩ := Option.bind_eq_some_iff.mp hslot
    rw [Machine.positionOf?_push (hm.issued id hid)] at hposition
    -- The slot was there before the push, so what it holds now it held before.
    obtain ⟨held, hheld⟩ := Machine.value?_of_positionOf? hposition
    have hpositive := Machine.positive_of_positionOf? hposition
    have hkept := (Machine.GrownBy.push m v).value? hpositive hheld
    obtain rfl : Value.table t = held := Option.some.inj (ht.symm.trans hkept)
    have hfound : h.locate m = some p :=
      locate_eq_some_iff.mpr ⟨howner, by rw [hid]; exact hposition, t, hheld⟩
    rw [hp] at hfound
    cases hfound

theorem BelongsTo.runtime_push {h : Handle} (hm : h.BelongsTo m) (v : Value) :
    h.runtime (m.push v) = h.runtime m := by
  cases hp : h.locate m with
  | some p => exact runtime_grown (.push m v) hp
  | none => simp only [runtime, hm.locate_push, hp, Option.bind_none]

end Handle

namespace HostValue

/-- Every handle in a value is one of the machine. -/
def BelongsTo (m : Machine κ) (v : HostValue) : Prop := ∀ h ∈ v.handles, h.BelongsTo m

/-- Every handle in a value is found. -/
def Live (m : Machine κ) (v : HostValue) : Prop :=
  ∀ h ∈ v.handles, (h.locate m).isSome = true

/-- A value stands for the same on two machines when its handles do. -/
theorem runtime_congr {v : HostValue} (h : ∀ h ∈ v.handles, h.runtime n = h.runtime m) :
    v.runtime n = v.runtime m := by
  cases (v.carries : v.Carries κ Unit) with
  | handle t hhandles _ _ hruntime =>
    rw [hruntime, hruntime]
    exact h t (by rw [hhandles]; exact .head _)
  | constant c _ _ _ hruntime => rw [hruntime, hruntime]

/-- A value that holds a handle stands for what the handle stands for. -/
theorem runtime_of_mem_handles {v : HostValue} {h : Handle} (hmem : h ∈ v.handles) :
    v.runtime m = h.runtime m := by
  cases (v.carries : v.Carries κ Unit) with
  | handle t hhandles _ _ hruntime =>
    obtain rfl : h = t := by
      rw [hhandles] at hmem
      exact List.mem_singleton.mp hmem
    exact hruntime m
  | constant c hhandles _ _ _ =>
    rw [hhandles] at hmem
    cases hmem

theorem Live.owner {v : HostValue} (hlive : v.Live m) : ∀ h ∈ v.handles, h.owner = m.identity := by
  intro h hmem
  obtain ⟨p, hp⟩ := Option.isSome_iff_exists.mp (hlive h hmem)
  exact (Handle.table_of_locate hp).1

theorem Live.grown {v : HostValue} (hlive : v.Live m) (hgrown : m.GrownBy above n) :
    v.Live n ∧ v.runtime n = v.runtime m := by
  refine ⟨fun h hmem => ?_, runtime_congr fun h hmem => ?_⟩
  · obtain ⟨p, hp⟩ := Option.isSome_iff_exists.mp (hlive h hmem)
    rw [Handle.locate_grown hgrown hp, Option.isSome_some]
  · obtain ⟨p, hp⟩ := Option.isSome_iff_exists.mp (hlive h hmem)
    exact Handle.runtime_grown hgrown hp

theorem runtime_same (hsame : m.GrownBy [] n) (v : HostValue) : v.runtime n = v.runtime m :=
  runtime_congr fun h _ => h.runtime_same hsame

theorem BelongsTo.push {v : HostValue} (hm : v.BelongsTo m) (pushed : Value) :
    v.BelongsTo (m.push pushed) ∧ v.runtime (m.push pushed) = v.runtime m :=
  ⟨fun h hmem => (hm h hmem).evolves (.push pushed),
    runtime_congr fun h hmem => (hm h hmem).runtime_push pushed⟩

theorem map_runtime_push {values : List HostValue} (hvalues : ∀ v ∈ values, v.BelongsTo m)
    (pushed : Value) :
    (∀ v ∈ values, v.BelongsTo (m.push pushed)) ∧
      values.map (runtime (m.push pushed)) = values.map (runtime m) :=
  ⟨fun v hv => ((hvalues v hv).push pushed).1,
    List.map_congr_left fun v hv => ((hvalues v hv).push pushed).2⟩

end HostValue

/-- Pushing several values, each with what it stood for before the first was pushed. -/
theorem Environment.runWith_pushAll_eq {values : List HostValue}
    (hvalues : ∀ v ∈ values, v.BelongsTo w.machine) :
    (pushAll values : Program κ σ Unit).runWith host runner w =
      (.ok (), w.withMachine (w.machine.withStack
        (w.machine.stack.pushAll (values.map (HostValue.runtime w.machine))))) := by
  induction values generalizing w with
  | nil =>
    rw [List.map_nil, Stack.pushAll_nil]
    rfl
  | cons v rest ih =>
    have hv := hvalues v List.mem_cons_self
    obtain ⟨hrest, hkept⟩ := HostValue.map_runtime_push
      (fun u hu => hvalues u (List.mem_cons_of_mem v hu)) (v.runtime w.machine)
    rw [pushAll, HostValue.runWith_push_bind fun h hmem => (hv h hmem).owner, ih hrest]
    show (_, w.withMachine (w.machine.withStack
      ((w.machine.stack.push (v.runtime w.machine)).pushAll
        (rest.map (HostValue.runtime (w.machine.push (v.runtime w.machine))))))) = _
    rw [hkept, Stack.pushAll_push, List.map_cons]

end StackEmbedding
