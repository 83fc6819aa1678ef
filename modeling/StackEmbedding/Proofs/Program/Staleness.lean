import StackEmbedding.Proofs.Host.Store
import StackEmbedding.Proofs.Machine.SlotIdentity
import StackEmbedding.Proofs.Program.Change

/-!
# Slot identities over a whole run

An identity is taken at one moment of a run and looked up at a later one. `slotId_sound_and_precise`
says in both directions what the look-up answers.

**Sound.** Where the identity resolves, the slot is the one it was taken from and was not written
since. The invariant is that stamps are issued in order and every slot written since has a later
one.

**Precise.** Where no step wrote the slot, the identity resolves as soon as the frame holds the
slot. Steps of functions that run above the slot need no premise: they cannot see it. The invariant
is `Sheltered`, that each call entered since lies above the slot.

Stamps are natural numbers, so there is no bound on the length of a run.
-/

set_option autoImplicit false

namespace StackEmbedding.Configuration

variable {κ σ : Type} {host : Host κ σ} {c d e : Configuration κ σ} {i : Nat}

/-! ## Slots below the running functions -/

/-- The next step leaves the slot at a raw index alone, if the frame holds that index. -/
def Spares (host : Host κ σ) (i : Nat) (c : Configuration κ σ) : Prop :=
  c.machine.base ≤ i → ¬ c.touches host i

/-- Of the frames of the running function and its callers, innermost first, one holds a raw index,
and the functions running in the frames before it were called above that index. -/
def Sheltered (i : Nat) : Nat → List (Activation κ σ) → Prop
  | base, [] => base ≤ i
  | base, a :: rest => base ≤ i ∨ i < a.callee ∧ Sheltered i a.base rest

theorem sheltered_of_le {base : Nat} (h : base ≤ i) :
    (calls : List (Activation κ σ)) → Sheltered i base calls
  | [] => h
  | _ :: _ => .inl h

theorem not_touches_of_sheltered (hc : c.WellFormed)
    (hsheltered : Sheltered i c.machine.base c.calls) (hspares : c.Spares host i) :
    ¬ c.touches host i := by
  intro htouches
  rcases base_le_of_touches hc.toFramed htouches with hbase | ⟨a, rest, hcalls, hcallee⟩
  · exact hspares hbase htouches
  · rw [hcalls] at hsheltered
    rcases hsheltered with hbase | ⟨habove, -⟩
    · exact hspares hbase htouches
    · exact Nat.not_le_of_lt habove hcallee

/-- A step that spares an index keeps it sheltered. -/
theorem Sheltered.step (hc : c.WellFormed) (h : Sheltered i c.machine.base c.calls)
    (hspares : c.Spares host i) (hstep : c.step host = some d) :
    Sheltered i d.machine.base d.calls := by
  have huntouched := not_touches_of_sheltered hc h hspares
  cases (step_changes hc.toFramed hstep).frames with
  | stay calls base fits => rw [calls, base]; exact h
  | enter a calls caller inside touched base fits =>
    rw [calls, base]
    rcases Nat.lt_trichotomy i a.callee with hlt | rfl | hgt
    · exact .inr ⟨hlt, caller ▸ h⟩
    · exact absurd touched huntouched
    · exact .inl hgt
  | leave a calls base touched fits =>
    have hlt : i < a.callee := Nat.lt_of_not_le fun hle => huntouched (touched i hle)
    have hnested := hc.nested
    rw [calls] at h hnested
    rw [base]
    rcases h with hle | ⟨-, hrest⟩
    · have := hnested.1
      omega
    · exact hrest
  | handle a b rest before calls callee caller touched base fits =>
    have hlt : i < a.callee := Nat.lt_of_not_le fun hle => huntouched (touched i hle)
    have hnested := hc.nested
    rw [before] at h hnested
    rw [calls, base]
    rcases h with hle | ⟨-, hrest⟩
    · have := hnested.1
      omega
    · exact .inr ⟨callee ▸ hlt, caller ▸ hrest⟩

/-- A slot that every step of a run spares is sheltered and unchanged at the end. -/
theorem Leads.slot_eq (hc : c.WellFormed) (h : Leads host (Spares host i) c d)
    (hbase : c.machine.base ≤ i) :
    Sheltered i d.machine.base d.calls ∧ d.stack.slots[i]? = c.stack.slots[i]? := by
  induction h with
  | refl => exact ⟨sheltered_of_le hbase _, rfl⟩
  | step before hspares hstep ih =>
    obtain ⟨hsheltered, hslot⟩ := ih
    have hwell := hc.leads before
    refine ⟨hsheltered.step hwell hspares hstep, ?_⟩
    have huntouched := not_touches_of_sheltered hwell hsheltered hspares
    rw [(step_changes hwell.toFramed hstep).edit.slot_eq huntouched, hslot]
  | restart memory code _ hcalls ih =>
    rw [hcalls] at ih
    exact ih

/-! ## Identities -/

/-- What an identity, taken at `position` of `c`, tells at a later moment `d`. -/
structure Sound (host : Host κ σ) (c : Configuration κ σ) (position : Int) (id : SlotId)
    (d : Configuration κ σ) : Prop where
  /-- Where it resolves, it names the raw slot it was taken from, with the value of that time. -/
  resolves : ∀ p, d.machine.positionOf? id = some p →
    c.machine.resolve? position = some id.index ∧ d.machine.resolve? p = some id.index ∧
      ∃ v, c.machine.value? position = some v ∧ d.machine.value? p = some v
  /-- A handle that finds its position finds the table it was bound to there. -/
  finds : ∀ (h : Handle) p after, h.slot = some id →
    d.world.run host h.position? = (.ok (some p), after) →
      after = d.world ∧ ∃ t, c.machine.value? position = some (.table t) ∧
        d.machine.value? p = some (.table t)
  /-- A store through a handle changes no table but the one it was bound to. -/
  stores : ∀ (h : Handle) (key value : HostValue) t, h.slot = some id →
    c.machine.value? position ≠ some (.table t) →
      (d.world.run host (h.set key value)).2.machine.tables.get? t = d.machine.tables.get? t

theorem sound_of_leads (hc : c.WellFormed) {position : Int} {id : SlotId}
    (hid : c.machine.slotId? position = some id) {allowed : Configuration κ σ → Prop}
    (h : Leads host allowed c d) : Sound host c position id d := by
  obtain ⟨hresolve, v, hslot⟩ := Machine.slotId?_eq_some_iff.mp hid
  have hvalue : c.machine.value? position = some v := by
    rw [Machine.value?, hresolve, Option.bind_some, Stack.value?, hslot]
    rfl
  have hresolves : ∀ p, d.machine.positionOf? id = some p →
      d.machine.resolve? p = some id.index ∧ d.machine.value? p = some v := by
    intro p hp
    have hnow := Machine.resolve?_of_positionOf? (hc.leads h).base_le_height hp
    obtain ⟨-, ⟨u, hlater⟩, -⟩ := Machine.positionOf?_eq_some_iff.mp hp
    refine ⟨hnow, ?_⟩
    rcases h.kept_or_fresh hc hlater with hkept | hfresh
    · obtain rfl : v = u := by
        rw [hslot] at hkept
        exact congrArg Slot.value (Option.some.inj hkept)
      rw [Machine.value?, hnow, Option.bind_some, Stack.value?, hlater]
      rfl
    · exact absurd (hc.stamped.issued _ (List.mem_of_getElem? hslot)) (Nat.not_lt_of_le hfresh)
  have hlocates : ∀ (h : Handle) p, h.slot = some id → h.locate d.machine = some p →
      ∃ t, v = .table t ∧ d.machine.value? p = some (.table t) := by
    intro handle p hhandle hp
    obtain ⟨-, hposition, t, ht⟩ := Handle.table_of_locate hp
    rw [hhandle, Option.bind_some] at hposition
    have := (hresolves p hposition).2
    rw [ht] at this
    exact ⟨t, (Option.some.inj this).symm, ht⟩
  refine ⟨fun p hp => ⟨hresolve, (hresolves p hp).1, v, hvalue, (hresolves p hp).2⟩, ?_, ?_⟩
  · intro handle p after hhandle hrun
    rw [World.run, Handle.runWith_position?] at hrun
    obtain ⟨hlocate, rfl⟩ := Prod.mk.inj hrun
    obtain ⟨t, rfl, ht⟩ := hlocates handle p hhandle (Except.ok.inj hlocate)
    exact ⟨rfl, t, hvalue, ht⟩
  · intro handle key value t hhandle hother
    apply Handle.tables_set handle key value
    intro p hp
    obtain ⟨s, rfl, hs⟩ := hlocates handle p hhandle hp
    rw [hs, ← hvalue]
    exact hother

/-- An identity that was taken resolves at a later moment only to the slot it was taken from, with
the value of that time; and it does resolve, if no step wrote that slot and the frame holds it. -/
theorem slotId_sound_and_precise (hc : Reachable host c) {position : Int} {id : SlotId}
    (hid : c.machine.slotId? position = some id) :
    (∀ d, Leads host (fun _ => True) c d → Sound host c position id d) ∧
    (∀ d, Leads host (Spares host id.index) c d → d.machine.base ≤ id.index →
      d.machine.positionOf? id = some (id.index - d.machine.base + 1 : Nat)) := by
  have hwell := hc.wellFormed
  refine ⟨fun d hd => sound_of_leads hwell hid hd, fun d hd hbase => ?_⟩
  obtain ⟨hresolve, v, hslot⟩ := Machine.slotId?_eq_some_iff.mp hid
  have htaken := Machine.base_le_of_resolve? hwell.base_le_height hresolve
  obtain ⟨-, hkept⟩ := hd.slot_eq hwell htaken
  exact Machine.positionOf?_eq_some_iff.mpr ⟨hbase, ⟨v, hkept.trans hslot⟩, rfl⟩

/-- A host whose functions do nothing. -/
def idle : Host Unit Unit := ⟨fun _ => .done (.ok 0), fun _ => .done (.ok 0)⟩

/-- Pushes a value. -/
def pushing : Program Unit Unit Ending := do
  Program.push .nil
  return .ok 0

/-- The moment after a table was created and before a value is pushed above it. -/
def aboveTable : Configuration Unit Unit := ⟨⟨(Machine.new 0 {}).createTable, ()⟩, pushing, []⟩

theorem reachable_aboveTable : Reachable idle aboveTable :=
  ⟨0, {}, (), .step (.primitive .createTable) fun _ => pushing, leads_of_iterate (n := 1) rfl⟩

/-- The identity of a table's slot is sound, and resolves while a value is pushed above it. -/
theorem slotId_of_table :
    aboveTable.machine.slotId? 1 = some ⟨0, 1⟩ ∧
    (∀ d, Leads idle (fun _ => True) aboveTable d → Sound idle aboveTable 1 ⟨0, 1⟩ d) ∧
    ∃ d, aboveTable.step idle = some d ∧ Leads idle (Spares idle 0) aboveTable d ∧
      d.machine.positionOf? ⟨0, 1⟩ = some 1 := by
  have hid : aboveTable.machine.slotId? 1 = some ⟨0, 1⟩ := rfl
  obtain ⟨hsound, hprecise⟩ := slotId_sound_and_precise reachable_aboveTable hid
  have hspares : aboveTable.Spares idle 0 := fun _ h => Nat.not_succ_le_zero 0 h
  have hleads : Leads idle (Spares idle 0) aboveTable _ := Leads.refl.step hspares rfl
  exact ⟨hid, hsound, _, rfl, hleads, hprecise _ hleads (Nat.le_refl 0)⟩

end StackEmbedding.Configuration
