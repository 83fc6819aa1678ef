import StackEmbedding.Proofs.Machine.SlotIdentity
import StackEmbedding.Proofs.Program.Agreement

/-!
# A protected call is isolated from the frame of its caller

`protectedCall_isolated` follows one protected call through all of its moments, from any moment of
any run. The callee and the handler are any code that a host gives to callable values: they may
push and drop, call again, report an error or more results than they left, or panic halfway.

**What stays with the callee.** What a call does to tables, globals and the memory of the host is
not undone and not spoken of here.
-/

set_option autoImplicit false

namespace StackEmbedding.Configuration

variable {κ σ : Type} {host : Host κ σ} {c d e : Configuration κ σ}

/-- An identity that was taken before `c` resolves at no moment after it, if all slots that `c` has
at its index and above are newer. -/
theorem positionOf?_eq_none_of_fresh {allowed : Configuration κ σ → Prop} {i first : Nat}
    (hc : c.WellFormed) (hfresh : c.stack.FreshFrom i first) (hfirst : first ≤ c.stack.nextStamp)
    {id : SlotId} (hindex : i ≤ id.index) (hstamp : id.stamp < first)
    (h : Leads host allowed c d) : d.machine.positionOf? id = none := by
  apply Option.eq_none_iff_forall_ne_some.mpr
  intro position hposition
  obtain ⟨-, ⟨v, hslot⟩, -⟩ := Machine.positionOf?_eq_some_iff.mp hposition
  rcases h.kept_or_fresh hc hslot with hkept | hnew
  · exact Nat.not_le_of_lt hstamp (hfresh _ _ hindex hkept)
  · exact Nat.not_le_of_lt hstamp (Nat.le_trans hfirst hnew)

/-- What a protected call with its callee at the raw index `callee`, begun at `c`, keeps and leaves.
It has taken its last step after `n` others, and it ends with `status` at `after`. -/
structure Isolated (host : Host κ σ) (c : Configuration κ σ) (callee : Nat) (results : Int)
    (n : Nat) (status : Status) (after : Configuration κ σ) : Prop where
  /-- At every moment of the call the base is at most the height of the stack. -/
  fits : ∀ k ≤ n + 1, ∃ d, iterate host k c = some d ∧ d.machine.base ≤ d.stack.height
  base : after.machine.base = c.machine.base
  depth : after.machine.depth = c.machine.depth
  /-- Slots below the callee keep their values and their stamps. -/
  below : ∀ k < callee, after.stack.slots[k]? = c.stack.slots[k]?
  /-- The results that the function reported, adjusted, or one error object. -/
  height :
    (status = .ok ∧ ∃ last reported, iterate host n c = some last ∧
      last.code = .done (.ok reported) ∧
      after.stack.height = callee + Machine.kept results reported) ∨
    (status = .runtime ∧ after.stack.height = callee + 1)
  /-- No identity taken before or during the call, at the callee's index or above, resolves at any
  moment after the call. -/
  stale : ∀ d position id, (Reachable host d ∧ Leads host (fun _ => True) d c ∨
      ∃ k ≤ n, iterate host k c = some d) →
    d.machine.slotId? position = some id → callee ≤ id.index →
      ∀ e, Leads host (fun _ => True) after e → e.machine.positionOf? id = none

/-- What the entry checks of a protected call find. -/
theorem checkCall_of_valid {m : Machine κ} {arguments : Nat} {handler : Int}
    (harguments : arguments < m.top) (hhandler : handler = 0 ∨ (m.resolve? handler).isSome) :
    ∃ h, m.checkCall arguments handler = .ok (m.stack.height - arguments - 1, h) := by
  rw [Machine.checkCall_eq harguments]
  by_cases hzero : handler = 0
  · exact ⟨none, by rw [if_pos hzero]⟩
  · obtain ⟨raw, hraw⟩ := Option.isSome_iff_exists.mp (hhandler.resolve_left hzero)
    obtain ⟨slot, hslot⟩ := Machine.slot_of_resolve? hraw
    refine ⟨some slot.value, ?_⟩
    rw [if_neg hzero, Machine.value?, hraw, Option.bind_some, Stack.value?, hslot]
    rfl

/-- A protected call that passes its entry checks ends, and is isolated from its caller's frame. -/
theorem protectedCall_isolated (hc : Reachable host c) {arguments : Nat} {results handler : Int}
    {next : Status → Body κ σ} (hcode : c.code = .step (.call arguments results handler) next)
    (harguments : arguments < c.machine.top)
    (hhandler : handler = 0 ∨ (c.machine.resolve? handler).isSome) :
    ∃ status after n,
      c.world.protectedCall host (World.runner host c.machine.callsLeft) arguments results handler =
        (.ok status, after) ∧
      iterate host (n + 1) c = some ⟨after, next status, c.calls⟩ ∧
      Isolated host c (c.stack.height - arguments - 1) results n status
        ⟨after, next status, c.calls⟩ := by
  obtain ⟨h, hcheck⟩ := checkCall_of_valid harguments hhandler
  obtain ⟨status, after, n, last, hcall, hlast, hstep, hsettles⟩ :=
    iterate_call host results next c.calls hcheck
  have hevolves := World.protectedCall_evolves host
    (World.confined_runner host c.machine.callsLeft) results hcheck
  rw [← hcode] at hlast
  rw [hcall] at hevolves
  have hend : iterate host (n + 1) c = some ⟨after, next status, c.calls⟩ := by
    rw [iterate_succ_last hlast, hstep]
  have hafter : Reachable host ⟨after, next status, c.calls⟩ := hc.leads (leads_of_iterate hend)
  refine ⟨status, after, n, hcall, hend, ?_⟩
  constructor
  case fits =>
    intro k hk
    obtain ⟨d, hd, -⟩ := iterate_of_le hend hk
    exact ⟨d, hd, (hc.leads (leads_of_iterate hd)).wellFormed.base_le_height⟩
  case base => exact hevolves.base
  case depth => exact hevolves.depth
  case below => exact fun k hk => hevolves.edit.slot_eq (Nat.not_le_of_lt hk)
  case height =>
    rcases hsettles.height with ⟨hok, reported, hreported, hheight⟩ | hruntime
    · exact .inl ⟨hok, last, reported, hlast, hreported, hheight⟩
    · exact .inr hruntime
  case stale =>
    intro d position id hd hid hindex e he
    -- Every moment before or during the call leads to the moment before its last step.
    obtain ⟨hd, hdlast⟩ : d.WellFormed ∧ Leads host (fun _ => True) d last := by
      rcases hd with ⟨hreachable, hleads⟩ | ⟨k, hk, hiterate⟩
      · exact ⟨hreachable.wellFormed, hleads.trans (leads_of_iterate hlast)⟩
      · obtain ⟨d', hd', hmore⟩ := iterate_of_le hlast hk
        obtain rfl : d' = d := Option.some.inj (hd'.symm.trans hiterate)
        exact ⟨(hc.leads (leads_of_iterate hd')).wellFormed, leads_of_iterate hmore⟩
    obtain ⟨-, v, hslot⟩ := Machine.slotId?_eq_some_iff.mp hid
    have hissued : id.stamp < last.stack.nextStamp :=
      Nat.lt_of_lt_of_le (hd.stamped.issued _ (List.mem_of_getElem? hslot)) (hdlast.nextStamp_le hd)
    have hlater : last.stack.nextStamp ≤ after.machine.stack.nextStamp :=
      (step_changes (hc.leads (leads_of_iterate hlast)).wellFormed.toFramed hstep).edit.nextStamp_le
    exact positionOf?_eq_none_of_fresh hafter.wellFormed hsettles.fresh hlater hindex hissued he

/-- Drops its arguments, pushes one value and reports three results. -/
def overReport : Program Unit Unit Ending := do
  Program.perform (.setTop 0)
  Program.push .nil
  return .ok 3

/-- A host whose functions report more than they leave. -/
def overReporting : Host Unit Unit := ⟨fun _ => overReport, fun _ => overReport⟩

/-- Calls a function with one argument above another value. -/
def callingAbove : Program Unit Unit Ending := do
  Program.push (.bool true)
  Program.push (.function ⟨"over"⟩)
  Program.push .nil
  let _ ← Program.call 1 1 0
  return .ok 0

/-- The moment before the call of `callingAbove`. -/
def atCallAbove : Configuration Unit Unit where
  world := ⟨(((Machine.new 0 {}).push (.bool true)).push (.function ⟨"over"⟩)).push .nil, ()⟩
  code := .step (.call 1 1 0) fun _ => .done (.ok 0)
  calls := []

theorem reachable_atCallAbove : Reachable overReporting atCallAbove :=
  ⟨0, {}, (), callingAbove, leads_of_iterate (n := 3) rfl⟩

/-- The laws of `protectedCall_isolated` for a function that reports more than it left. -/
theorem overReporting_isolated :
    Reachable overReporting atCallAbove ∧ 1 < atCallAbove.machine.top ∧
    ∃ status after n,
      atCallAbove.world.protectedCall overReporting
        (World.runner overReporting atCallAbove.machine.callsLeft) 1 1 0 = (.ok status, after) ∧
      iterate overReporting (n + 1) atCallAbove = some ⟨after, .done (.ok 0), []⟩ ∧
      Isolated overReporting atCallAbove 1 1 n status ⟨after, .done (.ok 0), []⟩ :=
  ⟨reachable_atCallAbove, by decide,
    protectedCall_isolated reachable_atCallAbove rfl (by decide) (.inl rfl)⟩

end StackEmbedding.Configuration
