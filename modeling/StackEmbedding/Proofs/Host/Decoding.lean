import StackEmbedding.Proofs.Host.WriteRead

/-!
# A variant keeps what its slot holds

Reading a slot as a variant goes by what the slot holds and never by what that could be coerced to:
an integer stays an integer, a float keeps its bits, a numeral stays text. A table is kept by a
handle for its slot. `Variant.Shows` says which variant shows which value of a machine, and
`variant_keeps_slot` that nothing is lost on the way out and back: the variant that was read is
pushed as the value of the slot, and stored as it.

Closures are the only values that no variant shows; reading one answers nothing.
-/

set_option autoImplicit false

namespace StackEmbedding

variable {κ σ : Type} {m : Machine κ} {v : Value}

namespace Variant

/-- The variant shows a value of the machine: the value itself, or a handle that is found and stands
for the table. -/
inductive Shows (m : Machine κ) : Variant → Value → Prop
  | nil : Shows m .nil .nil
  | bool (b : Bool) : Shows m (.bool b) (.bool b)
  | int (i : Int64) : Shows m (.int i) (.int i)
  | number (x : Binary64) : Shows m (.number x) (.number x)
  | str (bytes : Bytes) : Shows m (.str bytes) (.str bytes)
  | function (f : Native) : Shows m (.function f) (.function f)
  | table {h : Handle} {p : Int} {id : TableId} :
      h.locate m = some p → h.runtime m = .table id → Shows m (.table h) (.table id)

variable {x : Variant}

theorem Shows.runtime (h : x.Shows m v) : x.runtime m = v := by
  cases h with
  | table _ hid => exact hid
  | nil | bool _ | int _ | number _ | str _ | function _ => rfl

/-- A variant that shows a value holds no stale handle. -/
theorem Shows.live (h : x.Shows m v) : HostValue.Live m (.variant x) := by
  intro k hk
  cases h with
  | table hp _ =>
    obtain rfl := List.mem_singleton.mp hk
    rw [hp, Option.isSome_some]
  | nil | bool _ | int _ | number _ | str _ | function _ => cases hk

theorem convert_eq_none_iff {owner : Nat} {slot : SlotId} :
    convert owner slot v = none ↔ ∃ id, v = .closure id := by
  cases v <;> simp [convert]

end Variant

/-- A handle for the slot at a position that holds a table is found, and stands for the table. -/
theorem Handle.locate_of_slotId? {position : Int} {id : SlotId} {t : TableId}
    (hid : m.slotId? position = some id) (hv : m.value? position = some (.table t)) :
    (∃ p, locate m ⟨m.identity, some id⟩ = some p) ∧
      runtime m ⟨m.identity, some id⟩ = .table t := by
  obtain ⟨hresolve, held, hslot⟩ := Machine.slotId?_eq_some_iff.mp hid
  have hle := Machine.base_le_of_resolve? (Machine.base_le_height_of_resolve? hresolve) hresolve
  rw [Machine.value?, hresolve, Option.bind_some, Stack.value?, hslot, Option.map_some,
    Option.some.injEq] at hv
  obtain rfl := hv
  obtain ⟨hfound, hruntime⟩ := locate_of_held hle hslot
  exact ⟨⟨_, hfound⟩, hruntime⟩

/-- What a value is read as shows the value, if the handle for its slot stands for its table. -/
theorem Variant.shows_of_convert {owner : Nat} {slot : SlotId} {x : Variant}
    (htable : ∀ t, v = .table t → (∃ p, Handle.locate m ⟨owner, some slot⟩ = some p) ∧
      Handle.runtime m ⟨owner, some slot⟩ = .table t)
    (hx : convert owner slot v = some x) : x.Shows m v := by
  cases v with
  | table t =>
    obtain ⟨⟨p, hp⟩, hid⟩ := htable t rfl
    cases hx
    exact .table hp hid
  | closure id => cases hx
  | nil => cases hx; exact .nil
  | bool b => cases hx; exact .bool b
  | int i => cases hx; exact .int i
  | number x => cases hx; exact .number x
  | str bytes => cases hx; exact .str bytes
  | function f => cases hx; exact .function f

/-- Storing a variant that shows a value makes it the entry of the table, and reading that entry by
the machine alone puts it on the stack. -/
theorem Handle.set_shown (host : Host κ σ) {w : World κ σ} {x : Variant}
    (hx : x.Shows w.machine v) {h : Handle} {p : Int} (hp : h.locate w.machine = some p)
    {key : HostValue} (hnil : key.runtime w.machine ≠ .nil)
    (hnan : ∀ y, key.runtime w.machine = .number y → y.isNaN = false) :
    ∃ id after, h.runtime w.machine = .table id ∧
      w.run host (h.set key (.variant x)) = (.ok true, after) ∧ w.SameFrame after ∧
      (after.machine.table id).get (key.runtime w.machine) = v ∧
      ∃ fetched, (after.machine.push (key.runtime w.machine)).getTable p =
        (.ok (.ok v.tag), fetched) ∧ fetched.value? (-1) = some v := by
  have hfound : (h.locate w.machine).isSome = true := by rw [hp, Option.isSome_some]
  obtain ⟨stored, after, hrun, hiff, -, hdone⟩ := h.set_cases host _ w key (.variant x)
  obtain rfl : stored = true :=
    hiff.mpr ⟨hfound, HostValue.live_of_runtime_ne_nil hnil, hx.live, hnil, hnan⟩
  obtain ⟨id, k, hid, hk, hupdated⟩ := hdone rfl
  have hgrown := hupdated.toSameFrame.grown (base_le_of_locate hp) hrun
  have hentry : (after.machine.table id).get (key.runtime w.machine) = v :=
    (hupdated.entry.get_same hk).trans hx.runtime
  have hnamed : after.machine.value? p = some (.table id) := by
    rw [runtime_of_locate ((locate_same hgrown h).trans hp), runtime_same hgrown, hid]
  have hbase : after.machine.base ≤ after.machine.stack.height :=
    base_le_of_locate ((locate_same hgrown h).trans hp)
  have hfetch := Machine.getTable_push (positive_of_locate hp) hnamed (key.runtime w.machine)
  rw [hentry] at hfetch
  exact ⟨id, after, hid, hrun, hupdated.toSameFrame, hentry, _, hfetch,
    Machine.value?_top (m := after.machine.spend 1) hbase v⟩

/-- A variant keeps what its slot holds. Reading a slot as a variant changes nothing; it answers
nothing for a closure, and a variant that shows the value for anything else. Pushing that variant
adds one slot with the value; storing it through a live handle, under a key that is neither nil nor
NaN, makes the value the entry of the table, which reads back as it was. -/
theorem variant_keeps_slot (host : Host κ σ) (w : World κ σ) {position : Int}
    (hv : w.machine.value? position = some v) :
    ((∃ id, v = .closure id) → w.run host (Variant.read position) = (.ok none, w)) ∧
    ((∀ id, v ≠ .closure id) → ∃ x, w.run host (Variant.read position) = (.ok (some x), w) ∧
      x.Shows w.machine v ∧
      (∃ pushed, w.run host x.push = (.ok (), pushed) ∧
        w.OnlyGrown [⟨v, w.machine.stack.nextStamp⟩] pushed) ∧
      ∀ (h : Handle) (p : Int) (key : HostValue), h.locate w.machine = some p →
        key.runtime w.machine ≠ .nil →
        (∀ y, key.runtime w.machine = .number y → y.isNaN = false) →
        ∃ id after, h.runtime w.machine = .table id ∧
          w.run host (h.set key (.variant x)) = (.ok true, after) ∧ w.SameFrame after ∧
          (after.machine.table id).get (key.runtime w.machine) = v ∧
          ∃ fetched, (after.machine.push (key.runtime w.machine)).getTable p =
            (.ok (.ok v.tag), fetched) ∧ fetched.value? (-1) = some v) := by
  obtain ⟨slot, hslot⟩ := Machine.slotId?_of_value? hv
  have hread : w.run host (Variant.read position) =
      (.ok (Variant.convert w.machine.identity slot v), w) := Variant.runWith_read hv hslot
  refine ⟨fun hclosure => ?_, fun hopen => ?_⟩
  · rw [hread, Variant.convert_eq_none_iff.mpr hclosure]
  · obtain ⟨x, hx⟩ : ∃ x, Variant.convert w.machine.identity slot v = some x := by
      rw [← Option.isSome_iff_exists, Option.isSome_iff_ne_none]
      intro hnone
      obtain ⟨id, hclosure⟩ := Variant.convert_eq_none_iff.mp hnone
      exact hopen id hclosure
    have hshows : x.Shows w.machine v := Variant.shows_of_convert
      (fun t ht => Handle.locate_of_slotId? hslot (ht ▸ hv)) hx
    refine ⟨x, by rw [hread, hx], hshows, ?_, fun h p key hp => Handle.set_shown host hshows hp⟩
    have hpush : w.run host (HostValue.variant x).push =
        (.ok (), w.withMachine (w.machine.push (x.runtime w.machine))) :=
      HostValue.runWith_push hshows.live.owner
    rw [hshows.runtime] at hpush
    exact ⟨_, hpush, w.onlyGrown_push v⟩

/-- A world whose frame holds a table and, above it, a numeral as text. -/
def holdingNumeral : World Unit Unit :=
  holdingTable.withMachine (holdingTable.machine.push (.str (.ofString "0x10")))

/-- A numeral is read, pushed and stored as text. -/
theorem numeral_stays_text :
    holdingNumeral.machine.value? (-1) = some (.str (.ofString "0x10")) ∧
    ∃ x, holdingNumeral.run passive (Variant.read (-1)) = (.ok (some x), holdingNumeral) ∧
      (∃ pushed, holdingNumeral.run passive x.push = (.ok (), pushed) ∧
        pushed.machine.stack.top? = some (.str (.ofString "0x10"))) ∧
      ∃ id after, heldTable.runtime holdingNumeral.machine = .table id ∧
        holdingNumeral.run passive (heldTable.set (.int .u8 2) (.variant x)) = (.ok true, after) ∧
        (after.machine.table id).get (.int 2) = .str (.ofString "0x10") := by
  have hv : holdingNumeral.machine.value? (-1) = some (.str (.ofString "0x10")) := rfl
  obtain ⟨x, hread, -, ⟨pushed, hpush, hgrown⟩, hstore⟩ :=
    (variant_keeps_slot passive holdingNumeral hv).2 nofun
  obtain ⟨id, after, hid, hset, -, hentry, -⟩ := hstore heldTable 1 (.int .u8 2) rfl nofun nofun
  refine ⟨hv, x, hread, ⟨pushed, hpush, ?_⟩, id, after, hid, hset, hentry⟩
  rw [Stack.top?, hgrown.grown.slots, List.getLast?_concat, Option.map_some]

end StackEmbedding
