import StackEmbedding.Proofs.Host.RoundTrip

/-!
# What was stored is read, under every key that is equal to it

A value that was stored under a key of a table is read under each key of the host that the machine
holds equal to it, whatever the types of the two keys and whichever of the two ways their accesses
take; and what is stored under any other key reads as it did before. Keys meet where the machine
makes one key of them, and that is raw equality (`Key.rawEq_iff`).

A result that refers to the slot it was read from is another handle after each read. For such a
result it is the table that is compared, and under the other keys only results that refer to no slot
are.
-/

set_option autoImplicit false

namespace StackEmbedding

variable {κ σ : Type} {w : World κ σ} {m : Machine κ}

/-! ## Values that can be stored -/

namespace HostValue

/-- The float of 32 bits that a value is, alone or as an optional value. -/
def narrow? : HostValue → Option Binary32
  | float32 x => some x
  | present v => v.narrow?
  | _ => none

/-- A live value that is not pushed as nil is faithful, unless it is a NaN of 32 bits. -/
theorem faithful_of_stored {v : HostValue} (hlive : v.Live m) (hstored : v.runtime m ≠ .nil)
    (hnan : ∀ x, v.narrow? = some x → x.isNaN = false) : v.Faithful m := by
  induction v with
  | float32 x => exact hnan x rfl
  | table h => exact hlive h (List.mem_singleton_self h)
  | present v ih => exact ⟨hstored, ih hlive hstored hnan⟩
  | int _ _ | float64 _ | bool _ | text _ | bytes _ | runtimeString _ | native _ | nil | variant _
  | absent => trivial

/-- A value that is no nil has no stale handle. -/
theorem live_of_runtime_ne_nil {v : HostValue} (h : v.runtime m ≠ .nil) : v.Live m := by
  intro k hk
  rw [runtime_of_mem_handles hk] at h
  cases hp : k.locate m with
  | none => exact absurd (Handle.runtime_of_stale hp) h
  | some p => rfl

/-- What holds a live handle refers to the slot that it is read back from. -/
theorem pinsSlot_readBack {v : HostValue} {h found : Handle} (hmem : h ∈ v.handles)
    (hlive : (h.locate m).isSome = true) : (v.readBack m found).pinsSlot = true := by
  induction v with
  | table _ => rfl
  | variant v =>
    cases v with
    | table k =>
      obtain rfl : h = k := List.mem_singleton.mp hmem
      rw [readBack, Variant.readBack, if_pos hlive]
      rfl
    | unset | int _ | bool _ | number _ | str _ | function _ | nil => cases hmem
  | present v ih => exact ih hmem
  | int _ _ | float64 _ | float32 _ | bool _ | text _ | bytes _ | runtimeString _ | native _ | nil
  | absent => cases hmem

end HostValue

/-- Taking what a value stands for answers what the value reads back as. A handle that comes back is
found on top. -/
theorem World.taken_readBack (hbase : w.machine.base ≤ w.machine.stack.height) (stamps : Nat)
    (keep : Bool) {v : HostValue} {t : HostType} (htype : v.HasType t) (hfaithful : v.Faithful m) :
    ∃ found after, w.taken stamps (v.runtime m) keep t =
        (.ok (some (v.readBack m found)), after) ∧
      ∀ h ∈ v.handles, (h.locate m).isSome = true →
        found.locate after.machine = some (after.machine.top : Int) ∧
        found.runtime after.machine = h.runtime m := by
  have hanswer := HostValue.convert_runtime w.machine.identity (w.machine.nextSlot stamps) htype
    hfaithful
  rw [taken, hanswer]
  refine ⟨⟨w.machine.identity, some (w.machine.nextSlot stamps)⟩, _, rfl, ?_⟩
  intro h hmem hlive
  obtain ⟨p, hp⟩ := Option.isSome_iff_exists.mp hlive
  obtain ⟨id, hid⟩ := Handle.runtime_eq_table hp
  rw [Option.elim_some, HostValue.pinsSlot_readBack hmem hlive, Bool.or_true, if_pos rfl, hid,
    HostValue.runtime_of_mem_handles hmem, hid]
  exact Handle.locate_top (m := w.machine.spend stamps) hbase id

/-! ## Results that refer to no slot -/

namespace HostType

/-- A type with results that refer to the slot they were read from. -/
def pins : HostType → Bool
  | table | variant => true
  | option t => t.pins
  | _ => false

theorem elim_map_present (answer : Option HostValue) :
    (answer.map HostValue.present).elim false HostValue.pinsSlot =
      answer.elim false HostValue.pinsSlot := by
  cases answer <;> rfl

/-- The result of another type refers to no slot. -/
theorem unpinned_of_type {t : HostType} (ht : t.pins = false) (owner : Nat) (slot : SlotId)
    (v : Value) : (t.convert owner slot v).elim false HostValue.pinsSlot = false := by
  induction t with
  | table | variant => cases ht
  | option t ih =>
    rw [convert]
    split
    · rfl
    · rw [elim_map_present]
      exact ih ht
  | bool => rfl
  | int k => rw [convert]; cases v.toInt64?.bind k.ofInt64? <;> rfl
  | float64 | float32 => rw [convert]; cases v.toBinary64? <;> rfl
  | text => rw [convert]; cases v.toBytes?.bind Bytes.text? <;> rfl
  | bytes | runtimeString => rw [convert]; cases v.toBytes? <;> rfl
  | native => rw [convert]; cases v.toNative? <;> rfl

/-- A result that refers to no slot is the same wherever the value was read. -/
theorem convert_of_unpinned {owner : Nat} {slot : SlotId} {v : Value} {t : HostType}
    (h : (t.convert owner slot v).elim false HostValue.pinsSlot = false) (other : SlotId) :
    t.convert owner other v = t.convert owner slot v := by
  induction t with
  | table =>
    rw [convert] at h ⊢
    split
    next htable =>
      rw [if_pos htable] at h
      cases h
    next htable => rw [convert, if_neg htable]
  | variant =>
    cases v with
    | table id => cases h
    | nil | bool _ | int _ | number _ | str _ | function _ | closure _ => rfl
  | option t ih =>
    rw [convert] at h ⊢
    split
    next habsent => rw [convert, if_pos habsent]
    next hpresent =>
      rw [if_neg hpresent, elim_map_present] at h
      rw [convert, if_neg hpresent, ih h]
  | int _ | float64 | float32 | bool | text | bytes | runtimeString | native => rfl

end HostType

/-! ## A store, then a read -/

/-- What a store through a handle did: the entry that it set, in a state that is else the same. -/
structure Handle.Stored (w : World κ σ) (h : Handle) (id : TableId) (k : Key) (v : Value)
    (after : World κ σ) : Prop where
  found : (h.locate w.machine).isSome = true
  table : h.runtime w.machine = .table id
  updated : w.Updated id k v after
  same : w.machine.GrownBy [] after.machine

namespace Handle

variable {host : Host κ σ} {h : Handle} {key value : HostValue} {after : World κ σ} {id : TableId}
  {k : Key}

/-- A store that answered that it stored set an entry. -/
theorem stored_of_set (hset : w.run host (h.set key value) = (.ok true, after)) :
    ∃ id k, h.Stored w id k (value.runtime w.machine) after ∧
      Key.ofValue? (key.runtime w.machine) = some k ∧ value.Live w.machine := by
  obtain ⟨stored, after', hrun, hiff, -, hdone⟩ := h.set_cases host _ w key value
  obtain ⟨hstored, rfl⟩ := Prod.mk.inj (hset.symm.trans hrun)
  obtain rfl := Except.ok.inj hstored
  obtain ⟨hfound, -, hlive, -⟩ := hiff.mp rfl
  obtain ⟨id, k, hid, hk, hupdated⟩ := hdone rfl
  obtain ⟨p, hp⟩ := Option.isSome_iff_exists.mp hfound
  exact ⟨id, k, ⟨hfound, hid, hupdated,
    hupdated.toSameFrame.grown (base_le_of_locate hp) hset⟩, hk, hlive⟩

namespace Stored

variable {v : Value}

/-- The handle is found in the state after a store as it was before, and stands for its table. -/
theorem handle_after (hdone : h.Stored w id k v after) :
    ∃ p, h.locate after.machine = some p ∧ h.runtime after.machine = .table id := by
  obtain ⟨p, hp⟩ := Option.isSome_iff_exists.mp hdone.found
  exact ⟨p, (locate_same hdone.same h).trans hp, (runtime_same hdone.same h).trans hdone.table⟩

/-- What was stored is read under every key of the host that makes the same key. -/
theorem fetch_same (host : Host κ σ) (hdone : h.Stored w id k (value.runtime w.machine) after)
    {t : HostType} (htype : value.HasType t) (hfaithful : value.Faithful w.machine)
    {same : HostValue}
    (hkey : Key.ofValue? (same.runtime w.machine) = some k) :
    ∃ found final, after.run host (h.fetch same false t) =
        (.ok (some (value.readBack w.machine found)), final) ∧
      ∀ u ∈ value.handles, (u.locate w.machine).isSome = true →
        found.locate final.machine = some (final.machine.top : Int) ∧
        found.runtime final.machine = u.runtime w.machine := by
  obtain ⟨p, hp, hid⟩ := hdone.handle_after
  have howner : ∀ u ∈ same.handles, u.owner = after.machine.identity := by
    rw [hdone.same.identity]
    refine (HostValue.live_of_runtime_ne_nil ?_).owner
    intro hnil
    rw [hnil] at hkey
    cases hkey
  obtain ⟨stamps, hfetch⟩ :=
    runWith_fetch host (World.runner host after.machine.callsLeft) hp hid howner false t
  obtain ⟨found, final, htaken, hfound⟩ :=
    World.taken_readBack (base_le_of_locate hp) stamps false htype hfaithful
  rw [HostValue.runtime_same hdone.same, hdone.updated.entry.get_same hkey, htaken]
    at hfetch
  exact ⟨found, final, hfetch, hfound⟩

/-- What is there under another key reads as before, unless the result refers to the slot it was
read from. -/
theorem fetch_other (host : Host κ σ) (hdone : h.Stored w id k v after) {other : HostValue}
    (howner : ∀ u ∈ other.handles, u.owner = w.machine.identity)
    (hkey : Key.ofValue? (other.runtime w.machine) ≠ some k) (t : HostType) :
    ∃ before final answer answer', w.run host (h.fetch other false t) = (.ok answer, before) ∧
      after.run host (h.fetch other false t) = (.ok answer', final) ∧
      (t.pins = false ∨ answer.elim false HostValue.pinsSlot = false → answer' = answer) := by
  obtain ⟨p, hp⟩ := Option.isSome_iff_exists.mp hdone.found
  obtain ⟨p', hp', hid'⟩ := hdone.handle_after
  have howner' : ∀ u ∈ other.handles, u.owner = after.machine.identity := by
    rw [hdone.same.identity]
    exact howner
  obtain ⟨stamps, hfetch⟩ := runWith_fetch host (World.runner host w.machine.callsLeft) hp
    hdone.table howner false t
  obtain ⟨stamps', hfetch'⟩ := runWith_fetch host (World.runner host after.machine.callsLeft) hp'
    hid' howner' false t
  rw [HostValue.runtime_same hdone.same, hdone.updated.entry.get_other hkey] at hfetch'
  refine ⟨_, _, _, _, hfetch, hfetch', ?_⟩
  intro hunpinned
  rw [hdone.same.identity]
  apply HostType.convert_of_unpinned
  rcases hunpinned with hpins | hpins
  · exact HostType.unpinned_of_type hpins _ _ _
  · exact hpins

end Stored

end Handle

/-- A stored value is read under every key that is equal to the key of the store. A value that holds
a handle comes back with a handle that is found and stands for the same table. Under every other key
all reads answer what they answered before, unless the result refers to the slot it was read
from. -/
theorem write_then_read (host : Host κ σ) {after : World κ σ} {h : Handle} {key value : HostValue}
    {t : HostType} (hset : w.run host (h.set key value) = (.ok true, after))
    (htype : value.HasType t) (hstored : value.runtime w.machine ≠ .nil)
    (hnan : ∀ x, value.narrow? = some x → x.isNaN = false) :
    (∀ same : HostValue, (key.runtime w.machine).rawEq (same.runtime w.machine) = true →
      ∃ found final, after.run host (h.fetch same false t) =
          (.ok (some (value.readBack w.machine found)), final) ∧
        (value.handles = [] → value.readBack w.machine found = value) ∧
        ∀ u ∈ value.handles, found.locate final.machine = some (final.machine.top : Int) ∧
          found.runtime final.machine = u.runtime w.machine) ∧
    ∀ (other : HostValue) (u : HostType), (∀ k ∈ other.handles, k.owner = w.machine.identity) →
      (key.runtime w.machine).rawEq (other.runtime w.machine) = false →
      ∃ before final answer answer', w.run host (h.fetch other false u) = (.ok answer, before) ∧
        after.run host (h.fetch other false u) = (.ok answer', final) ∧
        (u.pins = false ∨ answer.elim false HostValue.pinsSlot = false → answer' = answer) := by
  obtain ⟨id, k, hdone, hk, hlive⟩ := Handle.stored_of_set hset
  have hkey : key.runtime w.machine ≠ .nil := by
    intro hnil
    rw [hnil] at hk
    cases hk
  have hfaithful := HostValue.faithful_of_stored hlive hstored hnan
  -- Keys that are raw-equal make one key of the table, and keys that are not make two.
  constructor
  · intro same heq
    obtain ⟨j, hj, hsame⟩ := (Key.rawEq_iff hkey).mp heq
    obtain rfl : j = k := Option.some.inj (hj.symm.trans hk)
    obtain ⟨found, final, hread, hfound⟩ := hdone.fetch_same host htype hfaithful hsame
    refine ⟨found, final, hread, fun hhandles => ?_, fun u hu => hfound u hu (hlive u hu)⟩
    apply HostValue.readBack_eq found hfaithful hhandles
    rintro rfl
    exact hstored rfl
  · intro other u howner hne
    apply hdone.fetch_other host howner
    intro hj
    rw [(Key.rawEq_iff hkey).mpr ⟨k, hk, hj⟩] at hne
    cases hne

/-- What is stored under the integer two is read under the float two, and the integer three reads as
before. -/
theorem integer_and_float_two :
    ∃ after, holdingTable.run passive (heldTable.set (.int .i64 2) (.bool true)) =
        (.ok true, after) ∧
      (∃ final, after.run passive (heldTable.fetch
          (.float64 ⟨false, 0x4000000000000000, by decide⟩) false .bool) =
        (.ok (some (.bool true)), final)) ∧
      ∃ before final answer, holdingTable.run passive (heldTable.fetch (.int .i64 3) false .bool) =
          (.ok answer, before) ∧
        after.run passive (heldTable.fetch (.int .i64 3) false .bool) = (.ok answer, final) := by
  obtain ⟨stored, after, hset, hiff, -⟩ :=
    heldTable.set_cases passive _ holdingTable (.int .i64 2) (.bool true)
  obtain rfl : stored = true := hiff.mpr ⟨rfl, nofun, nofun, nofun, nofun⟩
  obtain ⟨hsame, hother⟩ := write_then_read passive hset (.bool true) nofun nofun
  refine ⟨after, hset, ?_, ?_⟩
  · obtain ⟨found, final, hread, -⟩ :=
      hsame (.float64 ⟨false, 0x4000000000000000, by decide⟩) (by decide)
    exact ⟨final, hread⟩
  · obtain ⟨before, final, answer, answer', hbefore, hread, heq⟩ :=
      hother (.int .i64 3) .bool nofun (by decide)
    rw [heq (.inl rfl)] at hread
    exact ⟨before, final, answer, hbefore, hread⟩

end StackEmbedding
