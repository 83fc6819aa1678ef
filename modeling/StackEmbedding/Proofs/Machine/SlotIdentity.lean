import StackEmbedding.Proofs.Machine.Footprint
import StackEmbedding.Proofs.Stack.Top

/-!
# Slot identities of a machine

Taking the identity of a slot and finding a slot by its identity, each as one equivalence over the
slots of the stack, and what is left of both when slots come to lie above (`Machine.GrownBy`). What
becomes of an identity while a run goes on is the business of
`StackEmbedding.Proofs.Program.Staleness`.
-/

set_option autoImplicit false

namespace StackEmbedding.Machine

variable {κ : Type} {m : Machine κ} {position : Int} {id : SlotId}

/-- A position that resolves names a slot. -/
theorem slot_of_resolve? {raw : Nat} (h : m.resolve? position = some raw) :
    ∃ slot, m.stack.slots[raw]? = some slot :=
  ⟨_, List.getElem?_eq_getElem (lt_height_of_resolve? h)⟩

/-- The identity of a slot is where it is and its stamp. -/
theorem slotId?_eq_some_iff :
    m.slotId? position = some id ↔ m.resolve? position = some id.index ∧
      ∃ v, m.stack.slots[id.index]? = some ⟨v, id.stamp⟩ := by
  simp only [slotId?, Stack.stamp?, Option.bind_eq_some_iff, Option.map_eq_some_iff]
  constructor
  · rintro ⟨raw, hraw, stamp, ⟨⟨v, _⟩, hslot, rfl⟩, rfl⟩
    exact ⟨hraw, v, hslot⟩
  · rintro ⟨hraw, v, hslot⟩
    exact ⟨_, hraw, _, ⟨_, hslot, rfl⟩, rfl⟩

/-- What a position holds has an identity. -/
theorem slotId?_of_value? {v : Value} (h : m.value? position = some v) :
    ∃ id, m.slotId? position = some id := by
  obtain ⟨raw, hraw, -⟩ := Option.bind_eq_some_iff.mp h
  obtain ⟨⟨held, stamp⟩, hslot⟩ := slot_of_resolve? hraw
  exact ⟨⟨raw, stamp⟩, slotId?_eq_some_iff.mpr ⟨hraw, held, hslot⟩⟩

/-- A frame in which a position names a slot lies in the stack. -/
theorem base_le_height_of_resolve? {raw : Nat} (h : m.resolve? position = some raw) :
    m.base ≤ m.stack.height := by
  unfold resolve? top at h
  split at h
  next =>
    simp only [Option.ite_none_right_eq_some, Option.some.injEq] at h
    omega
  next =>
    split at h
    next =>
      simp only [Option.ite_none_right_eq_some, Option.some.injEq] at h
      omega
    next => cases h

/-- An identity resolves when the frame holds its index and the slot there has its stamp. -/
theorem positionOf?_eq_some_iff :
    m.positionOf? id = some position ↔
      m.base ≤ id.index ∧ (∃ v, m.stack.slots[id.index]? = some ⟨v, id.stamp⟩) ∧
        position = (id.index - m.base + 1 : Nat) := by
  have hstamp : m.stack.stamp? id.index = some id.stamp ↔
      ∃ v, m.stack.slots[id.index]? = some ⟨v, id.stamp⟩ := by
    simp only [Stack.stamp?, Option.map_eq_some_iff]
    constructor
    · rintro ⟨⟨v, _⟩, hslot, rfl⟩
      exact ⟨v, hslot⟩
    · rintro ⟨v, hslot⟩
      exact ⟨_, hslot, rfl⟩
  simp only [positionOf?, hstamp, Option.ite_none_right_eq_some, Option.some.injEq, and_assoc,
    eq_comm (a := position)]

/-- The position of a slot names that slot. -/
theorem resolve?_of_positionOf? (hbase : m.base ≤ m.stack.height)
    (h : m.positionOf? id = some position) : m.resolve? position = some id.index := by
  obtain ⟨hle, ⟨v, hslot⟩, rfl⟩ := positionOf?_eq_some_iff.mp h
  have hlt : id.index < m.stack.height := (List.getElem?_eq_some_iff.mp hslot).1
  rw [resolve?_eq_some_iff hbase]
  exact ⟨hle, hlt, .inl (by omega)⟩

/-- A slot of the frame with the stamp of an identity is where the identity resolves to. -/
theorem position_of_held {v : Value} (hle : m.base ≤ id.index)
    (hheld : m.stack.slots[id.index]? = some ⟨v, id.stamp⟩) :
    m.positionOf? id = some ((id.index - m.base + 1 : Nat) : Int) ∧
      m.value? ((id.index - m.base + 1 : Nat) : Int) = some v := by
  have hlt : id.index < m.stack.height := (List.getElem?_eq_some_iff.mp hheld).1
  have hposition : m.positionOf? id = some ((id.index - m.base + 1 : Nat) : Int) :=
    positionOf?_eq_some_iff.mpr ⟨hle, ⟨v, hheld⟩, rfl⟩
  refine ⟨hposition, ?_⟩
  rw [value?, resolve?_of_positionOf? (by omega) hposition, Option.bind_some, Stack.value?, hheld,
    Option.map_some]

/-- The position of a slot holds something. -/
theorem value?_of_positionOf? (h : m.positionOf? id = some position) :
    ∃ v, m.value? position = some v := by
  obtain ⟨hle, ⟨v, hslot⟩, rfl⟩ := positionOf?_eq_some_iff.mp h
  exact ⟨v, (position_of_held hle hslot).2⟩

/-- The position of a slot counts from the base. -/
theorem positive_of_positionOf? (h : m.positionOf? id = some position) : 0 < position := by
  obtain ⟨-, -, rfl⟩ := positionOf?_eq_some_iff.mp h
  omega

/-! ## Slots above -/

/-- `n` has the frame of `m` with the slots `above` on top of it. -/
structure GrownBy (above : List Slot) (m n : Machine κ) : Prop where
  identity : n.identity = m.identity
  limits : n.limits = m.limits
  base : n.base = m.base
  depth : n.depth = m.depth
  closures : n.closures = m.closures
  slots : n.stack.slots = m.stack.slots ++ above

namespace GrownBy

variable {n o : Machine κ} {above higher : List Slot}

theorem refl (m : Machine κ) : GrownBy [] m m := ⟨rfl, rfl, rfl, rfl, rfl, (List.append_nil _).symm⟩

theorem trans (first : GrownBy above m n) (second : GrownBy higher n o) :
    GrownBy (above ++ higher) m o where
  identity := second.identity.trans first.identity
  limits := second.limits.trans first.limits
  base := second.base.trans first.base
  depth := second.depth.trans first.depth
  closures := second.closures.trans first.closures
  slots := by rw [second.slots, first.slots, List.append_assoc]

/-- A frame that grew by nothing is the frame it was. -/
theorem symm (h : GrownBy [] m n) : GrownBy [] n m :=
  ⟨h.identity.symm, h.limits.symm, h.base.symm, h.depth.symm, h.closures.symm, by
    rw [h.slots, List.append_nil, List.append_nil]⟩

theorem push (m : Machine κ) (v : Value) : GrownBy [⟨v, m.stack.nextStamp⟩] m (m.push v) :=
  ⟨rfl, rfl, rfl, rfl, rfl, Stack.slots_push v⟩

theorem height (h : GrownBy above m n) : n.stack.height = m.stack.height + above.length := by
  rw [Stack.height, h.slots, List.length_append, Stack.height]

/-- The frame grew by as many slots. -/
theorem top (h : GrownBy above m n) (hbase : m.base ≤ m.stack.height) :
    n.top = m.top + above.length := by
  rw [Machine.top, Machine.top, h.height, h.base]
  omega

theorem slot (h : GrownBy above m n) {k : Nat} (hk : k < m.stack.height) :
    n.stack.slots[k]? = m.stack.slots[k]? := by
  rw [h.slots, List.getElem?_append_left hk]

/-- A position counted from the base names the slot that it named. -/
theorem resolve? (h : GrownBy above m n) (hpositive : 0 < position) {raw : Nat}
    (hraw : m.resolve? position = some raw) : n.resolve? position = some raw := by
  simp only [Machine.resolve?, if_pos hpositive, Option.ite_none_right_eq_some,
    Option.some.injEq] at hraw ⊢
  rw [h.base, h.height]
  exact ⟨by omega, hraw.2⟩

theorem value? (h : GrownBy above m n) (hpositive : 0 < position) {v : Value}
    (hv : m.value? position = some v) : n.value? position = some v := by
  obtain ⟨raw, hraw, hvalue⟩ := Option.bind_eq_some_iff.mp hv
  rw [Machine.value?, h.resolve? hpositive hraw, Option.bind_some, Stack.value?,
    h.slot (lt_height_of_resolve? hraw)]
  exact hvalue

/-- An identity that resolves goes on resolving to its position. -/
theorem positionOf? (h : GrownBy above m n) (hid : m.positionOf? id = some position) :
    n.positionOf? id = some position := by
  obtain ⟨hle, ⟨held, hslot⟩, hposition⟩ := positionOf?_eq_some_iff.mp hid
  have hlt : id.index < m.stack.height := (List.getElem?_eq_some_iff.mp hslot).1
  refine positionOf?_eq_some_iff.mpr ⟨h.base ▸ hle, ⟨held, ?_⟩, h.base ▸ hposition⟩
  rw [h.slot hlt, hslot]

end GrownBy

theorem resolve?_top (hbase : m.base ≤ m.stack.height) (v : Value) :
    (m.push v).resolve? (-1) = some m.stack.height := by
  have hheight := (GrownBy.push m v).height
  have hbase' : (m.push v).base ≤ (m.push v).stack.height := by
    rw [hheight]
    exact Nat.le_add_right_of_le hbase
  rw [resolve?_eq_some_iff hbase', hheight]
  refine ⟨hbase, Nat.lt_succ_self _, .inr ?_⟩
  rw [List.length_singleton]
  omega

theorem slot_top (m : Machine κ) (v : Value) :
    (m.push v).stack.slots[m.stack.height]? = some ⟨v, m.stack.nextStamp⟩ := by
  rw [(GrownBy.push m v).slots, Stack.height, List.getElem?_concat_length]

theorem value?_top (hbase : m.base ≤ m.stack.height) (v : Value) :
    (m.push v).value? (-1) = some v := by
  rw [value?, resolve?_top hbase, Option.bind_some, Stack.value?, slot_top, Option.map_some]

/-- A push revives no identity that was issued before it. -/
theorem positionOf?_push (hissued : id.stamp < m.stack.nextStamp) (v : Value) :
    (m.push v).positionOf? id = m.positionOf? id := by
  cases h : m.positionOf? id with
  | some position => exact (GrownBy.push m v).positionOf? h
  | none =>
    apply Option.eq_none_iff_forall_ne_some.mpr
    intro position hposition
    obtain ⟨hle, ⟨held, hslot⟩, hposition⟩ := positionOf?_eq_some_iff.mp hposition
    rcases (Stack.edit_push v).kept_or_fresh hslot with hkept | hfresh
    · have hbefore : m.positionOf? id = some position :=
        positionOf?_eq_some_iff.mpr ⟨hle, ⟨held, hkept⟩, hposition⟩
      rw [h] at hbefore
      cases hbefore
    · exact absurd hissued (Nat.not_lt_of_le hfresh)

end StackEmbedding.Machine
