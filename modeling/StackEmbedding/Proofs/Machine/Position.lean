import StackEmbedding.Machine
import StackEmbedding.Proofs.Stack.Above

/-!
# Positions as places among the values of a frame

`Machine.values` lists what the running function sees. A position counted from the base is a place
in that list, and one counted from the top a place in its reverse; a position that names no slot is
a place beyond the end.
-/

set_option autoImplicit false

namespace StackEmbedding.Machine

variable {κ : Type} {m : Machine κ} {position : Int}

/-- The values that the running function sees, bottom first. -/
def values (m : Machine κ) : List Value := m.frame.map Slot.value

theorem values_eq_valuesFrom (m : Machine κ) : m.values = m.stack.valuesFrom m.base := rfl

@[simp] theorem length_values (m : Machine κ) : m.values.length = m.top :=
  Stack.length_valuesFrom

/-- The value at a position counted from the base. -/
theorem value?_of_pos (hpositive : 0 < position) :
    m.value? position = m.values[position.toNat - 1]? := by
  rw [values_eq_valuesFrom, Stack.getElem?_valuesFrom, value?, resolve?, if_pos hpositive]
  dsimp only
  split
  · rfl
  next hbeyond =>
    have hnone : m.stack.slots[m.base + (position.toNat - 1)]? = none :=
      Stack.getElem?_slots_eq_none.mpr (Nat.le_of_not_lt hbeyond)
    rw [Option.bind_none, Stack.value?, hnone, Option.map_none]

/-- The value at a position counted from the top. -/
theorem value?_of_neg (hbase : m.base ≤ m.stack.height) (hnegative : position < 0) :
    m.value? position = m.values.reverse[(-position).toNat - 1]? := by
  have hback : 0 < (-position).toNat := by omega
  rw [value?, resolve?, if_neg (by omega), if_pos hnegative]
  dsimp only
  split
  next hle =>
    have hlt : (-position).toNat - 1 < m.values.length := by
      rw [length_values]
      omega
    rw [List.getElem?_reverse hlt, values_eq_valuesFrom, Stack.getElem?_valuesFrom,
      ← values_eq_valuesFrom, length_values, Option.bind_some]
    congr 1
    simp only [top] at hle ⊢
    omega
  next hbeyond =>
    have hlength : m.values.reverse.length ≤ (-position).toNat - 1 := by
      rw [List.length_reverse, length_values]
      omega
    rw [List.getElem?_eq_none hlength, Option.bind_none]

theorem value?_zero : m.value? 0 = none := rfl

/-- A position that names a slot names it when counted from the base. -/
theorem value?_absolute (hbase : m.base ≤ m.stack.height) {v : Value}
    (h : m.value? position = some v) :
    0 < m.absolute position ∧ m.value? (m.absolute position) = some v := by
  rcases Int.lt_trichotomy position 0 with hnegative | rfl | hpositive
  · have hlt := (List.getElem?_eq_some_iff.mp ((value?_of_neg hbase hnegative).symm.trans h)).1
    rw [List.length_reverse, length_values] at hlt
    have habsolute : m.absolute position = m.top + position + 1 := if_neg (by omega)
    have hpositive : 0 < m.absolute position := by omega
    refine ⟨hpositive, ?_⟩
    rw [value?_of_neg hbase hnegative, List.getElem?_reverse (by rw [length_values]; exact hlt),
      length_values] at h
    rw [value?_of_pos hpositive, ← h, habsolute]
    congr 1
    omega
  · rw [value?_zero] at h
    cases h
  · rw [absolute, if_pos hpositive]
    exact ⟨hpositive, h⟩

end StackEmbedding.Machine
