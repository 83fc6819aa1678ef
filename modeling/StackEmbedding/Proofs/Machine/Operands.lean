import StackEmbedding.Machine.Tables
import StackEmbedding.Proofs.Stack.Top

/-!
# Operands on top of the stack

The primitives that take operands off the stack, as equations over the values that lie there. A
stack with operands is a list of values below, in which a position counted from the base is looked
up, and the operands on top. Stamps do not matter to any of them.
-/

set_option autoImplicit false

namespace StackEmbedding

/-! ## The values of a stack -/

namespace Stack

variable {s : Stack}

/-- The values of a stack, bottom first. -/
def contents (s : Stack) : List Value := s.slots.map Slot.value

theorem length_contents (s : Stack) : s.contents.length = s.height := List.length_map Slot.value

theorem value?_eq (s : Stack) (i : Nat) : s.value? i = s.contents[i]? := List.getElem?_map.symm

theorem top?_eq (s : Stack) : s.top? = s.contents.getLast? := List.getLast?_map.symm

theorem contents_dropTop (s : Stack) : s.dropTop.contents = s.contents.dropLast := by
  rw [contents, dropTop, truncate, height, ← List.dropLast_eq_take, List.map_dropLast, contents]

theorem contents_push (s : Stack) (v : Value) : (s.push v).contents = s.contents ++ [v] := by
  rw [contents, slots_push, List.map_append, contents]
  rfl

/-- The operand on top, and what lies below it. -/
theorem top_of_contents {below : List Value} {v : Value} (h : s.contents = below ++ [v]) :
    s.top? = some v ∧ s.dropTop.contents = below := by
  rw [top?_eq, contents_dropTop, h, List.getLast?_concat, List.dropLast_concat]
  exact ⟨rfl, rfl⟩

end Stack

/-! ## Primitives with operands -/

namespace Machine

variable {κ : Type} {m : Machine κ} {position : Int} {below above : List Value}
  {key v target : Value} {name : Bytes} {id : TableId}

/-- The place among the values of the stack that a position counted from the base names. -/
def place (m : Machine κ) (position : Int) : Nat := m.base + (position.toNat - 1)

theorem value?_eq_some_iff (hpositive : 0 < position) :
    m.value? position = some v ↔ m.stack.contents[m.place position]? = some v := by
  rw [value?, resolve?, if_pos hpositive, ← place, ← Stack.value?_eq]
  dsimp only
  split
  next => rw [Option.bind_some]
  next hbeyond =>
    have hnone : m.stack.slots[m.place position]? = none :=
      List.getElem?_eq_none (Nat.le_of_not_lt hbeyond)
    rw [Option.bind_none, Stack.value?, hnone, Option.map_none]

/-- A position that names a value below names it with operands above. -/
theorem resolve?_of_contents (hpositive : 0 < position)
    (hcontents : m.stack.contents = below ++ above)
    (htarget : below[m.place position]? = some target) :
    m.resolve? position = some (m.place position) := by
  have hlt := (List.getElem?_eq_some_iff.mp htarget).1
  have hheight : m.stack.height = below.length + above.length := by
    rw [← Stack.length_contents, hcontents, List.length_append]
  rw [resolve?, if_pos hpositive, ← place]
  exact if_pos (by omega)

theorem atRaw_of_value? {α : Type} {act : Value → Outcome (Machine κ) α} {raw : Nat}
    (htarget : m.stack.value? raw = some target) : m.atRaw raw act = act target := by
  rw [atRaw, htarget]

theorem atRaw_of_contents {α : Type} {act : Value → Outcome (Machine κ) α} {raw : Nat}
    (hcontents : m.stack.contents = below) (htarget : below[raw]? = some target) :
    m.atRaw raw act = act target :=
  atRaw_of_value? (by rw [Stack.value?_eq, hcontents, htarget])

/-! ### At a raw index

What a primitive does once its position is known. The operands are off the stack before the index is
looked at, so that the index may be beyond it. -/

section Resolved

variable {raw : Nat} (hraw : m.resolve? position = some raw)

include hraw

theorem atPosition_of_resolve? {α : Type} (operation : Operation)
    (act : Nat → Outcome (Machine κ) α) : m.atPosition operation position act = act raw := by
  rw [atPosition, hraw]

theorem getField_at (name : Bytes) :
    m.getField position name = m.atRaw raw fun target =>
      m.pushFetched ((indexable .getField target).map fun id => (m.table id).getField name) :=
  atPosition_of_resolve? hraw .getField _

theorem length_at :
    m.length position = m.atRaw raw fun target =>
      match m.lengthOf target with
      | .ok n => (.ok (.ok ()), m.push (.int (Int64.ofNat n)))
      | .error e => (.ok (.error e), m.push .nil) :=
  atPosition_of_resolve? hraw .length _

theorem getTable_at (hkey : m.stack.top? = some key) :
    m.getTable position = (m.withStack m.stack.dropTop).atRaw raw fun target =>
      (m.withStack m.stack.dropTop).pushFetched
        ((indexable .getTable target).map fun id => (m.table id).get key) := by
  rw [getTable, atPosition_of_resolve? hraw, hkey]
  rfl

theorem setField_at (hvalue : m.stack.top? = some v) (name : Bytes) :
    m.setField position name = (m.withStack m.stack.dropTop).atRaw raw fun target =>
      (m.withStack m.stack.dropTop).store .setField target (.str name) v := by
  rw [setField, atPosition_of_resolve? hraw, hvalue]
  rfl

theorem setTable_at (hoperands : 2 ≤ m.top) (hvalue : m.stack.top? = some v)
    (hkey : m.stack.dropTop.top? = some key) :
    m.setTable position = (m.withStack m.stack.dropTop.dropTop).atRaw raw fun target =>
      (m.withStack m.stack.dropTop.dropTop).store .setTable target key v := by
  rw [setTable, atPosition_of_resolve? hraw, if_neg (Nat.not_lt_of_le hoperands), hvalue, hkey]
  rfl

end Resolved

/-! ### At a position counted from the base -/

/-- Looking up a name takes no operand. -/
theorem getField_eq (hpositive : 0 < position)
    (htarget : m.stack.contents[m.place position]? = some target) :
    m.getField position name = m.pushFetched
      ((indexable .getField target).map fun id => (m.table id).getField name) := by
  have hraw := resolve?_of_contents hpositive (List.append_nil m.stack.contents).symm htarget
  rw [getField_at hraw, atRaw_of_contents rfl htarget]

/-- Taking a length takes no operand. -/
theorem length_eq (hpositive : 0 < position)
    (htarget : m.stack.contents[m.place position]? = some (.table id)) :
    m.length position = (.ok (.ok ()), m.push (.int (Int64.ofNat (m.table id).border))) := by
  have hraw := resolve?_of_contents hpositive (List.append_nil m.stack.contents).symm htarget
  rw [length_at hraw, atRaw_of_contents rfl htarget]
  rfl

/-- Looking up a key takes it off. -/
theorem getTable_eq (hpositive : 0 < position) (hcontents : m.stack.contents = below ++ [key])
    (htarget : below[m.place position]? = some target) :
    m.getTable position = (m.withStack m.stack.dropTop).pushFetched
      ((indexable .getTable target).map fun id => (m.table id).get key) := by
  have hraw := resolve?_of_contents hpositive hcontents htarget
  obtain ⟨hkey, hrest⟩ := Stack.top_of_contents hcontents
  rw [getTable_at hraw hkey, atRaw_of_contents hrest htarget]

/-- Storing under a name takes the value off. -/
theorem setField_eq (hpositive : 0 < position) (hcontents : m.stack.contents = below ++ [v])
    (htarget : below[m.place position]? = some target) :
    m.setField position name =
      (m.withStack m.stack.dropTop).store .setField target (.str name) v := by
  have hraw := resolve?_of_contents hpositive hcontents htarget
  obtain ⟨hvalue, hrest⟩ := Stack.top_of_contents hcontents
  rw [setField_at hraw hvalue, atRaw_of_contents hrest htarget]

/-- Storing under a key takes the value off, and the key below it. -/
theorem setTable_eq (hpositive : 0 < position) (hcontents : m.stack.contents = below ++ [key, v])
    (htarget : below[m.place position]? = some target) :
    m.setTable position =
      (m.withStack m.stack.dropTop.dropTop).store .setTable target key v := by
  have hraw := resolve?_of_contents hpositive hcontents htarget
  have hsplit : m.stack.contents = (below ++ [key]) ++ [v] := by
    rw [hcontents, List.append_assoc]
    rfl
  obtain ⟨hvalue, hbelow⟩ := Stack.top_of_contents hsplit
  obtain ⟨hkey, hrest⟩ := Stack.top_of_contents hbelow
  have hoperands : 2 ≤ m.top := by
    have hlt := (List.getElem?_eq_some_iff.mp htarget).1
    have hheight := Stack.length_contents m.stack
    rw [hcontents, List.length_append] at hheight
    simp only [place] at hlt
    simp only [top, ← hheight, List.length_cons, List.length_nil]
    omega
  rw [setTable_at hraw hoperands hvalue hkey, atRaw_of_contents hrest htarget]

end Machine

end StackEmbedding
