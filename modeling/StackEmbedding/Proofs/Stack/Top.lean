import StackEmbedding.Proofs.Stack.Above

/-!
# The highest slots of a stack

Equations for pushing values and for reading and dropping the highest ones. `Stack.highest` is what
lies on top of the stack, lowest first; after a push of several values it is these values.
-/

set_option autoImplicit false

namespace StackEmbedding.Stack

variable {s : Stack} {i n : Nat}

/-- The `n` highest values, the lowest of them first. -/
def highest (s : Stack) (n : Nat) : List Value := s.valuesFrom (s.height - n)

theorem slots_pushAll (values : List Value) :
    (s.pushAll values).slots = s.slots ++ stamped s.nextStamp values := by
  have htake : s.slots.take s.height = s.slots := List.take_length
  simp only [pushAll, replaceFrom, htake]

theorem slots_push (v : Value) : (s.push v).slots = s.slots ++ [⟨v, s.nextStamp⟩] :=
  slots_pushAll [v]

@[simp] theorem pushAll_nil : s.pushAll [] = s := by
  have htake : s.slots.take s.height = s.slots := List.take_length
  simp only [pushAll, replaceFrom, htake, stamped, List.mapIdx_nil, List.append_nil,
    List.length_nil, Nat.add_zero]

@[simp] theorem height_pushAll (values : List Value) :
    (s.pushAll values).height = s.height + values.length :=
  height_replaceFrom (Nat.le_refl _) values

theorem stamped_cons (first : Nat) (v : Value) (rest : List Value) :
    stamped first (v :: rest) = ⟨v, first⟩ :: stamped (first + 1) rest := by
  have hshift : (fun (i : Nat) (w : Value) => (⟨w, first + (i + 1)⟩ : Slot)) =
      fun i w => ⟨w, first + 1 + i⟩ := by
    funext i w
    rw [Nat.add_right_comm, Nat.add_assoc]
  rw [stamped, List.mapIdx_cons, hshift]
  rfl

/-- Pushing several values is pushing them one by one. -/
theorem pushAll_push (v : Value) (rest : List Value) :
    (s.push v).pushAll rest = s.pushAll (v :: rest) := by
  have hslots : ((s.push v).pushAll rest).slots = (s.pushAll (v :: rest)).slots := by
    rw [slots_pushAll, slots_push, slots_pushAll, stamped_cons, List.append_assoc]
    rfl
  have hstamp : ((s.push v).pushAll rest).nextStamp = (s.pushAll (v :: rest)).nextStamp := by
    simp only [pushAll, push, replaceFrom, List.length_cons, List.length_nil]
    omega
  cases h : (s.push v).pushAll rest
  cases h' : s.pushAll (v :: rest)
  rw [h, h'] at hslots hstamp
  exact congr (congrArg Stack.mk hslots) hstamp

/-- What replaces all from an index upward is what lies there. -/
theorem valuesFrom_replaceFrom_self (h : i ≤ s.height) (values : List Value) :
    (s.replaceFrom i values).valuesFrom i = values :=
  valuesFrom_replaceFrom (k := 0) h values

/-- What replaces all from an index upward, by raw index. -/
theorem value?_replaceFrom (h : i ≤ s.height) (values : List Value) (k : Nat) :
    (s.replaceFrom i values).value? (i + k) = values[k]? := by
  rw [← getElem?_valuesFrom, valuesFrom_replaceFrom_self h]

/-- The values of a stack after a push, from an index of the old stack upward. -/
theorem valuesFrom_pushAll (values : List Value) (hi : i ≤ s.height) :
    (s.pushAll values).valuesFrom i = s.valuesFrom i ++ values := by
  obtain ⟨k, hk⟩ := Nat.exists_eq_add_of_le hi
  have hlength : (s.valuesFrom i).length = k := by
    rw [length_valuesFrom]
    omega
  rw [pushAll, hk, valuesFrom_replaceFrom (Nat.le_of_eq hk.symm), ← hlength, List.take_length]

/-- One value that replaces all from an index upward lies on top. -/
@[simp] theorem top?_replaceFrom (v : Value) : (s.replaceFrom i [v]).top? = some v := by
  show ((s.slots.take i ++ [(⟨v, s.nextStamp⟩ : Slot)]).getLast?).map Slot.value = some v
  rw [List.getLast?_concat, Option.map_some]

@[simp] theorem top?_push (v : Value) : (s.push v).top? = some v := top?_replaceFrom v

/-- Dropping what was pushed leaves the slots that were there, and the stamp issued. -/
@[simp] theorem dropTop_push (v : Value) :
    (s.push v).dropTop = { s with nextStamp := s.nextStamp + 1 } := by
  have htake : (s.slots ++ [(⟨v, s.nextStamp⟩ : Slot)]).take s.height = s.slots := List.take_left
  rw [dropTop, height_push, Nat.add_sub_cancel, truncate, slots_push, htake]
  rfl

end StackEmbedding.Stack
