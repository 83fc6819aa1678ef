import Mathlib.Data.List.Nodup
import StackEmbedding.Stack

/-!
# Edits of a stack

Whatever runs on a machine changes its stack in three ways: it replaces the values from some index
upward, overwrites one index, or drops the slots from some index upward. `Stack.Edit touched s t`
says that `t` arises from `s` by any number of these, each at indices in `touched`. Every operation
of `StackEmbedding.Stack` is such an edit, so what is proved of edits holds of all of them.

**What is established here.**
* `Edit.slot_eq`: an index outside `touched` keeps its slot, value and stamp.
* `Edit.kept_or_fresh`: any slot after an edit is the one that its index had before, or its stamp
  was issued during the edit.
* `Edit.wellStamped`: stamps stay distinct and below the counter.
-/

set_option autoImplicit false

namespace StackEmbedding

/-! ## Slots and heights after each way of writing -/

@[simp] theorem length_stamped (first : Nat) (values : List Value) :
    (stamped first values).length = values.length := by
  simp only [stamped, List.length_mapIdx]

theorem getElem?_stamped (first : Nat) (values : List Value) (k : Nat) :
    (stamped first values)[k]? = values[k]?.map fun v => ⟨v, first + k⟩ := by
  simp only [stamped, List.getElem?_mapIdx]

theorem map_stamp_stamped (first : Nat) (values : List Value) :
    (stamped first values).map Slot.stamp = List.range' first values.length := by
  apply List.ext_getElem?
  intro k
  simp only [List.getElem?_map, getElem?_stamped, Option.map_map]
  by_cases hk : k < values.length
  · simp [hk]
  · simp [hk]

theorem map_value_stamped (first : Nat) (values : List Value) :
    (stamped first values).map Slot.value = values := by
  apply List.ext_getElem?
  intro k
  simp only [List.getElem?_map, getElem?_stamped, Option.map_map, Function.comp_def,
    Option.map_id_fun', id_eq]

/-! ## Lists of slots, moved -/

theorem insertIdx_eq {α : Type} {xs : List α} {i : Nat} (h : i ≤ xs.length) (a : α) :
    xs.insertIdx i a = xs.take i ++ a :: xs.drop i := by
  induction xs generalizing i with
  | nil =>
    obtain rfl := Nat.le_zero.mp h
    rfl
  | cons x rest ih =>
    cases i with
    | zero => rfl
    | succ i =>
      rw [List.insertIdx_succ_cons, ih (Nat.le_of_succ_le_succ h), List.take_succ_cons,
        List.drop_succ_cons, List.cons_append]

theorem map_rotated {α β : Type} (f : α → β) (xs : List α) (n : Int) :
    (rotated xs n).map f = rotated (xs.map f) n := by
  simp only [rotated, List.map_append, List.map_drop, List.map_take, List.length_map]

namespace Stack

variable {s t u : Stack} {i k : Nat}

theorem getElem?_slots_eq_none : s.slots[k]? = none ↔ s.height ≤ k :=
  List.getElem?_eq_none_iff

@[simp] theorem height_replaceFrom (h : i ≤ s.height) (values : List Value) :
    (s.replaceFrom i values).height = i + values.length := by
  have : (s.slots.take i).length = i := List.length_take_of_le h
  simp only [height, replaceFrom, List.length_append, this, length_stamped]

@[simp] theorem height_overwrite (v : Value) : (s.overwrite i v).height = s.height := by
  simp only [height, overwrite, List.length_set]

@[simp] theorem height_truncate : (s.truncate i).height = min i s.height := by
  simp only [height, truncate, List.length_take]

@[simp] theorem height_dropTop : s.dropTop.height = s.height - 1 := by
  simp only [dropTop, height_truncate]
  omega

@[simp] theorem height_push (v : Value) : (s.push v).height = s.height + 1 := by
  simp only [push, height_replaceFrom (Nat.le_refl _), List.length_singleton]

theorem slot_replaceFrom_below (h : i ≤ s.height) (values : List Value) (hk : k < i) :
    (s.replaceFrom i values).slots[k]? = s.slots[k]? := by
  have hlength : (s.slots.take i).length = i := List.length_take_of_le h
  simp only [replaceFrom]
  rw [List.getElem?_append_left (by omega), List.getElem?_take_of_lt hk]

theorem slot_replaceFrom_above (h : i ≤ s.height) (values : List Value) (hk : i ≤ k) :
    (s.replaceFrom i values).slots[k]? =
      values[k - i]?.map fun v => ⟨v, s.nextStamp + (k - i)⟩ := by
  have hlength : (s.slots.take i).length = i := List.length_take_of_le h
  simp only [replaceFrom]
  rw [List.getElem?_append_right (by omega), hlength, getElem?_stamped]

theorem slot_truncate_below (hk : k < i) : (s.truncate i).slots[k]? = s.slots[k]? := by
  simp only [truncate, List.getElem?_take_of_lt hk]

theorem slot_truncate_above (hk : i ≤ k) : (s.truncate i).slots[k]? = none := by
  simp only [truncate]
  exact List.getElem?_take_eq_none hk

theorem slot_overwrite_ne (v : Value) (hk : k ≠ i) :
    (s.overwrite i v).slots[k]? = s.slots[k]? := by
  simp only [overwrite]
  exact List.getElem?_set_ne (Ne.symm hk)

/-- Cutting the stack at an index and pushing values is replacing what was above that index. -/
theorem pushAll_resize (h : i ≤ s.height) (values : List Value) :
    (s.resize i).pushAll values = s.replaceFrom i values := by
  have hheight : (s.truncate i).height = i := by
    simpa only [height_truncate] using Nat.min_eq_left h
  rw [pushAll, resize, if_pos h, hheight]
  simp only [replaceFrom, truncate, List.take_take, Nat.min_self]

/-! ## Moving slots and stamping them anew -/

/-- Slots that were moved above an index, and stamped anew from there, are their values in the place
of those above the index. -/
theorem restampFrom_moved {slots above : List Slot} (h : i ≤ s.height)
    (hslots : slots = s.slots.take i ++ above) :
    (Stack.mk slots s.nextStamp).restampFrom i = s.replaceFrom i (above.map Slot.value) := by
  have hlength : (s.slots.take i).length = i := List.length_take_of_le h
  rw [hslots]
  simp only [restampFrom, valuesFrom, replaceFrom, List.take_left' hlength, List.drop_left' hlength]

theorem insert_eq_replaceFrom (h : i ≤ s.height) (v : Value) :
    s.insert i v = s.replaceFrom i (v :: s.valuesFrom i) :=
  restampFrom_moved h (insertIdx_eq h _)

theorem remove_eq_replaceFrom (h : i ≤ s.height) :
    s.remove i = s.replaceFrom i (s.valuesFrom (i + 1)) :=
  restampFrom_moved h (List.eraseIdx_eq_take_drop_succ _ _)

theorem rotate_eq_replaceFrom (h : i ≤ s.height) (n : Int) :
    s.rotate i n = s.replaceFrom i (rotated (s.valuesFrom i) n) := by
  rw [valuesFrom, ← map_rotated]
  exact restampFrom_moved h rfl

/-! ## Stamps -/

/-- Every stamp on the stack was issued, none is zero, and no two slots have the same. -/
structure WellStamped (s : Stack) : Prop where
  issued : ∀ slot ∈ s.slots, slot.stamp < s.nextStamp
  positive : 1 ≤ s.nextStamp ∧ ∀ slot ∈ s.slots, 1 ≤ slot.stamp
  distinct : (s.slots.map Slot.stamp).Nodup

theorem wellStamped_empty : (∅ : Stack).WellStamped where
  issued _ h := (List.not_mem_nil h).elim
  positive := ⟨Nat.le_refl 1, fun _ h => (List.not_mem_nil h).elim⟩
  distinct := .nil

/-- Every slot from a raw index upward was written when the counter was at least `first`. -/
def FreshFrom (s : Stack) (i first : Nat) : Prop :=
  ∀ k slot, i ≤ k → s.slots[k]? = some slot → first ≤ slot.stamp

theorem freshFrom_replaceFrom (h : i ≤ s.height) (values : List Value) :
    (s.replaceFrom i values).FreshFrom i s.nextStamp := by
  intro k slot hk hslot
  rw [slot_replaceFrom_above h values hk] at hslot
  obtain ⟨v, -, rfl⟩ := Option.map_eq_some_iff.mp hslot
  exact Nat.le_add_right _ _

theorem FreshFrom.mono {first earlier : Nat} (h : s.FreshFrom i first) (hle : earlier ≤ first) :
    s.FreshFrom i earlier :=
  fun k slot hk hslot => Nat.le_trans hle (h k slot hk hslot)

/-! ## Edits -/

/-- `t` arises from `s` by writing and dropping slots at raw indices in `touched`. -/
inductive Edit (touched : Nat → Prop) (s : Stack) : Stack → Prop
  | refl : Edit touched s s
  | replaceFrom {t : Stack} (i : Nat) (values : List Value) :
      Edit touched s t → i ≤ t.height → (∀ k, i ≤ k → touched k) →
      Edit touched s (t.replaceFrom i values)
  | overwrite {t : Stack} (i : Nat) (v : Value) :
      Edit touched s t → touched i → Edit touched s (t.overwrite i v)
  | truncate {t : Stack} (i : Nat) :
      Edit touched s t → (∀ k, i ≤ k → touched k) → Edit touched s (t.truncate i)

namespace Edit

variable {touched wider : Nat → Prop}

theorem trans (first : Edit touched s t) (second : Edit touched t u) : Edit touched s u := by
  induction second with
  | refl => exact first
  | replaceFrom i values _ hi hk ih => exact ih.replaceFrom i values hi hk
  | overwrite i v _ hi ih => exact ih.overwrite i v hi
  | truncate i _ hk ih => exact ih.truncate i hk

theorem mono (h : Edit touched s t) (hsub : ∀ k, touched k → wider k) : Edit wider s t := by
  induction h with
  | refl => exact .refl
  | replaceFrom i values _ hi hk ih => exact ih.replaceFrom i values hi fun k h => hsub k (hk k h)
  | overwrite i v _ hi ih => exact ih.overwrite i v (hsub i hi)
  | truncate i _ hk ih => exact ih.truncate i fun k h => hsub k (hk k h)

/-- An index that an edit does not touch keeps its slot. -/
theorem slot_eq (h : Edit touched s t) (hk : ¬ touched k) : t.slots[k]? = s.slots[k]? := by
  induction h with
  | refl => rfl
  | replaceFrom i values _ hi hall ih =>
    have hlt : k < i := Nat.lt_of_not_le fun hle => hk (hall k hle)
    rw [slot_replaceFrom_below hi values hlt, ih]
  | overwrite i v _ hi ih =>
    have hne : k ≠ i := by
      rintro rfl
      exact hk hi
    rw [slot_overwrite_ne v hne, ih]
  | truncate i _ hall ih =>
    have hlt : k < i := Nat.lt_of_not_le fun hle => hk (hall k hle)
    rw [slot_truncate_below hlt, ih]

/-- What lies below all touched indices stays, as a list. -/
theorem take_eq (h : Edit (i ≤ ·) s t) : t.slots.take i = s.slots.take i := by
  apply List.ext_getElem?
  intro k
  by_cases hk : k < i
  · rw [List.getElem?_take_of_lt hk, List.getElem?_take_of_lt hk,
      h.slot_eq (Nat.not_le_of_lt hk)]
  · rw [List.getElem?_take_eq_none (Nat.le_of_not_lt hk),
      List.getElem?_take_eq_none (Nat.le_of_not_lt hk)]

theorem nextStamp_le (h : Edit touched s t) : s.nextStamp ≤ t.nextStamp := by
  induction h with
  | refl => exact Nat.le_refl _
  | replaceFrom i values _ _ _ ih => exact Nat.le_trans ih (Nat.le_add_right _ _)
  | overwrite i v _ _ ih => exact Nat.le_succ_of_le ih
  | truncate i _ _ ih => exact ih

/-- A stack that is high enough stays so when only indices from some height upward are touched. -/
theorem le_height (h : Edit (i ≤ ·) s t) (hi : i ≤ s.height) : i ≤ t.height := by
  apply Nat.le_of_not_lt
  intro hlt
  have hkept := h.slot_eq (k := t.height) (Nat.not_le_of_lt hlt)
  rw [getElem?_slots_eq_none.mpr (Nat.le_refl _)] at hkept
  have := getElem?_slots_eq_none.mp hkept.symm
  omega

/-- Every slot after an edit is the one its index had before, or has a stamp issued since. -/
theorem kept_or_fresh (h : Edit touched s t) {slot : Slot} (hslot : t.slots[k]? = some slot) :
    s.slots[k]? = some slot ∨ s.nextStamp ≤ slot.stamp := by
  induction h with
  | refl => exact .inl hslot
  | @replaceFrom t i values before hi _ ih =>
    by_cases hk : k < i
    · rw [slot_replaceFrom_below hi values hk] at hslot
      exact ih hslot
    · rw [slot_replaceFrom_above hi values (Nat.le_of_not_lt hk)] at hslot
      obtain ⟨v, -, rfl⟩ := Option.map_eq_some_iff.mp hslot
      exact .inr (Nat.le_trans before.nextStamp_le (Nat.le_add_right _ _))
  | @overwrite t i v before _ ih =>
    by_cases hk : k = i
    · subst hk
      have hlt : k < t.slots.length := by
        have := (List.getElem?_eq_some_iff.mp hslot).1
        simpa only [Stack.overwrite, List.length_set] using this
      simp only [Stack.overwrite, List.getElem?_set_self hlt, Option.some.injEq] at hslot
      subst hslot
      exact .inr before.nextStamp_le
    · rw [slot_overwrite_ne v hk] at hslot
      exact ih hslot
  | truncate i _ _ ih =>
    by_cases hk : k < i
    · rw [slot_truncate_below hk] at hslot
      exact ih hslot
    · rw [slot_truncate_above (Nat.le_of_not_lt hk)] at hslot
      cases hslot

end Edit

theorem WellStamped.replaceFrom (h : s.WellStamped) (i : Nat) (values : List Value) :
    (s.replaceFrom i values).WellStamped := by
  have hmem : ∀ slot ∈ stamped s.nextStamp values,
      s.nextStamp ≤ slot.stamp ∧ slot.stamp < s.nextStamp + values.length := by
    intro slot hslot
    have := List.mem_map_of_mem (f := Slot.stamp) hslot
    rw [map_stamp_stamped, List.mem_range'_1] at this
    exact this
  refine ⟨?_, ⟨Nat.le_trans h.positive.1 (Nat.le_add_right _ _), ?_⟩, ?_⟩
  · intro slot hslot
    rcases List.mem_append.mp hslot with hold | hnew
    · exact Nat.lt_of_lt_of_le (h.issued slot (List.mem_of_mem_take hold)) (Nat.le_add_right _ _)
    · exact (hmem slot hnew).2
  · intro slot hslot
    rcases List.mem_append.mp hslot with hold | hnew
    · exact h.positive.2 slot (List.mem_of_mem_take hold)
    · exact Nat.le_trans h.positive.1 (hmem slot hnew).1
  · simp only [Stack.replaceFrom, List.map_append, map_stamp_stamped, List.map_take]
    refine List.nodup_append.mpr
      ⟨h.distinct.sublist (List.take_sublist _ _), List.nodup_range', ?_⟩
    intro old hold new hnew
    obtain ⟨slot, hslot, rfl⟩ := List.mem_map.mp (List.mem_of_mem_take hold)
    have := h.issued slot hslot
    have := (List.mem_range'_1.mp hnew).1
    omega

theorem WellStamped.overwrite (h : s.WellStamped) (i : Nat) (v : Value) :
    (s.overwrite i v).WellStamped := by
  have hmem : ∀ slot ∈ (s.overwrite i v).slots, slot ∈ s.slots ∨ slot = ⟨v, s.nextStamp⟩ :=
    fun slot hslot => List.mem_or_eq_of_mem_set hslot
  refine ⟨?_, ⟨Nat.le_succ_of_le h.positive.1, ?_⟩, ?_⟩
  · intro slot hslot
    rcases hmem slot hslot with hold | rfl
    · exact Nat.lt_succ_of_lt (h.issued slot hold)
    · exact Nat.lt_succ_self _
  · intro slot hslot
    rcases hmem slot hslot with hold | rfl
    · exact h.positive.2 slot hold
    · exact h.positive.1
  · have hfresh : s.nextStamp ∉ s.slots.map Slot.stamp := by
      intro hin
      obtain ⟨slot, hslot, heq⟩ := List.mem_map.mp hin
      exact absurd (h.issued slot hslot) (by omega)
    simp only [Stack.overwrite, List.map_set]
    exact h.distinct.set hfresh

theorem WellStamped.truncate (h : s.WellStamped) (i : Nat) : (s.truncate i).WellStamped where
  issued slot hslot := h.issued slot (List.mem_of_mem_take hslot)
  positive := ⟨h.positive.1, fun slot hslot => h.positive.2 slot (List.mem_of_mem_take hslot)⟩
  distinct := by
    simp only [Stack.truncate, List.map_take]
    exact h.distinct.sublist (List.take_sublist _ _)

theorem Edit.wellStamped {touched : Nat → Prop} (h : Edit touched s t) (hs : s.WellStamped) :
    t.WellStamped := by
  induction h with
  | refl => exact hs
  | replaceFrom i values _ _ _ ih => exact ih.replaceFrom i values
  | overwrite i v _ _ ih => exact ih.overwrite i v
  | truncate i _ _ ih => exact ih.truncate i

/-! ## The operations are edits -/

theorem edit_push (v : Value) : Edit (s.height ≤ ·) s (s.push v) :=
  Edit.refl.replaceFrom s.height [v] (Nat.le_refl _) fun _ h => h

theorem edit_dropTop : Edit (s.height - 1 ≤ ·) s s.dropTop :=
  Edit.refl.truncate (s.height - 1) fun _ h => h

theorem edit_insert (h : i ≤ s.height) (v : Value) : Edit (i ≤ ·) s (s.insert i v) := by
  rw [insert_eq_replaceFrom h]
  exact Edit.refl.replaceFrom i _ h fun _ hk => hk

theorem edit_remove (h : i ≤ s.height) : Edit (i ≤ ·) s (s.remove i) := by
  rw [remove_eq_replaceFrom h]
  exact Edit.refl.replaceFrom i _ h fun _ hk => hk

theorem edit_rotate (h : i ≤ s.height) (n : Int) : Edit (i ≤ ·) s (s.rotate i n) := by
  rw [rotate_eq_replaceFrom h]
  exact Edit.refl.replaceFrom i _ h fun _ hk => hk

theorem edit_resize (n : Nat) : Edit (min s.height n ≤ ·) s (s.resize n) := by
  unfold resize
  split
  · exact Edit.refl.truncate n fun k hk => Nat.le_trans (Nat.min_le_right _ _) hk
  · exact Edit.refl.replaceFrom s.height _ (Nat.le_refl _)
      fun k hk => Nat.le_trans (Nat.min_le_left _ _) hk

end Stack

end StackEmbedding
