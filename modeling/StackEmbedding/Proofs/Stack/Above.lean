import StackEmbedding.Proofs.Stack.Edit

/-!
# Stacks that hold the same values above an index

`Stack.Alike b₁ b₂ s t` says that `s` holds from `b₁` upward the values that `t` holds from `b₂`
upward. What lies below, the stamps, and the two indices themselves may differ. Every operation at
indices that are as far above `b₁` as above `b₂` keeps stacks alike.

An operation that takes the highest value needs one above the index: on a stack that ends at `b₁`
the highest slot is one of those below.
-/

set_option autoImplicit false

namespace StackEmbedding.Stack

variable {s t : Stack} {b b₁ b₂ k : Nat}

/-! ## Operations as operations on the values above an index -/

theorem length_valuesFrom : (s.valuesFrom b).length = s.height - b := by
  simp only [valuesFrom, List.length_map, List.length_drop, height]

theorem getElem?_valuesFrom : (s.valuesFrom b)[k]? = s.value? (b + k) := by
  simp only [valuesFrom, List.getElem?_map, List.getElem?_drop, value?]

theorem valuesFrom_add : s.valuesFrom (b + k) = (s.valuesFrom b).drop k := by
  simp only [valuesFrom, ← List.map_drop, List.drop_drop]

theorem valuesFrom_replaceFrom (h : b + k ≤ s.height) (values : List Value) :
    (s.replaceFrom (b + k) values).valuesFrom b = (s.valuesFrom b).take k ++ values := by
  have hlength : b ≤ (s.slots.take (b + k)).length := by
    rw [List.length_take_of_le h]
    exact Nat.le_add_right b k
  simp only [replaceFrom, valuesFrom]
  rw [List.drop_append_of_le_length hlength, List.map_append, map_value_stamped, List.drop_take,
    List.map_take, Nat.add_sub_cancel_left]

theorem valuesFrom_truncate : (s.truncate (b + k)).valuesFrom b = (s.valuesFrom b).take k := by
  simp only [truncate, valuesFrom, List.drop_take, List.map_take, Nat.add_sub_cancel_left]

theorem valuesFrom_overwrite (v : Value) :
    (s.overwrite (b + k) v).valuesFrom b = (s.valuesFrom b).set k v := by
  simp only [overwrite, valuesFrom, List.drop_set, if_neg (Nat.not_lt_of_le (Nat.le_add_right b k)),
    List.map_set, Nat.add_sub_cancel_left]

theorem valuesFrom_insert (h : b + k ≤ s.height) (v : Value) :
    (s.insert (b + k) v).valuesFrom b = (s.valuesFrom b).insertIdx k v := by
  have hlength : k ≤ (s.valuesFrom b).length := by
    rw [length_valuesFrom]
    omega
  rw [insert_eq_replaceFrom h, valuesFrom_replaceFrom h, valuesFrom_add, insertIdx_eq hlength]

theorem valuesFrom_remove (h : b + k ≤ s.height) :
    (s.remove (b + k)).valuesFrom b = (s.valuesFrom b).eraseIdx k := by
  rw [remove_eq_replaceFrom h, valuesFrom_replaceFrom h, Nat.add_assoc, valuesFrom_add,
    List.eraseIdx_eq_take_drop_succ]

theorem valuesFrom_resize (h : b ≤ s.height) :
    (s.resize (b + k)).valuesFrom b =
      (s.valuesFrom b).take k ++ List.replicate (k - (s.valuesFrom b).length) .nil := by
  have hlength : (s.valuesFrom b).length = s.height - b := length_valuesFrom
  unfold resize
  split
  next hle =>
    have hshrinks : k - (s.valuesFrom b).length = 0 := by omega
    rw [valuesFrom_truncate, hshrinks, List.replicate_zero, List.append_nil]
  next hgrows =>
    obtain ⟨size, hsize⟩ := Nat.exists_eq_add_of_le h
    have hadded : b + k - s.height = k - (s.valuesFrom b).length := by omega
    rw [hadded, hsize, valuesFrom_replaceFrom (Nat.le_of_eq hsize.symm),
      List.take_of_length_le (by omega), List.take_of_length_le (by omega)]

theorem valuesFrom_dropTop (h : b < s.height) :
    s.dropTop.valuesFrom b = (s.valuesFrom b).dropLast := by
  obtain ⟨size, hsize⟩ := Nat.exists_eq_add_of_lt h
  have hcut : s.height - 1 = b + size := by omega
  rw [dropTop, hcut, valuesFrom_truncate, List.dropLast_eq_take, length_valuesFrom]
  congr 1
  omega

theorem top?_eq_getLast? (h : b < s.height) : s.top? = (s.valuesFrom b).getLast? := by
  have hne : ¬ s.slots.length ≤ b := Nat.not_le_of_lt h
  simp only [top?, valuesFrom, List.getLast?_map, List.getLast?_drop, if_neg hne]

/-! ## Alike stacks -/

/-- The stacks hold the same values, one from `b₁` upward and the other from `b₂` upward. -/
structure Alike (b₁ b₂ : Nat) (s t : Stack) : Prop where
  left : b₁ ≤ s.height
  right : b₂ ≤ t.height
  values : s.valuesFrom b₁ = t.valuesFrom b₂

namespace Alike

theorem height (h : Alike b₁ b₂ s t) : ∃ n, s.height = b₁ + n ∧ t.height = b₂ + n := by
  have hlength := congrArg List.length h.values
  rw [length_valuesFrom, length_valuesFrom] at hlength
  have hleft := h.left
  have hright := h.right
  exact ⟨s.height - b₁, by omega, by omega⟩

theorem le_right (h : Alike b₁ b₂ s t) (hk : b₁ + k ≤ s.height) : b₂ + k ≤ t.height := by
  obtain ⟨n, hs, ht⟩ := h.height
  omega

theorem value? (h : Alike b₁ b₂ s t) (k : Nat) : s.value? (b₁ + k) = t.value? (b₂ + k) := by
  rw [← getElem?_valuesFrom, ← getElem?_valuesFrom, h.values]

theorem valuesFrom (h : Alike b₁ b₂ s t) (k : Nat) :
    s.valuesFrom (b₁ + k) = t.valuesFrom (b₂ + k) := by
  rw [valuesFrom_add, valuesFrom_add, h.values]

theorem top? (h : Alike b₁ b₂ s t) (hpositive : b₁ < s.height) : s.top? = t.top? := by
  obtain ⟨n, hs, ht⟩ := h.height
  rw [top?_eq_getLast? hpositive, top?_eq_getLast? (b := b₂) (by omega), h.values]

theorem replaceFrom (h : Alike b₁ b₂ s t) (hk : b₁ + k ≤ s.height) (values : List Value) :
    Alike b₁ b₂ (s.replaceFrom (b₁ + k) values) (t.replaceFrom (b₂ + k) values) := by
  have hk' := h.le_right hk
  refine ⟨?_, ?_, ?_⟩
  · rw [height_replaceFrom hk]
    omega
  · rw [height_replaceFrom hk']
    omega
  · rw [valuesFrom_replaceFrom hk, valuesFrom_replaceFrom hk', h.values]

theorem overwrite (h : Alike b₁ b₂ s t) (k : Nat) (v : Value) :
    Alike b₁ b₂ (s.overwrite (b₁ + k) v) (t.overwrite (b₂ + k) v) where
  left := by rw [height_overwrite]; exact h.left
  right := by rw [height_overwrite]; exact h.right
  values := by rw [valuesFrom_overwrite, valuesFrom_overwrite, h.values]

theorem truncate (h : Alike b₁ b₂ s t) (k : Nat) :
    Alike b₁ b₂ (s.truncate (b₁ + k)) (t.truncate (b₂ + k)) where
  left := by
    rw [height_truncate]
    exact Nat.le_min.mpr ⟨Nat.le_add_right b₁ k, h.left⟩
  right := by
    rw [height_truncate]
    exact Nat.le_min.mpr ⟨Nat.le_add_right b₂ k, h.right⟩
  values := by rw [valuesFrom_truncate, valuesFrom_truncate, h.values]

theorem pushAll (h : Alike b₁ b₂ s t) (values : List Value) :
    Alike b₁ b₂ (s.pushAll values) (t.pushAll values) := by
  obtain ⟨n, hs, ht⟩ := h.height
  unfold Stack.pushAll
  rw [hs, ht]
  exact h.replaceFrom (Nat.le_of_eq hs.symm) values

theorem push (h : Alike b₁ b₂ s t) (v : Value) : Alike b₁ b₂ (s.push v) (t.push v) :=
  h.pushAll [v]

theorem dropTop (h : Alike b₁ b₂ s t) (hpositive : b₁ < s.height) :
    Alike b₁ b₂ s.dropTop t.dropTop := by
  obtain ⟨n, hs, ht⟩ := h.height
  obtain ⟨k, rfl⟩ : ∃ k, n = k + 1 := ⟨n - 1, by omega⟩
  have hs' : s.height - 1 = b₁ + k := by omega
  have ht' : t.height - 1 = b₂ + k := by omega
  unfold Stack.dropTop
  rw [hs', ht']
  exact h.truncate k

theorem insert (h : Alike b₁ b₂ s t) (hk : b₁ + k ≤ s.height) (v : Value) :
    Alike b₁ b₂ (s.insert (b₁ + k) v) (t.insert (b₂ + k) v) := by
  rw [insert_eq_replaceFrom hk, insert_eq_replaceFrom (h.le_right hk), h.valuesFrom k]
  exact h.replaceFrom hk _

theorem remove (h : Alike b₁ b₂ s t) (hk : b₁ + k ≤ s.height) :
    Alike b₁ b₂ (s.remove (b₁ + k)) (t.remove (b₂ + k)) := by
  rw [remove_eq_replaceFrom hk, remove_eq_replaceFrom (h.le_right hk), Nat.add_assoc, Nat.add_assoc,
    h.valuesFrom (k + 1)]
  exact h.replaceFrom hk _

theorem rotate (h : Alike b₁ b₂ s t) (hk : b₁ + k ≤ s.height) (n : Int) :
    Alike b₁ b₂ (s.rotate (b₁ + k) n) (t.rotate (b₂ + k) n) := by
  rw [rotate_eq_replaceFrom hk, rotate_eq_replaceFrom (h.le_right hk), h.valuesFrom k]
  exact h.replaceFrom hk _

theorem resize (h : Alike b₁ b₂ s t) (k : Nat) :
    Alike b₁ b₂ (s.resize (b₁ + k)) (t.resize (b₂ + k)) := by
  obtain ⟨n, hs, ht⟩ := h.height
  unfold Stack.resize
  by_cases hk : k ≤ n
  · rw [if_pos (by omega), if_pos (by omega)]
    exact h.truncate k
  · have hgrow : b₁ + k - s.height = b₂ + k - t.height := by omega
    rw [if_neg (by omega), if_neg (by omega), hgrow]
    exact h.pushAll _

end Alike

end StackEmbedding.Stack
