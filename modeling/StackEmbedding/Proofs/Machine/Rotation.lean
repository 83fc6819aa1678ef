import StackEmbedding.Proofs.Machine.Shuffle
import StackEmbedding.Proofs.Machine.SlotIdentity

/-!
# The algebra of rotations

Rotating a frame from one position by `a` and then by `b` is rotating it by `a + b`. Hence the
opposite rotation undoes a rotation, and one by a multiple of the number of slots from the position
upward is none. Inserting is the rotation by one place, in the stamps as in the values. Removing is
a rotation by one place back and a drop, and replacing a copy and a drop, in the values that they
leave.

Each law is an equation of operations on lists, and `sameValues_of_actAll` makes it one of machines.
Of the stamps it says nothing: a rotation draws one for every slot from its position upward, also
where it moves none.
-/

set_option autoImplicit false

namespace StackEmbedding

namespace Shuffle

variable {vs : List Value} {position : Int} {i : Nat}

/-- What is done at a place, where the position names one. -/
theorem place_bind (h : placeIn? vs.length position = some i) (operation : Operation)
    (done : Nat → Except Panic (List Value)) : (place vs operation position >>= done) = done i := by
  rw [place, h]
  rfl

theorem act_rotate (h : placeIn? vs.length position = some i) (n : Int) :
    (rotate position n).act vs = .ok (vs.take i ++ rotateBy (vs.drop i) (-n)) :=
  place_bind h _ _

theorem act_pop_one (h : vs ≠ []) : (pop 1).act vs = .ok vs.dropLast := by
  have hone : 1 ≤ vs.length := List.length_pos_of_ne_nil h
  rw [act, if_pos hone, List.dropLast_eq_take]

/-- Two rotations from one position are one. -/
theorem actAll_rotate_rotate (h : placeIn? vs.length position = some i) (a b : Int) :
    actAll vs [rotate position a, rotate position b] =
      .ok (vs.take i ++ rotateBy (vs.drop i) (-(a + b))) := by
  have hle : i ≤ vs.length := Nat.le_of_lt (placeIn?_eq_some_iff.mp h).1
  have htake : (vs.take i).length = i := List.length_take_of_le hle
  have hlength : (vs.take i ++ rotateBy (vs.drop i) (-a)).length = vs.length := by
    rw [List.length_append, length_rotateBy, ← List.length_append, List.take_append_drop]
  rw [actAll_cons (act_rotate h a), actAll_singleton (act_rotate (hlength ▸ h) b),
    List.take_left' htake, List.drop_left' htake, rotateBy_rotateBy, Int.neg_add]

/-- A rotation by a multiple of the number of places is none. -/
theorem actAll_rotate_mul (h : placeIn? vs.length position = some i) (k : Int) :
    actAll vs [rotate position (k * (vs.length - i : Nat))] = .ok vs := by
  rw [actAll_singleton (act_rotate h _), ← Int.neg_mul, ← List.length_drop, rotateBy_mul_length,
    List.take_append_drop]

theorem act_remove (h : placeIn? vs.length position = some i) :
    (remove position).act vs = .ok (vs.eraseIdx i) :=
  place_bind h _ _

/-- Removing a slot is rotating it to the top and dropping it there. -/
theorem actAll_rotate_pop (h : placeIn? vs.length position = some i) :
    actAll vs [rotate position (-1), pop 1] = .ok (vs.eraseIdx i) := by
  have hlt : i < vs.length := (placeIn?_eq_some_iff.mp h).1
  have hrotated : vs.take i ++ rotateBy (vs.drop i) 1 =
      (vs.take i ++ vs.drop (i + 1)) ++ [vs[i]] := by
    rw [List.drop_eq_getElem_cons hlt, rotateBy_one, List.append_assoc]
  rw [actAll_cons (act_rotate h _), Int.neg_neg, hrotated,
    actAll_singleton (act_pop_one (List.concat_ne_nil _ _)), List.dropLast_concat,
    List.eraseIdx_eq_take_drop_succ]

theorem act_replace (h : placeIn? vs.length position = some i) :
    (replace position).act vs = .ok (vs.dropLast.set i (.orNil vs.getLast?)) :=
  place_bind h _ _

/-- Replacing a value is copying the highest to its place and dropping it. -/
theorem actAll_copy_pop (h : placeIn? vs.length position = some i) :
    actAll vs [copy (-1) position, pop 1] = .ok (vs.dropLast.set i (.orNil vs.getLast?)) := by
  have hlt : i < vs.length := (placeIn?_eq_some_iff.mp h).1
  have htop : placeIn? vs.length (-1) = some (vs.length - 1) :=
    placeIn?_eq_some_iff.mpr ⟨by omega, .inr (by omega)⟩
  have hcopied : (copy (-1) position).act vs = .ok (vs.set i (.orNil vs[vs.length - 1]?)) :=
    (place_bind htop _ _).trans (place_bind h _ _)
  have hne : vs.set i (.orNil vs[vs.length - 1]?) ≠ [] := by
    rw [← List.length_pos_iff, List.length_set]
    omega
  rw [actAll_cons hcopied, actAll_singleton (act_pop_one hne), List.getLast?_eq_getElem?,
    List.dropLast_eq_take, List.length_set, List.take_set, ← List.dropLast_eq_take]

end Shuffle

namespace Machine

variable {κ : Type} {m : Machine κ} {position : Int} {ops ops' : List Shuffle} {vs : List Value}

/-- Both runs of shuffles complete, with the same values in the frame. -/
def SameValues (m : Machine κ) (ops ops' : List Shuffle) : Prop :=
  ∃ n n', m.shuffles ops = (.ok (), n) ∧ m.shuffles ops' = (.ok (), n') ∧ n.values = n'.values

theorem sameValues_of_actAll (hbase : m.base ≤ m.stack.height)
    (h : Shuffle.actAll m.values ops = .ok vs) (h' : Shuffle.actAll m.values ops' = .ok vs) :
    m.SameValues ops ops' := by
  obtain ⟨n, hrun, hreshaped⟩ := (shuffles_reshape hbase ops).1 vs h
  obtain ⟨n', hrun', hreshaped'⟩ := (shuffles_reshape hbase ops').1 vs h'
  exact ⟨n, n', hrun, hrun', hreshaped.values.trans hreshaped'.values.symm⟩

/-- The laws of rotations from a position that names a slot. -/
theorem rotation_algebra {raw : Nat} (h : m.resolve? position = some raw) :
    (∀ a b, m.SameValues [.rotate position a, .rotate position b] [.rotate position (a + b)]) ∧
    (∀ k : Int, m.SameValues [.rotate position (k * (m.stack.height - raw : Nat))] []) ∧
    (∀ a, m.SameValues [.rotate position a, .rotate position (-a)] []) ∧
    (∃ n, m.insert position = (.ok (), n) ∧ m.rotate position 1 = (.ok (), n)) ∧
    m.SameValues [.remove position] [.rotate position (-1), .pop 1] ∧
    m.SameValues [.replace position] [.copy (-1) position, .pop 1] := by
  have hbase := base_le_height_of_resolve? h
  have hraw := (resolve?_eq_placeIn? hbase position).symm.trans h
  rw [← length_values] at hraw
  obtain ⟨i, hi, rfl⟩ := Option.map_eq_some_iff.mp hraw
  have hsize : m.stack.height - (m.base + i) = m.values.length - i := by
    rw [length_values, top]
    omega
  refine ⟨?_, ?_, ?_, ?_, ?_, ?_⟩
  · intro a b
    exact sameValues_of_actAll hbase (Shuffle.actAll_rotate_rotate hi a b)
      (Shuffle.actAll_singleton (Shuffle.act_rotate hi _))
  · intro k
    rw [hsize]
    exact sameValues_of_actAll hbase (Shuffle.actAll_rotate_mul hi k) rfl
  · intro a
    refine sameValues_of_actAll hbase (Shuffle.actAll_rotate_rotate hi a (-a)) ?_
    rw [Int.add_right_neg, Int.neg_zero, rotateBy_zero, List.take_append_drop]
    rfl
  · refine ⟨m.withStack (m.stack.rotate (m.base + i) 1), ?_, ?_⟩
    · rw [insert, atPosition, h]
      simp only [Stack.insert_dropTop (lt_height_of_resolve? h)]
    · rw [rotate, atPosition, h]
  · exact sameValues_of_actAll hbase (Shuffle.actAll_singleton (Shuffle.act_remove hi))
      (Shuffle.actAll_rotate_pop hi)
  · exact sameValues_of_actAll hbase (Shuffle.actAll_singleton (Shuffle.act_replace hi))
      (Shuffle.actAll_copy_pop hi)

/-- Three slots rotated by seven places and then by nine back are rotated by two back, two places
are undone by two back, and six back are none. The highest slot replaced by itself is dropped. -/
theorem threeInFrame_rotated :
    threeInFrame.resolve? (-3) = some 1 ∧
      threeInFrame.SameValues [.rotate (-3) 7, .rotate (-3) (-9)] [.rotate (-3) (-2)] ∧
      threeInFrame.SameValues [.rotate (-3) (-6)] [] ∧
      threeInFrame.SameValues [.rotate (-3) 2, .rotate (-3) (-2)] [] ∧
      threeInFrame.resolve? 3 = some 3 ∧
      threeInFrame.SameValues [.replace 3] [.copy (-1) 3, .pop 1] := by
  have hlowest : threeInFrame.resolve? (-3) = some 1 := by decide
  have hhighest : threeInFrame.resolve? 3 = some 3 := by decide
  have hsize : threeInFrame.stack.height - 1 = 3 := by decide
  have hsum : (7 : Int) + -9 = -2 := by decide
  have hproduct : (-2 : Int) * (3 : Nat) = -6 := by decide
  obtain ⟨hadd, hwhole, hundo, -⟩ := rotation_algebra hlowest
  obtain ⟨-, -, -, -, -, hreplace⟩ := rotation_algebra hhighest
  rw [hsize] at hwhole
  exact ⟨hlowest, hsum ▸ hadd 7 (-9), hproduct ▸ hwhole (-2), hundo 2, hhighest, hreplace⟩

end Machine

end StackEmbedding
