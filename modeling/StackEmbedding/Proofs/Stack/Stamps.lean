import StackEmbedding.Proofs.Stack.Rotation
import StackEmbedding.Stack.Operation

/-!
# Stamps along a run of operations

Whoever keeps an index with its stamp relies on two things: no stamp is issued twice, and a slot
that is not written keeps the stamp it has. `Stack.after operations` is the stack that a sequence of
operations makes of the empty one, and `StackOperation.Writes` says for each operation which indices
it writes. An operation in range stamps those anew and no others (`perform_restamps`), every
operation keeps the stamps distinct and the counter growing (`perform_edit`), and induction over the
sequence carries both to every moment of a run.

**What is not in range.** An operation that panics leaves the stack as it was, except that `set` has
drawn its stamp. A run may hold such operations; only what a single one writes is said of those in
range. Stamps are natural numbers here, so that the counter never comes to an end.
-/

set_option autoImplicit false

namespace StackEmbedding

/-! ## What an operation is said to write -/

namespace StackOperation

/-- The index that the operation names is there. -/
def InRange (s : Stack) : StackOperation → Prop
  | pop => 0 < s.height
  | get i | set i _ | remove i => i < s.height
  | insert i _ | rotate i _ | drainFrom i => i ≤ s.height
  | push _ | stamp _ | resize _ | reserve _ => True

/-- The indices that the operation writes. Those it takes away are not among them. -/
def Writes (s : Stack) : StackOperation → Nat → Prop
  | push _, k => k = s.height
  | set i _, k => k = i
  | insert i _, k | remove i, k | rotate i _, k => i ≤ k
  | resize _, k => s.height ≤ k
  | pop, _ | get _, _ | stamp _, _ | drainFrom _, _ | reserve _, _ => False

/-- How many slots the operation leaves. -/
def newHeight (s : Stack) : StackOperation → Nat
  | push _ | insert .. => s.height + 1
  | pop | remove _ => s.height - 1
  | resize n => n
  | drainFrom i => i
  | get _ | stamp _ | set .. | rotate .. | reserve _ => s.height

end StackOperation

namespace Stack

variable {s t : Stack} {op : StackOperation} {i k : Nat} {written : Nat → Prop}

/-! ## Writing as restamping -/

/-- The slots of `t` at the indices in `written` have stamps that `s` has not issued, and all its
other slots are those of `s`. -/
structure Restamps (written : Nat → Prop) (s t : Stack) : Prop where
  fresh : ∀ k slot, written k → t.slots[k]? = some slot → s.nextStamp ≤ slot.stamp
  kept : ∀ k slot, ¬ written k → t.slots[k]? = some slot → s.slots[k]? = some slot

theorem restamps_refl (s : Stack) : s.Restamps (fun _ => False) s :=
  ⟨fun _ _ h => h.elim, fun _ _ _ h => h⟩

theorem restamps_truncate (i : Nat) : s.Restamps (fun _ => False) (s.truncate i) where
  fresh _ _ h := h.elim
  kept k slot _ hslot := by
    by_cases hk : k < i
    · rwa [slot_truncate_below hk] at hslot
    · rw [slot_truncate_above (Nat.le_of_not_lt hk)] at hslot
      cases hslot

theorem restamps_replaceFrom (h : i ≤ s.height) (values : List Value) :
    s.Restamps (i ≤ ·) (s.replaceFrom i values) where
  fresh := freshFrom_replaceFrom h values
  kept k slot hk hslot := by
    rwa [slot_replaceFrom_below h values (Nat.lt_of_not_le hk)] at hslot

theorem restamps_overwrite (v : Value) : s.Restamps (· = i) (s.overwrite i v) where
  fresh k slot hk hslot := by
    obtain rfl := hk
    have hlt := (List.getElem?_eq_some_iff.mp hslot).1
    simp only [overwrite, List.length_set] at hlt
    simp only [overwrite, List.getElem?_set_self hlt, Option.some.injEq] at hslot
    simp [← hslot]
  kept k slot hk hslot := by rwa [slot_overwrite_ne v hk] at hslot

/-- Indices at which there is no slot afterwards do not matter. -/
theorem Restamps.congr {other : Nat → Prop} (h : s.Restamps written t)
    (hiff : ∀ k < t.height, other k ↔ written k) : s.Restamps other t where
  fresh k slot hk hslot :=
    h.fresh k slot ((hiff k (List.getElem?_eq_some_iff.mp hslot).1).mp hk) hslot
  kept k slot hk hslot :=
    h.kept k slot (fun hw => hk ((hiff k (List.getElem?_eq_some_iff.mp hslot).1).mpr hw)) hslot

/-! ## One operation -/

theorem guarded_of_true {inRange : Bool} (h : inRange = true) (i : Nat) (reply : StackReply)
    (after : Stack) : s.guarded inRange i reply after = (.ok reply, after) := if_pos h

theorem height_resize (n : Nat) : (s.resize n).height = n := by
  unfold resize
  split
  next hle =>
    rw [height_truncate]
    exact Nat.min_eq_left hle
  next hlt =>
    rw [height_replaceFrom (Nat.le_refl _), List.length_replicate]
    omega

theorem restamps_resize (n : Nat) : s.Restamps (s.height ≤ ·) (s.resize n) := by
  unfold resize
  split
  next hle =>
    refine (restamps_truncate n).congr fun k hk => ?_
    rw [height_truncate] at hk
    exact iff_of_false (by omega) id
  next hlt => exact restamps_replaceFrom (Nat.le_refl _) _

/-- An operation in range answers, leaves as many slots as it should, and stamps what it writes. -/
theorem perform_restamps (h : op.InRange s) :
    (∃ reply, (s.perform op).1 = .ok reply) ∧ (s.perform op).2.height = op.newHeight s ∧
      s.Restamps (op.Writes s) (s.perform op).2 := by
  cases op with
  | stamp _ | reserve _ => exact ⟨⟨_, rfl⟩, rfl, restamps_refl s⟩
  | push v =>
    refine ⟨⟨_, rfl⟩, height_push v, ?_⟩
    refine (restamps_replaceFrom (Nat.le_refl _) [v]).congr fun k hk => ?_
    have hlt : k < s.height + 1 := height_push (s := s) v ▸ hk
    show k = s.height ↔ s.height ≤ k
    omega
  | pop =>
    have hne : s.slots ≠ [] := List.length_pos_iff.mp h
    have htop : s.top? = some (s.slots.getLast hne).value := by
      rw [top?, List.getLast?_eq_some_getLast hne, Option.map_some]
    simp only [perform, htop]
    exact ⟨⟨_, rfl⟩, height_dropTop, restamps_truncate _⟩
  | get i =>
    have hlt : i < s.height := h
    rw [perform, guarded_of_true (decide_eq_true hlt)]
    exact ⟨⟨_, rfl⟩, rfl, restamps_refl s⟩
  | set i v =>
    have hlt : i < s.height := h
    rw [perform, if_pos hlt]
    exact ⟨⟨_, rfl⟩, height_overwrite v, restamps_overwrite v⟩
  | insert i v =>
    have hle : i ≤ s.height := h
    rw [perform, guarded_of_true (decide_eq_true hle)]
    refine ⟨⟨_, rfl⟩, height_insert hle v, ?_⟩
    rw [insert_eq_replaceFrom hle]
    exact restamps_replaceFrom hle _
  | remove i =>
    have hlt : i < s.height := h
    rw [perform, guarded_of_true (decide_eq_true hlt)]
    refine ⟨⟨_, rfl⟩, height_remove hlt, ?_⟩
    rw [remove_eq_replaceFrom (Nat.le_of_lt hlt)]
    exact restamps_replaceFrom (Nat.le_of_lt hlt) _
  | rotate i n =>
    have hle : i ≤ s.height := h
    rw [perform, guarded_of_true (decide_eq_true hle)]
    refine ⟨⟨_, rfl⟩, height_rotate hle n, ?_⟩
    rw [rotate_eq_replaceFrom hle]
    exact restamps_replaceFrom hle _
  | resize n => exact ⟨⟨_, rfl⟩, height_resize n, restamps_resize n⟩
  | drainFrom i =>
    have hle : i ≤ s.height := h
    rw [perform, guarded_of_true (decide_eq_true hle)]
    exact ⟨⟨_, rfl⟩, height_truncate.trans (Nat.min_eq_left hle), restamps_truncate i⟩

theorem guarded_edit {inRange : Bool} {i : Nat} {reply : StackReply}
    (h : inRange = true → Edit written s t) : Edit written s (s.guarded inRange i reply t).2 := by
  unfold guarded
  split
  next hrange => exact h hrange
  next => exact .refl

/-- Any operation edits the stack, whether it is in range or not. -/
theorem perform_edit (s : Stack) (op : StackOperation) :
    Edit (fun _ => True) s (s.perform op).2 := by
  cases op with
  | stamp _ | reserve _ => exact .refl
  | push v => exact (edit_push v).mono fun _ _ => trivial
  | pop =>
    simp only [perform]
    split
    · exact edit_dropTop.mono fun _ _ => trivial
    · exact .refl
  | get i => exact guarded_edit fun _ => .refl
  | set i v =>
    -- Beyond the stack nothing is overwritten, but the stamp is drawn all the same.
    simp only [perform]
    split
    next => exact Edit.refl.overwrite i v trivial
    next hbeyond =>
      have hset : s.slots.set i ⟨v, s.nextStamp⟩ = s.slots :=
        List.set_eq_of_length_le (Nat.le_of_not_lt hbeyond)
      have hoverwrite : s.overwrite i v = { s with nextStamp := s.nextStamp + 1 } :=
        congrArg (Stack.mk · (s.nextStamp + 1)) hset
      rw [← hoverwrite]
      exact Edit.refl.overwrite i v trivial
  | insert i v =>
    exact guarded_edit fun h => (edit_insert (of_decide_eq_true h) v).mono fun _ _ => trivial
  | remove i =>
    exact guarded_edit fun h =>
      (edit_remove (Nat.le_of_lt (of_decide_eq_true h))).mono fun _ _ => trivial
  | rotate i n =>
    exact guarded_edit fun h => (edit_rotate (of_decide_eq_true h) n).mono fun _ _ => trivial
  | resize n => exact (edit_resize n).mono fun _ _ => trivial
  | drainFrom i => exact guarded_edit fun _ => Edit.refl.truncate i fun _ _ => trivial

/-! ## Runs -/

/-- The stack after a sequence of operations, the first of them on an empty one. -/
def after (ops : List StackOperation) : Stack := ops.foldl (fun s op => (s.perform op).2) ∅

theorem after_concat (ops : List StackOperation) (op : StackOperation) :
    after (ops ++ [op]) = ((after ops).perform op).2 := by
  simp [after]

/-- At every moment of a run the stamps are distinct and issued. -/
theorem wellStamped_after (ops : List StackOperation) : (after ops).WellStamped := by
  induction ops using List.reverseRecOn with
  | nil => exact wellStamped_empty
  | append_singleton ops op ih =>
    rw [after_concat]
    exact (perform_edit (after ops) op).wellStamped ih

/-- The counter grows along a run. -/
theorem nextStamp_le_after {early ops : List StackOperation} (h : early <+: ops) :
    (after early).nextStamp ≤ (after ops).nextStamp := by
  obtain ⟨more, rfl⟩ := h
  induction more using List.reverseRecOn with
  | nil => simp
  | append_singleton more op ih =>
    rw [← List.append_assoc, after_concat]
    exact ih.trans (perform_edit (after (early ++ more)) op).nextStamp_le

/-- A stamp that was on the stack at an earlier moment was issued before. -/
theorem stamp_lt_after {early ops : List StackOperation} (h : early <+: ops) {old : Slot}
    (hold : old ∈ (after early).slots) : old.stamp < (after ops).nextStamp :=
  ((wellStamped_after early).issued old hold).trans_le (nextStamp_le_after h)

/-- Along every run of operations the stamps on the stack are distinct, positive and below the
counter, which never decreases. An operation in range gives exactly the indices it writes a stamp
that no slot has had at any earlier moment. Every other index that has a slot afterwards has the
slot it had. -/
theorem stamp_discipline (ops : List StackOperation) (op : StackOperation) :
    (after ops).WellStamped ∧ (after ops).nextStamp ≤ (after (ops ++ [op])).nextStamp ∧
      (op.InRange (after ops) →
        (∃ reply, ((after ops).perform op).1 = .ok reply) ∧
        (after (ops ++ [op])).height = op.newHeight (after ops) ∧
        ∀ k slot, (after (ops ++ [op])).slots[k]? = some slot →
          (op.Writes (after ops) k → (after ops).nextStamp ≤ slot.stamp ∧
            ∀ early, early <+: ops → ∀ old ∈ (after early).slots, old.stamp ≠ slot.stamp) ∧
          (¬ op.Writes (after ops) k → (after ops).slots[k]? = some slot)) := by
  refine ⟨wellStamped_after ops, nextStamp_le_after (List.prefix_append ops [op]), fun hrange => ?_⟩
  obtain ⟨hreply, hheight, hstamps⟩ := perform_restamps hrange
  rw [after_concat]
  refine ⟨hreply, hheight, fun k slot hslot => ⟨fun hwritten => ?_, fun hunwritten => ?_⟩⟩
  · have hfresh := hstamps.fresh k slot hwritten hslot
    exact ⟨hfresh, fun early hearly old hold => by have := stamp_lt_after hearly hold; omega⟩
  · exact hstamps.kept k slot hunwritten hslot

/-- A rotation by the number of slots puts all values back where they were, under stamps that no
slot has had. -/
theorem whole_rotation_restamps :
    (StackOperation.rotate 0 2).InRange (after [.push .nil, .push (.bool true)]) ∧
      (after [.push .nil, .push (.bool true), .rotate 0 2]).slots =
        [⟨.nil, 3⟩, ⟨.bool true, 4⟩] ∧
      ∀ early, early <+: [.push .nil, .push (.bool true)] → ∀ old ∈ (after early).slots,
        old.stamp ≠ 3 ∧ old.stamp ≠ 4 := by
  have hrange : (StackOperation.rotate 0 2).InRange (after [.push .nil, .push (.bool true)]) :=
    Nat.zero_le _
  obtain ⟨-, -, hexact⟩ := stamp_discipline [.push .nil, .push (.bool true)] (.rotate 0 2)
  obtain ⟨-, -, hslots⟩ := hexact hrange
  have hlow := ((hslots 0 ⟨.nil, 3⟩ rfl).1 (Nat.zero_le _)).2
  have hhigh := ((hslots 1 ⟨.bool true, 4⟩ rfl).1 (Nat.zero_le _)).2
  exact ⟨hrange, rfl, fun early h old hold => ⟨hlow early h old hold, hhigh early h old hold⟩⟩

end Stack

end StackEmbedding
