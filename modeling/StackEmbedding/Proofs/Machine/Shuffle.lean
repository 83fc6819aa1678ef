import StackEmbedding.Proofs.Machine.Footprint
import StackEmbedding.Proofs.Machine.Position
import StackEmbedding.Proofs.Stack.Rotation

/-!
# The bookkeeping of a frame, as operations on a list

Eight primitives move, drop and copy slots; a `Shuffle` is one of them with its arguments.
`Shuffle.act` says what it makes of the values of a frame, as a list or a panic where its arguments
name nothing, and `Shuffle.affects` which places of the frame it may write or drop.

**Refinement.** A shuffle of a machine follows the list (`shuffle_follows`): it answers and leaves
the values that the list has, or panics for the same cause and leaves the machine as it was. Nothing
below the frame changes, and no place that is not affected, stamps included (`frame_shuffle`). A run
of shuffles does what the list operations do one after the other, up to the first that panics
(`shuffles_reshape`). A primitive that pops before it writes is therefore never seen half done.

**Positions.** `Shuffle.fromBase` writes the positions that count from the top as those that count
from the base. No shuffle tells them apart (`shuffle_fromBase`).
-/

set_option autoImplicit false

namespace StackEmbedding

/-! ## Places of a list -/

/-- The place in a list of a length that a position names. -/
def placeIn? (length : Nat) (position : Int) : Option Nat :=
  if 1 ≤ position ∧ position ≤ length then some (position - 1).toNat
  else if -length ≤ position ∧ position ≤ -1 then some (length + position).toNat
  else none

/-- The length that a position names as the last one. It may lie one below the list. -/
def lengthUpTo? (length : Nat) (position : Int) : Option Nat :=
  if 0 ≤ position then some position.toNat
  else if -(length + 1) ≤ position then some (length + 1 + position).toNat
  else none

/-- A position that reaches back at most so far, counted from the base. -/
def countedFromBase (length reach : Nat) (position : Int) : Int :=
  if -reach ≤ position ∧ position < 0 then length + 1 + position else position

theorem placeIn?_eq_some_iff {length i : Nat} {position : Int} :
    placeIn? length position = some i ↔
      i < length ∧ (position = i + 1 ∨ position = i - length) := by
  unfold placeIn?
  split
  next =>
    rw [Option.some.injEq]
    omega
  next =>
    rw [Option.ite_none_right_eq_some, Option.some.injEq]
    omega

/-! ## Shuffles of a list -/

/-- A primitive that moves, drops or copies slots, with its arguments. -/
inductive Shuffle where
  | setTop (position : Int)
  | pop (n : Nat)
  | remove (position : Int)
  | insert (position : Int)
  | replace (position : Int)
  | copy (source target : Int)
  | rotate (position n : Int)
  | pushValue (position : Int)
  deriving DecidableEq

namespace Shuffle

/-- The shuffle among the primitives. -/
def primitive {κ : Type} : Shuffle → Primitive κ
  | setTop position => .setTop position
  | pop n => .pop n
  | remove position => .remove position
  | insert position => .insert position
  | replace position => .replace position
  | copy source target => .copy source target
  | rotate position n => .rotate position n
  | pushValue position => .pushValue position

/-- The place that a position names, or the panic of an operation that finds none. -/
def place (vs : List Value) (operation : Operation) (position : Int) : Except Panic Nat :=
  match placeIn? vs.length position with
  | some i => .ok i
  | none => .error (.invalidPosition operation position)

/-- What a shuffle makes of the values of a frame. -/
def act (vs : List Value) : Shuffle → Except Panic (List Value)
  | setTop position =>
    match lengthUpTo? vs.length position with
    | some n => .ok (vs.take n ++ List.replicate (n - vs.length) .nil)
    | none => .error (.invalidTop position)
  | pop n =>
    if n ≤ vs.length then .ok (vs.take (vs.length - n)) else .error (.popTooMany n vs.length)
  | remove position => do
    let i ← place vs .remove position
    return vs.eraseIdx i
  | insert position => do
    let i ← place vs .insert position
    return vs.dropLast.insertIdx i (.orNil vs.getLast?)
  | replace position => do
    let i ← place vs .replace position
    return vs.dropLast.set i (.orNil vs.getLast?)
  | copy source target => do
    let i ← place vs .copy source
    let j ← place vs .copy target
    return vs.set j (.orNil vs[i]?)
  | rotate position n => do
    let i ← place vs .rotate position
    return vs.take i ++ rotateBy (vs.drop i) (-n)
  | pushValue position => do
    let i ← place vs .pushValue position
    return vs ++ [.orNil vs[i]?]

/-- The places of a frame of a length that a shuffle may write or drop. -/
def affects (length : Nat) : Shuffle → Nat → Prop
  | setTop position, k => ∃ n, lengthUpTo? length position = some n ∧ min length n ≤ k
  | pop n, k => length - n ≤ k
  | remove position, k | insert position, k | rotate position _, k =>
    ∃ i, placeIn? length position = some i ∧ i ≤ k
  | replace position, k => placeIn? length position = some k ∨ length - 1 ≤ k
  | copy _ target, k => placeIn? length target = some k
  | pushValue _, k => length ≤ k

/-- The shuffle with the positions that count from the top counted from the base. -/
def fromBase (length : Nat) : Shuffle → Shuffle
  | setTop position => setTop (countedFromBase length (length + 1) position)
  | pop n => pop n
  | remove position => remove (countedFromBase length length position)
  | insert position => insert (countedFromBase length length position)
  | replace position => replace (countedFromBase length length position)
  | copy source target =>
    copy (countedFromBase length length source) (countedFromBase length length target)
  | rotate position n => rotate (countedFromBase length length position) n
  | pushValue position => pushValue (countedFromBase length length position)

/-- What shuffles make of the values of a frame, one after the other up to the first that fails. -/
def actAll (vs : List Value) : List Shuffle → Except Panic (List Value)
  | [] => .ok vs
  | op :: rest => do actAll (← op.act vs) rest

section Runs

variable {vs us : List Value} {op : Shuffle}

theorem actAll_cons (h : op.act vs = .ok us) (rest : List Shuffle) :
    actAll vs (op :: rest) = actAll us rest := by
  rw [actAll, h]
  rfl

theorem actAll_cons_error {panic : Panic} (h : op.act vs = .error panic) (rest : List Shuffle) :
    actAll vs (op :: rest) = .error panic := by
  rw [actAll, h]
  rfl

theorem actAll_singleton (h : op.act vs = .ok us) : actAll vs [op] = .ok us := actAll_cons h []

end Runs

end Shuffle

/-! ## Shuffles of a machine -/

namespace Machine

variable {κ : Type} {m n o : Machine κ} {position : Int} {vs : List Value}

/-- Does a shuffle. -/
def shuffle (m : Machine κ) : Shuffle → Outcome (Machine κ) Unit
  | .setTop position => m.setTop position
  | .pop n => m.pop n
  | .remove position => m.remove position
  | .insert position => m.insert position
  | .replace position => m.replace position
  | .copy source target => m.copy source target
  | .rotate position n => m.rotate position n
  | .pushValue position => m.pushValue position

/-- Does shuffles, one after the other up to the first that panics. -/
def shuffles (m : Machine κ) : List Shuffle → Outcome (Machine κ) Unit
  | [] => (.ok (), m)
  | op :: rest =>
    match m.shuffle op with
    | (.ok (), n) => n.shuffles rest
    | (.error panic, n) => (.error panic, n)

/-! ## Positions and places -/

theorem base_add_lt_height {i : Nat} (h : i < m.top) : m.base + i < m.stack.height := by
  simp only [top] at h
  omega

/-- A position names the raw index of its place. -/
theorem resolve?_eq_placeIn? (hbase : m.base ≤ m.stack.height) (position : Int) :
    m.resolve? position = (placeIn? m.top position).map (m.base + ·) := by
  apply Option.ext
  intro raw
  rw [resolve?_eq_some_iff hbase, Option.map_eq_some_iff]
  simp only [placeIn?_eq_some_iff, top]
  constructor
  · rintro ⟨hlow, hhigh, hposition⟩
    exact ⟨raw - m.base, by omega, by omega⟩
  · rintro ⟨i, hi, rfl⟩
    omega

/-- An operation does the same at a position counted from the base. -/
theorem atPosition_countedFromBase (hbase : m.base ≤ m.stack.height) {α : Type}
    (operation : Operation) (position : Int) (act : Nat → Outcome (Machine κ) α) :
    m.atPosition operation (countedFromBase m.top m.top position) act =
      m.atPosition operation position act := by
  unfold countedFromBase
  split
  next hreaches =>
    have hraw : m.resolve? position = some (m.stack.height - (-position).toNat) := by
      rw [resolve?_eq_some_iff hbase]
      simp only [top] at hreaches
      omega
    have hcounted :
        m.resolve? (m.top + 1 + position) = some (m.stack.height - (-position).toNat) := by
      rw [resolve?_eq_some_iff hbase]
      simp only [top] at hreaches ⊢
      omega
    simp only [atPosition, hraw, hcounted]
  next => rfl

/-- No shuffle tells a position counted from the top from the same counted from the base. -/
theorem shuffle_fromBase (hbase : m.base ≤ m.stack.height) (op : Shuffle) :
    m.shuffle (op.fromBase m.top) = m.shuffle op := by
  cases op with
  | pop => rfl
  | setTop position =>
    simp only [Shuffle.fromBase, shuffle, countedFromBase]
    split
    next hreaches =>
      have hsize : m.base + (m.top + 1 + position).toNat =
          m.stack.height - ((-position).toNat - 1) := by
        simp only [top] at hreaches ⊢
        omega
      rw [setTop, if_pos (by omega), setTop, if_neg (by omega), if_pos (by omega), hsize]
    next => rfl
  | copy source target =>
    simp only [Shuffle.fromBase, shuffle, copy, atPosition_countedFromBase hbase]
  | remove | insert | replace | rotate | pushValue =>
    exact atPosition_countedFromBase hbase _ _ _

/-! ## What one shuffle does -/

/-- An outcome is what a list tells: another stack with those values in the frame, or a panic of the
same cause and nothing done. -/
def Follows (m : Machine κ) (outcome : Outcome (Machine κ) Unit) :
    Except Panic (List Value) → Prop
  | .ok vs => ∃ s : Stack, outcome = (.ok (), m.withStack s) ∧ s.valuesFrom m.base = vs
  | .error panic => outcome = (.error panic, m)

/-- An operation on a place follows what the list does at that place. -/
theorem follows_atPosition (hbase : m.base ≤ m.stack.height) {operation : Operation}
    {act : Nat → Outcome (Machine κ) Unit} {spec : Nat → Except Panic (List Value)}
    (h : ∀ i < m.top, m.Follows (act (m.base + i)) (spec i)) :
    m.Follows (m.atPosition operation position act)
      (Shuffle.place m.values operation position >>= spec) := by
  simp only [atPosition, resolve?_eq_placeIn? hbase, Shuffle.place, length_values]
  cases hplace : placeIn? m.top position with
  | none => rfl
  | some i => exact h i (placeIn?_eq_some_iff.mp hplace).1

theorem follows_withStack {s : Stack} (h : s.valuesFrom m.base = vs) :
    m.Follows (.ok (), m.withStack s) (.ok vs) :=
  ⟨s, rfl, h⟩

theorem value?_base_add (m : Machine κ) (i : Nat) : m.stack.value? (m.base + i) = m.values[i]? :=
  Stack.getElem?_valuesFrom.symm

/-- Resizing the stack cuts the frame, or grows it with nils. -/
theorem follows_resize (hbase : m.base ≤ m.stack.height) (n : Nat) :
    m.Follows (.ok (), m.withStack (m.stack.resize (m.base + n)))
      (.ok (m.values.take n ++ List.replicate (n - m.top) .nil)) := by
  refine follows_withStack ?_
  rw [Stack.valuesFrom_resize hbase, ← values_eq_valuesFrom, length_values]

theorem setTop_follows (hbase : m.base ≤ m.stack.height) (position : Int) :
    m.Follows (m.setTop position) ((Shuffle.setTop position).act m.values) := by
  simp only [setTop, Shuffle.act, lengthUpTo?, length_values]
  by_cases hfront : 0 ≤ position
  · rw [if_pos hfront, if_pos hfront]
    exact follows_resize hbase _
  · rw [if_neg hfront, if_neg hfront]
    by_cases hback : (-position).toNat - 1 ≤ m.top
    · have hsize : m.stack.height - ((-position).toNat - 1) =
          m.base + (m.top + 1 + position).toNat := by
        simp only [top] at hback ⊢
        omega
      rw [if_pos hback, if_pos (by omega), hsize]
      exact follows_resize hbase _
    · rw [if_neg hback, if_neg (by omega)]
      rfl

theorem pop_follows (hbase : m.base ≤ m.stack.height) (count : Nat) :
    m.Follows (m.pop count) ((Shuffle.pop count).act m.values) := by
  simp only [pop, Shuffle.act, length_values]
  by_cases hcount : count ≤ m.top
  · have hsize : m.stack.height - count = m.base + (m.top - count) := by
      simp only [top] at hcount ⊢
      omega
    have hshrinks : m.top - count - m.top = 0 := by omega
    have hcut := follows_resize hbase (m.top - count)
    rw [hshrinks, List.replicate_zero, List.append_nil] at hcut
    rw [if_pos hcount, if_pos hcount, hsize]
    exact hcut
  · rw [if_neg hcount, if_neg hcount]
    rfl

theorem insert_follows (hbase : m.base ≤ m.stack.height) (position : Int) :
    m.Follows (m.insert position) ((Shuffle.insert position).act m.values) := by
  refine follows_atPosition hbase fun i hi => follows_withStack ?_
  have hplace := base_add_lt_height hi
  have hlt : m.base < m.stack.height := by omega
  have hle : m.base + i ≤ m.stack.dropTop.height := by
    rw [Stack.height_dropTop]
    omega
  rw [Stack.valuesFrom_insert hle, Stack.valuesFrom_dropTop hlt, Stack.top?_eq_getLast? hlt]
  rfl

theorem replace_follows (hbase : m.base ≤ m.stack.height) (position : Int) :
    m.Follows (m.replace position) ((Shuffle.replace position).act m.values) := by
  refine follows_atPosition hbase fun i hi => follows_withStack ?_
  have hplace := base_add_lt_height hi
  have hlt : m.base < m.stack.height := by omega
  rw [Stack.top?_eq_getLast? hlt, ← values_eq_valuesFrom]
  split
  next =>
    rw [Stack.valuesFrom_overwrite, Stack.valuesFrom_dropTop hlt]
    rfl
  next htop =>
    -- The position named the highest slot, which is gone.
    have hbeyond : m.values.dropLast.length ≤ i := by
      rw [Stack.height_dropTop] at htop
      rw [List.length_dropLast, length_values, top]
      omega
    rw [Stack.valuesFrom_dropTop hlt]
    exact (List.set_eq_of_length_le hbeyond).symm

/-- One shuffle of a machine follows the shuffle of the values of its frame. -/
theorem shuffle_follows (hbase : m.base ≤ m.stack.height) (op : Shuffle) :
    m.Follows (m.shuffle op) (op.act m.values) := by
  cases op with
  | setTop position => exact setTop_follows hbase position
  | pop count => exact pop_follows hbase count
  | insert position => exact insert_follows hbase position
  | replace position => exact replace_follows hbase position
  | remove position =>
    exact follows_atPosition hbase fun i hi =>
      follows_withStack (Stack.valuesFrom_remove (Nat.le_of_lt (base_add_lt_height hi)))
  | copy source target =>
    refine follows_atPosition hbase fun i hi => follows_atPosition hbase fun j hj => ?_
    refine follows_withStack ?_
    rw [Stack.valuesFrom_overwrite, value?_base_add]
    rfl
  | rotate position count =>
    exact follows_atPosition hbase fun i hi =>
      follows_withStack (Stack.valuesFrom_rotate (Nat.le_of_lt (base_add_lt_height hi)) count)
  | pushValue position =>
    refine follows_atPosition hbase fun i hi => follows_withStack ?_
    rw [value?_base_add]
    exact Stack.valuesFrom_pushAll _ hbase

/-! ## What one shuffle leaves alone -/

theorem shuffle_snd (m : Machine κ) (op : Shuffle) :
    (m.shuffle op).2 = (m.perform op.primitive).2 := by
  cases op <;> rfl

/-- What a shuffle touches in its frame is a place that it affects. -/
theorem affects_of_touches (hbase : m.base ≤ m.stack.height) {op : Shuffle} {k : Nat}
    (h : m.touches op.primitive (m.base + k)) : op.affects m.top k := by
  have hplace : ∀ position raw, m.resolve? position = some raw →
      ∃ i, placeIn? m.top position = some i ∧ m.base + i = raw := fun position raw hraw =>
    Option.map_eq_some_iff.mp ((resolve?_eq_placeIn? hbase position).symm.trans hraw)
  cases op with
  | setTop position =>
    simp only [Shuffle.primitive, touches, top] at h
    simp only [Shuffle.affects, lengthUpTo?, top]
    split at h
    next hfront => exact ⟨_, if_pos hfront, by omega⟩
    next hback => exact ⟨_, (if_neg hback).trans (if_pos (by omega)), by omega⟩
  | pop count =>
    simp only [Shuffle.primitive, touches, top] at h
    simp only [Shuffle.affects, top]
    omega
  | remove position | insert position | rotate position _ =>
    obtain ⟨raw, hraw, hle⟩ := h
    obtain ⟨i, hi, rfl⟩ := hplace position raw hraw
    exact ⟨i, hi, Nat.le_of_add_le_add_left hle⟩
  | replace position =>
    obtain ⟨raw, hraw, heq | htop⟩ := h
    · obtain ⟨i, hi, rfl⟩ := hplace position raw hraw
      obtain rfl := Nat.add_left_cancel heq
      exact .inl hi
    · refine .inr ?_
      rw [top]
      omega
  | copy source target =>
    obtain ⟨i, hi, heq⟩ := hplace target _ h.2
    obtain rfl := Nat.add_left_cancel heq
    exact hi
  | pushValue position =>
    simp only [Shuffle.primitive, touches] at h
    simp only [Shuffle.affects, top]
    omega

theorem shuffle_evolves (m : Machine κ) (op : Shuffle) :
    m.Evolves (m.touches op.primitive) (m.shuffle op).2 := by
  rw [shuffle_snd]
  exact perform_evolves m op.primitive

/-- A place that a shuffle does not affect keeps its slot, value and stamp. -/
theorem frame_shuffle (hbase : m.base ≤ m.stack.height) {op : Shuffle} {k : Nat}
    (h : ¬ op.affects m.top k) : (m.shuffle op).2.frame[k]? = m.frame[k]? := by
  have hevolves := shuffle_evolves m op
  rw [frame, frame, List.getElem?_drop, List.getElem?_drop, hevolves.base]
  exact hevolves.edit.slot_eq fun htouched => h (affects_of_touches hbase htouched)

/-- `n` is `m` with the values `vs` in its frame: the stack is the only part of the machine that may
differ, and below the frame not even that. -/
structure Reshaped (m : Machine κ) (vs : List Value) (n : Machine κ) : Prop where
  rest : n = m.withStack n.stack
  inside : n.base ≤ n.stack.height
  values : n.values = vs
  below : n.stack.slots.take m.base = m.stack.slots.take m.base

namespace Reshaped

variable {us : List Value}

theorem refl (hbase : m.base ≤ m.stack.height) : m.Reshaped m.values m := ⟨rfl, hbase, rfl, rfl⟩

theorem base (h : m.Reshaped vs n) : n.base = m.base := by
  rw [h.rest]
  rfl

theorem trans (first : m.Reshaped us n) (second : n.Reshaped vs o) : m.Reshaped vs o where
  rest := by
    rw [second.rest, first.rest]
    rfl
  inside := second.inside
  values := second.values
  below := by
    rw [← first.below, ← first.base]
    exact second.below

end Reshaped

/-! ## One shuffle and a run of shuffles -/

theorem shuffle_reshapes (hbase : m.base ≤ m.stack.height) {op : Shuffle}
    (h : op.act m.values = .ok vs) : ∃ n, m.shuffle op = (.ok (), n) ∧ m.Reshaped vs n := by
  have hfollows := shuffle_follows hbase op
  rw [h] at hfollows
  obtain ⟨s, hdone, hvalues⟩ := hfollows
  have hedit : Stack.Edit (m.base ≤ ·) m.stack s := by
    have hevolves := shuffle_evolves m op
    rw [hdone] at hevolves
    exact hevolves.edit.mono fun k hk => base_le_of_touches hbase hk
  exact ⟨m.withStack s, hdone, rfl, hedit.le_height hbase, hvalues, hedit.take_eq⟩

theorem shuffle_panics (hbase : m.base ≤ m.stack.height) {op : Shuffle} {panic : Panic}
    (h : op.act m.values = .error panic) : m.shuffle op = (.error panic, m) := by
  have hfollows := shuffle_follows hbase op
  rw [h] at hfollows
  exact hfollows

/-- The bookkeeping primitives are operations on the list of values in the frame. Where the list has
an answer, the primitive changes the frame to it, and neither what lies below nor a place that it
does not affect. Where the list has none, the primitive panics and the machine is the one before. A
position counts from the top as it would from the base. -/
theorem shuffle_refines_list (hbase : m.base ≤ m.stack.height) (op : Shuffle) :
    (∀ vs, op.act m.values = .ok vs → ∃ n, m.shuffle op = (.ok (), n) ∧ m.Reshaped vs n ∧
      ∀ k, ¬ op.affects m.top k → n.frame[k]? = m.frame[k]?) ∧
    (∀ panic, op.act m.values = .error panic → m.shuffle op = (.error panic, m)) ∧
    m.shuffle (op.fromBase m.top) = m.shuffle op := by
  refine ⟨?_, fun panic => shuffle_panics hbase, shuffle_fromBase hbase op⟩
  intro vs hact
  obtain ⟨n, hdone, hreshaped⟩ := shuffle_reshapes hbase hact
  refine ⟨n, hdone, hreshaped, fun k hk => ?_⟩
  have hkept := frame_shuffle hbase hk
  rw [hdone] at hkept
  exact hkept

/-- A machine with three integers in its frame and a boolean below. -/
def threeInFrame : Machine Unit where
  __ := new 0 {}
  stack := (∅ : Stack).pushAll [.bool true, .int 1, .int 2, .int 3]
  base := 1

/-- Replacing the highest slot itself drops it. A copy to a position that holds nothing is refused,
although its source is there. The position below the lowest slot empties the frame. -/
theorem threeInFrame_shuffled :
    threeInFrame.base ≤ threeInFrame.stack.height ∧
      (∃ n, threeInFrame.shuffle (.replace (-1)) = (.ok (), n) ∧
        threeInFrame.Reshaped [.int 1, .int 2] n) ∧
      threeInFrame.shuffle (.copy 1 4) =
        (.error (.invalidPosition .copy 4), threeInFrame) ∧
      threeInFrame.shuffle (.setTop 0) = threeInFrame.shuffle (.setTop (-4)) := by
  have hbase : threeInFrame.base ≤ threeInFrame.stack.height := by decide
  obtain ⟨hreplaces, -⟩ := shuffle_refines_list hbase (.replace (-1))
  obtain ⟨-, hrefuses, -⟩ := shuffle_refines_list hbase (.copy 1 4)
  obtain ⟨-, -, hempties⟩ := shuffle_refines_list hbase (.setTop (-4))
  obtain ⟨n, hdone, hreshaped, -⟩ := hreplaces [.int 1, .int 2] rfl
  exact ⟨hbase, ⟨n, hdone, hreshaped⟩, hrefuses _ rfl, hempties⟩

/-- A run of shuffles does to the frame what the list operations do, one after the other. It ends at
the first that fails, with what was done before it. -/
theorem shuffles_reshape (hbase : m.base ≤ m.stack.height) (ops : List Shuffle) :
    (∀ vs, Shuffle.actAll m.values ops = .ok vs →
      ∃ n, m.shuffles ops = (.ok (), n) ∧ m.Reshaped vs n) ∧
    (∀ panic, Shuffle.actAll m.values ops = .error panic →
      ∃ vs n, m.shuffles ops = (.error panic, n) ∧ m.Reshaped vs n) := by
  induction ops generalizing m with
  | nil =>
    constructor
    · intro vs h
      cases h
      exact ⟨m, rfl, .refl hbase⟩
    · intro panic h
      cases h
  | cons op rest ih =>
    cases hact : op.act m.values with
    | error panic =>
      have hrun : m.shuffles (op :: rest) = (.error panic, m) := by
        rw [shuffles, shuffle_panics hbase hact]
      rw [Shuffle.actAll_cons_error hact, hrun]
      constructor
      · intro vs h
        cases h
      · intro panic h
        cases h
        exact ⟨m.values, m, rfl, .refl hbase⟩
    | ok us =>
      obtain ⟨n, hdone, hreshaped⟩ := shuffle_reshapes hbase hact
      have hrun : m.shuffles (op :: rest) = n.shuffles rest := by rw [shuffles, hdone]
      obtain ⟨hall, hsome⟩ := ih hreshaped.inside
      rw [Shuffle.actAll_cons hact, hrun, ← hreshaped.values]
      constructor
      · intro vs h
        obtain ⟨o, hrest, hafter⟩ := hall vs h
        exact ⟨o, hrest, hreshaped.trans hafter⟩
      · intro panic h
        obtain ⟨vs, o, hrest, hafter⟩ := hsome panic h
        exact ⟨vs, o, hrest, hreshaped.trans hafter⟩

end Machine

end StackEmbedding
