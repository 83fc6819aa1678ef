import StackEmbedding.Proofs.Host.Push

/-!
# Reading slots as values of the host

`HostType.convert` says what a slot is as a value of a type, off the machine: the value in the slot
decides whether it fits, and a table is named by the identity of the slot it lies in.

**What is established here.**
* `HostType.runWith_read`: reading a slot answers its conversion, and changes nothing.
* `Environment.runWith_readResults`: reading several slots answers all conversions in order, or the
  place of the first slot that does not fit.
-/

set_option autoImplicit false

namespace StackEmbedding

variable {κ σ : Type} {host : Host κ σ} {runner : World.Runner κ σ} {w : World κ σ}
  {position : Int} {v : Value} {slot : SlotId}

/-! ## One slot -/

/-- The variant that holds what is in a slot; none for a closure. -/
def Variant.convert (owner : Nat) (slot : SlotId) : Value → Option Variant
  | .nil => some nil
  | .bool b => some (bool b)
  | .int i => some (int i)
  | .number x => some (number x)
  | .str bytes => some (str bytes)
  | .function f => some (function f)
  | .closure _ => none
  | .table _ => some (table ⟨owner, some slot⟩)

/-- What is in a slot as a value of a type, if it fits. -/
def HostType.convert (owner : Nat) (slot : SlotId) (v : Value) : HostType → Option HostValue
  | int k => (v.toInt64?.bind k.ofInt64?).map (.int k)
  | float64 => v.toBinary64?.map .float64
  | float32 => v.toBinary64?.map fun x => .float32 (x.convertTo .binary32)
  | bool => some (.bool v.truthy)
  | text => (v.toBytes?.bind Bytes.text?).map .text
  | bytes => v.toBytes?.map .bytes
  | runtimeString => v.toBytes?.map .runtimeString
  | native => v.toNative?.map .native
  | table => if v.tag = .table then some (.table ⟨owner, some slot⟩) else none
  | variant => (Variant.convert owner slot v).map .variant
  | option t => if v.tag = .nil then some .absent else (t.convert owner slot v).map .present

theorem Program.runWith_value (hv : w.machine.value? position = some v) :
    (value position : Program κ σ (Option Value)).runWith host runner w = (.ok (some v), w) := by
  rw [value, runWith_perform]
  show (Except.ok (w.machine.value? position), w) = (.ok (some v), w)
  rw [hv]

theorem Program.runWith_value_bind {α : Type} {next : Option Value → Program κ σ α}
    (hv : w.machine.value? position = some v) :
    (value position >>= next).runWith host runner w = (next (some v)).runWith host runner w := by
  rw [runWith_bind, runWith_value hv]

theorem Handle.runWith_bind? (hv : w.machine.value? position = some v)
    (hslot : w.machine.slotId? position = some slot) :
    (bind? position : Program κ σ (Option Handle)).runWith host runner w =
      (.ok (if v.tag = .table then some ⟨w.machine.identity, some slot⟩ else none), w) := by
  have hhandle : (ofPosition position : Program κ σ Handle).runWith host runner w =
      (.ok ⟨w.machine.identity, some slot⟩, w) := by
    show (Except.ok (⟨w.machine.identity, w.machine.slotId? position⟩ : Handle), w) = _
    rw [hslot]
  rw [bind?, Program.runWith_bind, Program.runWith_typeAt, hv]
  dsimp only [TypeTag.ofSlot, Option.elim_some]
  split
  · rw [Program.runWith_bind, hhandle]
    rfl
  · rfl

theorem Variant.runWith_read (hv : w.machine.value? position = some v)
    (hslot : w.machine.slotId? position = some slot) :
    (read position : Program κ σ (Option Variant)).runWith host runner w =
      (.ok (convert w.machine.identity slot v), w) := by
  rw [read, Program.runWith_bind, Program.runWith_typeAt, hv]
  dsimp only [TypeTag.ofSlot, Option.elim_some]
  -- The type says which reading is made; each reads the value again and finds what it held.
  cases v with
  | nil => rfl
  | bool b =>
    dsimp only [Value.tag]
    rw [Program.runWith_value_bind hv]
    cases b <;> rfl
  | int i =>
    have hinteger : (some (Value.int i)).elim false Value.isInteger = true := rfl
    dsimp only [Value.tag]
    rw [Program.runWith_value_bind hv, if_pos hinteger, Program.runWith_value_bind hv]
    rfl
  | number x =>
    have hfloat : ¬ (some (Value.number x)).elim false Value.isInteger = true :=
      Bool.false_ne_true
    dsimp only [Value.tag]
    rw [Program.runWith_value_bind hv, if_neg hfloat, Program.runWith_value_bind hv]
    rfl
  | str _ | function _ | closure _ =>
    dsimp only [Value.tag]
    rw [Program.runWith_value_bind hv]
    rfl
  | table _ =>
    dsimp only [Value.tag]
    rw [Program.runWith_bind, Handle.runWith_bind? hv hslot]
    rfl

/-- Reading a slot answers its conversion, and changes nothing. -/
theorem HostType.runWith_read (hv : w.machine.value? position = some v)
    (hslot : w.machine.slotId? position = some slot) (t : HostType) :
    (t.read position : Program κ σ (Option HostValue)).runWith host runner w =
      (.ok (t.convert w.machine.identity slot v), w) := by
  induction t with
  | table =>
    rw [read, Program.runWith_bind, Handle.runWith_bind? hv hslot, convert]
    dsimp only
    split <;> rfl
  | variant =>
    rw [read, Program.runWith_bind, Variant.runWith_read hv hslot]
    rfl
  | option t ih =>
    rw [read, Program.runWith_bind, Program.runWith_typeAt, hv, convert]
    dsimp only [TypeTag.ofSlot, Option.elim_some]
    split
    · rfl
    · rw [Program.runWith_bind, ih]
      rfl
  | int _ | float64 | float32 | bool | text | bytes | runtimeString | native =>
    rw [read, Program.runWith_value_bind hv]
    rfl

/-! ## Several slots -/

namespace Environment

/-- What conversions made one after the other come to: all of them in order, or the place of the
first that fails. -/
def Collects (conversion : Nat → Option HostValue) (count place : Nat) :
    Except Nat (List HostValue) → Prop
  | .ok values => values.length = count ∧ ∀ k, k < count → values[k]? = conversion k
  | .error failed => ∃ k, k < count ∧ failed = place + k ∧ conversion k = none ∧
      ∀ j, j < k → (conversion j).isSome = true

theorem Collects.first {conversion : Nat → Option HostValue} {count place : Nat}
    (h : conversion 0 = none) : Collects conversion (count + 1) place (.error place) :=
  ⟨0, Nat.succ_pos count, rfl, h, fun _ hj => absurd hj (Nat.not_lt_zero _)⟩

theorem Collects.cons {conversion : Nat → Option HostValue} {count place : Nat} {v : HostValue}
    {answer : Except Nat (List HostValue)} (hfirst : conversion 0 = some v)
    (h : Collects (fun k => conversion (k + 1)) count (place + 1) answer) :
    Collects conversion (count + 1) place (answer.map (v :: ·)) := by
  cases answer with
  | ok values =>
    obtain ⟨hlength, hvalues⟩ := h
    refine ⟨congrArg Nat.succ hlength, fun k hk => ?_⟩
    cases k with
    | zero => exact hfirst.symm
    | succ k => exact hvalues k (Nat.lt_of_succ_lt_succ hk)
  | error failed =>
    obtain ⟨k, hk, rfl, hnone, hbefore⟩ := h
    refine ⟨k + 1, Nat.succ_lt_succ hk, by omega, hnone, fun j hj => ?_⟩
    cases j with
    | zero => exact Option.isSome_iff_exists.mpr ⟨v, hfirst⟩
    | succ j => exact hbefore j (Nat.lt_of_succ_lt_succ hj)

/-- Reading results one after the other changes nothing and answers what the readings come to. -/
theorem runWith_readResults {types : List HostType} {conversion : Nat → Option HostValue}
    (hread : ∀ k t, types[k]? = some t →
      (t.read (position + k) : Program κ σ (Option HostValue)).runWith host runner w =
        (.ok (conversion k), w)) (place : Nat) :
    ∃ answer, (readResults position place types : Program κ σ _).runWith host runner w =
      (.ok answer, w) ∧ Collects conversion types.length place answer := by
  -- The rest is read one position further on, its conversions and its places counted from there.
  induction types generalizing position place conversion with
  | nil => exact ⟨.ok [], rfl, rfl, fun _ hk => absurd hk (Nat.not_lt_zero _)⟩
  | cons t rest ih =>
    have hhead := hread 0 t rfl
    rw [Int.natCast_zero, Int.add_zero] at hhead
    rw [readResults, Program.runWith_bind, hhead]
    cases hfirst : conversion 0 with
    | none => exact ⟨.error place, rfl, .first hfirst⟩
    | some v =>
      have hrest : ∀ k t, rest[k]? = some t →
          (t.read (position + 1 + k) : Program κ σ (Option HostValue)).runWith host runner w =
            (.ok (conversion (k + 1)), w) := by
        intro k t ht
        have hnext := hread (k + 1) t ht
        rwa [show position + (k + 1 : Nat) = position + 1 + k by omega] at hnext
      obtain ⟨answer, hrun, hcollects⟩ := ih hrest (place + 1)
      refine ⟨answer.map (v :: ·), ?_, .cons hfirst hcollects⟩
      dsimp only
      rw [Program.runWith_bind, hrun]
      rfl

end Environment

end StackEmbedding
