import StackEmbedding.Proofs.Host.Fetch
import StackEmbedding.Proofs.Number.Magnitude
import StackEmbedding.Proofs.Text.Utf8

/-!
# Values of the host come back from the stack

A value that is pushed and read as its type is the value that was pushed: integers of every width
also beyond the signed range, where they travel as bit patterns; floats bit by bit, those of 32 bits
through the wider format; text, bytes, functions and optional values. A table comes back as a handle
for the slot that was read, on the same table, and a variant as what its slot holds.

**What does not come back**, and is left out by `HostValue.Faithful`: a float of 32 bits that is
NaN, whose payload the wider format does not keep; a stale handle, which is pushed as nil and is no
table; and an optional value that is present but pushed as nil, which reads as absent.
-/

set_option autoImplicit false

namespace StackEmbedding

variable {κ σ : Type}

/-! ## Types of values -/

/-- The type of which a value can be read back. The marker of no value has none. -/
inductive HostValue.HasType : HostValue → HostType → Prop
  | int {k : IntKind} {n : Int} : k.holds n = true → HasType (.int k n) (.int k)
  | float64 (x : Binary64) : HasType (.float64 x) .float64
  | float32 (x : Binary32) : HasType (.float32 x) .float32
  | bool (b : Bool) : HasType (.bool b) .bool
  | text (s : String) : HasType (.text s) .text
  | bytes (b : Bytes) : HasType (.bytes b) .bytes
  | runtimeString (b : Bytes) : HasType (.runtimeString b) .runtimeString
  | native (f : Native) : HasType (.native f) .native
  | table (h : Handle) : HasType (.table h) .table
  | variant (v : Variant) : HasType (.variant v) .variant
  | absent (t : HostType) : HasType .absent (.option t)
  | present {v : HostValue} {t : HostType} : HasType v t → HasType (.present v) (.option t)

/-- A value that the machine can hold without losing what it is. -/
def HostValue.Faithful (m : Machine κ) : HostValue → Prop
  | float32 x => x.isNaN = false
  | table h => (h.locate m).isSome = true
  | present v => v.runtime m ≠ .nil ∧ v.Faithful m
  | _ => True

/-- What a variant reads back as, where `found` is the handle of the slot that it is read from. -/
def Variant.readBack (m : Machine κ) (found : Handle) : Variant → Variant
  | unset => nil
  | table h => if (h.locate m).isSome then table found else nil
  | v => v

/-- What a value reads back as, where `found` is the handle of the slot that it is read from. -/
def HostValue.readBack (m : Machine κ) (found : Handle) : HostValue → HostValue
  | table _ => table found
  | variant v => variant (v.readBack m found)
  | present v => present (v.readBack m found)
  | v => v

/-! ## Integers -/

theorem countOfBits_mono {a b : Nat} (h : a ≤ b) : countOfBits a ≤ countOfBits b :=
  Int.ofNat_le.mpr (Nat.pow_le_pow_right (by decide) h)

namespace IntKind

/-- The integers of a type that does not travel as a bit pattern are among those of the machine. -/
theorem fitsSigned_of_holds {k : IntKind} {n : Int} (hpattern : k.isBitPattern = false)
    (h : k.holds n = true) : fitsSigned 64 n = true := by
  rw [holds] at h
  rw [fitsSigned, Bool.and_eq_true, decide_eq_true_eq, decide_eq_true_eq]
  cases hsigned : k.isSigned with
  | true =>
    have hcount : countOfBits (k.bits - 1) ≤ countOfBits (64 - 1) :=
      countOfBits_mono (by cases k <;> decide)
    simp only [hsigned, if_true, fitsSigned, Bool.and_eq_true, decide_eq_true_eq] at h
    omega
  | false =>
    have hcount : countOfBits k.bits ≤ countOfBits (64 - 1) := by
      apply countOfBits_mono
      cases k with
      | u8 | u16 | u32 => decide
      | u64 | usize => cases hpattern
      | i8 | i16 | i32 | i64 | isize => cases hsigned
    have hlow : 0 ≤ countOfBits (64 - 1) := by decide
    simp only [hsigned, Bool.false_eq_true, if_false, fitsUnsigned, Bool.and_eq_true,
      decide_eq_true_eq] at h
    omega

/-- A value of an integer type comes back from the machine's integers, bit patterns included. -/
theorem ofInt64?_ofInt {k : IntKind} {n : Int} (h : k.holds n = true) :
    k.ofInt64? (Int64.ofInt n) = some n := by
  cases hpattern : k.isBitPattern with
  | false =>
    have hn := (fitsSigned_64 n).mp (fitsSigned_of_holds hpattern h)
    have hback : (Int64.ofInt n).toInt = n := Int64.toInt_ofInt_of_le (by omega) (by omega)
    rw [ofInt64?, hpattern, if_neg Bool.false_ne_true, hback, if_pos h]
  | true =>
    have hrange : 0 ≤ n ∧ n < countOfBits 64 := by
      have hunsigned : k.holds n = fitsUnsigned 64 n := by
        cases k with
        | u64 | usize => rfl
        | i8 | i16 | i32 | i64 | isize | u8 | u16 | u32 => cases hpattern
      simpa only [hunsigned, fitsUnsigned, Bool.and_eq_true, decide_eq_true_eq] using h
    have hback : (Int64.ofInt n).toInt % countOfBits 64 = n := by
      rw [Int64.toInt_ofInt]
      exact Int.bmod_emod.trans (Int.emod_eq_of_lt hrange.1 hrange.2)
    rw [ofInt64?, if_pos hpattern, hback]

end IntKind

/-! ## Conversion undoes what a value stands for -/

theorem Value.tag_eq_nil_iff {v : Value} : v.tag = .nil ↔ v = .nil := by
  cases v <;> simp [Value.tag]

theorem Handle.runtime_of_stale {m : Machine κ} {h : Handle} (hp : h.locate m = none) :
    h.runtime m = .nil := by
  rw [runtime, hp]
  rfl

theorem Variant.convert_runtime (m : Machine κ) (owner : Nat) (slot : SlotId) (v : Variant) :
    convert owner slot (v.runtime m) = some (v.readBack m ⟨owner, some slot⟩) := by
  cases v with
  | table h =>
    rw [runtime, readBack]
    cases hp : h.locate m with
    | none => rw [Handle.runtime_of_stale hp]; rfl
    | some p =>
      obtain ⟨id, hid⟩ := Handle.runtime_eq_table hp
      rw [hid]
      rfl
  | unset | int _ | bool _ | number _ | str _ | function _ | nil => rfl

/-- What a faithful value stands for converts to what the value reads back as. -/
theorem HostValue.convert_runtime {m : Machine κ} (owner : Nat) (slot : SlotId) {v : HostValue}
    {t : HostType} (htype : v.HasType t) (hfaithful : v.Faithful m) :
    t.convert owner slot (v.runtime m) = some (v.readBack m ⟨owner, some slot⟩) := by
  induction htype with
  | int hn =>
    rw [runtime, HostType.convert, Value.toInt64?, Option.bind_some, IntKind.ofInt64?_ofInt hn]
    rfl
  | float64 x => rfl
  | float32 x =>
    rw [runtime, HostType.convert, Value.toBinary64?, Option.map_some,
      (Binary.narrow_widen hfaithful).2]
    rfl
  | bool b => cases b <;> rfl
  | text s =>
    rw [runtime, HostType.convert, Value.toBytes?, Option.bind_some,
      Bytes.text?_eq_some_iff.mpr rfl]
    rfl
  | bytes b => rfl
  | runtimeString b => rfl
  | native f => rfl
  | table h =>
    obtain ⟨p, hp⟩ := Option.isSome_iff_exists.mp hfaithful
    obtain ⟨id, hid⟩ := Handle.runtime_eq_table hp
    rw [runtime, hid]
    rfl
  | variant v =>
    rw [runtime, HostType.convert, Variant.convert_runtime]
    rfl
  | absent t => rfl
  | present _ ih =>
    obtain ⟨hpresent, hinner⟩ := hfaithful
    rw [runtime, HostType.convert, if_neg (fun htag => hpresent (Value.tag_eq_nil_iff.mp htag)),
      ih hinner]
    rfl

/-- A value without handles comes back as it is, but for the variant that holds nothing yet. -/
theorem HostValue.readBack_eq {m : Machine κ} (found : Handle) {v : HostValue}
    (hfaithful : v.Faithful m) (hhandles : v.handles = []) (hset : v ≠ .variant .unset) :
    v.readBack m found = v := by
  induction v with
  | table h => cases hhandles
  | variant v =>
    cases v with
    | unset => exact absurd rfl hset
    | table h => cases hhandles
    | int _ | bool _ | number _ | str _ | function _ | nil => rfl
  | present v ih =>
    obtain ⟨hpresent, hinner⟩ := hfaithful
    have hset' : v ≠ .variant .unset := by
      rintro rfl
      exact hpresent rfl
    rw [readBack, ih hinner hhandles hset']
  | int _ _ | float64 _ | float32 _ | bool _ | text _ | bytes _ | runtimeString _ | native _ | nil
  | absent => rfl

/-! ## Push, then read -/

/-- A value that is pushed is read back. Pushing adds one slot, which holds what the value stands
for, and changes nothing else; reading that slot as the type of the value answers what the value
reads back as, and changes nothing. That is the value itself, but for a handle, which comes back as
a handle for the new slot that stands for the same table, and for the variants that are pushed as
nil. -/
theorem push_read_back (host : Host κ σ) (w : World κ σ)
    (hbase : w.machine.base ≤ w.machine.stack.height) {v : HostValue} {t : HostType}
    (htype : v.HasType t) (howned : ∀ h ∈ v.handles, h.owner = w.machine.identity)
    (hfaithful : v.Faithful w.machine) :
    ∃ pushed found, w.run host v.push = (.ok (), pushed) ∧
      w.OnlyGrown [⟨v.runtime w.machine, w.machine.stack.nextStamp⟩] pushed ∧
      pushed.run host (t.read (-1)) = (.ok (some (v.readBack w.machine found)), pushed) ∧
      (v.handles = [] → v ≠ .variant .unset → v.readBack w.machine found = v) ∧
      ∀ h ∈ v.handles, (h.locate w.machine).isSome = true →
        found.locate pushed.machine = some (pushed.machine.top : Int) ∧
        found.runtime pushed.machine = h.runtime w.machine := by
  refine ⟨w.withMachine (w.machine.push (v.runtime w.machine)),
    ⟨w.machine.identity, some (w.machine.nextSlot 0)⟩, HostValue.runWith_push howned,
    w.onlyGrown_push _, ?_, HostValue.readBack_eq _ hfaithful, ?_⟩
  · rw [← HostValue.convert_runtime w.machine.identity (w.machine.nextSlot 0) htype hfaithful]
    exact HostType.runWith_read
      (w := w.withMachine (w.machine.push (v.runtime w.machine))) (Machine.value?_top hbase _)
      (Machine.slotId?_top hbase _) t
  · intro h hmem hlive
    obtain ⟨p, hp⟩ := Option.isSome_iff_exists.mp hlive
    obtain ⟨id, hid⟩ := Handle.runtime_eq_table hp
    have hruntime : v.runtime w.machine = .table id := by
      rw [HostValue.runtime_of_mem_handles hmem, hid]
    rw [hid, hruntime]
    exact Handle.locate_top hbase id

/-- The greatest integer of 64 bits without sign comes back as an optional value, and a variant that
holds a table as one that holds a handle for the slot above. -/
theorem greatest_and_table_read_back :
    holdingTable.machine.base ≤ holdingTable.machine.stack.height ∧
    (∃ pushed, holdingTable.run passive
        (HostValue.present (.int .u64 18446744073709551615)).push = (.ok (), pushed) ∧
      pushed.run passive (HostType.read (-1) (.option (.int .u64))) =
        (.ok (some (.present (.int .u64 18446744073709551615))), pushed)) ∧
    ∃ pushed found, holdingTable.run passive (HostValue.variant (.table heldTable)).push =
        (.ok (), pushed) ∧
      pushed.run passive (HostType.read (-1) .variant) =
        (.ok (some (.variant (.table found))), pushed) ∧
      found.runtime pushed.machine = .table 0 := by
  have hbase : holdingTable.machine.base ≤ holdingTable.machine.stack.height := by decide
  refine ⟨hbase, ?_, ?_⟩
  · obtain ⟨pushed, found, hpush, -, hread, hsame, -⟩ := push_read_back passive holdingTable hbase
      (v := .present (.int .u64 18446744073709551615)) (.present (.int rfl)) nofun ⟨nofun, trivial⟩
    rw [hsame rfl nofun] at hread
    exact ⟨pushed, hpush, hread⟩
  · have howned : ∀ h ∈ (HostValue.variant (.table heldTable)).handles,
        h.owner = holdingTable.machine.identity := by
      intro h hmem
      obtain rfl : h = heldTable := List.mem_singleton.mp hmem
      rfl
    obtain ⟨pushed, found, hpush, -, hread, -, hfound⟩ :=
      push_read_back passive holdingTable hbase (.variant (.table heldTable)) howned trivial
    obtain ⟨-, hruntime⟩ := hfound heldTable (List.mem_singleton_self _) rfl
    exact ⟨pushed, found, hpush, hread, hruntime⟩

end StackEmbedding
