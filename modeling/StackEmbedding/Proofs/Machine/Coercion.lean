import StackEmbedding.Proofs.Machine.SlotIdentity
import StackEmbedding.Proofs.Number.FloatText
import StackEmbedding.Proofs.Table.Key
import StackEmbedding.Value.Coercion

/-!
# Coercions of numbers, told as one

An integer, a float and a string that is a numeral are read alike, as a `Numeral`
(`Value.toInt64?_eq`, `Value.toBinary64?_eq`). What the two readings make of a numeral agrees: where
it is an integer of 64 bits, the float that it is read as is that integer rounded
(`Numeral.numEq_ofInt`), for a float that is an integer is its own rounding.

**Text.** The text of an integer is a decimal without point and exponent (`Numeral.integerForm`),
and is read as the integer it was made from, the least one included (`Numeral.parse?_toString`).
-/

set_option autoImplicit false

namespace StackEmbedding

namespace Binary

variable {x : Binary64} {n : Int}

/-- The float is the integer rounded to the nearest, with the sign of the integer. -/
structure RoundsInt (x : Binary64) (n : Int) : Prop where
  sign : x.negative = decide (n < 0)
  nearest : BinaryFormat.binary64.Nearest |(n : ℚ)| x.code

theorem roundsInt_ofInt (n : Int) : (ofInt n : Binary64).RoundsInt n where
  sign := rfl
  nearest := by
    have hnearest :=
      BinaryFormat.codeOfRatio_nearest (f := .binary64) (by decide) Nat.one_pos n.natAbs
    rwa [Nat.cast_one, div_one, Nat.cast_natAbs, Int.cast_abs] at hnearest

theorem RoundsInt.isNaN (h : x.RoundsInt n) : x.isNaN = false :=
  decide_eq_false h.nearest.le.not_gt

theorem numEq_self (h : x.isNaN = false) : x.numEq x = true := by
  simp [numEq, h]

/-- An integer that some float is exactly is kept when it is rounded. -/
theorem toInt?_ofInt (h : x.toInt? = some n) : (ofInt n : Binary64).toInt? = some n := by
  obtain ⟨hfinite, hrat⟩ := toInt?_eq_some_iff.mp h
  have hlt : x.code < BinaryFormat.binary64.infinityCode := of_decide_eq_true hfinite
  have hmagnitude : BinaryFormat.binary64.magnitude x.code = |(n : ℚ)| := by
    rw [← hrat, abs_toRat]
  have hcode : (ofInt n : Binary64).code = x.code := by
    apply BinaryFormat.codeOfRatio_of_eq Nat.one_pos hlt.le
    rw [hmagnitude, Nat.cast_one, div_one, Nat.cast_natAbs, Int.cast_abs]
  have hsign : (ofInt n : Binary64).negative = decide (n < 0) := rfl
  rw [toInt?_eq_some_iff, isFinite, toRat, hcode, hsign, hmagnitude]
  refine ⟨hfinite, ?_⟩
  by_cases hn : n < 0
  · rw [decide_eq_true hn, if_pos rfl, abs_of_neg (Int.cast_lt_zero.mpr hn), neg_neg]
  · have hnonneg : (0 : ℚ) ≤ n := Int.cast_nonneg (Int.not_lt.mp hn)
    rw [decide_eq_false hn, if_neg Bool.false_ne_true, abs_of_nonneg hnonneg]

end Binary

namespace Numeral

/-- A numeral that is an integer of 64 bits is read as a float equal to that integer, rounded. -/
theorem numEq_ofInt {numeral : Numeral} {k : Int64} (h : numeral.toInt64? = some k) :
    numeral.toBinary64.numEq (.ofInt k.toInt) = true := by
  cases numeral with
  | int i =>
    cases h
    exact Binary.numEq_self (Binary.roundsInt_ofInt _).isNaN
  | float x =>
    obtain ⟨n, hn, hk⟩ := Option.bind_eq_some_iff.mp h
    rw [int64?_eq_some_iff.mp hk]
    exact Binary.numEq_of_toInt? hn (Binary.toInt?_ofInt hn)

/-! ## The text of an integer -/

/-- An integer taken apart into its sign and its digits. -/
def integerForm (n : Int) : DecimalForm :=
  ⟨.ofMinus (n < 0), Nat.toDigits 10 n.natAbs, none, none⟩

theorem text_integerForm (n : Int) : (integerForm n).text = (toString n).toList := by
  have hdigits : ∀ k : Nat, (toString k).toList = Nat.toDigits 10 k := fun k => by
    rw [Nat.toString_eq_ofList_toDigits, String.toList_ofList]
  have htext : (integerForm n).text = (Sign.ofMinus (n < 0)).text ++ Nat.toDigits 10 n.natAbs := by
    simp [DecimalForm.text, DecimalForm.unsigned, DecimalForm.fractionText,
      DecimalForm.exponentText, integerForm]
  rw [htext]
  cases n with
  | ofNat k => exact (hdigits k).symm
  | negSucc k =>
    have hminus : toString (Int.negSucc k) = "-" ++ toString (k + 1) := rfl
    rw [hminus, String.toList_append, hdigits, decide_eq_true (Int.negSucc_lt_zero k)]
    rfl

theorem wellFormed_integerForm (n : Int) : (integerForm n).WellFormed :=
  ⟨FloatText.isDigits_toDigits _, nofun, .inl Nat.toDigits_ne_nil, nofun⟩

theorem integer_integerForm (n : Int) : (integerForm n).integer = n := by
  rw [DecimalForm.integer, integerForm, Nat.ofDigitChars_ten_toDigits]
  by_cases hn : n < 0
  · simp only [hn, decide_true, Sign.ofMinus, if_true, Sign.apply, Sign.isMinus]
    omega
  · simp only [hn, decide_false, Sign.ofMinus, Bool.false_eq_true, if_false, Sign.apply,
      Sign.isMinus]
    omega

/-- The text of an integer of 64 bits is a numeral for that integer. -/
theorem parse?_toString (i : Int64) :
    parse? (Bytes.ofString (toString i.toInt)) = some (.int i) := by
  have hwritten : (Form.decimal (integerForm i.toInt)).WrittenIn
      (Bytes.ofString (toString i.toInt)) := by
    refine ⟨[], [], nofun, ?_⟩
    rw [Form.text, text_integerForm, List.nil_append, List.append_nil, String.ofList_toList]
  have hinteger := integer_integerForm i.toInt
  have hlow := i.le_toInt
  have hhigh := i.toInt_lt
  have hdenotes : (Form.decimal (integerForm i.toInt)).Denotes (.int i) :=
    .integer ⟨rfl, rfl, by omega, by omega⟩ hinteger.symm
  obtain ⟨numeral, hread, hdenoted⟩ := hwritten.read (wellFormed_integerForm i.toInt)
  rw [hread, hdenoted.unique hdenotes]

end Numeral

namespace Value

/-- The numeral that a value is read as, if it is read as a number. -/
def numeral? : Value → Option Numeral
  | int i => some (.int i)
  | number x => some (.float x)
  | str bytes => Numeral.parse? bytes
  | _ => none

theorem toInt64?_eq (v : Value) : v.toInt64? = v.numeral?.bind Numeral.toInt64? := by
  cases v <;> rfl

theorem toBinary64?_eq (v : Value) : v.toBinary64? = v.numeral?.map Numeral.toBinary64 := by
  cases v <;> rfl

/-- What is read as an integer is read as a float, which is that integer rounded. -/
theorem toBinary64?_of_toInt64? {v : Value} {k : Int64} (h : v.toInt64? = some k) :
    ∃ x, v.toBinary64? = some x ∧ x.numEq (.ofInt k.toInt) = true := by
  rw [toInt64?_eq] at h
  obtain ⟨numeral, hnumeral, hk⟩ := Option.bind_eq_some_iff.mp h
  refine ⟨numeral.toBinary64, ?_, Numeral.numEq_ofInt hk⟩
  rw [toBinary64?_eq, hnumeral, Option.map_some]

end Value

namespace Machine

variable {κ : Type} {m : Machine κ} {position : Int} {v : Value}

/-- The coercions of what a slot holds. A float is read as an integer exactly when it is one of 64
bits. What is read as an integer is read as a float, numerically equal to that integer rounded to
the nearest. An integer comes back from its own text. -/
theorem coercions_agree (h : m.value? position = some v) :
    (∀ x, v = .number x → ∀ k : Int, v.toInt64?.map Int64.toInt = some k ↔
      x.isFinite = true ∧ x.toRat = k ∧ -2 ^ 63 ≤ k ∧ k < 2 ^ 63) ∧
    (∀ k, v.toInt64? = some k → ∃ x y, v.toBinary64? = some x ∧ y.RoundsInt k.toInt ∧
      x.numEq y = true) ∧
    (∀ i, v = .int i → ∃ text, v.toBytes? = some text ∧
      ((m.push (.str text)).value? (-1)).bind Value.toInt64? = some i) := by
  refine ⟨?_, ?_, ?_⟩
  · rintro x rfl k
    rw [Option.map_eq_some_iff]
    constructor
    · rintro ⟨i, hi, rfl⟩
      obtain ⟨hfinite, hrat⟩ := Binary.toInt64?_eq_some_iff.mp hi
      exact ⟨hfinite, hrat, i.le_toInt, i.toInt_lt⟩
    · rintro ⟨hfinite, hrat, hlow, hhigh⟩
      have hk : (Int64.ofInt k).toInt = k := Int64.toInt_ofInt_of_le hlow hhigh
      exact ⟨.ofInt k, Binary.toInt64?_eq_some_iff.mpr ⟨hfinite, by rw [hk, hrat]⟩, hk⟩
  · intro k hk
    obtain ⟨x, hx, hequal⟩ := Value.toBinary64?_of_toInt64? hk
    exact ⟨x, .ofInt k.toInt, hx, Binary.roundsInt_ofInt _, hequal⟩
  · rintro i rfl
    obtain ⟨raw, hraw, -⟩ := Option.bind_eq_some_iff.mp h
    refine ⟨_, rfl, ?_⟩
    rw [value?_top (base_le_height_of_resolve? hraw), Option.bind_some, Value.toInt64?_eq,
      Value.numeral?, Numeral.parse?_toString]
    rfl

/-- A machine with the least integer of 64 bits and the negative zero in its frame. -/
def leastAndZero : Machine Unit :=
  ((new 0 {}).push (.int Int64.minValue)).push (.number (.ofRatio true 0 1))

/-- The least integer comes back from its text, and the negative zero is the integer zero. -/
theorem leastAndZero_coerced :
    leastAndZero.value? 1 = some (.int Int64.minValue) ∧
      (∃ text, (Value.int Int64.minValue).toBytes? = some text ∧
        ((leastAndZero.push (.str text)).value? (-1)).bind Value.toInt64? =
          some Int64.minValue) ∧
      leastAndZero.value? 2 = some (.number (.ofRatio true 0 1)) ∧
      (Value.number (.ofRatio true 0 1)).toInt64? = some 0 ∧
      (Binary.ofRatio true 0 1 : Binary64).toRat = (0 : Int) ∧
      ∃ x y, (Value.number (.ofRatio true 0 1)).toBinary64? = some x ∧
        y.RoundsInt (0 : Int64).toInt ∧ x.numEq y = true := by
  have hleast : leastAndZero.value? 1 = some (.int Int64.minValue) := rfl
  have hzero : leastAndZero.value? 2 = some (.number (.ofRatio true 0 1)) := rfl
  have hread : (Value.number (.ofRatio true 0 1)).toInt64? = some 0 :=
    Binary.toInt64?_of_zero (BinaryFormat.codeOfRatio_zero .binary64 1)
  obtain ⟨-, -, htext⟩ := coercions_agree hleast
  obtain ⟨hexact, hrounded, -⟩ := coercions_agree hzero
  have hmapped := congrArg (Option.map Int64.toInt) hread
  exact ⟨hleast, htext _ rfl, hzero, hread, ((hexact _ rfl 0).mp hmapped).2.1, hrounded 0 hread⟩

end Machine

end StackEmbedding
