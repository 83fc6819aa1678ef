import StackEmbedding.Proofs.Number.Magnitude
import StackEmbedding.Table

/-!
# Keys and raw equality

Two values name one entry of a table exactly when the machine holds them equal
(`Key.rawEq_iff`). For numbers this rests on the exact values of floats: two floats that are the
same integer differ in nothing but the sign of zero, and zero has one key.

Having one key is symmetric and transitive whatever makes the key, so raw equality is an equivalence
across the two sub-kinds of number without any arithmetic of its own (`Value.rawEq_comm`,
`Value.rawEq_trans`); only NaN is not equal to itself.
-/

set_option autoImplicit false

namespace StackEmbedding

theorem Binary.isNaN_of_toInt64? {f : BinaryFormat} {x : Binary f} {i : Int64}
    (h : x.toInt64? = some i) : x.isNaN = false := by
  obtain ⟨n, hn, -⟩ := Option.bind_eq_some_iff.mp h
  exact decide_eq_false (of_decide_eq_true (toInt?_eq_some_iff.mp hn).1).le.not_gt

/-- Floats that are the same integer are equal as numbers. -/
theorem Binary.numEq_of_toInt64? {f : BinaryFormat} {x y : Binary f} {i : Int64}
    (hx : x.toInt64? = some i) (hy : y.toInt64? = some i) : x.numEq y = true := by
  obtain ⟨n, hxn, hn⟩ := Option.bind_eq_some_iff.mp hx
  obtain ⟨m, hym, hm⟩ := Option.bind_eq_some_iff.mp hy
  obtain rfl : n = m := (int64?_eq_some_iff.mp hn).symm.trans (int64?_eq_some_iff.mp hm)
  exact numEq_of_toInt? hxn hym

theorem Binary.toInt64?_of_zero {x : Binary64} (h : x.code = 0) : x.toInt64? = some 0 := by
  have hrat : x.toRat = (0 : Int) := by
    rw [toRat, h, BinaryFormat.magnitude_zero]
    simp
  have hfinite : x.isFinite = true := decide_eq_true (by rw [h]; decide)
  rw [toInt64?, toInt?_eq_some_iff.mpr ⟨hfinite, hrat⟩]
  rfl

namespace Key

/-- The key of a float: its integer, or itself where it is none and no NaN. -/
theorem ofValue?_number_eq_some_iff {x : Binary64} {k : Key} :
    ofValue? (.number x) = some k ↔ (∃ i, x.toInt64? = some i ∧ k = int i) ∨
      (x.isNaN = false ∧ x.toInt64? = none ∧ k = float x) := by
  cases hint : x.toInt64? with
  | some i => simp [ofValue?, Binary.isNaN_of_toInt64? hint, hint, eq_comm]
  | none => cases hnan : x.isNaN <;> simp [ofValue?, hnan, hint, eq_comm]

theorem numEq_iff {x y : Binary64} :
    x.numEq y = true ↔ ∃ k, ofValue? (.number x) = some k ∧ ofValue? (.number y) = some k := by
  constructor
  · intro h
    simp only [Binary.numEq, Bool.and_eq_true, Bool.not_eq_true', Bool.or_eq_true,
      decide_eq_true_eq] at h
    obtain ⟨⟨hnan, -⟩, rfl | ⟨hx, hy⟩⟩ := h
    · have hkey : ∃ k, ofValue? (.number x) = some k := by
        cases hint : x.toInt64? with
        | some i => exact ⟨_, ofValue?_number_eq_some_iff.mpr (.inl ⟨i, hint, rfl⟩)⟩
        | none => exact ⟨_, ofValue?_number_eq_some_iff.mpr (.inr ⟨hnan, hint, rfl⟩)⟩
      obtain ⟨k, hk⟩ := hkey
      exact ⟨k, hk, hk⟩
    · have hzero : ∀ {z : Binary64}, z.code = 0 → ofValue? (.number z) = some (int 0) :=
        fun hz => ofValue?_number_eq_some_iff.mpr (.inl ⟨0, Binary.toInt64?_of_zero hz, rfl⟩)
      exact ⟨int 0, hzero hx, hzero hy⟩
  · rintro ⟨k, hx, hy⟩
    rw [ofValue?_number_eq_some_iff] at hx hy
    obtain ⟨i, hxi, rfl⟩ | ⟨hxnan, -, rfl⟩ := hx
    · obtain ⟨j, hyj, hij⟩ | ⟨-, -, hij⟩ := hy
      · cases hij
        exact Binary.numEq_of_toInt64? hxi hyj
      · cases hij
    · obtain ⟨j, -, hij⟩ | ⟨-, -, hij⟩ := hy
      · cases hij
      · cases hij
        simp [Binary.numEq, hxnan]

/-- An integer and a float are raw-equal when they have one key. -/
theorem toInt64?_eq_some_iff {x : Binary64} {i : Int64} :
    x.toInt64? = some i ↔ ∃ k, ofValue? (.int i) = some k ∧ ofValue? (.number x) = some k := by
  simp only [ofValue?_number_eq_some_iff]
  constructor
  · intro h
    exact ⟨int i, rfl, .inl ⟨i, h, rfl⟩⟩
  · rintro ⟨k, hk, ⟨j, hj, rfl⟩ | ⟨-, -, rfl⟩⟩
    · cases hk
      exact hj
    · cases hk

/-- A value that is not nil is raw-equal to another exactly when they have one key. -/
theorem rawEq_iff {a b : Value} (ha : a ≠ .nil) :
    a.rawEq b = true ↔ ∃ k, ofValue? a = some k ∧ ofValue? b = some k := by
  cases a with
  | nil => exact absurd rfl ha
  | number x =>
    cases b with
    | number y => exact numEq_iff
    | int i =>
      rw [show (Value.number x).rawEq (.int i) = decide (x.toInt64? = some i) from rfl,
        decide_eq_true_iff, toInt64?_eq_some_iff]
      simp only [and_comm]
    | nil | bool _ | str _ | function _ | closure _ | table _ =>
      simp only [ofValue?_number_eq_some_iff]
      simp [Value.rawEq, ofValue?]
  | int i =>
    cases b with
    | number y =>
      rw [show (Value.int i).rawEq (.number y) = decide (y.toInt64? = some i) from rfl,
        decide_eq_true_iff, toInt64?_eq_some_iff]
    | int _ | nil | bool _ | str _ | function _ | closure _ | table _ =>
      simp [Value.rawEq, ofValue?, eq_comm]
  | bool _ | str _ | function _ | closure _ | table _ =>
    cases b with
    | number y =>
      simp only [ofValue?_number_eq_some_iff]
      simp [Value.rawEq, ofValue?]
    | int _ | nil | bool _ | str _ | function _ | closure _ | table _ =>
      simp [Value.rawEq, ofValue?, eq_comm]

/-- Nil and NaN alone have no key. -/
theorem ofValue?_eq_none_iff {v : Value} :
    ofValue? v = none ↔ v = .nil ∨ ∃ x, v = .number x ∧ x.isNaN = true := by
  cases v with
  | number x =>
    cases hnan : x.isNaN with
    | true => simp [ofValue?, hnan]
    | false => cases hint : x.toInt64? <;> simp [ofValue?, hnan, hint]
  | nil | bool _ | int _ | str _ | function _ | closure _ | table _ => simp [ofValue?]

/-- A value is a key unless it is nil or NaN. -/
theorem exists_ofValue?_iff {v : Value} :
    (∃ k, ofValue? v = some k) ↔ v ≠ .nil ∧ ∀ x, v = .number x → x.isNaN = false := by
  rw [← Option.ne_none_iff_exists', Ne, ofValue?_eq_none_iff]
  simp only [not_or, not_exists, not_and, Bool.not_eq_true, ne_eq]

end Key

/-! ## Raw equality as an equivalence -/

namespace Value

theorem nil_rawEq_iff {b : Value} : rawEq nil b = true ↔ b = nil := by
  cases b <;> simp [rawEq]

theorem rawEq_nil_iff {a : Value} : rawEq a nil = true ↔ a = nil := by
  cases a <;> simp [rawEq]

theorem rawEq_comm (a b : Value) : a.rawEq b = b.rawEq a := by
  by_cases ha : a = nil
  · subst ha
    rw [Bool.eq_iff_iff, nil_rawEq_iff, rawEq_nil_iff]
  · by_cases hb : b = nil
    · subst hb
      rw [Bool.eq_iff_iff, nil_rawEq_iff, rawEq_nil_iff]
    · rw [Bool.eq_iff_iff, Key.rawEq_iff ha, Key.rawEq_iff hb]
      simp only [and_comm]

theorem rawEq_trans {a b c : Value} (hab : a.rawEq b = true) (hbc : b.rawEq c = true) :
    a.rawEq c = true := by
  by_cases hb : b = nil
  · subst hb
    rw [rawEq_nil_iff.mp hab]
    exact hbc
  · have ha : a ≠ nil := by
      rintro rfl
      exact hb (nil_rawEq_iff.mp hab)
    obtain ⟨k, hak, hbk⟩ := (Key.rawEq_iff ha).mp hab
    obtain ⟨j, hbj, hcj⟩ := (Key.rawEq_iff hb).mp hbc
    obtain rfl : j = k := Option.some.inj (hbj.symm.trans hbk)
    exact (Key.rawEq_iff ha).mpr ⟨j, hak, hcj⟩

end Value

/-! ## Which numbers have one key -/

/-- A float is a 64-bit integer exactly when it is finite and its number is that integer. -/
theorem Binary.toInt64?_eq_some_iff {f : BinaryFormat} {x : Binary f} {i : Int64} :
    x.toInt64? = some i ↔ x.isFinite = true ∧ x.toRat = i.toInt := by
  rw [toInt64?, Option.bind_eq_some_iff]
  constructor
  · rintro ⟨n, hn, hi⟩
    rw [int64?_eq_some_iff.mp hi]
    exact toInt?_eq_some_iff.mp hn
  · intro h
    exact ⟨i.toInt, toInt?_eq_some_iff.mpr h, int64?_eq_some_iff.mpr rfl⟩

namespace Key

/-- A float has the key of an integer exactly when it is finite and its number is that integer. -/
theorem ofValue?_number_eq_int_iff {x : Binary64} {i : Int64} :
    ofValue? (.number x) = some (int i) ↔ x.isFinite = true ∧ x.toRat = i.toInt := by
  rw [ofValue?_number_eq_some_iff, ← Binary.toInt64?_eq_some_iff]
  constructor
  · rintro (⟨j, hj, hij⟩ | ⟨-, -, hij⟩)
    · cases hij
      exact hj
    · cases hij
  · intro h
    exact .inl ⟨i, h, rfl⟩

/-- A key that is made of a value is made of the value that it is read back as. -/
theorem ofValue?_toValue {a : Value} {k : Key} (h : ofValue? a = some k) :
    ofValue? k.toValue = some k := by
  cases a with
  | number x =>
    rcases ofValue?_number_eq_some_iff.mp h with ⟨i, -, rfl⟩ | ⟨hnan, hint, rfl⟩
    · rfl
    · exact ofValue?_number_eq_some_iff.mpr (.inr ⟨hnan, hint, rfl⟩)
  | nil => cases h
  | bool _ | int _ | str _ | function _ | closure _ | table _ => cases h; rfl

/-- A float outside the range of the 64-bit integers, or no number, has the key of no integer. -/
theorem ofValue?_number_ne_int {x : Binary64}
    (hbeyond : x.isFinite = true → x.toRat < -9223372036854775808 ∨ 9223372036854775808 ≤ x.toRat)
    (i : Int64) : ofValue? (.number x) ≠ some (int i) := by
  intro h
  obtain ⟨hfinite, hrat⟩ := ofValue?_number_eq_int_iff.mp h
  have hlow : -9223372036854775808 ≤ x.toRat := by
    rw [hrat]
    exact_mod_cast i.le_toInt
  have hhigh : x.toRat < 9223372036854775808 := by
    rw [hrat]
    exact_mod_cast i.toInt_lt
  rcases hbeyond hfinite with hbelow | habove
  · exact absurd hlow hbelow.not_ge
  · exact absurd hhigh habove.not_gt

end Key

/-- Values other than nil name one entry exactly when they are raw-equal. NaN alone has no key, a
float has the key of the integer that it is, the two zeros among them, and a float beyond the range
of the integers, infinite or not, never meets one. Hence raw equality is symmetric and transitive,
and keys are read back as values of the same key. -/
theorem one_key_iff_rawEq :
    (∀ a b : Value, a ≠ .nil → b ≠ .nil →
      ((∃ k, Key.ofValue? a = some k ∧ Key.ofValue? b = some k) ↔ a.rawEq b = true)) ∧
    (∀ a : Value, a ≠ .nil →
      (Key.ofValue? a = none ↔ ∃ x, a = .number x ∧ x.isNaN = true)) ∧
    (∀ (x : Binary64) (i : Int64),
      Key.ofValue? (.number x) = Key.ofValue? (.int i) ↔
        x.isFinite = true ∧ x.toRat = i.toInt) ∧
    (∀ x : Binary64, x.code = 0 → Key.ofValue? (.number x) = Key.ofValue? (.int 0)) ∧
    (∀ x : Binary64,
      (x.isFinite = true → x.toRat < -9223372036854775808 ∨ 9223372036854775808 ≤ x.toRat) →
      ∀ i : Int64, Key.ofValue? (.number x) ≠ Key.ofValue? (.int i) ∧
        (Value.number x).rawEq (.int i) = false) ∧
    (∀ a b : Value, a.rawEq b = b.rawEq a) ∧
    (∀ a b c : Value, a.rawEq b = true → b.rawEq c = true → a.rawEq c = true) ∧
    (∀ (a : Value) (k : Key), Key.ofValue? a = some k → Key.ofValue? k.toValue = some k) := by
  refine ⟨fun a b ha _ => (Key.rawEq_iff ha).symm, fun a ha => ?_,
    fun x i => Key.ofValue?_number_eq_int_iff, fun x hx => ?_, fun x hbeyond i => ?_,
    Value.rawEq_comm, fun a b c => Value.rawEq_trans, fun a k => Key.ofValue?_toValue⟩
  · rw [Key.ofValue?_eq_none_iff, or_iff_right ha]
  · exact Key.ofValue?_number_eq_some_iff.mpr (.inl ⟨0, Binary.toInt64?_of_zero hx, rfl⟩)
  · have hne := Key.ofValue?_number_ne_int hbeyond i
    refine ⟨hne, Bool.eq_false_iff.mpr fun heq => ?_⟩
    obtain ⟨k, hx, hi⟩ := (Key.rawEq_iff (a := .number x) nofun).mp heq
    exact hne (hx.trans hi.symm)

/-- The integer one, the float one and the key of both; and the float that is two to the 63rd power,
which is no integer of 64 bits. -/
theorem one_and_two_to_63 :
    (∃ k, Key.ofValue? (.number (.ofInt 1)) = some k ∧ Key.ofValue? (.int 1) = some k) ∧
    ∀ i : Int64, (Value.number (.ofInt 9223372036854775808)).rawEq (.int i) = false := by
  obtain ⟨hkey, -, -, -, hbeyond, -⟩ := one_key_iff_rawEq
  refine ⟨(hkey (.number (.ofInt 1)) (.int 1) nofun nofun).mpr (by decide),
    fun i => (hbeyond _ (fun _ => .inr ?_) i).2⟩
  have hrat : (Binary.ofInt 9223372036854775808 : Binary64).toRat = (9223372036854775808 : Int) :=
    (Binary.toInt?_eq_some_iff.mp (by decide)).2
  rw [hrat]
  norm_num

end StackEmbedding
