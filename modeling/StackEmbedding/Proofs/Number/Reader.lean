import StackEmbedding.Proofs.Number.Form
import StackEmbedding.Proofs.Text.Utf8

/-!
# The reader of numerals takes exactly the grammar

The reader is a filter of characters in front of two readers that know more than numerals. It is
compared with the forms of the grammar, and its value is obtained once: every well-formed form is
read as what it denotes (`Form.read`), whatever is read is the text of a form (`exists_form`), and
a form denotes one number. The filter is what keeps the words of the float reader out
(`readBinary64?_eq`), and what lets a sign inside a text through; there both readers fail.

`numeral_grammar` puts the blanks and the bytes around it: a byte string that is no UTF-8, or has
anything else around a numeral, is not read.
-/

set_option autoImplicit false

namespace StackEmbedding

namespace Numeral

variable {cs digits rest hex : List Char} {c : Char}

/-! ## Characters -/

/-- What is checked of each character of a list holds of its members. A search through all
characters is no way to decide it. -/
theorem forall_of_all {P : Char → Prop} [DecidablePred P]
    (h : cs.all (fun c => decide (P c)) = true) : ∀ c ∈ cs, P c :=
  fun c hc => of_decide_eq_true (List.all_eq_true.mp h c hc)

/-- What holds of the characters with the numbers below 128 holds of an ASCII character. -/
theorem of_ascii {P : Char → Prop} (hall : ∀ n < 128, P (Char.ofNat n)) (h : c.toNat < 128) :
    P c := by
  rw [← Char.ofNat_toNat c]
  exact hall _ h

theorem toNat_lt_of_isDigit (h : c.isDigit = true) : c.toNat < 128 := by
  rw [Char.isDigit, Bool.and_eq_true, decide_eq_true_eq, decide_eq_true_eq] at h
  exact Nat.lt_of_le_of_lt (show c.toNat ≤ 57 from h.2) (by decide)

theorem toNat_lt_of_isDecimalChar (h : isDecimalChar c = true) : c.toNat < 128 := by
  rw [isDecimalChar, Bool.or_eq_true] at h
  rcases h with hdigit | hother
  · exact toNat_lt_of_isDigit hdigit
  · have hall : ∀ c ∈ ['.', 'e', 'E', '+', '-'], c.toNat < 128 := forall_of_all (by decide)
    exact hall c (of_decide_eq_true hother)

theorem isDecimalChar_of_isDigit (h : c.isDigit = true) : isDecimalChar c = true := by
  rw [isDecimalChar, h, Bool.true_or]

/-- A hexadecimal digit has the value of its place in the table, and no other character has one. -/
theorem hexDigit?_eq (c : Char) :
    hexDigit? c = if c.toLower ∈ hexDigits then some (hexDigits.idxOf c.toLower) else none := by
  by_cases hascii : c.toNat < 128
  · exact of_ascii (P := fun c => hexDigit? c =
      if c.toLower ∈ hexDigits then some (hexDigits.idxOf c.toLower) else none) (by decide) hascii
  · have hletter : ∀ last : Char, last.toNat < 128 → ¬ c ≤ last := by
      intro last hlast hle
      exact hascii (Nat.lt_of_le_of_lt (show c.toNat ≤ last.toNat from hle) hlast)
    have hdigit : c.isDigit = false := by
      rw [← Bool.not_eq_true]
      exact mt toNat_lt_of_isDigit hascii
    have hlower : c.toLower = c := dif_neg fun h => hletter 'Z' (by decide) h.2
    have hmem : c ∉ hexDigits := by
      have hall : ∀ c ∈ hexDigits, c.toNat < 128 := forall_of_all (by decide)
      exact mt (hall c) hascii
    have hlow : ¬ ('a' ≤ c ∧ c ≤ 'f') := fun h => hletter 'f' (by decide) h.2
    have hhigh : ¬ ('A' ≤ c ∧ c ≤ 'F') := fun h => hletter 'F' (by decide) h.2
    rw [hexDigit?, hdigit, if_neg Bool.false_ne_true, if_neg hlow, if_neg hhigh, hlower,
      if_neg hmem]

/-- The filter keeps out the letters with which the words of the float reader begin. -/
theorem toLower_ne_of_isDecimalChar (h : isDecimalChar c = true) :
    c.toLower ≠ 'i' ∧ c.toLower ≠ 'n' := by
  have hall : ∀ n < 128, isDecimalChar (Char.ofNat n) = true →
      (Char.ofNat n).toLower ≠ 'i' ∧ (Char.ofNat n).toLower ≠ 'n' := by decide
  exact of_ascii (P := fun c => isDecimalChar c = true → c.toLower ≠ 'i' ∧ c.toLower ≠ 'n') hall
    (toNat_lt_of_isDecimalChar h) h

/-! ## Signs and whole numbers -/

/-- The first character, if there is one, is no sign. -/
def Unsigned (cs : List Char) : Prop := ∀ c ∈ cs.head?, c ≠ '-' ∧ c ≠ '+'

theorem splitSign_of_unsigned (h : Unsigned cs) : splitSign cs = (false, cs) := by
  unfold splitSign
  split
  · exact absurd rfl (h '-' rfl).1
  · exact absurd rfl (h '+' rfl).2
  · rfl

theorem splitSign_text (sign : Sign) (h : Unsigned cs) :
    splitSign (sign.text ++ cs) = (sign.isMinus, cs) := by
  cases sign with
  | none => exact splitSign_of_unsigned h
  | plus => rfl
  | minus => rfl

/-- A text is its sign and the rest. -/
theorem exists_sign (cs : List Char) :
    ∃ sign : Sign, cs = sign.text ++ (splitSign cs).2 ∧ (splitSign cs).1 = sign.isMinus := by
  unfold splitSign
  split
  · exact ⟨.minus, rfl, rfl⟩
  · exact ⟨.plus, rfl, rfl⟩
  · exact ⟨.none, rfl, rfl⟩

theorem unsigned_of_isDigits (h : IsDigits digits) : Unsigned digits := by
  intro c hc
  have hdigit := h c (List.mem_of_mem_head? hc)
  constructor <;> (rintro rfl; revert hdigit; decide)

theorem wholeInt?_text (sign : Sign) (hne : digits ≠ []) (h : IsDigits digits) :
    wholeInt? (sign.text ++ digits) = some (sign.apply (Nat.ofDigitChars 10 digits 0)) := by
  have hall : digits.all Char.isDigit = true := List.all_eq_true.mpr h
  simp only [wholeInt?, splitSign_text sign (unsigned_of_isDigits h), hall,
    List.isEmpty_eq_false_iff.mpr hne]
  rfl

theorem exists_of_wholeInt? {n : Int} (h : wholeInt? cs = some n) :
    ∃ (sign : Sign) (digits : List Char), cs = sign.text ++ digits ∧ digits ≠ [] ∧
      IsDigits digits ∧ n = sign.apply (Nat.ofDigitChars 10 digits 0) := by
  obtain ⟨sign, hcs, hsign⟩ := exists_sign cs
  simp only [wholeInt?, hsign] at h
  split at h
  · cases h
  next hdigits =>
    rw [Bool.or_eq_true, not_or, Bool.not_eq_true, List.isEmpty_eq_false_iff, Bool.not_eq_true,
      Bool.not_eq_false', List.all_eq_true] at hdigits
    exact ⟨sign, _, hcs, hdigits.1, hdigits.2, (Option.some.inj h).symm⟩

/-- Only digits are read as a whole number. -/
theorem wholeInt?_eq_none (sign : Sign) (hunsigned : Unsigned cs) (hc : c ∈ cs)
    (h : c.isDigit = false) : wholeInt? (sign.text ++ cs) = none := by
  have hall : cs.all Char.isDigit = false := List.all_eq_false.mpr ⟨c, hc, by rw [h]; nofun⟩
  simp only [wholeInt?, splitSign_text sign hunsigned, hall, Bool.not_false, Bool.or_true, if_true]

/-! ## Hexadecimal numerals -/

theorem mapM_hexDigit? (h : ∀ c ∈ digits, c.toLower ∈ hexDigits) :
    digits.mapM hexDigit? = some (digits.map fun c => hexDigits.idxOf c.toLower) := by
  induction digits with
  | nil => rfl
  | cons c rest ih =>
    rw [List.mapM_cons, hexDigit?_eq, if_pos (h c List.mem_cons_self),
      ih fun d hd => h d (List.mem_cons_of_mem c hd)]
    rfl

theorem hexDigits_of_mapM {values : List Nat} (h : digits.mapM hexDigit? = some values) :
    ∀ c ∈ digits, c.toLower ∈ hexDigits := by
  induction digits generalizing values with
  | nil => nofun
  | cons c rest ih =>
    simp only [List.mapM_cons, Option.bind_eq_bind, Option.bind_eq_some_iff] at h
    obtain ⟨d, hd, values, hvalues, -⟩ := h
    rw [hexDigit?_eq, Option.ite_none_right_eq_some] at hd
    rintro e (_ | ⟨_, he⟩)
    · exact hd.1
    · exact ih hvalues e he

/-- Digits are summed up in 64 bits; nothing of the sum modulo `2^64` is lost. -/
theorem foldl_bits (values : List Nat) (n : Nat) :
    values.foldl (fun n d => n * 16 + UInt64.ofNat d) (UInt64.ofNat n) =
      UInt64.ofNat (values.foldl (fun n d => n * 16 + d) n) := by
  induction values generalizing n with
  | nil => rfl
  | cons d rest ih =>
    rw [List.foldl_cons, List.foldl_cons, ← ih, UInt64.ofNat_add, UInt64.ofNat_mul]
    rfl

theorem ofDigits_reverse (values : List Nat) :
    Nat.ofDigits 16 values.reverse = values.foldl (fun n d => n * 16 + d) 0 := by
  rw [Nat.ofDigits_eq_foldr, List.foldr_reverse]
  congr 1
  funext n d
  rw [Nat.cast_id, Nat.add_comm, Nat.mul_comm]

theorem bits?_digits {h : HexForm} (hform : h.WellFormed) :
    bits? h.digits = some (UInt64.ofNat h.value) := by
  rw [bits?, List.isEmpty_eq_false_iff.mpr hform.nonempty, if_neg nofun,
    mapM_hexDigit? hform.digits, Option.map_some, HexForm.value, List.map_reverse, ofDigits_reverse]
  exact congrArg some (foldl_bits _ 0)

theorem toInt_bits (n : Nat) : (UInt64.ofNat n).toInt64.toInt = (n : Int).bmod (2 ^ 64) := by
  rw [UInt64.toInt64_ofNat']
  exact Int64.toInt_ofNat'

theorem stripMark?_eq_some_iff :
    stripMark? cs = some hex ↔ ∃ mark, (mark = 'x' ∨ mark = 'X') ∧ cs = '0' :: mark :: hex := by
  unfold stripMark?
  constructor
  · intro h
    split at h
    · cases h
      exact ⟨'x', .inl rfl, rfl⟩
    · cases h
      exact ⟨'X', .inr rfl, rfl⟩
    · cases h
  · rintro ⟨mark, rfl | rfl, rfl⟩ <;> rfl

theorem unsigned_hexDigits (mark : Char) : Unsigned ('0' :: mark :: hex) := by
  rintro c hc
  cases hc
  decide

/-! ## Decimals -/

theorem splitDigits_append (h : IsDigits digits) (hrest : ∀ c ∈ rest.head?, c.isDigit = false) :
    splitDigits (digits ++ rest) = (digits, rest) := by
  rw [splitDigits, List.takeWhile_append_of_pos h, List.dropWhile_append_of_pos h]
  cases rest with
  | nil => rw [List.takeWhile_nil, List.append_nil, List.dropWhile_nil]
  | cons c rest =>
    have hc : ¬ c.isDigit = true := by rw [hrest c rfl]; nofun
    rw [List.takeWhile_cons_of_neg hc, List.dropWhile_cons_of_neg hc, List.append_nil]

theorem isDigits_splitDigits (cs : List Char) : IsDigits (splitDigits cs).1 :=
  List.all_eq_true.mp List.all_takeWhile

theorem splitDigits_join (cs : List Char) : (splitDigits cs).1 ++ (splitDigits cs).2 = cs :=
  List.takeWhile_append_dropWhile

theorem exists_of_splitFraction (cs : List Char) :
    (∀ digits ∈ (splitFraction cs).1, IsDigits digits) ∧
      cs = (splitFraction cs).1.elim [] ('.' :: ·) ++ (splitFraction cs).2 := by
  unfold splitFraction
  split
  next rest =>
    refine ⟨?_, congrArg ('.' :: ·) (splitDigits_join rest).symm⟩
    rintro _ ⟨⟩
    exact isDigits_splitDigits rest
  next => exact ⟨nofun, rfl⟩

theorem exists_of_exponent? {e : Option Int} (h : exponent? cs = some e) :
    ∃ form : Option ExponentForm, (∀ e ∈ form, e.WellFormed) ∧
      cs = form.elim [] ExponentForm.text := by
  cases cs with
  | nil => exact ⟨none, nofun, rfl⟩
  | cons mark rest =>
    rw [exponent?, Option.ite_none_right_eq_some, Option.map_eq_some_iff, Bool.or_eq_true,
      decide_eq_true_eq, decide_eq_true_eq] at h
    obtain ⟨hmark, n, hn, -⟩ := h
    obtain ⟨sign, digits, rfl, hne, hdigits, -⟩ := exists_of_wholeInt? hn
    refine ⟨some ⟨mark, sign, digits⟩, ?_, rfl⟩
    rintro _ ⟨⟩
    exact ⟨hmark, hne, hdigits⟩

/-- What is read as the fields of a decimal is the text of one after its sign. -/
theorem exists_of_fields? (sign : Sign) {fields : Fields} (h : fields? cs = some fields) :
    ∃ d : DecimalForm, d.sign = sign ∧ d.WellFormed ∧ cs = d.unsigned := by
  obtain ⟨hfraction, hrest⟩ := exists_of_splitFraction (splitDigits cs).2
  simp only [fields?] at h
  split at h
  next => cases h
  next hne =>
    obtain ⟨e, he, -⟩ := Option.map_eq_some_iff.mp h
    obtain ⟨form, hform, htext⟩ := exists_of_exponent? he
    refine ⟨⟨sign, (splitDigits cs).1, (splitFraction (splitDigits cs).2).1, form⟩, rfl,
      ⟨isDigits_splitDigits cs, hfraction, ?_, hform⟩, ?_⟩
    · simpa only [Bool.and_eq_true, not_and_or, List.isEmpty_iff] using hne
    · conv_lhs => rw [← splitDigits_join cs, hrest, htext]
      rfl

namespace DecimalForm

variable {d : DecimalForm}

/-- The fields that the reader finds. -/
def fields (d : DecimalForm) : Fields := ⟨d.whole, d.fraction, d.exponent.map ExponentForm.value⟩

theorem exponent?_text (h : d.WellFormed) :
    exponent? d.exponentText = some (d.exponent.map ExponentForm.value) := by
  unfold exponentText
  cases hexponent : d.exponent with
  | none => rfl
  | some e =>
    have he := h.exponent e hexponent
    have hmark : (e.mark = 'e' || e.mark = 'E') = true := by simpa using he.mark
    rw [Option.elim_some, ExponentForm.text, exponent?, if_pos hmark,
      wholeInt?_text e.sign he.nonempty he.digits]
    rfl

/-- What follows the digits of a decimal begins with a point or a mark. -/
theorem exponentText_head (h : d.WellFormed) :
    ∀ c ∈ d.exponentText.head?, c = 'e' ∨ c = 'E' := by
  unfold exponentText
  cases hexponent : d.exponent with
  | none => nofun
  | some e =>
    rintro _ ⟨⟩
    exact (h.exponent e hexponent).mark

theorem fraction_head (h : d.WellFormed) :
    ∀ c ∈ (d.fractionText ++ d.exponentText).head?, c = '.' ∨ c = 'e' ∨ c = 'E' := by
  unfold fractionText
  cases d.fraction with
  | none => exact fun c hc => .inr (exponentText_head h c hc)
  | some digits =>
    rintro _ ⟨⟩
    exact .inl rfl

theorem splitFraction_text (h : d.WellFormed) :
    splitFraction (d.fractionText ++ d.exponentText) = (d.fraction, d.exponentText) := by
  have hhead := exponentText_head h
  unfold fractionText
  generalize d.exponentText = rest at *
  cases hfraction : d.fraction with
  | none =>
    rw [Option.elim_none, List.nil_append]
    unfold splitFraction
    split
    · exact absurd (hhead '.' rfl) (by decide)
    · rfl
  | some digits =>
    have hsplit : splitDigits (digits ++ rest) = (digits, rest) := by
      apply splitDigits_append (h.fraction digits hfraction)
      intro c hc
      obtain rfl | rfl := hhead c hc <;> decide
    rw [Option.elim_some, List.cons_append, splitFraction, hsplit]

/-- The reader finds the fields of a decimal in the text after its sign. -/
theorem fields?_unsigned (h : d.WellFormed) : fields? d.unsigned = some d.fields := by
  have hsplit : splitDigits d.unsigned = (d.whole, d.fractionText ++ d.exponentText) := by
    apply splitDigits_append h.whole
    intro c hc
    obtain rfl | rfl | rfl := fraction_head h c hc <;> decide
  have hne : (d.whole.isEmpty && (d.fraction.getD []).isEmpty) = false := by
    simpa only [Bool.and_eq_false_iff, List.isEmpty_eq_false_iff] using h.nonempty
  simp only [fields?, hsplit, splitFraction_text h, hne, exponent?_text h]
  rfl

theorem unsigned_unsigned (h : d.WellFormed) : Unsigned d.unsigned := by
  intro c hc
  rw [unsigned, List.head?_append] at hc
  cases hwhole : d.whole with
  | nil =>
    rw [hwhole] at hc
    obtain rfl | rfl | rfl := fraction_head h c hc <;> decide
  | cons first rest =>
    rw [hwhole] at hc
    exact unsigned_of_isDigits h.whole c (by rw [hwhole]; exact hc)

theorem isDecimalChar_sign {sign : Sign} (h : c ∈ sign.text) : isDecimalChar c = true := by
  cases sign with
  | none => cases h
  | plus | minus =>
    cases List.mem_singleton.mp h
    decide

/-- The filter lets every decimal through. -/
theorem isDecimalChar_of_mem (h : d.WellFormed) (hc : c ∈ d.unsigned) : isDecimalChar c = true := by
  simp only [unsigned, fractionText, exponentText, List.mem_append] at hc
  rcases hc with hwhole | hfraction | hexponent
  · exact isDecimalChar_of_isDigit (h.whole c hwhole)
  · cases hdigits : d.fraction with
    | none => rw [hdigits] at hfraction; cases hfraction
    | some digits =>
      rw [hdigits] at hfraction
      rcases List.mem_cons.mp hfraction with rfl | hmem
      · decide
      · exact isDecimalChar_of_isDigit (h.fraction digits hdigits c hmem)
  · cases he : d.exponent with
    | none => rw [he] at hexponent; cases hexponent
    | some e =>
      rw [he] at hexponent
      have hform := h.exponent e he
      rcases List.mem_cons.mp hexponent with rfl | hmem
      · obtain hmark | hmark := hform.mark <;> rw [hmark] <;> decide
      · rcases List.mem_append.mp hmem with hsign | hdigit
        · exact isDecimalChar_sign hsign
        · exact isDecimalChar_of_isDigit (hform.digits c hdigit)

/-- The fields write the number that the form stands for. -/
theorem value_fields (d : DecimalForm) : d.fields.decimal.value = d.magnitude := by
  have hexponent : (d.exponent.map ExponentForm.value).getD 0 =
      d.exponent.elim 0 ExponentForm.value := by cases d.exponent <;> rfl
  rw [Decimal.value, Fields.decimal, fields, magnitude, hexponent, Nat.ofDigitChars_append,
    Nat.ofDigitChars_eq_ofDigitChars_zero, zpow_sub₀ (by norm_num), zpow_natCast]
  push_cast
  field_simp

/-- The reader of integers takes a decimal exactly when it is an integer of 64 bits. -/
theorem readInt64?_text (h : d.WellFormed) {i : Int64} :
    readInt64? d.text = some i ↔ d.IsInt64 ∧ i.toInt = d.integer := by
  have hlow := i.le_toInt
  have hhigh := i.toInt_lt
  by_cases hplain : d.fraction = none ∧ d.exponent = none
  · obtain ⟨hfraction, hexponent⟩ := hplain
    have hunsigned : d.unsigned = d.whole := by
      rw [unsigned, fractionText, exponentText, hfraction, hexponent]
      exact List.append_nil _
    have hne : d.whole ≠ [] := h.nonempty.resolve_right (by rw [hfraction]; exact fun h => h rfl)
    rw [readInt64?, text, hunsigned, wholeInt?_text d.sign hne h.whole, Option.bind_some,
      int64?_eq_some_iff, ← integer]
    refine ⟨fun hi => ⟨⟨hfraction, hexponent, ?_, ?_⟩, hi⟩, And.right⟩
    · rw [← hi]
      exact hlow
    · rw [← hi]
      exact hhigh
  · have hnone : wholeInt? d.text = none := by
      -- A point or the mark of an exponent is no digit.
      obtain ⟨c, hc, hdigit⟩ : ∃ c ∈ d.unsigned, c.isDigit = false := by
        simp only [unsigned, fractionText, exponentText]
        cases hfraction : d.fraction with
        | some digits => exact ⟨'.', by simp, rfl⟩
        | none =>
          cases hexponent : d.exponent with
          | none => exact absurd ⟨hfraction, hexponent⟩ hplain
          | some e =>
            refine ⟨e.mark, by simp [ExponentForm.text], ?_⟩
            obtain hmark | hmark := (h.exponent e hexponent).mark <;> rw [hmark] <;> rfl
      exact wholeInt?_eq_none d.sign (unsigned_unsigned h) hc hdigit
    rw [readInt64?, hnone]
    exact ⟨nofun, fun ⟨⟨hfraction, hexponent, _⟩, _⟩ => absurd ⟨hfraction, hexponent⟩ hplain⟩

end DecimalForm

/-- Of the texts that pass the filter the reader of floats takes the decimals only. -/
theorem readBinary64?_eq (h : ∀ c ∈ (splitSign cs).2, isDecimalChar c = true) :
    readBinary64? cs = (fields? (splitSign cs).2).map fun fields =>
      fields.decimal.toBinary .binary64 (splitSign cs).1 := by
  generalize hsplit : splitSign cs = split at *
  obtain ⟨negative, unsigned⟩ := split
  have hword : ∀ first word, (first = 'i' ∨ first = 'n') →
      String.ofList (unsigned.map Char.toLower) ≠ String.ofList (first :: word) := by
    intro first word hletter heq
    have hlist := String.ofList_injective heq
    cases unsigned with
    | nil => cases hlist
    | cons c rest =>
      have hne := toLower_ne_of_isDecimalChar (h c List.mem_cons_self)
      rw [(List.cons.inj hlist).1] at hne
      exact hletter.elim hne.1 hne.2
  have hinf := hword 'i' ['n', 'f'] (.inl rfl)
  have hinfinity := hword 'i' ['n', 'f', 'i', 'n', 'i', 't', 'y'] (.inl rfl)
  have hnan := hword 'n' ['a', 'n'] (.inr rfl)
  simp only [readBinary64?, hsplit]
  rw [if_neg, if_neg]
  · exact hnan
  · rw [Bool.or_eq_true, decide_eq_true_eq, decide_eq_true_eq]
    exact not_or.mpr ⟨hinf, hinfinity⟩

/-! ## Forms -/

namespace Form

/-- The reader takes every form of the grammar, and answers what it denotes. -/
theorem read {form : Form} (h : form.WellFormed) :
    ∃ n, ofChars? form.text = some n ∧ form.Denotes n := by
  cases form with
  | hexadecimal hex =>
    have hstrip : stripMark? ('0' :: hex.mark :: hex.digits) = some hex.digits :=
      stripMark?_eq_some_iff.mpr ⟨hex.mark, h.mark, rfl⟩
    refine ⟨_, ?_, .bits (toInt_bits hex.value)⟩
    simp only [ofChars?, text, HexForm.text, splitSign_text hex.sign (unsigned_hexDigits hex.mark),
      hstrip, bits?_digits h]
    rfl
  | decimal d =>
    have hchars : ∀ c ∈ d.unsigned, isDecimalChar c = true :=
      fun c => DecimalForm.isDecimalChar_of_mem h
    have hunsigned := DecimalForm.unsigned_unsigned h
    have hstrip : stripMark? d.unsigned = none := by
      rw [Option.eq_none_iff_forall_ne_some]
      intro hex hsome
      obtain ⟨mark, hmark, hd⟩ := stripMark?_eq_some_iff.mp hsome
      have hc := hchars mark (by rw [hd]; simp)
      obtain rfl | rfl := hmark <;> revert hc <;> decide
    have hfilter : d.unsigned.all isDecimalChar = true := List.all_eq_true.mpr hchars
    have hsplit : splitSign d.text = (d.sign.isMinus, d.unsigned) := splitSign_text d.sign hunsigned
    have hread : ∀ c ∈ (splitSign d.text).2, isDecimalChar c = true := by rwa [hsplit]
    simp only [ofChars?, text, readBinary64?_eq hread, hsplit, hstrip, hfilter, if_true,
      DecimalForm.fields?_unsigned h]
    cases hint : readInt64? d.text with
    | some i =>
      obtain ⟨hrange, hi⟩ := (DecimalForm.readInt64?_text h).mp hint
      exact ⟨_, rfl, .integer hrange hi⟩
    | none =>
      refine ⟨_, rfl, .nearest ?_ (Decimal.toBinary_negative _ _ _) ?_⟩
      · intro hrange
        have hi := (DecimalForm.readInt64?_text h (i := Int64.ofInt d.integer)).mpr
          ⟨hrange, Int64.toInt_ofInt_of_le hrange.2.2.1 hrange.2.2.2⟩
        rw [hint] at hi
        cases hi
      · rw [← d.value_fields]
        exact Decimal.toBinary_nearest _ _

end Form

/-- The reader takes nothing else. -/
theorem exists_form {n : Numeral} (h : ofChars? cs = some n) :
    ∃ form : Form, form.WellFormed ∧ cs = form.text := by
  obtain ⟨sign, hcs, -⟩ := exists_sign cs
  simp only [ofChars?] at h
  split at h
  next hex hstrip =>
    obtain ⟨mark, hmark, hunsigned⟩ := stripMark?_eq_some_iff.mp hstrip
    obtain ⟨bits, hbits, -⟩ := Option.map_eq_some_iff.mp h
    rw [bits?] at hbits
    split at hbits
    next => cases hbits
    next hne =>
      obtain ⟨values, hvalues, -⟩ := Option.map_eq_some_iff.mp hbits
      rw [List.isEmpty_iff] at hne
      rw [hunsigned] at hcs
      exact ⟨.hexadecimal ⟨sign, mark, hex⟩, ⟨hmark, hne, hexDigits_of_mapM hvalues⟩, hcs⟩
  next hstrip =>
    split at h
    next hfilter =>
      split at h
      next i hint =>
        obtain ⟨n, hn, -⟩ := Option.bind_eq_some_iff.mp hint
        obtain ⟨sign, digits, rfl, hne, hdigits, -⟩ := exists_of_wholeInt? hn
        refine ⟨.decimal ⟨sign, digits, none, none⟩, ⟨hdigits, nofun, .inl hne, nofun⟩, ?_⟩
        exact congrArg (sign.text ++ ·) (List.append_nil digits).symm
      next hint =>
        rw [readBinary64?_eq (List.all_eq_true.mp hfilter)] at h
        obtain ⟨x, hx, -⟩ := Option.map_eq_some_iff.mp h
        obtain ⟨fields, hfields, -⟩ := Option.map_eq_some_iff.mp hx
        obtain ⟨d, rfl, hd, hunsigned⟩ := exists_of_fields? sign hfields
        rw [hunsigned] at hcs
        exact ⟨.decimal d, hd, hcs⟩
    next => cases h

/-- The filter lets a sign inside a text through, and both readers refuse it. -/
example : "1-2".toList.all isDecimalChar = true ∧ ofChars? "1-2".toList = none := by decide

/-! ## Blanks -/

theorem isBlank_iff : isBlank c = true ↔ c ∈ [' ', '\t', '\n', '\x0c', '\r'] := decide_eq_true_iff

theorem not_isBlank_of_isDecimalChar (h : isDecimalChar c = true) : isBlank c = false := by
  have hall : ∀ c ∈ [' ', '\t', '\n', '\x0c', '\r'], isDecimalChar c = false :=
    forall_of_all (by decide)
  rw [← Bool.not_eq_true, isBlank_iff]
  intro hblank
  rw [hall c hblank] at h
  cases h

theorem not_isBlank_of_toLower_mem (h : c.toLower ∈ hexDigits) : isBlank c = false := by
  have hall : ∀ c ∈ [' ', '\t', '\n', '\x0c', '\r'], c.toLower ∉ hexDigits :=
    forall_of_all (by decide)
  rw [← Bool.not_eq_true, isBlank_iff]
  exact fun hblank => hall c hblank h

namespace Form

variable {form : Form} {bytes : Bytes}

/-- No character of a numeral is a blank. -/
theorem not_isBlank (h : form.WellFormed) (hc : c ∈ form.text) : isBlank c = false := by
  cases form with
  | hexadecimal hex =>
    rcases List.mem_append.mp hc with hsign | hrest
    · exact not_isBlank_of_isDecimalChar (DecimalForm.isDecimalChar_sign hsign)
    · rcases List.mem_cons.mp hrest with rfl | hrest
      · decide
      · rcases List.mem_cons.mp hrest with rfl | hdigit
        · obtain hmark | hmark := h.mark <;> rw [hmark] <;> decide
        · exact not_isBlank_of_toLower_mem (h.digits c hdigit)
  | decimal d =>
    rcases List.mem_append.mp hc with hsign | hunsigned
    · exact not_isBlank_of_isDecimalChar (DecimalForm.isDecimalChar_sign hsign)
    · exact not_isBlank_of_isDecimalChar (DecimalForm.isDecimalChar_of_mem h hunsigned)

theorem text_ne_nil (h : form.WellFormed) : form.text ≠ [] := by
  cases form with
  | hexadecimal hex => exact List.append_ne_nil_of_right_ne_nil _ nofun
  | decimal d =>
    apply List.append_ne_nil_of_right_ne_nil
    rcases h.nonempty with hwhole | hfraction
    · exact List.append_ne_nil_of_left_ne_nil hwhole _
    · apply List.append_ne_nil_of_right_ne_nil
      apply List.append_ne_nil_of_left_ne_nil
      unfold DecimalForm.fractionText
      cases hdigits : d.fraction with
      | none => exact absurd (by rw [hdigits]; rfl) hfraction
      | some digits => nofun

end Form

theorem dropWhile_blanks {front core : List Char} (hfront : ∀ c ∈ front, isBlank c = true)
    (hcore : ∀ c ∈ core.head?, isBlank c = false) : (front ++ core).dropWhile isBlank = core := by
  rw [List.dropWhile_append_of_pos hfront]
  cases core with
  | nil => rfl
  | cons c rest => exact List.dropWhile_cons_of_neg (by rw [hcore c rfl]; nofun)

/-- The blanks around a text that has none at its ends are what is removed. -/
theorem trim_append {front core back : List Char} (hfront : ∀ c ∈ front, isBlank c = true)
    (hback : ∀ c ∈ back, isBlank c = true) (hne : core ≠ [])
    (hcore : ∀ c ∈ core, isBlank c = false) : trim (front ++ core ++ back) = core := by
  have hstart : (front ++ (core ++ back)).dropWhile isBlank = core ++ back := by
    apply dropWhile_blanks hfront
    intro c hc
    rw [List.head?_append_of_ne_nil _ hne] at hc
    exact hcore c (List.mem_of_mem_head? hc)
  have hend : (back.reverse ++ core.reverse).dropWhile isBlank = core.reverse := by
    apply dropWhile_blanks
    · exact fun c hc => hback c (List.mem_reverse.mp hc)
    · exact fun c hc => hcore c (List.mem_reverse.mp (List.mem_of_mem_head? hc))
  rw [trim, List.append_assoc, hstart, List.reverse_append, hend, List.reverse_reverse]

/-- Only blanks are removed. -/
theorem exists_trim (cs : List Char) :
    ∃ front back, (∀ c ∈ front ++ back, isBlank c = true) ∧ cs = front ++ trim cs ++ back := by
  refine ⟨cs.takeWhile isBlank, ((cs.dropWhile isBlank).reverse.takeWhile isBlank).reverse, ?_, ?_⟩
  · intro c hc
    rcases List.mem_append.mp hc with hfront | hback
    · exact List.all_eq_true.mp List.all_takeWhile c hfront
    · exact List.all_eq_true.mp List.all_takeWhile c (List.mem_reverse.mp hback)
  · rw [trim, List.append_assoc, ← List.reverse_append, List.takeWhile_append_dropWhile,
      List.reverse_reverse, List.takeWhile_append_dropWhile]

/-! ## Bytes -/

namespace Form

variable {form : Form} {bytes : Bytes}

/-- A form of the grammar between blanks is read as what it denotes. -/
theorem WrittenIn.read (hwritten : form.WrittenIn bytes) (h : form.WellFormed) :
    ∃ n, parse? bytes = some n ∧ form.Denotes n := by
  obtain ⟨front, back, hblank, hbytes⟩ := hwritten
  have htrim : trim (front ++ form.text ++ back) = form.text :=
    trim_append (fun c hc => hblank c (List.mem_append_left _ hc))
      (fun c hc => hblank c (List.mem_append_right _ hc)) (text_ne_nil h) fun _ => not_isBlank h
  obtain ⟨n, hn, hdenotes⟩ := Form.read h
  refine ⟨n, ?_, hdenotes⟩
  rw [parse?, Bytes.text?_eq_some_iff.mpr hbytes, Option.bind_some, String.toList_ofList, htrim, hn]

/-- What is read is a form of the grammar between blanks. -/
theorem exists_writtenIn {n : Numeral} (h : parse? bytes = some n) :
    ∃ form : Form, form.WellFormed ∧ form.WrittenIn bytes := by
  obtain ⟨text, htext, hn⟩ := Option.bind_eq_some_iff.mp h
  obtain ⟨form, hform, htrim⟩ := exists_form hn
  obtain ⟨front, back, hblank, hjoin⟩ := exists_trim text.toList
  refine ⟨form, hform, front, back, hblank, ?_⟩
  rw [← htrim, ← hjoin, String.ofList_toList]
  exact Bytes.text?_eq_some_iff.mp htext

end Form

end Numeral

open Numeral in
/-- A byte string is read as a number exactly when it is a numeral of the grammar between blanks,
and the number is the one that the numeral denotes. Where that is the nearest float, it is infinite
from half a step beyond the greatest finite one. -/
theorem numeral_grammar (bytes : Bytes) :
    ((parse? bytes).isSome = true ↔ ∃ form : Form, form.WellFormed ∧ form.WrittenIn bytes) ∧
      (∀ form : Form, form.WellFormed → form.WrittenIn bytes →
        ∀ n, parse? bytes = some n ↔ form.Denotes n) ∧
      ∀ (d : DecimalForm) (x : Binary64), (Form.decimal d).Denotes (.float x) →
        (x.isInfinite = true ↔ 2 ^ (1024 : Int) - 2 ^ (970 : Int) ≤ d.magnitude) := by
  refine ⟨?_, ?_, ?_⟩
  · rw [Option.isSome_iff_exists]
    constructor
    · rintro ⟨n, hn⟩
      exact Form.exists_writtenIn hn
    · rintro ⟨form, hform, hwritten⟩
      obtain ⟨n, hn, -⟩ := hwritten.read hform
      exact ⟨n, hn⟩
  · intro form hform hwritten n
    obtain ⟨m, hm, hdenotes⟩ := hwritten.read hform
    rw [hm, Option.some.injEq]
    exact ⟨fun heq => heq ▸ hdenotes, hdenotes.unique⟩
  · rintro d x (_ | _ | ⟨_, _, hnearest⟩)
    rw [← hnearest.overflow, Binary.isInfinite, decide_eq_true_eq]

open Numeral in
/-- The least integer of 64 bits is a numeral, although its magnitude does not fit. -/
theorem least_integer_numeral :
    parse? (Bytes.ofString " -9223372036854775808\n") = some (.int Int64.minValue) := by
  let form : Form := .decimal ⟨.minus, "9223372036854775808".toList, none, none⟩
  have hform : form.WellFormed := ⟨by decide, nofun, .inl (by decide), nofun⟩
  have hwritten : form.WrittenIn (Bytes.ofString " -9223372036854775808\n") :=
    ⟨[' '], ['\n'], forall_of_all (by decide), rfl⟩
  exact ((numeral_grammar _).2.1 form hform hwritten _).mpr
    (.integer ⟨rfl, rfl, by decide, by decide⟩ (by decide))

end StackEmbedding
