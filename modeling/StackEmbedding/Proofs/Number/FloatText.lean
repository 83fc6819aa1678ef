import StackEmbedding.Number.FloatText
import StackEmbedding.Proofs.Number.Reader

/-!
# The text of a float is its value to fourteen digits

A finite float is written in one of two notations, and both texts are taken apart into a
`DecimalForm` of the grammar of numerals (`fixedForm`, `scientificForm`). Trimming drops zeros at
the end of a fraction only, which does not change what the text is worth (`magnitude_of_digits`),
and what is left has a point or an exponent, so that it is never read as an integer
(`Binary.Prints.read`).

The fixed notation rounds the float a second time. It finds the digits of the first rounding again
(`Binary.inPlaces_eq`): both round the same number in the same unit, because a number that rounds
up to a power of ten rounds to that power in the coarser unit as well (`RoundsTo.coarsen`).

**What is established here.** `float_text_rounds`: the text of every finite float is the float
rounded to fourteen significant digits, in the notation that the exponent of the rounding asks
for. That an infinity or a NaN has a text which is no numeral is part of it; which text that is, is
not.
-/

set_option autoImplicit false

namespace StackEmbedding

open Numeral

namespace FloatText

variable {c : Char} {cs front digits : List Char} {places width n : Nat}

/-! ## Digits of a given width -/

theorem isDigits_toDigits (n : Nat) : IsDigits (Nat.toDigits 10 n) :=
  fun _ => Nat.isDigit_of_mem_toDigits (by decide) (by decide)

theorem isDigits_padded (width n : Nat) : IsDigits (padded width n) := by
  intro c hc
  rcases List.mem_append.mp hc with hzero | hdigit
  · rw [List.eq_of_mem_replicate hzero]
    decide
  · exact isDigits_toDigits n c hdigit

theorem ofDigitChars_padded (width n : Nat) : Nat.ofDigitChars 10 (padded width n) 0 = n := by
  rw [padded, Nat.ofDigitChars_append, Nat.ofDigitChars_replicate_zero, Nat.mul_zero,
    Nat.ofDigitChars_ten_toDigits]

theorem le_length_padded (width n : Nat) : width ≤ (padded width n).length := by
  rw [padded, List.length_append, List.length_replicate]
  omega

theorem length_padded (hwidth : 0 < width) (h : n < 10 ^ width) :
    (padded width n).length = width := by
  have hlength := (Nat.length_toDigits_le_iff (by decide) hwidth).mpr h
  rw [padded, List.length_append, List.length_replicate]
  omega

/-! ## Dropping characters at the end -/

theorem trimEnd_append_replicate (c : Char) (cs : List Char) (k : Nat) :
    trimEnd c (cs ++ List.replicate k c) = trimEnd c cs := by
  rw [trimEnd, List.reverse_append, List.reverse_replicate, List.dropWhile_append_of_pos]
  · rfl
  · intro d hd
    exact decide_eq_true (List.eq_of_mem_replicate hd)

theorem trimEnd_of_getLast? (h : cs.getLast? ≠ some c) : trimEnd c cs = cs := by
  rcases List.eq_nil_or_concat' cs with rfl | ⟨start, d, rfl⟩
  · rfl
  · rw [List.getLast?_concat, ne_eq, Option.some.injEq] at h
    rw [trimEnd, List.reverse_append, List.reverse_singleton, List.singleton_append,
      List.dropWhile_cons_of_neg (by simpa using h), List.reverse_cons, List.reverse_reverse]

theorem getLast?_trimEnd (c : Char) (cs : List Char) : (trimEnd c cs).getLast? ≠ some c := by
  have hhead := List.head?_dropWhile_not (· = c) cs.reverse
  rw [trimEnd, List.getLast?_reverse]
  intro hlast
  rw [hlast] at hhead
  simp at hhead

/-- What is dropped is a run of the character. -/
theorem exists_replicate (c : Char) (cs : List Char) :
    ∃ k, cs = trimEnd c cs ++ List.replicate k c := by
  refine ⟨(cs.reverse.takeWhile (· = c)).length, ?_⟩
  have hrun : cs.reverse.takeWhile (· = c) =
      List.replicate (cs.reverse.takeWhile (· = c)).length c :=
    List.eq_replicate_of_mem fun d hd =>
      of_decide_eq_true (List.all_eq_true.mp List.all_takeWhile d hd)
  conv_lhs => rw [← List.reverse_reverse cs, ← List.takeWhile_append_dropWhile (p := (· = c))
    (l := cs.reverse), List.reverse_append, hrun, List.reverse_replicate]
  rfl

theorem isDigits_trimEnd (h : IsDigits cs) : IsDigits (trimEnd c cs) := by
  obtain ⟨k, hk⟩ := exists_replicate c cs
  intro d hd
  apply h d
  rw [hk]
  exact List.mem_append_left _ hd

/-- A fraction after its point, or nothing where the fraction is empty. -/
def pointed (digits : List Char) : List Char := if digits = [] then [] else '.' :: digits

/-- Trimming drops the zeros at the end of a fraction, and the point with the last digit. -/
theorem trimFraction_point (hfront : front.getLast? ≠ some '.') (hdigits : IsDigits digits) :
    trimFraction (front ++ '.' :: digits) = front ++ pointed (trimEnd '0' digits) := by
  obtain ⟨k, hk⟩ := exists_replicate '0' digits
  have hlast := getLast?_trimEnd '0' digits
  have hkept := isDigits_trimEnd (c := '0') hdigits
  generalize trimEnd '0' digits = kept at *
  have hpoint : (front ++ '.' :: digits).contains '.' = true := by simp
  rw [trimFraction, if_pos hpoint, hk, ← List.cons_append, ← List.append_assoc,
    trimEnd_append_replicate, pointed]
  split
  next hempty =>
    have hlast : (front ++ ['.']).getLast? ≠ some '0' := by rw [List.getLast?_concat]; decide
    rw [hempty, trimEnd_of_getLast? hlast, ← List.replicate_one, trimEnd_append_replicate,
      trimEnd_of_getLast? hfront, List.append_nil]
  next hne =>
    have hend : (front ++ '.' :: kept).getLast? = kept.getLast? := by
      rw [List.getLast?_append, List.getLast?_cons, List.getLast?_eq_some_getLast hne]
      rfl
    have hdigit : kept.getLast? ≠ some '.' := by
      intro heq
      have := hkept '.' (List.mem_of_getLast? heq)
      revert this
      decide
    rw [← hend] at hlast hdigit
    rw [trimEnd_of_getLast? hlast, trimEnd_of_getLast? hdigit]

theorem trimFraction_whole (h : '.' ∉ cs) : trimFraction cs = cs := by
  rw [trimFraction, if_neg]
  simpa using h

/-! ## The mark of a float -/

theorem marked_of_mem (h : '.' ∈ cs ∨ 'e' ∈ cs) : marked cs = cs := by
  rw [marked, if_pos]
  simpa using h

theorem marked_of_not_mem (hpoint : '.' ∉ cs) (hmark : 'e' ∉ cs) :
    marked cs = cs ++ ['.', '0'] := by
  rw [marked, if_neg]
  simpa using And.intro hpoint hmark

/-! ## The texts as decimals of the grammar -/

/-- The digits after the point of `n / 10^places`. -/
def fractionDigits (places n : Nat) : List Char :=
  if places = 0 then [] else padded places (n % 10 ^ places)

theorem isDigits_fractionDigits (places n : Nat) : IsDigits (fractionDigits places n) := by
  unfold fractionDigits
  split
  · nofun
  · exact isDigits_padded _ _

theorem signText_eq (negative : Bool) : signText negative = (Sign.ofMinus negative).text := by
  cases negative <;> rfl

/-- Neither a point nor the mark of an exponent is in a sign with digits. -/
theorem not_mem_of_digits (negative : Bool) (h : IsDigits digits) (hc : c = '.' ∨ c = 'e') :
    c ∉ signText negative ++ digits := by
  intro hmem
  rcases List.mem_append.mp hmem with hsign | hdigit
  · cases negative with
    | false => cases hsign
    | true =>
      cases List.mem_singleton.mp hsign
      revert hc
      decide
  · have := h c hdigit
    obtain rfl | rfl := hc <;> revert this <;> decide

theorem trimFraction_fixedText (negative : Bool) (places n : Nat) :
    trimFraction (signText negative ++ fixedText places n) =
      signText negative ++ Nat.toDigits 10 (n / 10 ^ places) ++
        pointed (trimEnd '0' (fractionDigits places n)) := by
  have hwhole := isDigits_toDigits (n / 10 ^ places)
  have hpoint := not_mem_of_digits negative hwhole (.inl rfl)
  simp only [fixedText, fractionDigits, Nat.pow_eq]
  split
  next => rw [List.append_nil, trimFraction_whole hpoint]; exact (List.append_nil _).symm
  next =>
    rw [← List.append_assoc, trimFraction_point]
    · exact fun hlast => hpoint (List.mem_of_getLast? hlast)
    · exact isDigits_padded _ _

/-- The decimal that a positional text writes. -/
def fixedForm (negative : Bool) (places n : Nat) : DecimalForm :=
  let kept := trimEnd '0' (fractionDigits places n)
  ⟨.ofMinus negative, Nat.toDigits 10 (n / 10 ^ places), some (if kept = [] then ['0'] else kept),
    none⟩

/-- The exponent of a scientific text. -/
def exponentForm (e : Int) : ExponentForm :=
  ⟨'e', if e < 0 then .minus else .plus, padded 2 e.natAbs⟩

theorem text_exponentForm (e : Int) : (exponentForm e).text = 'e' :: exponentText e := by
  simp only [exponentForm, ExponentForm.text, exponentText]
  split <;> rfl

theorem value_exponentForm (e : Int) : (exponentForm e).value = e := by
  simp only [exponentForm, ExponentForm.value, ofDigitChars_padded]
  split
  · change -(e.natAbs : Int) = e
    omega
  · change (e.natAbs : Int) = e
    omega

/-- The decimal that a scientific text writes. -/
def scientificForm (negative : Bool) (n : Nat) (e : Int) : DecimalForm :=
  let kept := trimEnd '0' (fractionDigits 13 n)
  ⟨.ofMinus negative, Nat.toDigits 10 (n / 10 ^ 13), if kept = [] then none else some kept,
    some (exponentForm e)⟩

theorem text_fixedForm (negative : Bool) (places n : Nat) :
    marked (trimFraction (signText negative ++ fixedText places n)) =
      (fixedForm negative places n).text := by
  have hwhole := isDigits_toDigits (n / 10 ^ places)
  rw [trimFraction_fixedText, pointed]
  simp only [fixedForm, DecimalForm.text, DecimalForm.unsigned, DecimalForm.fractionText,
    DecimalForm.exponentText, Option.elim_some, Option.elim_none, ← signText_eq]
  split
  next hempty =>
    have hpoint := not_mem_of_digits negative hwhole (.inl rfl)
    have hmark := not_mem_of_digits negative hwhole (.inr rfl)
    rw [List.append_nil, marked_of_not_mem hpoint hmark, List.append_assoc]
    rfl
  next hkept => rw [marked_of_mem (.inl (by simp)), List.append_assoc, List.append_nil]

theorem text_scientificForm (negative : Bool) (n : Nat) (e : Int) :
    marked (trimFraction (signText negative ++ fixedText 13 n) ++ 'e' :: exponentText e) =
      (scientificForm negative n e).text := by
  rw [trimFraction_fixedText, marked_of_mem (.inr (by simp)), pointed]
  simp only [scientificForm, DecimalForm.text, DecimalForm.unsigned, DecimalForm.fractionText,
    DecimalForm.exponentText, Option.elim_some, text_exponentForm, ← signText_eq]
  split <;> simp only [List.append_assoc] <;> rfl

theorem wellFormed_fixedForm (negative : Bool) (places n : Nat) :
    (fixedForm negative places n).WellFormed := by
  refine ⟨isDigits_toDigits _, ?_, .inl Nat.toDigits_ne_nil, nofun⟩
  rintro _ ⟨⟩
  split
  · decide
  · exact isDigits_trimEnd (isDigits_fractionDigits _ _)

theorem wellFormed_scientificForm (negative : Bool) (n : Nat) (e : Int) :
    (scientificForm negative n e).WellFormed := by
  refine ⟨isDigits_toDigits _, ?_, .inl Nat.toDigits_ne_nil, ?_⟩
  · intro digits hdigits
    simp only [scientificForm] at hdigits
    split at hdigits
    · cases hdigits
    · cases hdigits
      exact isDigits_trimEnd (isDigits_fractionDigits _ _)
  · rintro _ ⟨⟩
    refine ⟨.inl rfl, ?_, isDigits_padded _ _⟩
    exact List.append_ne_nil_of_right_ne_nil _ Nat.toDigits_ne_nil

/-! ## What the texts are worth -/

/-- The digits after a point, as a number below one. -/
def fractionValue (digits : List Char) : ℚ := Nat.ofDigitChars 10 digits 0 / 10 ^ digits.length

/-- Zeros at the end of a fraction do not count. -/
theorem fractionValue_trimEnd (digits : List Char) :
    fractionValue (trimEnd '0' digits) = fractionValue digits := by
  obtain ⟨k, hk⟩ := exists_replicate '0' digits
  conv_rhs => rw [hk]
  rw [fractionValue, fractionValue, Nat.ofDigitChars_append, Nat.ofDigitChars_replicate_zero,
    List.length_append, List.length_replicate, pow_add]
  push_cast
  field_simp

theorem fractionValue_fractionDigits (places n : Nat) :
    fractionValue (fractionDigits places n) = (n % 10 ^ places : Nat) / 10 ^ places := by
  unfold fractionDigits
  split
  next hzero =>
    rw [hzero, pow_zero, Nat.mod_one]
    simp [fractionValue]
  next hpositive =>
    have hlength := length_padded (Nat.pos_of_ne_zero hpositive)
      (Nat.mod_lt n (Nat.pow_pos (n := places) (by decide : 0 < 10)))
    rw [fractionValue, ofDigitChars_padded, hlength]

theorem whole_add_fraction (places n : Nat) :
    ((n / 10 ^ places : Nat) : ℚ) + (n % 10 ^ places : Nat) / 10 ^ places = n / 10 ^ places := by
  have hsplit : ((n / 10 ^ places : Nat) : ℚ) * 10 ^ places + (n % 10 ^ places : Nat) = n := by
    exact_mod_cast Nat.div_add_mod' n (10 ^ places)
  field_simp
  exact hsplit

/-- A decimal with the digits of `n / 10^places` is that number times the power of ten that its
exponent says. -/
theorem magnitude_of_digits {d : DecimalForm} (places n : Nat)
    (hwhole : d.whole = Nat.toDigits 10 (n / 10 ^ places))
    (hfraction : fractionValue (d.fraction.getD []) = fractionValue (fractionDigits places n)) :
    d.magnitude = n / 10 ^ places * 10 ^ d.exponent.elim 0 ExponentForm.value := by
  rw [DecimalForm.magnitude, ← fractionValue, hfraction, fractionValue_fractionDigits, hwhole,
    Nat.ofDigitChars_ten_toDigits, whole_add_fraction]

/-- A positional text writes the number it was made from. -/
theorem magnitude_fixedForm (negative : Bool) (places n : Nat) :
    (fixedForm negative places n).magnitude = n / 10 ^ places := by
  rw [magnitude_of_digits places n rfl, fixedForm]
  · exact mul_one _
  · rw [fixedForm, Option.getD_some, ← fractionValue_trimEnd (fractionDigits places n)]
    split
    next hempty =>
      have hzero : Nat.ofDigitChars 10 ['0'] 0 = 0 := rfl
      simp [hempty, fractionValue, hzero]
    next => rfl

/-- A scientific text writes the number it was made from. -/
theorem magnitude_scientificForm (negative : Bool) (n : Nat) (e : Int) :
    (scientificForm negative n e).magnitude = n * 10 ^ (e - 13) := by
  rw [magnitude_of_digits 13 n rfl, scientificForm]
  · rw [Option.elim_some, value_exponentForm]
    rw [zpow_sub₀ (by norm_num)]
    field_simp
  · rw [scientificForm, ← fractionValue_trimEnd (fractionDigits 13 n)]
    split
    next hempty => rw [hempty]; rfl
    next => rfl

end FloatText

/-! ## Rounding twice -/

namespace Binary

open FloatText

variable {x : Binary64}

theorem toRat_of_code_zero (hcode : x.code = 0) : |x.toRat| = 0 := by
  rw [abs_toRat, hcode, BinaryFormat.magnitude_zero]

theorem numerator_pos (hcode : x.code ≠ 0) : 0 < x.numerator := by
  apply Nat.pos_of_ne_zero
  intro hzero
  have hmagnitude := x.numerator_div_denominator
  rw [hzero, Nat.cast_zero, zero_div, ← BinaryFormat.binary64.magnitude_zero] at hmagnitude
  exact hcode (BinaryFormat.binary64.magnitude_strictMono.injective hmagnitude).symm

/-- The number that the scientific form of a float stands for. -/
def scientificValue (x : Binary64) : ℚ := x.scientific.digits * 10 ^ (x.scientific.exponent - 13)

theorem significant_scientific (hcode : x.code ≠ 0) :
    RoundsToDigits 14 |x.toRat| x.scientificValue ∧
      RoundsTo (|x.toRat| / 10 ^ (x.scientific.exponent - 13)) x.scientific.digits ∧
      10 ^ 13 ≤ x.scientific.digits ∧ x.scientific.digits < 10 ^ 14 := by
  have hrounds := Decimal.significant_rounds (by decide : 0 < 14) (numerator_pos hcode)
    x.denominator_pos
  rw [x.numerator_div_denominator, ← abs_toRat] at hrounds
  rw [scientificValue, scientific, if_neg hcode]
  dsimp only
  rwa [add_sub_cancel_right]

/-- The first rounding, in the unit of the last digit. -/
theorem scientific_rounds (x : Binary64) :
    RoundsTo (|x.toRat| / 10 ^ (x.scientific.exponent - 13)) x.scientific.digits := by
  by_cases hcode : x.code = 0
  · rw [toRat_of_code_zero hcode, zero_div, scientific, if_pos hcode]
    exact ⟨by norm_num, by norm_num⟩
  · exact (significant_scientific hcode).2.1

/-- The second rounding, in places after the point. -/
theorem inPlaces_rounds (x : Binary64) (places : Nat) :
    RoundsTo (|x.toRat| * 10 ^ places) (x.inPlaces places) := by
  have hrounds := roundsTo_roundDiv (x.numerator * Nat.pow 10 places) x.denominator_pos
  rw [abs_toRat, ← x.numerator_div_denominator, div_mul_eq_mul_div]
  rw [Nat.cast_mul, Nat.pow_eq, Nat.cast_pow, Nat.cast_ofNat] at hrounds
  exact hrounds

theorem ten_zpow_eq {e : Int} (h : e ≤ 13) : (10 : ℚ) ^ (e - 13) = (10 ^ (13 - e).toNat)⁻¹ := by
  rw [← zpow_natCast, ← zpow_neg]
  congr 1
  omega

/-- The second rounding finds the digits of the first one again, also where the first one carried
into a new power of ten and left one place less. -/
theorem inPlaces_eq (hexponent : x.scientific.exponent ≤ 13) :
    x.inPlaces (13 - x.scientific.exponent).toNat = x.scientific.digits := by
  have hfirst := x.scientific_rounds
  rw [ten_zpow_eq hexponent, div_inv_eq_mul] at hfirst
  exact (x.inPlaces_rounds _).unique hfirst

/-- Fourteen digits put the number between two powers of ten. -/
theorem scientificValue_bounds (hcode : x.code ≠ 0) :
    10 ^ x.scientific.exponent ≤ x.scientificValue ∧
      x.scientificValue < 10 ^ (x.scientific.exponent + 1) := by
  obtain ⟨-, -, hleast, hmost⟩ := significant_scientific hcode
  have hunit := ten_zpow_pos (x.scientific.exponent - 13)
  have hleast' : (10 : ℚ) ^ (13 : Int) ≤ x.scientific.digits := by exact_mod_cast hleast
  have hmost' : (x.scientific.digits : ℚ) < 10 ^ (14 : Int) := by exact_mod_cast hmost
  constructor
  · calc (10 : ℚ) ^ x.scientific.exponent
        = 10 ^ (13 : Int) * 10 ^ (x.scientific.exponent - 13) := by
          rw [← zpow_add₀ (by norm_num), add_sub_cancel]
      _ ≤ x.scientificValue := mul_le_mul_of_nonneg_right hleast' hunit.le
  · calc x.scientificValue < 10 ^ (14 : Int) * 10 ^ (x.scientific.exponent - 13) :=
          mul_lt_mul_of_pos_right hmost' hunit
      _ = 10 ^ (x.scientific.exponent + 1) := by
          rw [← zpow_add₀ (by norm_num)]
          congr 1
          omega

/-! ## The text of a float -/

/-- Whether a float is written without an exponent. -/
def IsPositional (x : Binary64) : Prop := -4 ≤ x.scientific.exponent ∧ x.scientific.exponent < 14

instance (x : Binary64) : Decidable x.IsPositional :=
  inferInstanceAs (Decidable (_ ∧ _))

/-- The decimal that the text of a finite float is. -/
def textForm (x : Binary64) : DecimalForm :=
  if x.IsPositional then fixedForm x.negative (13 - x.scientific.exponent).toNat x.scientific.digits
  else scientificForm x.negative x.scientific.digits x.scientific.exponent

theorem coercedText_eq (hx : x.isFinite = true) :
    x.coercedText = String.ofList x.textForm.text := by
  have hlt := of_decide_eq_true hx
  have hnan : x.isNaN = false := decide_eq_false hlt.le.not_gt
  have hinfinite : x.isInfinite = false := decide_eq_false hlt.ne
  rw [coercedText, hnan, hinfinite, if_neg nofun, if_neg nofun, digitsText, textForm]
  simp only [Bool.and_eq_true, decide_eq_true_eq, ← IsPositional.eq_def]
  split
  next hrange => rw [inPlaces_eq (by have := hrange.2; omega), text_fixedForm]
  next => rw [text_scientificForm]

theorem wellFormed_textForm (x : Binary64) : x.textForm.WellFormed := by
  unfold textForm
  split
  · exact wellFormed_fixedForm _ _ _
  · exact wellFormed_scientificForm _ _ _

theorem magnitude_textForm (x : Binary64) : x.textForm.magnitude = x.scientificValue := by
  unfold textForm
  split
  next hrange =>
    rw [magnitude_fixedForm, scientificValue, ten_zpow_eq (by have := hrange.2; omega),
      div_eq_mul_inv]
  next => rw [magnitude_scientificForm, scientificValue]

theorem sign_textForm (x : Binary64) : x.textForm.sign = .ofMinus x.negative := by
  unfold textForm
  split <;> rfl

end Binary

namespace Numeral.DecimalForm

/-- Fixed notation: an exponent of the leading digit from minus four to thirteen, no exponent
mark, and a fraction without zeros at the end unless it is a lone zero. -/
structure Positional (d : DecimalForm) : Prop where
  range : d.magnitude = 0 ∨ 10 ^ (-4 : Int) ≤ d.magnitude ∧ d.magnitude < 10 ^ (14 : Int)
  exponent : d.exponent = none
  fraction : ∃ digits, d.fraction = some digits ∧ digits ≠ [] ∧
    (digits.getLast? = some '0' → digits = ['0'])

/-- Scientific notation: any other exponent of the leading digit, one digit before the point, no
zeros at the end of the fraction, and the exponent with its sign and two digits at least. -/
structure Scientific (d : DecimalForm) : Prop where
  range : d.magnitude ≠ 0 ∧ (d.magnitude < 10 ^ (-4 : Int) ∨ 10 ^ (14 : Int) ≤ d.magnitude)
  whole : d.whole.length = 1
  fraction : ∀ digits ∈ d.fraction, digits ≠ [] ∧ digits.getLast? ≠ some '0'
  exponent : ∃ e, d.exponent = some e ∧ e.mark = 'e' ∧ e.sign ≠ .none ∧ 2 ≤ e.digits.length ∧
    10 ^ e.value ≤ d.magnitude ∧ d.magnitude < 10 ^ (e.value + 1)

end Numeral.DecimalForm

namespace Binary

open FloatText

variable {x : Binary64}

theorem positional_textForm (hrange : x.IsPositional) : x.textForm.Positional := by
  have hmagnitude := x.magnitude_textForm
  rw [textForm, if_pos hrange] at hmagnitude ⊢
  refine ⟨?_, rfl, _, rfl, ?_, ?_⟩
  · rw [hmagnitude]
    by_cases hcode : x.code = 0
    · left
      rw [scientificValue, scientific, if_pos hcode, Nat.cast_zero, zero_mul]
    · right
      obtain ⟨hlow, hhigh⟩ := scientificValue_bounds hcode
      exact ⟨(zpow_le_zpow_right₀ (by norm_num) hrange.1).trans hlow,
        hhigh.trans_le (zpow_le_zpow_right₀ (by norm_num) hrange.2)⟩
  · split
    · nofun
    next hne => exact hne
  · split
    · exact fun _ => rfl
    · exact fun hlast => absurd hlast (getLast?_trimEnd _ _)

theorem scientific_textForm (hrange : ¬ x.IsPositional) : x.textForm.Scientific := by
  have hmagnitude := x.magnitude_textForm
  have hcode : x.code ≠ 0 := by
    intro hcode
    apply hrange
    rw [IsPositional, scientific, if_pos hcode]
    decide
  obtain ⟨hlow, hhigh⟩ := scientificValue_bounds hcode
  obtain ⟨-, -, -, hmost⟩ := significant_scientific hcode
  rw [textForm, if_neg hrange] at hmagnitude ⊢
  refine ⟨?_, ?_, ?_, exponentForm x.scientific.exponent, rfl, rfl, ?_, le_length_padded 2 _, ?_⟩
  · rw [hmagnitude]
    refine ⟨((ten_zpow_pos _).trans_le hlow).ne', ?_⟩
    rcases lt_or_ge x.scientific.exponent (-4) with hsmall | hlarge
    · exact .inl (hhigh.trans_le (zpow_le_zpow_right₀ (by norm_num) hsmall))
    · have hgreat : 14 ≤ x.scientific.exponent := not_lt.mp fun hlt => hrange ⟨hlarge, hlt⟩
      exact .inr ((zpow_le_zpow_right₀ (by norm_num) hgreat).trans hlow)
  · have hfirst : x.scientific.digits / 10 ^ 13 < 10 := Nat.div_lt_of_lt_mul hmost
    rw [scientificForm, Nat.toDigits_of_lt_base hfirst]
    rfl
  · intro digits hdigits
    simp only [scientificForm] at hdigits
    split at hdigits
    · cases hdigits
    next hne =>
      cases hdigits
      exact ⟨hne, getLast?_trimEnd _ _⟩
  · simp only [exponentForm]
    split <;> nofun
  · rw [hmagnitude, value_exponentForm]
    exact ⟨hlow, hhigh⟩

/-- What the text of a finite float says: with its sign, the float rounded to fourteen significant
digits, in one of the two notations. -/
structure Prints (x : Binary64) (d : DecimalForm) : Prop where
  wellFormed : d.WellFormed
  text : x.coercedText = String.ofList d.text
  sign : d.sign = .ofMinus x.negative
  zero : x.code = 0 → d.magnitude = 0
  rounded : x.code ≠ 0 → RoundsToDigits 14 |x.toRat| d.magnitude
  layout : d.Positional ∨ d.Scientific

theorem prints_textForm (hx : x.isFinite = true) : x.Prints x.textForm where
  wellFormed := x.wellFormed_textForm
  text := coercedText_eq hx
  sign := x.sign_textForm
  zero hcode := by
    rw [magnitude_textForm, scientificValue, scientific, if_pos hcode, Nat.cast_zero, zero_mul]
  rounded hcode := by
    rw [magnitude_textForm]
    exact (significant_scientific hcode).1
  layout := by
    by_cases hrange : x.IsPositional
    · exact .inl (positional_textForm hrange)
    · exact .inr (scientific_textForm hrange)

/-- The text of a finite float is read as a float: it has a point or an exponent. -/
theorem Prints.read {d : DecimalForm} (h : x.Prints d) :
    ∃ y, parse? (Bytes.ofString x.coercedText) = some (.float y) := by
  have hwritten : (Form.decimal d).WrittenIn (Bytes.ofString x.coercedText) := by
    refine ⟨[], [], nofun, ?_⟩
    rw [List.nil_append, List.append_nil, h.text]
    rfl
  obtain ⟨n, hn, hdenotes⟩ := hwritten.read h.wellFormed
  cases hdenotes with
  | nearest => exact ⟨_, hn⟩
  | integer hrange =>
    obtain ⟨hfraction, hexponent, -⟩ := hrange
    rcases h.layout with hpositional | hscientific
    · obtain ⟨digits, hdigits, -⟩ := hpositional.fraction
      rw [hfraction] at hdigits
      cases hdigits
    · obtain ⟨e, he, -⟩ := hscientific.exponent
      rw [hexponent] at he
      cases he

theorem parse_of_not_finite (hx : x.isFinite = false) :
    parse? (Bytes.ofString x.coercedText) = none := by
  have hge := of_decide_eq_false hx
  rw [coercedText]
  by_cases hnan : x.isNaN = true
  · rw [if_pos hnan]
    cases x.negative <;> decide
  · have hinfinite : x.isInfinite = true := by
      have hle := Nat.le_of_not_lt (mt decide_eq_true hnan)
      exact decide_eq_true (Nat.le_antisymm hle (Nat.le_of_not_lt hge))
    rw [if_neg hnan, if_pos hinfinite]
    cases x.negative <;> decide

end Binary

open Binary in
/-- The text of a finite float is the float rounded to fourteen significant digits, and is read as
a float again. The texts of infinities and NaNs are not read as numbers. -/
theorem float_text_rounds (x : Binary64) :
    (x.isFinite = true →
      (∃ d : DecimalForm, x.Prints d) ∧
        ∃ y, parse? (Bytes.ofString x.coercedText) = some (.float y)) ∧
      (x.isFinite = false → parse? (Bytes.ofString x.coercedText) = none) := by
  refine ⟨fun hx => ?_, parse_of_not_finite⟩
  have hprints := prints_textForm hx
  exact ⟨⟨_, hprints⟩, hprints.read⟩

/-- The greatest float below a thousand. Its fourteen digits are those of a thousand. -/
def belowThousand : Binary64 := Binary.ofBits .binary64 0x408f3fffffffffff

/-- The texts of a float whose rounding carries, and of an infinity. -/
theorem below_thousand_text :
    belowThousand.isFinite = true ∧ belowThousand.coercedText = "1000.0" ∧
      (∃ d : DecimalForm, belowThousand.Prints d) ∧
      (∃ y, parse? (Bytes.ofString "1000.0") = some (.float y)) ∧
      (Binary.infinity true : Binary64).isFinite = false ∧
      parse? (Bytes.ofString (Binary.infinity true : Binary64).coercedText) = none := by
  have hfinite : belowThousand.isFinite = true := by decide
  have htext : belowThousand.coercedText = "1000.0" := rfl
  have hinfinite : (Binary.infinity true : Binary64).isFinite = false := by decide
  obtain ⟨hprints, hread⟩ := (float_text_rounds belowThousand).1 hfinite
  rw [htext] at hread
  exact ⟨hfinite, htext, hprints, hread, hinfinite, (float_text_rounds _).2 hinfinite⟩

end StackEmbedding
