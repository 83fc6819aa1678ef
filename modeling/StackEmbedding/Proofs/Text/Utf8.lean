import StackEmbedding.Text.Bytes

/-!
# The decoder reads back what the encoder writes

`Utf8 v bytes` says that `bytes` is the form of the character with the number `v`: one to four
bytes, the range of the second excluding longer forms, surrogates and numbers that are too great.
The encoder writes that form and the decoder reads it, and a decoder that never answers a
replacement has read nothing else. So a byte string is a text exactly when it is the encoding of
that text (`Bytes.text?_eq_some_iff`).
-/

set_option autoImplicit false

namespace StackEmbedding

/-- The bytes of the character with a number. -/
inductive Utf8 : Nat → Bytes → Prop
  | one {a : UInt8} : a.toNat < 0x80 → Utf8 a.toNat [a]
  | two {a b : UInt8} : 0xC2 ≤ a.toNat → a.toNat < 0xE0 → 0x80 ≤ b.toNat → b.toNat ≤ 0xBF →
      Utf8 ((a.toNat - 0xC0) * 64 + (b.toNat - 0x80)) [a, b]
  | three {a b c : UInt8} : 0xE0 ≤ a.toNat → a.toNat < 0xF0 →
      (if a.toNat = 0xE0 then 0xA0 else 0x80) ≤ b.toNat →
      b.toNat ≤ (if a.toNat = 0xED then 0x9F else 0xBF) → 0x80 ≤ c.toNat → c.toNat ≤ 0xBF →
      Utf8 (((a.toNat - 0xE0) * 64 + (b.toNat - 0x80)) * 64 + (c.toNat - 0x80)) [a, b, c]
  | four {a b c d : UInt8} : 0xF0 ≤ a.toNat → a.toNat < 0xF5 →
      (if a.toNat = 0xF0 then 0x90 else 0x80) ≤ b.toNat →
      b.toNat ≤ (if a.toNat = 0xF4 then 0x8F else 0xBF) → 0x80 ≤ c.toNat → c.toNat ≤ 0xBF →
      0x80 ≤ d.toNat → d.toNat ≤ 0xBF →
      Utf8 ((((a.toNat - 0xF0) * 64 + (b.toNat - 0x80)) * 64 + (c.toNat - 0x80)) * 64 +
        (d.toNat - 0x80)) [a, b, c, d]

/-! ## The encoder -/

namespace Utf8

variable {v : Nat} {bytes rest : Bytes}

theorem toNat_ofNat {n : Nat} (h : n < 256) : (UInt8.ofNat n).toNat = n :=
  UInt8.toNat_ofNat_of_lt' h

theorem ofNat_eq {n : Nat} {a : UInt8} (h : n = a.toNat) : UInt8.ofNat n = a := by
  rw [h, UInt8.ofNat_toNat]

/-- The encoder writes the form of a character. -/
theorem of_char (c : Char) : Utf8 c.toNat (String.utf8EncodeChar c) := by
  have hvalid : c.toNat < 0xD800 ∨ 0xDFFF < c.toNat ∧ c.toNat < 0x110000 := c.valid
  simp only [String.utf8EncodeChar, show c.val.toNat = c.toNat from rfl]
  generalize c.toNat = v at *
  split
  next h =>
    have hform := one (a := UInt8.ofNat v) (by rw [toNat_ofNat (by omega)]; omega)
    rwa [toNat_ofNat (by omega)] at hform
  next =>
    split
    next h =>
      have ha := toNat_ofNat (n := v / 64 % 0x20 + 0xC0) (by omega)
      have hb := toNat_ofNat (n := v % 0x40 + 0x80) (by omega)
      have hform := two (a := UInt8.ofNat (v / 64 % 0x20 + 0xC0))
        (b := UInt8.ofNat (v % 0x40 + 0x80)) (by omega) (by omega) (by omega) (by omega)
      rw [ha, hb] at hform
      rwa [show (v / 64 % 0x20 + 0xC0 - 0xC0) * 64 + (v % 0x40 + 0x80 - 0x80) = v by omega] at hform
    next =>
      split
      next h =>
        have ha := toNat_ofNat (n := v / 4096 % 0x10 + 0xE0) (by omega)
        have hb := toNat_ofNat (n := v / 64 % 0x40 + 0x80) (by omega)
        have hc := toNat_ofNat (n := v % 0x40 + 0x80) (by omega)
        have hform := three (a := UInt8.ofNat (v / 4096 % 0x10 + 0xE0))
          (b := UInt8.ofNat (v / 64 % 0x40 + 0x80)) (c := UInt8.ofNat (v % 0x40 + 0x80))
          (by omega) (by omega) (by split <;> omega) (by split <;> omega) (by omega) (by omega)
        rw [ha, hb, hc] at hform
        rwa [show ((v / 4096 % 0x10 + 0xE0 - 0xE0) * 64 + (v / 64 % 0x40 + 0x80 - 0x80)) * 64 +
          (v % 0x40 + 0x80 - 0x80) = v by omega] at hform
      next h =>
        have ha := toNat_ofNat (n := v / 262144 % 0x08 + 0xF0) (by omega)
        have hb := toNat_ofNat (n := v / 4096 % 0x40 + 0x80) (by omega)
        have hc := toNat_ofNat (n := v / 64 % 0x40 + 0x80) (by omega)
        have hd := toNat_ofNat (n := v % 0x40 + 0x80) (by omega)
        have hform := four (a := UInt8.ofNat (v / 262144 % 0x08 + 0xF0))
          (b := UInt8.ofNat (v / 4096 % 0x40 + 0x80)) (c := UInt8.ofNat (v / 64 % 0x40 + 0x80))
          (d := UInt8.ofNat (v % 0x40 + 0x80)) (by omega) (by omega) (by split <;> omega)
          (by split <;> omega) (by omega) (by omega) (by omega) (by omega)
        rw [ha, hb, hc, hd] at hform
        rwa [show (((v / 262144 % 0x08 + 0xF0 - 0xF0) * 64 + (v / 4096 % 0x40 + 0x80 - 0x80)) * 64 +
          (v / 64 % 0x40 + 0x80 - 0x80)) * 64 + (v % 0x40 + 0x80 - 0x80) = v by omega] at hform

/-- The number of a form is that of a character. -/
theorem isValid (h : Utf8 v bytes) : v < 0xD800 ∨ 0xDFFF < v ∧ v < 0x110000 := by
  cases h with
  | one ha => omega
  | two ha ha' hb hb' => omega
  | three ha ha' hb hb' hc hc' => split at hb <;> split at hb' <;> omega
  | four ha ha' hb hb' hc hc' hd hd' => split at hb <;> split at hb' <;> omega

/-- The encoder writes no other form. -/
theorem encode_eq (h : Utf8 v bytes) : String.utf8EncodeChar (Char.ofNat v) = bytes := by
  have hnumber : (Char.ofNat v).val.toNat = v := by
    rw [Char.ofNat, dif_pos h.isValid]
    rfl
  simp only [String.utf8EncodeChar, hnumber]
  cases h with
  | one ha => rw [if_pos (by omega), ofNat_eq rfl]
  | two ha ha' hb hb' =>
    rw [if_neg (by omega), if_pos (by omega)]
    simp only [List.cons.injEq, and_true]
    exact ⟨ofNat_eq (by omega), ofNat_eq (by omega)⟩
  | @three a b c ha ha' hb hb' hc hc' =>
    obtain ⟨hleast, htail⟩ : (a.toNat = 0xE0 → 0xA0 ≤ b.toNat) ∧ 0x80 ≤ b.toNat := by
      split at hb <;> omega
    have htail' : b.toNat ≤ 0xBF := by split at hb' <;> omega
    rw [if_neg (by omega), if_neg (by omega), if_pos (by omega)]
    simp only [List.cons.injEq, and_true]
    exact ⟨ofNat_eq (by omega), ofNat_eq (by omega), ofNat_eq (by omega)⟩
  | @four a b c d ha ha' hb hb' hc hc' hd hd' =>
    obtain ⟨hleast, htail⟩ : (a.toNat = 0xF0 → 0x90 ≤ b.toNat) ∧ 0x80 ≤ b.toNat := by
      split at hb <;> omega
    have htail' : b.toNat ≤ 0xBF := by split at hb' <;> omega
    rw [if_neg (by omega), if_neg (by omega), if_neg (by omega)]
    simp only [List.cons.injEq, and_true]
    exact ⟨ofNat_eq (by omega), ofNat_eq (by omega), ofNat_eq (by omega), ofNat_eq (by omega)⟩

end Utf8

/-! ## The decoder -/

namespace Decoder

variable {b value owed low high : Nat} {bytes rest : Bytes} {chars : List Char}

theorem run_cons (d : Decoder) (b : UInt8) (rest : Bytes) :
    run d (b :: rest) = (d.feed b.toNat).1 ++ run (d.feed b.toNat).2 rest := by
  cases d <;> rfl

/-- A byte that fits and is not the last one owed. -/
theorem feed_more (hlow : low ≤ b) (hhigh : b ≤ high) :
    feed (inside (owed + 2) value low high) b =
      ([], inside (owed + 1) (value * 64 + (b - 0x80)) 0x80 0xBF) := by
  rw [feed, if_pos ⟨hlow, hhigh⟩]
  rfl

/-- A byte that fits and is the last one owed. -/
theorem feed_last (hlow : low ≤ b) (hhigh : b ≤ high) :
    feed (inside 1 value low high) b = ([some (Char.ofNat (value * 64 + (b - 0x80)))], start) := by
  rw [feed, if_pos ⟨hlow, hhigh⟩]
  rfl

theorem first_ascii (h : b < 0x80) : first b = ([some (Char.ofNat b)], start) := if_pos h

theorem first_two (hlow : 0xC2 ≤ b) (hhigh : b < 0xE0) :
    first b = ([], inside 1 (b - 0xC0) 0x80 0xBF) := by
  rw [first, if_neg (by omega), if_neg (by omega), if_pos hhigh]

theorem first_three (hlow : 0xE0 ≤ b) (hhigh : b < 0xF0) :
    first b = ([], inside 2 (b - 0xE0) (if b = 0xE0 then 0xA0 else 0x80)
      (if b = 0xED then 0x9F else 0xBF)) := by
  rw [first, if_neg (by omega), if_neg (by omega), if_neg (by omega), if_pos hhigh]

theorem first_four (hlow : 0xF0 ≤ b) (hhigh : b < 0xF5) :
    first b = ([], inside 3 (b - 0xF0) (if b = 0xF0 then 0x90 else 0x80)
      (if b = 0xF4 then 0x8F else 0xBF)) := by
  rw [first, if_neg (by omega), if_neg (by omega), if_neg (by omega), if_neg (by omega),
    if_pos hhigh]

/-- The decoder reads a character from its form. -/
theorem run_form {v : Nat} (h : Utf8 v bytes) (rest : Bytes) :
    run start (bytes ++ rest) = some (Char.ofNat v) :: run start rest := by
  cases h with
  | one ha =>
    rw [List.singleton_append, run_cons, feed, first_ascii ha]
    rfl
  | two ha ha' hb hb' =>
    simp only [List.cons_append, List.nil_append, run_cons]
    rw [feed, first_two ha ha', feed_last hb hb']
    rfl
  | three ha ha' hb hb' hc hc' =>
    simp only [List.cons_append, List.nil_append, run_cons]
    rw [feed, first_three ha ha', feed_more hb hb', feed_last hc hc']
    rfl
  | four ha ha' hb hb' hc hc' hd hd' =>
    simp only [List.cons_append, List.nil_append, run_cons]
    rw [feed, first_four ha ha', feed_more hb hb', feed_more hc hc', feed_last hd hd']
    rfl

/-- The decoder reads a text back from its bytes. -/
theorem run_encode (chars : List Char) :
    run start (chars.flatMap String.utf8EncodeChar) = chars.map some := by
  induction chars with
  | nil => rfl
  | cons c rest ih =>
    rw [List.flatMap_cons, run_form (.of_char c), Char.ofNat_toNat, ih, List.map_cons]

/-- Inside a character the next byte fits, if no replacement is answered. -/
theorem fits_of_run (h : run (inside owed value low high) bytes = chars.map some) :
    ∃ b rest, bytes = b :: rest ∧ low ≤ b.toNat ∧ b.toNat ≤ high := by
  cases bytes with
  | nil => cases chars <;> cases h
  | cons b rest =>
    refine ⟨b, rest, rfl, ?_⟩
    apply Classical.byContradiction
    intro hnot
    rw [run_cons, feed, if_neg hnot] at h
    cases chars <;> cases h

theorem run_more (h : run (inside (owed + 2) value low high) bytes = chars.map some) :
    ∃ b rest, bytes = b :: rest ∧ low ≤ b.toNat ∧ b.toNat ≤ high ∧
      run (inside (owed + 1) (value * 64 + (b.toNat - 0x80)) 0x80 0xBF) rest = chars.map some := by
  obtain ⟨b, rest, rfl, hlow, hhigh⟩ := fits_of_run h
  rw [run_cons, feed_more hlow hhigh] at h
  exact ⟨b, rest, rfl, hlow, hhigh, h⟩

theorem run_last (h : run (inside 1 value low high) bytes = chars.map some) :
    ∃ b rest more, bytes = b :: rest ∧ low ≤ b.toNat ∧ b.toNat ≤ high ∧
      chars = Char.ofNat (value * 64 + (b.toNat - 0x80)) :: more ∧
      run start rest = more.map some := by
  obtain ⟨b, rest, rfl, hlow, hhigh⟩ := fits_of_run h
  rw [run_cons, feed_last hlow hhigh] at h
  cases chars with
  | nil => cases h
  | cons c more =>
    obtain ⟨hc, hrest⟩ := List.cons.inj h
    exact ⟨b, rest, more, rfl, hlow, hhigh, by rw [Option.some.inj hc], hrest⟩

/-- Where no replacement is answered, the bytes begin with the form of the first character. -/
theorem form_of_run {a : UInt8} (h : run start (a :: rest) = chars.map some) :
    ∃ v form after more, Utf8 v form ∧ a :: rest = form ++ after ∧ form ≠ [] ∧
      chars = Char.ofNat v :: more ∧ run start after = more.map some := by
  rw [run_cons, feed] at h
  have hnone : first a.toNat ≠ ([none], start) := by
    intro hnone
    rw [hnone] at h
    cases chars <;> cases h
  by_cases hascii : a.toNat < 0x80
  · rw [first_ascii hascii] at h
    cases chars with
    | nil => cases h
    | cons c more =>
      obtain ⟨hc, hrest⟩ := List.cons.inj h
      exact ⟨_, [a], rest, more, .one hascii, rfl, nofun, by rw [Option.some.inj hc], hrest⟩
  have hlow : 0xC2 ≤ a.toNat := by
    apply Nat.le_of_not_lt
    intro hlt
    exact hnone (by rw [first, if_neg hascii, if_pos hlt])
  by_cases htwo : a.toNat < 0xE0
  · rw [first_two hlow htwo] at h
    obtain ⟨b, rest, more, rfl, hb, hb', rfl, hmore⟩ := run_last h
    exact ⟨_, [a, b], rest, more, .two hlow htwo hb hb', rfl, nofun, rfl, hmore⟩
  by_cases hthree : a.toNat < 0xF0
  · rw [first_three (by omega) hthree] at h
    obtain ⟨b, rest, rfl, hb, hb', h⟩ := run_more h
    obtain ⟨c, rest, more, rfl, hc, hc', rfl, hmore⟩ := run_last h
    exact ⟨_, [a, b, c], rest, more, .three (by omega) hthree hb hb' hc hc', rfl, nofun, rfl, hmore⟩
  have hhigh : a.toNat < 0xF5 := by
    apply Nat.lt_of_not_le
    intro hle
    refine hnone ?_
    rw [first, if_neg hascii, if_neg (by omega), if_neg htwo, if_neg hthree, if_neg (by omega)]
  rw [first_four (by omega) hhigh] at h
  obtain ⟨b, rest, rfl, hb, hb', h⟩ := run_more h
  obtain ⟨c, rest, rfl, hc, hc', h⟩ := run_more h
  obtain ⟨d, rest, more, rfl, hd, hd', rfl, hmore⟩ := run_last h
  exact ⟨_, [a, b, c, d], rest, more, .four (by omega) hhigh hb hb' hc hc' hd hd', rfl, nofun, rfl,
    hmore⟩

/-- Where no replacement is answered, the bytes are those of the characters. -/
theorem eq_encode_of_run (h : run start bytes = chars.map some) :
    bytes = chars.flatMap String.utf8EncodeChar := by
  induction chars generalizing bytes with
  | nil =>
    cases bytes with
    | nil => rfl
    | cons a rest =>
      obtain ⟨_, _, _, _, -, -, -, hchars, -⟩ := form_of_run h
      cases hchars
  | cons c more ih =>
    cases bytes with
    | nil => cases h
    | cons a rest =>
      obtain ⟨v, form, after, more', hform, hbytes, -, hchars, hafter⟩ := form_of_run h
      obtain ⟨rfl, rfl⟩ := List.cons.inj hchars
      rw [List.flatMap_cons, hform.encode_eq, ← ih hafter, hbytes]

end Decoder

/-! ## Texts -/

namespace Bytes

theorem mapM_id_eq_some_iff {answers : List (Option Char)} {chars : List Char} :
    answers.mapM id = some chars ↔ answers = chars.map some := by
  induction answers generalizing chars with
  | nil => cases chars <;> simp
  | cons answer rest ih =>
    cases answer with
    | none => cases chars <;> simp
    | some c =>
      cases chars with
      | nil => simp [Option.bind_eq_some_iff]
      | cons d more => simpa [Option.bind_eq_some_iff, ih] using and_comm

/-- The bytes are UTF-8 exactly when they are those of a text. -/
theorem text?_eq_some_iff {bytes : Bytes} {s : String} :
    bytes.text? = some s ↔ bytes = ofString s := by
  rw [text?, Option.map_eq_some_iff]
  constructor
  · rintro ⟨chars, hchars, rfl⟩
    rw [ofString, String.toList_ofList]
    exact Decoder.eq_encode_of_run (mapM_id_eq_some_iff.mp hchars)
  · rintro rfl
    exact ⟨s.toList, mapM_id_eq_some_iff.mpr (Decoder.run_encode s.toList), String.ofList_toList⟩

end Bytes

end StackEmbedding
