/-!
# Byte strings and their text

A string of the machine is a list of bytes. Bytes become text in two ways: `text?` answers the
text when the bytes are UTF-8, and `lossy` puts U+FFFD for each maximal run of bytes that starts a
character and cannot complete it.

The decoder takes one byte at a time. Between characters it stands at `start`; inside one it
remembers how many bytes are owed, the value read so far, and the range of the next byte. The
range rules out over-long forms, surrogates and values above U+10FFFF at the second byte, which is
where a replacement ends: the byte that does not fit is read again from `start`.
-/

namespace StackEmbedding

/-- A string of the machine: any bytes. -/
abbrev Bytes := List UInt8

/-- Where the decoder stands between two bytes. -/
inductive Decoder where
  /-- Between characters. -/
  | start
  /-- Inside a character: `owed` more bytes, the first of them from `low` to `high`. -/
  | inside (owed value low high : Nat)

namespace Decoder

/-- The first byte of a character: the character if it is whole, or `none` where no character
starts with the byte. -/
def first (b : Nat) : List (Option Char) × Decoder :=
  if b < 0x80 then ([some (Char.ofNat b)], start)
  else if b < 0xC2 then ([none], start)
  else if b < 0xE0 then ([], inside 1 (b - 0xC0) 0x80 0xBF)
  else if b < 0xF0 then
    ([], inside 2 (b - 0xE0) (if b = 0xE0 then 0xA0 else 0x80) (if b = 0xED then 0x9F else 0xBF))
  else if b < 0xF5 then
    ([], inside 3 (b - 0xF0) (if b = 0xF0 then 0x90 else 0x80) (if b = 0xF4 then 0x8F else 0xBF))
  else ([none], start)

/-- One byte: what it completes, and where the decoder stands after it. -/
def feed : Decoder → Nat → List (Option Char) × Decoder
  | start, b => first b
  | inside owed value low high, b =>
    if low ≤ b ∧ b ≤ high then
      let value := value * 64 + (b - 0x80)
      if owed ≤ 1 then ([some (Char.ofNat value)], start)
      else ([], inside (owed - 1) value 0x80 0xBF)
    else
      let (out, next) := first b
      (none :: out, next)

/-- The characters of a byte string, `none` standing for a run that is no character. -/
def run : Decoder → Bytes → List (Option Char)
  | start, [] => []
  | inside .., [] => [none]
  | d, b :: bs =>
    let (out, next) := d.feed b.toNat
    out ++ run next bs

end Decoder

namespace Bytes

/-- The UTF-8 bytes of a text. -/
def ofString (s : String) : Bytes := s.toList.flatMap String.utf8EncodeChar

/-- The text, if the bytes are UTF-8. -/
def text? (bytes : Bytes) : Option String :=
  ((Decoder.start.run bytes).mapM id).map String.ofList

/-- The text with U+FFFD for what is not UTF-8. -/
def lossy (bytes : Bytes) : String :=
  String.ofList ((Decoder.start.run bytes).map (·.getD '\uFFFD'))

/-- The order of byte strings, first difference first. -/
def compare (a b : Bytes) : Ordering := compareOfLessAndEq a b

end Bytes

end StackEmbedding
