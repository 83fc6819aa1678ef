import StackEmbedding.Text.CharRanges

/-!
# Quoted text for diagnostics

`quoted` writes a text between double quotes so that every character can be seen. A quote, a
backslash, tab, line feed, carriage return and NUL have an escape of two characters; any other
character that is unprintable or would attach to its neighbour is written as its code point in
lower-case hexadecimal between braces; all else stands for itself. An apostrophe needs no escape.
-/

namespace StackEmbedding

/-- Whether a character is written as its code point. -/
def isHidden (c : Char) : Bool :=
  CharRanges.covers CharRanges.unprintable c.toNat || CharRanges.covers CharRanges.combining c.toNat

/-- One character of a quoted text. -/
def quotedChar (c : Char) : List Char :=
  if c = '\x00' then ['\\', '0']
  else if c = '\t' then ['\\', 't']
  else if c = '\r' then ['\\', 'r']
  else if c = '\n' then ['\\', 'n']
  else if c = '"' || c = '\\' then ['\\', c]
  else if isHidden c then
    ['\\', 'u', '\x7b'] ++ Nat.toDigits 16 c.toNat ++ ['\x7d']
  else [c]

/-- A text between quotes, every character visible. -/
def quoted (s : String) : String :=
  String.ofList ('"' :: s.toList.flatMap quotedChar ++ ['"'])

end StackEmbedding
