import StackEmbedding.Number.Range
import StackEmbedding.Settings
import StackEmbedding.Text.Bytes
import StackEmbedding.Text.Digit

/-!
# Settings as text

Settings are written in the flat part of TOML: one `key = value` a line, with comments and blank
lines between. Keys are bare or quoted, values are strings of the four kinds (basic and literal, of
one line or of several) and integers (decimal, or with the prefix `0x`, `0o` or `0b`, an underscore
allowed between two digits). Every key is optional and may stand once; an absent key keeps its
default.

**Why the flat part is enough.** No setting is a table, an array, a float, a date or a boolean. A
text that holds one of these is refused whichever way it is written, as it is when it names an
unknown setting, so the reader refuses headers and dotted keys where it meets them.

`Settings.toText?` writes settings in this form. It has no text for a limit beyond the greatest
integer of the format, `2^63 - 1`.

The reader consumes characters from the front; each part answers the value it read and what
follows it. The parts that repeat are bounded by the length of the text.
-/

namespace StackEmbedding

/-- A value of a settings text. -/
inductive Setting where
  | text (s : String)
  | integer (n : Int)
  deriving DecidableEq

namespace SettingsText

/-- Drops spaces and tabs. -/
def skipBlanks (cs : List Char) : List Char := cs.dropWhile fun c => c = ' ' || c = '\t'

/-- Whether a character may stand unescaped in comments and strings. -/
def isPlain (c : Char) : Bool := c = '\t' || (' ' ≤ c && c ≠ '\x7f')

/-- What follows a line break, if the text starts with one. -/
def newline? : List Char → Option (List Char)
  | '\n' :: rest | '\r' :: '\n' :: rest => some rest
  | _ => none

/-- What follows the end of a line: blanks, a comment perhaps, and a line break or the end. -/
def endOfLine? (cs : List Char) : Option (List Char) :=
  let cs :=
    match skipBlanks cs with
    | '#' :: comment => comment.dropWhile isPlain
    | cs => cs
  match cs with
  | [] => some []
  | cs => newline? cs

/-- The character of an escape after its backslash. -/
def escape? : List Char → Option (Char × List Char)
  | 'b' :: rest => some ('\x08', rest)
  | 't' :: rest => some ('\t', rest)
  | 'n' :: rest => some ('\n', rest)
  | 'f' :: rest => some ('\x0c', rest)
  | 'r' :: rest => some ('\r', rest)
  | '"' :: rest => some ('"', rest)
  | '\\' :: rest => some ('\\', rest)
  | 'u' :: rest => codePoint? 4 rest
  | 'U' :: rest => codePoint? 8 rest
  | _ => none
where
  /-- The character of a code point in exactly `n` hexadecimal digits. -/
  codePoint? (n : Nat) (cs : List Char) : Option (Char × List Char) :=
    let digits := cs.take n
    if digits.length < n then none
    else
      (digits.mapM hexDigit?).bind fun values =>
        let code := values.foldl (fun n d => 16 * n + d) 0
        if code.isValidChar then some (Char.ofNat code, cs.drop n) else none

/-- The rest of a basic string of one line after its opening quote. -/
def basic? (bound : Nat) (cs : List Char) : Option (List Char × List Char) :=
  match bound, cs with
  | _, '"' :: rest => some ([], rest)
  | bound + 1, '\\' :: rest =>
    (escape? rest).bind fun (c, rest) => (basic? bound rest).map fun (s, rest) => (c :: s, rest)
  | bound + 1, c :: rest =>
    if isPlain c then (basic? bound rest).map fun (s, rest) => (c :: s, rest) else none
  | _, _ => none

/-- The rest of a literal string of one line after its opening quote. -/
def literal? : List Char → Option (List Char × List Char)
  | '\'' :: rest => some ([], rest)
  | c :: rest =>
    if isPlain c then (literal? rest).map fun (s, rest) => (c :: s, rest) else none
  | [] => none

/-- The end of a string of several lines: three closing quotes, up to two more before them being
part of the string. -/
def closing? (quote : Char) (cs : List Char) : Option (List Char × List Char) :=
  let quotes := (cs.takeWhile (· = quote)).length
  if quotes < 3 then none
  else
    let kept := min (quotes - 3) 2
    some (List.replicate kept quote, cs.drop (kept + 3))

/-- Drops blanks and line breaks. -/
def skipLines : List Char → List Char
  | '\r' :: '\n' :: rest => skipLines rest
  | ' ' :: rest | '\t' :: rest | '\n' :: rest => skipLines rest
  | cs => cs

/-- The rest of a basic string of several lines. A backslash at the end of a line joins it to the
next character that is no blank. -/
def basicLines? (bound : Nat) (cs : List Char) : Option (List Char × List Char) :=
  match closing? '"' cs with
  | some (kept, rest) => some (kept, rest)
  | none =>
    match bound, cs with
    | bound + 1, '\\' :: rest =>
      match newline? (skipBlanks rest) with
      | some rest => basicLines? bound (skipLines rest)
      | none =>
        (escape? rest).bind fun (c, rest) =>
          (basicLines? bound rest).map fun (s, rest) => (c :: s, rest)
    | bound + 1, c :: rest =>
      match newline? (c :: rest) with
      | some rest => (basicLines? bound rest).map fun (s, rest) => ('\n' :: s, rest)
      | none =>
        if isPlain c then (basicLines? bound rest).map fun (s, rest) => (c :: s, rest) else none
    | _, _ => none

/-- The rest of a literal string of several lines. -/
def literalLines? (bound : Nat) (cs : List Char) : Option (List Char × List Char) :=
  match closing? '\'' cs with
  | some (kept, rest) => some (kept, rest)
  | none =>
    match bound, cs with
    | bound + 1, c :: rest =>
      match newline? (c :: rest) with
      | some rest => (literalLines? bound rest).map fun (s, rest) => ('\n' :: s, rest)
      | none =>
        if isPlain c then (literalLines? bound rest).map fun (s, rest) => (c :: s, rest) else none
    | _, _ => none

/-- The text without a line break at its front. -/
def dropNewline (cs : List Char) : List Char := (newline? cs).getD cs

/-- A quoted string of one line. -/
def quoted? : List Char → Option (List Char × List Char)
  | '"' :: rest => basic? rest.length rest
  | '\'' :: rest => literal? rest
  | _ => none

/-- A string of any kind. A line break right after three opening quotes is not part of it. -/
def string? : List Char → Option (List Char × List Char)
  | '"' :: '"' :: '"' :: rest => basicLines? rest.length (dropNewline rest)
  | '\'' :: '\'' :: '\'' :: rest => literalLines? rest.length (dropNewline rest)
  | cs => quoted? cs

/-- The value of digits of a base, an underscore allowed between two of them. -/
def digits? (base : Nat) (acc : Nat) : List Char → Option Nat
  | [] => none
  | [c] => (digitOf? base c).map (base * acc + ·)
  | c :: '_' :: rest => (digitOf? base c).bind fun d => digits? base (base * acc + d) rest
  | c :: rest => (digitOf? base c).bind fun d => digits? base (base * acc + d) rest

/-- The value of a decimal integer without sign; a leading zero stands alone. -/
def decimal? : List Char → Option Nat
  | '0' :: _ :: _ => none
  | cs => digits? 10 0 cs

/-- The integer that the whole of `cs` writes, of 64 bits with sign. -/
def integer? (cs : List Char) : Option Int :=
  let n : Option Int :=
    match cs with
    | '0' :: 'x' :: rest => (digits? 16 0 rest).map Int.ofNat
    | '0' :: 'o' :: rest => (digits? 8 0 rest).map Int.ofNat
    | '0' :: 'b' :: rest => (digits? 2 0 rest).map Int.ofNat
    | '+' :: rest => (decimal? rest).map Int.ofNat
    | '-' :: rest => (decimal? rest).map fun n => -(n : Int)
    | rest => (decimal? rest).map Int.ofNat
  n.filter (fitsSigned 64)

/-- Whether a character can be part of a bare key. -/
def isBare (c : Char) : Bool := c.isAlphanum || c = '_' || c = '-'

/-- Whether a character can be part of an integer. -/
def isIntegerChar (c : Char) : Bool := c.isAlphanum || c = '_' || c = '-' || c = '+'

/-- A key, bare or quoted. -/
def key? (cs : List Char) : Option (String × List Char) :=
  match quoted? cs with
  | some (key, rest) => some (String.ofList key, rest)
  | none =>
    let key := cs.takeWhile isBare
    if key.isEmpty then none else some (String.ofList key, cs.dropWhile isBare)

/-- A value. -/
def value? (cs : List Char) : Option (Setting × List Char) :=
  match string? cs with
  | some (s, rest) => some (.text (String.ofList s), rest)
  | none =>
    (integer? (cs.takeWhile isIntegerChar)).map fun n =>
      (.integer n, cs.dropWhile isIntegerChar)

/-- A key and its value, with the line they end. -/
def assignment? (cs : List Char) : Option ((String × Setting) × List Char) :=
  (key? cs).bind fun (key, rest) =>
    match skipBlanks rest with
    | '=' :: rest =>
      (value? (skipBlanks rest)).bind fun (value, rest) =>
        (endOfLine? rest).map fun rest => ((key, value), rest)
    | _ => none

/-- All assignments of a text, in order. -/
def assignments? (bound : Nat) (cs : List Char) : Option (List (String × Setting)) :=
  match bound, skipBlanks cs with
  | _, [] => some []
  | 0, _ => none
  | bound + 1, cs =>
    match endOfLine? cs with
    | some rest => assignments? bound rest
    | none =>
      (assignment? cs).bind fun (entry, rest) => (assignments? bound rest).map (entry :: ·)

/-- One escaped character of a basic string. -/
def escapedChar (c : Char) : List Char :=
  if c = '"' || c = '\\' then ['\\', c]
  else if isPlain c then [c]
  else
    let digits := Nat.toDigits 16 c.toNat
    ['\\', 'u'] ++ List.replicate (4 - digits.length) '0' ++ digits

end SettingsText

namespace Settings

/-- The settings with one of them changed, if there is a setting of this name and type. -/
def assign? (s : Settings) : String × Setting → Option Settings
  | ("name", .text name) => some { s with name }
  | ("initial_stack", .integer n) => if 0 ≤ n then some { s with initialStack := n.toNat } else none
  | ("max_stack", .integer n) => if 0 ≤ n then some { s with maxStack := n.toNat } else none
  | ("max_call_depth", .integer n) =>
    if 0 ≤ n then some { s with maxCallDepth := n.toNat } else none
  | _ => none

/-- The settings that a text writes, not yet validated. A byte order mark may stand in front. -/
def read? (text : String) : Option Settings :=
  let cs :=
    match text.toList with
    | '\uFEFF' :: rest => rest
    | cs => cs
  (SettingsText.assignments? (cs.length + 1) cs).bind fun entries =>
    if (entries.map Prod.fst).Nodup then entries.foldlM assign? {} else none

/-- The valid settings that a text writes. -/
def ofText (text : String) : Except SettingsError Settings :=
  match read? text with
  | some s => s.validate
  | none => .error .malformed

/-- The valid settings that a file holds, given its contents or why there are none. -/
def ofFile (path : String) (contents : Except FileFault Bytes) : Except SettingsError Settings :=
  match contents with
  | .error fault => .error (.unreadable path fault)
  | .ok bytes =>
    match bytes.text? with
    | some text => ofText text
    | none => .error (.unreadable path .notText)

/-- The text of settings, unless a limit is beyond the integers of the format. -/
def toText? (s : Settings) : Option String :=
  if fitsSigned 64 s.initialStack && fitsSigned 64 s.maxStack && fitsSigned 64 s.maxCallDepth then
    let name := String.ofList (s.name.toList.flatMap SettingsText.escapedChar)
    some (s!"name = \"{name}\"\ninitial_stack = {s.initialStack}\n" ++
      s!"max_stack = {s.maxStack}\nmax_call_depth = {s.maxCallDepth}\n")
  else none

/-- Whether the settings survive being written and read. -/
def roundTrips (s : Settings) : Bool :=
  (s.toText?.bind fun text => (ofText text).toOption) = some s

end Settings

end StackEmbedding
