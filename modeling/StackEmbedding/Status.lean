/-!
# Statuses of protected calls

A protected call answers a status. The numeric codes are those that embedded runtimes commonly use,
so that they can be compared with the codes of another runtime: five codes are known, and every
other number is no status.
-/

namespace StackEmbedding

/-- How a protected call ended. -/
inductive Status where
  | ok | runtime | badSyntax | memory | file
  deriving DecidableEq

namespace Status

/-- The numeric code of a status. -/
def code : Status → Int
  | ok => 0
  | runtime => 2
  | badSyntax => 3
  | memory => 4
  | file => 6

/-- The status of a numeric code. -/
def ofCode? (n : Int) : Option Status :=
  [ok, runtime, badSyntax, memory, file].find? fun s => s.code = n

/-- The words for a status. -/
def text : Status → String
  | ok => "ok"
  | runtime => "runtime error"
  | badSyntax => "syntax error"
  | memory => "memory error"
  | file => "file error"

/-- Whether the call succeeded. -/
def isOk (s : Status) : Bool := s = ok

end Status

end StackEmbedding
