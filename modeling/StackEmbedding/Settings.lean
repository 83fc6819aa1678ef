import StackEmbedding.Machine

/-!
# Settings of an environment

A name and the limits of the machine. Settings that come from outside are checked before use: a
machine needs room for one slot and one call, and the slots reserved at the start must fit.
-/

namespace StackEmbedding

/-- The name of an environment and the limits of its machine. -/
structure Settings where
  name : String := "main"
  initialStack : Nat := 64
  maxStack : Nat := 1000000
  maxCallDepth : Nat := 200
  deriving DecidableEq

/-- Why settings do not fit together. -/
inductive SettingsConflict where
  | noStack
  | initialExceedsMaximum (initial maximum : Nat)
  | noCallDepth
  deriving DecidableEq

/-- The wording of a conflict. -/
def SettingsConflict.message : SettingsConflict → String
  | noStack => "max_stack must be positive"
  | initialExceedsMaximum initial maximum =>
    s!"initial_stack ({initial}) exceeds max_stack ({maximum})"
  | noCallDepth => "max_call_depth must be positive"

/-- Why a file could not be read. -/
inductive FileFault where
  | missing
  | notText
  deriving DecidableEq

/-- The wording of a file's fault. -/
def FileFault.message : FileFault → String
  | missing => "No such file or directory (os error 2)"
  | notText => "stream did not contain valid UTF-8"

/-- Why settings could not be obtained. -/
inductive SettingsError where
  | unreadable (path : String) (fault : FileFault)
  | malformed
  | invalid (conflict : SettingsConflict)
  deriving DecidableEq

namespace SettingsError

/-- The wording of an error; that of a malformed text is not settled here. -/
def message? : SettingsError → Option String
  | unreadable path fault => some s!"Failed to read config {path}: {fault.message}"
  | malformed => none
  | invalid conflict => some s!"Invalid config: {conflict.message}"

/-- Whether another error lies under this one. -/
def hasSource : SettingsError → Bool
  | unreadable .. | malformed => true
  | invalid _ => false

end SettingsError

namespace Settings

/-- The first conflict of the settings, if there is one. -/
def conflict? (s : Settings) : Option SettingsConflict :=
  if s.maxStack = 0 then some .noStack
  else if s.maxStack < s.initialStack then some (.initialExceedsMaximum s.initialStack s.maxStack)
  else if s.maxCallDepth = 0 then some .noCallDepth
  else none

/-- The settings, if they fit together. -/
def validate (s : Settings) : Except SettingsError Settings :=
  match s.conflict? with
  | none => .ok s
  | some conflict => .error (.invalid conflict)

/-- The limits of the machine, without the name. -/
def limits (s : Settings) : Limits := ⟨s.initialStack, s.maxStack, s.maxCallDepth⟩

end Settings

end StackEmbedding
