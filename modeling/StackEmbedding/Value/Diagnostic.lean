import StackEmbedding.Value.Coercion
import StackEmbedding.Text.Quoted
import StackEmbedding.Table

/-!
# Diagnostic text of values and keys

The text that shows a value with its sub-kind: `Int(3)`, `Number(3)`, `Str("a")`. Functions,
closures and tables have no lasting text, because what tells them apart is their identity.
-/

namespace StackEmbedding

/-- The diagnostic text of a value, if it has one. -/
def Value.diagnostic? : Value → Option String
  | nil => some "Nil"
  | bool b => some s!"Bool({b})"
  | int i => some s!"Int({i.toInt})"
  | number x => some s!"Number({x.plainText})"
  | str bytes => some s!"Str({quoted bytes.lossy})"
  | function _ | closure _ | table _ => none

/-- The diagnostic text of a key, if it has one. -/
def Key.diagnostic? (k : Key) : Option String :=
  k.toValue.diagnostic?.map fun text => s!"Key({text})"

end StackEmbedding
