import StackEmbedding.Stack
import StackEmbedding.Failure

/-!
# Operations on a stack, with their checks

`StackOperation` lists what can be done to a stack by raw index, and `Stack.perform` does it: it
answers what the operation answers, or panics when an index is out of range. An operation that
panics leaves the stack as it was, with one exception: overwriting takes its stamp first.
-/

namespace StackEmbedding

/-- What can be done to a stack. Indices are raw. -/
inductive StackOperation where
  | push (v : Value)
  | pop
  | get (i : Nat)
  | stamp (i : Nat)
  | set (i : Nat) (v : Value)
  | insert (i : Nat) (v : Value)
  | remove (i : Nat)
  | rotate (start : Nat) (n : Int)
  | resize (height : Nat)
  | drainFrom (i : Nat)
  | reserve (n : Nat)

/-- What an operation answers. -/
inductive StackReply where
  | done
  | value (v : Value)
  | values (vs : List Value)
  | stamp (s : Option Nat)

/-- Performs an operation if `inRange` holds, and panics otherwise. -/
def Stack.guarded (s : Stack) (inRange : Bool) (i : Nat) (reply : StackReply) (after : Stack) :
    Except Panic StackReply × Stack :=
  if inRange then (.ok reply, after) else (.error (.outOfBounds s.height i), s)

/-- Performs an operation. -/
def Stack.perform (s : Stack) : StackOperation → Except Panic StackReply × Stack
  | .push v => (.ok .done, s.push v)
  | .pop =>
    match s.top? with
    | some v => (.ok (.value v), s.dropTop)
    | none => (.error .emptyStack, s)
  | .get i => s.guarded (i < s.height) i (.value (.orNil (s.value? i))) s
  | .stamp i => (.ok (.stamp (s.stamp? i)), s)
  | .set i v =>
    if i < s.height then (.ok .done, s.overwrite i v)
    else (.error (.outOfBounds s.height i), { s with nextStamp := s.nextStamp + 1 })
  | .insert i v => s.guarded (i ≤ s.height) i .done (s.insert i v)
  | .remove i => s.guarded (i < s.height) i (.value (.orNil (s.value? i))) (s.remove i)
  | .rotate i n => s.guarded (i ≤ s.height) i .done (s.rotate i n)
  | .resize n => (.ok .done, s.resize n)
  | .drainFrom i => s.guarded (i ≤ s.height) i (.values (s.valuesFrom i)) (s.truncate i)
  | .reserve _ => (.ok .done, s)

end StackEmbedding
