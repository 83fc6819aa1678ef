import StackEmbedding.Machine.Tables

/-!
# The primitives as data

Everything that host code can do to a machine, short of calling, is one `Primitive`. `Reply` is the
type of its answer and `Machine.perform` its effect. Host code is made of these alone
(`StackEmbedding.Program`), so a law that every primitive keeps is a law of all host code.

`Primitive.snapshot` shows the whole machine and not only the frame. It serves reports on a run;
no other primitive answers anything about the slots below the frame, with two exceptions:
`Primitive.hasCapacity` depends on their number, and slot identities carry raw indices.
-/

namespace StackEmbedding

/-- What host code can do to a machine, short of calling. -/
inductive Primitive (κ : Type) where
  | top
  | setTop (position : Int)
  | pop (n : Nat)
  | hasCapacity (n : Nat)
  | remove (position : Int)
  | insert (position : Int)
  | replace (position : Int)
  | copy (source target : Int)
  | rotate (position n : Int)
  | pushValue (position : Int)
  | push (v : Value)
  | pushClosure (code : κ)
  | value (position : Int)
  | slotId (position : Int)
  | positionOf (slot : SlotId)
  | identity
  | createTable
  | getTable (position : Int)
  | getField (position : Int) (name : Bytes)
  | setTable (position : Int)
  | setField (position : Int) (name : Bytes)
  | length (position : Int)
  | getGlobal (name : Bytes)
  | setGlobal (name : Bytes)
  | snapshot

/-- The type of a primitive's answer. -/
@[reducible] def Primitive.Reply {κ : Type} : Primitive κ → Type
  | top => Nat
  | hasCapacity _ => Bool
  | value _ => Option Value
  | slotId _ => Option SlotId
  | positionOf _ => Option Int
  | identity => Nat
  | getTable _ | getField .. => Except RuntimeError TypeTag
  | setTable _ | setField .. | length _ => Except RuntimeError Unit
  | getGlobal _ => TypeTag
  | snapshot => Machine κ
  | _ => Unit

/-- Performs a primitive. -/
def Machine.perform {κ : Type} (m : Machine κ) : (p : Primitive κ) → Outcome (Machine κ) p.Reply
  | .top => (.ok m.top, m)
  | .setTop position => m.setTop position
  | .pop n => m.pop n
  | .hasCapacity n => (.ok (m.hasCapacity n), m)
  | .remove position => m.remove position
  | .insert position => m.insert position
  | .replace position => m.replace position
  | .copy source target => m.copy source target
  | .rotate position n => m.rotate position n
  | .pushValue position => m.pushValue position
  | .push v => (.ok (), m.push v)
  | .pushClosure code => (.ok (), m.pushClosure code)
  | .value position => (.ok (m.value? position), m)
  | .slotId position => (.ok (m.slotId? position), m)
  | .positionOf slot => (.ok (m.positionOf? slot), m)
  | .identity => (.ok m.identity, m)
  | .createTable => (.ok (), m.createTable)
  | .getTable position => m.getTable position
  | .getField position name => m.getField position name
  | .setTable position => m.setTable position
  | .setField position name => m.setField position name
  | .length position => m.length position
  | .getGlobal name => m.getGlobal name
  | .setGlobal name => m.setGlobal name
  | .snapshot => (.ok m, m)

end StackEmbedding
