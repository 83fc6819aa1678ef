import StackEmbedding.Host.Environment
import StackEmbedding.Proofs.Program.Call

/-!
# Running host code that pushes and looks up

Equations for the parts that typed access is made of. They hold for every runner, since none of
these programs calls anything.

`HostValue.runtime` says, off the machine, which value a value of the host stands for, and
`HostValue.handles` which handles lie in it.

**What is established here.**
* `Handle.runWith_position?`: the primitives find what `Handle.locate` reads off the machine, and
  change nothing.
* `HostValue.runWith_push`: pushing a value whose handles are of the machine pushes what it stands
  for.
* `HostValue.pushesOne`: pushing any value writes one slot, or panics and writes none.
* `HostValue.runWith_isLive`: a value is live when each of its handles is found.
-/

set_option autoImplicit false

namespace StackEmbedding

variable {κ σ α β : Type} {host : Host κ σ} {runner : World.Runner κ σ} {w : World κ σ}

@[simp] theorem World.withMachine_machine (w : World κ σ) : w.withMachine w.machine = w := rfl

namespace Program

@[simp] theorem runWith_pure (a : α) :
    (pure a : Program κ σ α).runWith host runner w = (.ok a, w) := rfl

theorem runWith_bind (p : Program κ σ α) (next : α → Program κ σ β) :
    (p >>= next).runWith host runner w =
      match p.runWith host runner w with
      | (.ok a, after) => (next a).runWith host runner after
      | (.error cause, after) => (.error cause, after) :=
  runWith_andThen host runner p next w

@[simp] theorem runWith_perform (p : Primitive κ) :
    (perform p : Program κ σ p.Reply).runWith host runner w =
      ((w.machine.perform p).1, w.withMachine (w.machine.perform p).2) := by
  rw [perform, runWith, World.carryOut]
  rcases w.machine.perform p with ⟨_ | _, m⟩ <;> rfl

theorem runWith_perform_bind {p : Primitive κ} {next : p.Reply → Program κ σ β} {reply : p.Reply}
    {m : Machine κ} (h : w.machine.perform p = (.ok reply, m)) :
    (perform p >>= next).runWith host runner w =
      (next reply).runWith host runner (w.withMachine m) := by
  rw [runWith_bind, runWith_perform, h]

/-- A program that goes on only where a question is answered with true. -/
theorem runWith_guard {p : Program κ σ Bool} {b : Bool} {a : α} {rest : Program κ σ α}
    (h : p.runWith host runner w = (.ok b, w)) :
    (p >>= fun holds => if !holds then pure a else rest).runWith host runner w =
      if b then rest.runWith host runner w else (.ok a, w) := by
  rw [runWith_bind, h]
  cases b <;> rfl

@[simp] theorem runWith_push (v : Value) :
    (push v : Program κ σ Unit).runWith host runner w =
      (.ok (), w.withMachine (w.machine.push v)) :=
  runWith_perform (.push v)

@[simp] theorem runWith_typeAt (position : Int) :
    (typeAt position : Program κ σ TypeTag).runWith host runner w =
      (.ok (.ofSlot (w.machine.value? position)), w) := rfl

end Program

/-- A program that answers a function of what another answers. -/
theorem World.run_return {p : Program κ σ α} {a : α} {after : World κ σ}
    (h : w.run host p = (.ok a, after)) (f : α → β) :
    w.run host (do return f (← p)) = (.ok (f a), after) := by
  have hp : p.runWith host (World.runner host w.machine.callsLeft) w = (.ok a, after) := h
  show (p >>= fun x => pure (f x)).runWith host (World.runner host w.machine.callsLeft) w = _
  rw [Program.runWith_bind, hp]
  rfl

namespace Handle

/-- Finding a table by primitives is `Handle.locate`, and changes nothing. -/
@[simp] theorem runWith_position? (h : Handle) :
    (h.position? : Program κ σ (Option Int)).runWith host runner w =
      (.ok (h.locate w.machine), w) := by
  unfold position? locate
  rw [Program.runWith_bind, Program.runWith_perform]
  dsimp only [Machine.perform, World.withMachine_machine]
  by_cases howner : h.owner = w.machine.identity
  · rw [if_neg (not_not.mpr howner), if_pos howner]
    cases h.slot with
    | none => rfl
    | some slot =>
      dsimp only [Option.bind_some]
      rw [Program.runWith_bind, Program.runWith_perform]
      dsimp only [Machine.perform]
      cases w.machine.positionOf? slot with
      | none => rfl
      | some p =>
        dsimp only
        rw [Program.runWith_bind, Program.runWith_typeAt]
        by_cases htable : TypeTag.ofSlot (w.machine.value? p) = .table
        · simp [Option.filter, htable]
        · simp [Option.filter, htable]
  · rw [if_pos howner, if_neg howner]
    rfl

/-- A handle that is found names a table on its own machine, through its slot. -/
theorem table_of_locate {m : Machine κ} {h : Handle} {p : Int} (hp : h.locate m = some p) :
    h.owner = m.identity ∧ h.slot.bind m.positionOf? = some p ∧
      ∃ t, m.value? p = some (.table t) := by
  unfold locate at hp
  split at hp
  next howner =>
    obtain ⟨hslot, htable⟩ := Option.filter_eq_some_iff.mp hp
    refine ⟨howner, hslot, ?_⟩
    cases hvalue : m.value? p with
    | none => simp [hvalue, TypeTag.ofSlot] at htable
    | some v => cases v <;> simp_all [TypeTag.ofSlot, Value.tag]
  next => cases hp

/-- The value that a handle stands for: its table, nil where it is stale or unbound. -/
def runtime (m : Machine κ) (h : Handle) : Value := .orNil ((h.locate m).bind m.value?)

/-- Pushing a handle pushes its table, or nil where it is stale, or panics on another machine. -/
theorem runWith_push (h : Handle) :
    (h.push : Program κ σ Unit).runWith host runner w =
      if h.owner = w.machine.identity then
        (.ok (), w.withMachine (w.machine.push (h.runtime w.machine)))
      else (.error .foreignHandle, w) := by
  unfold push runtime
  rw [Program.runWith_bind, Program.runWith_perform]
  dsimp only [Machine.perform, World.withMachine_machine]
  by_cases howner : h.owner = w.machine.identity
  · rw [if_neg (not_not.mpr howner), if_pos howner, Program.runWith_bind, runWith_position?]
    dsimp only
    cases hlocate : h.locate w.machine with
    | none => rfl
    | some p =>
      obtain ⟨-, -, t, ht⟩ := table_of_locate hlocate
      obtain ⟨raw, hraw, hvalue⟩ := Option.bind_eq_some_iff.mp ht
      dsimp only [Option.bind_some]
      rw [Program.runWith_perform]
      simp only [Machine.perform, Machine.pushValue, Machine.atPosition, hraw, hvalue, ht]
  · rw [if_pos howner, if_neg howner]
    rfl

end Handle

namespace Variant

/-- The value that a variant stands for. -/
def runtime (m : Machine κ) : Variant → Value
  | unset | nil => .nil
  | int i => .int i
  | bool b => .bool b
  | number x => .number x
  | str bytes => .str bytes
  | function f => .function f
  | table h => h.runtime m

end Variant

namespace HostValue

/-- The handles that lie in a value, at any depth. -/
def handles : HostValue → List Handle
  | table h | variant (.table h) => [h]
  | present v => v.handles
  | _ => []

/-- A value refers to the slot it was read from exactly where a handle lies in it. -/
theorem pinsSlot_iff (v : HostValue) : v.pinsSlot = true ↔ v.handles ≠ [] := by
  induction v with
  | table h => exact iff_of_true rfl (List.cons_ne_nil h [])
  | variant v =>
    cases v with
    | table h => exact iff_of_true rfl (List.cons_ne_nil h [])
    | unset | int _ | bool _ | number _ | str _ | function _ | nil =>
      exact iff_of_false Bool.false_ne_true (absurd rfl ·)
  | present v ih => exact ih
  | int _ _ | float64 _ | float32 _ | bool _ | text _ | bytes _ | runtimeString _ | native _ | nil
  | absent => exact iff_of_false Bool.false_ne_true (absurd rfl ·)

/-- The value of the machine that a value of the host stands for. -/
def runtime (m : Machine κ) : HostValue → Value
  | int _ n => .int (Int64.ofInt n)
  | float64 x => .number x
  | float32 x => .number (x.convertTo .binary64)
  | bool b => .bool b
  | text s => .str (.ofString s)
  | bytes b | runtimeString b => .str b
  | native f => .function f
  | nil | absent => .nil
  | table h => h.runtime m
  | variant v => v.runtime m
  | present v => v.runtime m

end HostValue

/-- What is done with a value is done with one handle, or with a value of the machine. -/
inductive HostValue.Carries (κ σ : Type) (v : HostValue) : Prop
  | handle (h : Handle) : v.handles = [h] → (v.push : Program κ σ Unit) = h.push →
      (v.isLive : Program κ σ Bool) = (do return (← h.position?).isSome) →
      (∀ m : Machine κ, v.runtime m = h.runtime m) → Carries κ σ v
  | constant (c : Value) : v.handles = [] → (v.push : Program κ σ Unit) = .push c →
      (v.isLive : Program κ σ Bool) = pure true →
      (∀ m : Machine κ, v.runtime m = c) → Carries κ σ v

theorem HostValue.carries (v : HostValue) : v.Carries κ σ := by
  induction v with
  | table h => exact .handle h rfl rfl rfl fun _ => rfl
  | variant v =>
    cases v with
    | table h => exact .handle h rfl rfl rfl fun _ => rfl
    | unset | int _ | bool _ | number _ | str _ | function _ | nil =>
      exact .constant _ rfl rfl rfl fun _ => rfl
  | present v ih =>
    cases ih with
    | handle h hhandles hpush hlive hruntime => exact .handle h hhandles hpush hlive hruntime
    | constant c hhandles hpush hlive hruntime => exact .constant c hhandles hpush hlive hruntime
  | int _ _ | float64 _ | float32 _ | bool _ | text _ | bytes _ | runtimeString _ | native _ | nil
  | absent => exact .constant _ rfl rfl rfl fun _ => rfl

/-! ## Pushing one value -/

/-- Pushing a value whose handles are of the machine pushes what it stands for. -/
theorem HostValue.runWith_push {v : HostValue}
    (howner : ∀ h ∈ v.handles, h.owner = w.machine.identity) :
    (v.push : Program κ σ Unit).runWith host runner w =
      (.ok (), w.withMachine (w.machine.push (v.runtime w.machine))) := by
  cases (v.carries : v.Carries κ σ) with
  | handle h hhandles hpush _ hruntime =>
    have hown : h.owner = w.machine.identity := howner h (by rw [hhandles]; exact .head _)
    rw [hpush, Handle.runWith_push, if_pos hown, hruntime]
  | constant c _ hpush _ hruntime => rw [hpush, Program.runWith_push, hruntime]

theorem HostValue.runWith_push_bind {v : HostValue} {next : Unit → Program κ σ α}
    (howner : ∀ h ∈ v.handles, h.owner = w.machine.identity) :
    (v.push >>= next).runWith host runner w =
      (next ()).runWith host runner (w.withMachine (w.machine.push (v.runtime w.machine))) := by
  rw [Program.runWith_bind, runWith_push howner]

/-- A run that pushed one value, or panicked and changed nothing. -/
def PushesOne (w : World κ σ) (result : Outcome (World κ σ) Unit) : Prop :=
  (∃ v, result = (.ok (), w.withMachine (w.machine.push v))) ∨
    ∃ cause, result = (.error cause, w)

/-- Pushing a value of the host writes one slot, or panics and writes none. -/
theorem HostValue.pushesOne (host : Host κ σ) (runner : World.Runner κ σ) (w : World κ σ)
    (v : HostValue) :
    PushesOne w ((v.push : Program κ σ Unit).runWith host runner w) := by
  cases (v.carries : v.Carries κ σ) with
  | handle h _ hpush _ _ =>
    rw [hpush, Handle.runWith_push]
    split
    · exact .inl ⟨_, rfl⟩
    · exact .inr ⟨_, rfl⟩
  | constant c _ hpush _ _ =>
    rw [hpush]
    exact .inl ⟨c, Program.runWith_push c⟩

/-- A value is live when each of its handles is found; asking changes nothing. -/
theorem HostValue.runWith_isLive (host : Host κ σ) (runner : World.Runner κ σ) (w : World κ σ)
    (v : HostValue) :
    (v.isLive : Program κ σ Bool).runWith host runner w =
      (.ok (v.handles.all fun h => (h.locate w.machine).isSome), w) := by
  cases (v.carries : v.Carries κ σ) with
  | handle h hhandles _ hlive _ =>
    rw [hlive, Program.runWith_bind, Handle.runWith_position?, hhandles, List.all_cons,
      List.all_nil, Bool.and_true]
    rfl
  | constant c hhandles _ hlive _ =>
    rw [hlive, hhandles]
    rfl

end StackEmbedding
