import StackEmbedding.Proofs.Program.Call

/-!
# Runs, step by step

`World.run` gives the end of a run; what holds at every moment of it needs the moments. A
`Configuration` is one: the world, the code that runs now, and the calls that have been entered and
not left, innermost first. `Configuration.step` does one thing: an instruction, the entry of a
function, or the return from one with all that a return settles before other code runs again.

**Verdicts.** Where a call begins and where a function ends, something is decided before other code
runs: a function is entered, the callee or a handler, or the caller is answered with a status. A
`Verdict` is that decision, with the world it leaves in the frame of the caller.

That steps and `World.run` agree is the business of `StackEmbedding.Proofs.Program.Agreement`.
-/

set_option autoImplicit false

namespace StackEmbedding

variable {κ σ : Type}

/-! ## Verdicts -/

/-- What a function is entered for. -/
inductive Purpose where
  /-- A protected call, with the value of its handler. -/
  | call (results : Int) (handler : Option Value)
  /-- Making an error object out of an error. -/
  | handle (error : RuntimeError)

/-- How many results are wanted of a function. -/
def Purpose.wanted : Purpose → Int
  | call results _ => results
  | handle _ => 1

/-- What is decided where a call begins or a function ends. -/
inductive Verdict (κ σ : Type) where
  /-- A function is entered for a purpose. -/
  | enter (purpose : Purpose) (body : Body κ σ) (w : World κ σ)
  /-- The caller is answered. -/
  | answer (status : Status) (w : World κ σ)

namespace Verdict

/-- The world that a verdict leaves in the frame of the caller. -/
def world : Verdict κ σ → World κ σ
  | enter _ _ w | answer _ w => w

/-- The status with which the caller is answered. -/
def status? : Verdict κ σ → Option Status
  | enter .. => none
  | answer status _ => some status

/-- The call failed, with an error object. -/
def giveUp (callee : Nat) (object : Value) (w : World κ σ) : Verdict κ σ :=
  .answer .runtime (w.fail callee object)

/-- The function that the callee's slot holds is entered, unless it cannot be called. -/
def attempt (host : Host κ σ) (callee : Nat) (purpose : Purpose)
    (refused : RuntimeError → Verdict κ σ) (w : World κ σ) : Verdict κ σ :=
  match w.callable host callee with
  | .ok body => .enter purpose body w
  | .error e => refused e

/-- The world in which a handler finds itself and the message on the stack. -/
def prepare (callee : Nat) (handler : Value) (e : RuntimeError) (w : World κ σ) : World κ σ :=
  w.withMachine (w.machine.settle callee [handler, World.messageOf e])

/-- An error is given to the handler if there is one, and becomes the error object otherwise. -/
def fail (host : Host κ σ) (callee : Nat) (purpose : Purpose) (e : RuntimeError) (w : World κ σ) :
    Verdict κ σ :=
  match purpose with
  | .call _ none => giveUp callee (World.messageOf e) w
  | .call _ (some handler) =>
    let prepared := prepare callee handler e w
    attempt host callee (.handle e) (fun _ => giveUp callee (World.messageOf e) prepared) prepared
  | .handle first => giveUp callee (World.messageOf first) w

/-- The results of a call stay; the result of a handler becomes the error object. -/
def succeed (callee : Nat) (purpose : Purpose) (w : World κ σ) : Verdict κ σ :=
  match purpose with
  | .call .. => .answer .ok w
  | .handle _ =>
    giveUp callee (.orNil w.machine.stack.top?)
      (w.withMachine (w.machine.withStack w.machine.stack.dropTop))

/-- What follows from the result of a function, in the frame of its caller. -/
def conclude (host : Host κ σ) (callee : Nat) (purpose : Purpose)
    (result : Except RuntimeError Unit) (w : World κ σ) : Verdict κ σ :=
  match result with
  | .ok () => succeed callee purpose w
  | .error e => fail host callee purpose e w

/-- A call begins whose operands were found. -/
def begin (host : Host κ σ) (callee : Nat) (purpose : Purpose) (w : World κ σ) : Verdict κ σ :=
  attempt host callee purpose (fun e => fail host callee purpose e w) w

end Verdict

/-! ## Configurations -/

/-- A call that was entered and not left. -/
structure Activation (κ σ : Type) where
  purpose : Purpose
  /-- The raw index of the slot that held the function. -/
  callee : Nat
  /-- The base of the caller. -/
  base : Nat
  /-- What the caller goes on with. -/
  resume : Status → Body κ σ

/-- One moment of a run. -/
structure Configuration (κ σ : Type) where
  world : World κ σ
  code : Body κ σ
  calls : List (Activation κ σ)

namespace Activation

/-- The function ends with an outcome. -/
def leave (host : Host κ σ) (a : Activation κ σ) (outcome : Except Panic Ending) (w : World κ σ) :
    Verdict κ σ :=
  let (result, after) := w.giveBack a.base a.callee a.purpose.wanted outcome
  .conclude host a.callee a.purpose result after

/-- Carries out a verdict. -/
def proceed (a : Activation κ σ) (rest : List (Activation κ σ)) :
    Verdict κ σ → Configuration κ σ
  | .enter purpose body w => ⟨w.enter a.callee, body, { a with purpose } :: rest⟩
  | .answer status w => ⟨w, a.resume status, rest⟩

end Activation

/-- Code that ends as an outcome says. -/
def Program.ofOutcome : Except Panic Ending → Body κ σ
  | .ok ending => .done ending
  | .error cause => .panic cause

namespace Configuration

/-- The machine of a configuration. -/
abbrev machine (c : Configuration κ σ) : Machine κ := c.world.machine

/-- The stack of a configuration. -/
abbrev stack (c : Configuration κ σ) : Stack := c.world.machine.stack

/-- Ends the running function with an outcome; nothing is left to do without a call. -/
def finish (host : Host κ σ) (c : Configuration κ σ) (outcome : Except Panic Ending) :
    Option (Configuration κ σ) :=
  match c.calls with
  | [] => none
  | a :: rest => some (a.proceed rest (a.leave host outcome c.world))

/-- One step of a run; none when the run is over. -/
def step (host : Host κ σ) (c : Configuration κ σ) : Option (Configuration κ σ) :=
  match c.code with
  | .done ending => c.finish host (.ok ending)
  | .step (.panic cause) _ => c.finish host (.error cause)
  | .step (.primitive p) next =>
    match c.machine.perform p with
    | (.ok reply, m) => some ⟨c.world.withMachine m, next reply, c.calls⟩
    | (.error cause, m) => some ⟨c.world.withMachine m, .panic cause, c.calls⟩
  | .step (.call arguments results handler) next =>
    match c.machine.checkCall arguments handler with
    | .ok (callee, h) =>
      let a : Activation κ σ := ⟨.call results h, callee, c.machine.base, next⟩
      some (a.proceed c.calls (.begin host callee a.purpose c.world))
    | .error cause => some ⟨c.world, .panic cause, c.calls⟩
  | .step .readMemory next => some ⟨c.world, next c.world.memory, c.calls⟩
  | .step (.writeMemory memory) next => some ⟨{ c.world with memory }, next (), c.calls⟩

/-- The verdict of the next step, where it begins a call or ends a function. -/
def verdict? (host : Host κ σ) (c : Configuration κ σ) : Option (Verdict κ σ) :=
  match c.code with
  | .done ending => c.calls.head?.map fun a => a.leave host (.ok ending) c.world
  | .step (.panic cause) _ => c.calls.head?.map fun a => a.leave host (.error cause) c.world
  | .step (.call arguments results handler) _ =>
    match c.machine.checkCall arguments handler with
    | .ok (callee, h) => some (.begin host callee (.call results h) c.world)
    | .error _ => none
  | _ => none

/-- Several steps of a run; none when the run is over before. -/
def iterate (host : Host κ σ) : Nat → Configuration κ σ → Option (Configuration κ σ)
  | 0, c => some c
  | n + 1, c => (c.step host).bind (iterate host n)

variable {host : Host κ σ} {c d e : Configuration κ σ}

@[simp] theorem iterate_zero : iterate host 0 c = some c := rfl

theorem iterate_succ (h : c.step host = some d) (n : Nat) :
    iterate host (n + 1) c = iterate host n d := by
  rw [iterate, h, Option.bind_some]

theorem iterate_add (m n : Nat) :
    iterate host (m + n) c = (iterate host m c).bind (iterate host n) := by
  induction m generalizing c with
  | zero => rw [Nat.zero_add, iterate_zero, Option.bind_some]
  | succ m ih =>
    rw [Nat.add_right_comm, iterate, iterate]
    cases c.step host with
    | none => rfl
    | some d => simp only [Option.bind_some, ih]

theorem iterate_from {m : Nat} (h : iterate host m c = some d) (n : Nat) :
    iterate host (m + n) c = iterate host n d := by
  rw [iterate_add, h, Option.bind_some]

/-- The last step of several. -/
theorem iterate_succ_last {n : Nat} (h : iterate host n c = some d) :
    iterate host (n + 1) c = d.step host := by
  rw [iterate_add, h, Option.bind_some, iterate]
  cases d.step host <;> rfl

/-- Every step before the last that was taken was taken. -/
theorem iterate_of_le {n k : Nat} (h : iterate host n c = some e) (hk : k ≤ n) :
    ∃ d, iterate host k c = some d ∧ iterate host (n - k) d = some e := by
  obtain ⟨more, rfl⟩ := Nat.exists_eq_add_of_le hk
  rw [iterate_add] at h
  obtain ⟨d, hd, hmore⟩ := Option.bind_eq_some_iff.mp h
  exact ⟨d, hd, by rw [Nat.add_sub_cancel_left]; exact hmore⟩

end Configuration

end StackEmbedding
