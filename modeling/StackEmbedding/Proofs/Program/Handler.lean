import StackEmbedding.Proofs.Program.Agreement
import StackEmbedding.Proofs.Program.Code
import StackEmbedding.Proofs.Stack.Top

/-!
# The message handler of a failed call

`failed_call_handled` follows a protected call that fails and has a message handler. Below the limit
on nested calls the handler is entered once, whatever the call failed of: its frame holds the
message and nothing else, and its first result is the error object. At the limit the handler cannot
be entered either, since it is a call like any other, and the message stays the error object.

**Once.** An activation stands for the call on the list of calls, from the entry of the callee to
the end. It begins with the purpose to call, and the purpose to handle the error replaces that at
one moment, the entry of the handler (`EntersHandlerOnce`). What the callee or the handler call in
turn lies further in, and is not spoken of.
-/

set_option autoImplicit false

namespace StackEmbedding

variable {κ σ : Type} {host : Host κ σ}

/-! ## Why a call fails -/

/-- The world after a function, in the frame of its caller. -/
def World.back (base : Nat) (w : World κ σ) : World κ σ := w.withMachine (w.machine.leave base)

/-- The call of the value at a raw index fails with an error, and this is the world then. -/
inductive World.FailsWith (host : Host κ σ) (callee : Nat) (w : World κ σ) :
    RuntimeError → World κ σ → Prop
  /-- No further call may be nested. -/
  | limit : w.machine.limits.maxCallDepth ≤ w.machine.depth → FailsWith host callee w .callDepth w
  /-- The value is no function. -/
  | notCallable : w.machine.depth < w.machine.limits.maxCallDepth →
      host.body? w.machine (.orNil (w.machine.stack.value? callee)) = none →
      FailsWith host callee w (.notCallable (Value.orNil (w.machine.stack.value? callee)).tag) w
  /-- The function reported an error. -/
  | reported {body : Body κ σ} {e : RuntimeError} {after : World κ σ} :
      w.callable host callee = .ok body →
      (w.enter callee).run host body = (.ok (.error e), after) →
      FailsWith host callee w e (after.back w.machine.base)
  /-- The function panicked. -/
  | panicked {body : Body κ σ} {cause : Panic} {after : World κ σ} :
      w.callable host callee = .ok body →
      (w.enter callee).run host body = (.error cause, after) →
      FailsWith host callee w (.panicked cause) (after.back w.machine.base)
  /-- The function reported more results than its frame holds. -/
  | overReported {body : Body κ σ} {reported : Nat} {after : World κ σ} :
      w.callable host callee = .ok body →
      (w.enter callee).run host body = (.ok (.ok reported), after) →
      after.machine.stack.height - (callee + 1) < reported →
      FailsWith host callee w
        (.overReported reported (after.machine.stack.height - (callee + 1)))
        (after.back w.machine.base)

/-- The causes for which a call fails are these, whatever results are wanted. -/
theorem World.failsWith_of_invoke {w failed : World κ σ} {callee : Nat} {results : Int}
    {e : RuntimeError}
    (h : w.invoke host (runner host w.machine.callsLeft) callee results = (.error e, failed)) :
    w.FailsWith host callee e failed := by
  rw [invoke_eq] at h
  cases hcallable : w.callable host callee with
  | error refusal =>
    rw [hcallable] at h
    cases h
    unfold callable at hcallable
    split at hcallable
    next hdepth =>
      dsimp only at hcallable
      split at hcallable
      next => cases hcallable
      next hnone => cases hcallable; exact .notCallable hdepth hnone
    next hdepth => cases hcallable; exact .limit (Nat.le_of_not_lt hdepth)
  | ok body =>
    rw [hcallable] at h
    dsimp only at h
    rcases hrun : (w.enter callee).run host body with ⟨cause | e | reported, after⟩ <;>
      rw [hrun] at h
    · cases h; exact .panicked hcallable hrun
    · cases h; exact .reported hcallable hrun
    · unfold giveBack Machine.deliver at h
      dsimp only at h
      split at h
      next hover => cases h; exact .overReported hcallable hrun hover
      next => cases h

/-- For each of these causes a call does fail. -/
theorem World.invoke_of_failsWith {w failed : World κ σ} {callee : Nat} {e : RuntimeError}
    (h : w.FailsWith host callee e failed) (results : Int) :
    w.invoke host (runner host w.machine.callsLeft) callee results = (.error e, failed) := by
  rw [invoke_eq]
  cases h with
  | limit hlimit =>
    rw [callable, if_neg (Nat.not_lt_of_le hlimit)]
  | notCallable hdepth hnone =>
    rw [callable, if_pos hdepth]
    dsimp only
    rw [hnone]
  | reported hcallable hrun | panicked hcallable hrun =>
    rw [hcallable]
    dsimp only
    rw [hrun]
    rfl
  | @overReported body reported after hcallable hrun hover =>
    have hdeliver :=
      Machine.deliver_of_lt (m := after.machine.leave w.machine.base) hover results
    rw [hcallable]
    dsimp only
    rw [hrun]
    dsimp only [giveBack]
    rw [hdeliver]
    rfl

/-! ## What a function gives back -/

namespace Machine

/-- One result that is wanted is the first, or nil. -/
theorem adjust_one (values : List Value) : adjust 1 values = [.orNil values.head?] := by
  cases values with
  | nil => rfl
  | cons v rest =>
    show [v] ++ List.replicate (1 - (v :: rest).length) .nil = [v]
    rw [List.length_cons, Nat.sub_eq_zero_of_le (by omega)]
    rfl

end Machine

namespace World

variable {w : World κ σ} {callee : Nat}

/-- The error object that a handler leaves by its outcome, in the frame of the caller. -/
def handled (base callee : Nat) (e : RuntimeError) (outcome : Except Panic Ending)
    (w : World κ σ) : Value × World κ σ :=
  match w.giveBack base callee 1 outcome with
  | (.ok (), after) =>
    (.orNil after.machine.stack.top?,
      after.withMachine (after.machine.withStack after.machine.stack.dropTop))
  | (.error _, after) => (messageOf e, after)

/-- The handler stands in the slot of the callee that failed. -/
theorem value?_prepare (hcallee : callee ≤ w.machine.stack.height) (h : Value) (e : RuntimeError) :
    (Verdict.prepare callee h e w).machine.stack.value? callee = some h := by
  have hstack : (Verdict.prepare callee h e w).machine.stack =
      w.machine.stack.replaceFrom callee [h, messageOf e] := Machine.settle_stack hcallee _
  rw [hstack]
  exact Stack.value?_replaceFrom hcallee [h, messageOf e] 0

/-- The frame in which a handler runs holds the message and nothing else. -/
theorem frame_prepare (hcallee : callee ≤ w.machine.stack.height) (h : Value) (e : RuntimeError) :
    ((Verdict.prepare callee h e w).enter callee).machine.frame.map Slot.value =
      [messageOf e] := by
  have hstack : (Verdict.prepare callee h e w).machine.stack =
      w.machine.stack.replaceFrom callee [h, messageOf e] := Machine.settle_stack hcallee _
  show (Verdict.prepare callee h e w).machine.stack.valuesFrom (callee + 1) = [messageOf e]
  rw [hstack, Stack.valuesFrom_add, Stack.valuesFrom_replaceFrom_self hcallee]
  rfl

/-- Below the limit on nested calls a function can be called as a handler. -/
theorem callable_prepare {h : Value} {e : RuntimeError} {body : Body κ σ}
    (hcallee : callee ≤ w.machine.stack.height)
    (hdepth : w.machine.depth < w.machine.limits.maxCallDepth)
    (hbody : host.Means w.machine h body) :
    (Verdict.prepare callee h e w).callable host callee = .ok body := by
  have hmeans : host.body? (Verdict.prepare callee h e w).machine h = some body := hbody.body?
  have hbelow : (Verdict.prepare callee h e w).machine.depth <
      (Verdict.prepare callee h e w).machine.limits.maxCallDepth := hdepth
  unfold callable
  rw [if_pos hbelow, value?_prepare hcallee]
  dsimp only [Value.orNil, Option.getD_some]
  rw [hmeans]

theorem callable_of_limit (hdepth : w.machine.limits.maxCallDepth ≤ w.machine.depth) :
    w.callable host callee = .error .callDepth :=
  if_neg (Nat.not_lt_of_le hdepth)

theorem handle_prepare (runner : Runner κ σ) (h : Value) (e : RuntimeError) :
    w.handle host runner callee h e =
      match (Verdict.prepare callee h e w).invoke host runner callee 1 with
      | (.ok (), after) =>
        (.orNil after.machine.stack.top?,
          after.withMachine (after.machine.withStack after.machine.stack.dropTop))
      | (.error _, after) => (messageOf e, after) := rfl

/-- A handler is run on the message, or cannot be called and leaves it. -/
theorem handle_eq (host : Host κ σ) (callee : Nat) (w : World κ σ) (h : Value) (e : RuntimeError) :
    w.handle host (runner host w.machine.callsLeft) callee h e =
      match (Verdict.prepare callee h e w).callable host callee with
      | .error _ => (messageOf e, Verdict.prepare callee h e w)
      | .ok body =>
        let (outcome, after) := ((Verdict.prepare callee h e w).enter callee).run host body
        after.handled w.machine.base callee e outcome := by
  have hleft : w.machine.callsLeft = (Verdict.prepare callee h e w).machine.callsLeft := rfl
  rw [handle_prepare, hleft, invoke_eq]
  cases (Verdict.prepare callee h e w).callable host callee <;> rfl

/-- The object of a handler that returns is its first result, nil where it reports none. -/
theorem handled_fst {base reported : Nat} {e : RuntimeError}
    (hcallee : callee ≤ w.machine.stack.height)
    (hreported : reported ≤ w.machine.stack.height - (callee + 1)) :
    (w.handled base callee e (.ok (.ok reported))).1 =
      .orNil (w.machine.stack.highest reported).head? := by
  have hdeliver := Machine.deliver_of_le (m := w.machine.leave base) hreported 1
  unfold handled giveBack
  dsimp only
  rw [hdeliver, Machine.adjust_one]
  dsimp only [withMachine]
  rw [Machine.settle_stack (m := w.machine.leave base) hcallee, Stack.top?_replaceFrom]
  rfl

/-- A call with a handler that fails hands its error to the handler. -/
theorem protectedCall_runtime {runner : Runner κ σ} {arguments : Nat} {results handler : Int}
    {h : Value} {after : World κ σ}
    (hcheck : w.machine.checkCall arguments handler = .ok (callee, some h))
    (hfailed : w.protectedCall host runner arguments results handler = (.ok .runtime, after)) :
    ∃ e failed, w.invoke host runner callee results = (.error e, failed) ∧
      after = (failed.handle host runner callee h e).2.fail callee
        (failed.handle host runner callee h e).1 := by
  rw [protectedCall_eq, hcheck] at hfailed
  dsimp only at hfailed
  rcases hinvoke : w.invoke host runner callee results with ⟨e | _, failed⟩ <;>
    rw [hinvoke] at hfailed
  · exact ⟨e, failed, rfl, (congrArg Prod.snd hfailed).symm⟩
  · cases hfailed

end World

/-- A handler that ends answers the call with its object. -/
theorem Activation.leave_handle (a : Activation κ σ) {e : RuntimeError}
    (hpurpose : a.purpose = .handle e) (outcome : Except Panic Ending) (w : World κ σ) :
    a.leave host outcome w =
      .answer .runtime ((w.handled a.base a.callee e outcome).2.fail a.callee
        (w.handled a.base a.callee e outcome).1) := by
  unfold leave World.handled
  rw [hpurpose]
  dsimp only [Purpose.wanted]
  rcases w.giveBack a.base a.callee 1 outcome with ⟨_ | _, after⟩ <;> rfl

/-! ## Below the limit and at it -/

namespace Verdict

variable {callee : Nat} {results : Int} {w : World κ σ}

/-- Below the limit on nested calls a function that is called is entered. -/
theorem begin_of_body (hdepth : w.machine.depth < w.machine.limits.maxCallDepth) {body : Body κ σ}
    (hbody : host.body? w.machine (.orNil (w.machine.stack.value? callee)) = some body)
    (purpose : Purpose) : begin host callee purpose w = .enter purpose body w := by
  unfold begin attempt World.callable
  rw [if_pos hdepth]
  dsimp only
  rw [hbody]

/-- The world in which a call fails that is refused at the limit, with its handler on the stack if
it has one. -/
def refusedAt (callee : Nat) (handler : Option Value) (w : World κ σ) : World κ σ :=
  match handler with
  | none => w
  | some h => prepare callee h .callDepth w

/-- At the limit on nested calls a call fails with the message, whether it has a handler or not. -/
theorem begin_of_limit (hlimit : w.machine.limits.maxCallDepth ≤ w.machine.depth)
    (handler : Option Value) :
    begin host callee (.call results handler) w =
      giveUp callee (World.messageOf .callDepth) (refusedAt callee handler w) := by
  unfold begin attempt
  rw [World.callable_of_limit hlimit]
  cases handler with
  | none => rfl
  | some h =>
    have hhandler : (prepare callee h .callDepth w).callable host callee = .error .callDepth :=
      World.callable_of_limit hlimit
    simp only [fail, attempt, hhandler]
    rfl

theorem refusedAt_evolves (hcallee : callee ≤ w.machine.stack.height) (handler : Option Value) :
    w.machine.Evolves (callee ≤ ·) (refusedAt callee handler w).machine :=
  match handler with
  | none => .refl _
  | some h => prepare_evolves hcallee h .callDepth

/-- A refused call changes nothing but the stack. -/
theorem refusedAt_eq (callee : Nat) (handler : Option Value) (w : World κ σ) :
    ∃ stack, refusedAt callee handler w = w.withMachine (w.machine.withStack stack) :=
  match handler with
  | none => ⟨w.machine.stack, rfl⟩
  | some _ => ⟨_, rfl⟩

end Verdict

namespace Configuration

variable {c d : Configuration κ σ}

/-! ## Runs above more calls -/

/-- A configuration with more callers below. -/
def above (c : Configuration κ σ) (calls : List (Activation κ σ)) : Configuration κ σ :=
  { c with calls := c.calls ++ calls }

theorem proceed_above (a : Activation κ σ) (rest calls : List (Activation κ σ))
    (v : Verdict κ σ) : (a.proceed rest v).above calls = a.proceed (rest ++ calls) v := by
  cases v <;> rfl

theorem finish_above {outcome : Except Panic Ending} (h : c.finish host outcome = some d)
    (calls : List (Activation κ σ)) :
    (c.above calls).finish host outcome = some (d.above calls) := by
  obtain ⟨w, code, inner⟩ := c
  cases inner with
  | nil => cases h
  | cons a rest =>
    obtain rfl := Option.some.inj h
    rw [proceed_above]
    rfl

/-- A step is the same above more callers. -/
theorem step_above (h : c.step host = some d) (calls : List (Activation κ σ)) :
    (c.above calls).step host = some (d.above calls) := by
  obtain ⟨w, code, inner⟩ := c
  cases code with
  | done ending => exact finish_above h calls
  | step i next =>
    cases i with
    | panic cause => exact finish_above h calls
    | primitive p =>
      rcases hp : w.machine.perform p with ⟨cause | reply, m⟩ <;>
        simp only [step, above, machine, hp] at h ⊢ <;> obtain rfl := Option.some.inj h <;> rfl
    | call arguments results handler =>
      cases hcheck : w.machine.checkCall arguments handler with
      | error cause =>
        simp only [step, above, machine, hcheck] at h ⊢
        obtain rfl := Option.some.inj h
        rfl
      | ok found =>
        simp only [step, above, machine, hcheck] at h ⊢
        obtain rfl := Option.some.inj h
        exact congrArg some (proceed_above _ inner calls _).symm
    | readMemory => obtain rfl := Option.some.inj h; rfl
    | writeMemory memory => obtain rfl := Option.some.inj h; rfl

theorem iterate_above {n : Nat} (h : iterate host n c = some d) (calls : List (Activation κ σ)) :
    iterate host n (c.above calls) = some (d.above calls) := by
  induction n generalizing c with
  | zero => obtain rfl := Option.some.inj h; rfl
  | succ n ih =>
    obtain ⟨e, he, hrest⟩ := Option.bind_eq_some_iff.mp h
    rw [iterate_succ (step_above he calls)]
    exact ih hrest

/-! ## The moments of one call -/

/-- At the `k`-th moment after `c` the activation `a` is on the list of calls, above those of
`c`. -/
def Serving (host : Host κ σ) (c : Configuration κ σ) (a : Activation κ σ) (k : Nat) : Prop :=
  ∃ d inner, iterate host k c = some d ∧ d.calls = inner ++ a :: c.calls

/-- A function that was entered for an activation comes to its outcome, and until then its
activation stays on the list of calls. -/
theorem iterate_body {a : Activation κ σ} {k : Nat} {w : World κ σ} {body : Body κ σ}
    (hentry : iterate host k c = some ⟨w, body, a :: c.calls⟩)
    (hbase : w.machine.base ≤ w.machine.stack.height) :
    ∃ n, k ≤ n ∧ iterate host n c =
        some ⟨(w.run host body).2, .ofOutcome (w.run host body).1, a :: c.calls⟩ ∧
      ∀ j, k ≤ j → j ≤ n → Serving host c a j := by
  have hmore : ∀ {m : Nat} {d : Configuration κ σ}, iterate host m ⟨w, body, []⟩ = some d →
      iterate host (k + m) c = some (d.above (a :: c.calls)) := by
    intro m d hm
    exact (iterate_from hentry m).trans (iterate_above hm (a :: c.calls))
  obtain ⟨m, hm⟩ := iterate_run host hbase body []
  refine ⟨k + m, Nat.le_add_right k m, hmore hm, ?_⟩
  intro j hj hle
  obtain ⟨i, rfl⟩ := Nat.exists_eq_add_of_le hj
  obtain ⟨d, hd, -⟩ := iterate_of_le hm (Nat.le_of_add_le_add_left hle)
  exact ⟨d.above (a :: c.calls), d.calls, hmore hd, rfl⟩

section Call

variable {arguments callee : Nat} {results handler : Int} {next : Status → Body κ σ}
  {h : Option Value} {e : RuntimeError} {failed : World κ σ}

/-- A call whose callee fails comes to the moment at which the failure is settled. -/
theorem iterate_failed (hcode : c.code = .step (.call arguments results handler) next)
    (hcheck : c.machine.checkCall arguments handler = .ok (callee, h))
    (hfailed : c.world.invoke host (World.runner host c.machine.callsLeft) callee results =
      (.error e, failed)) :
    ∃ k d, iterate host k c = some d ∧
      d.step host = some ((⟨.call results h, callee, c.machine.base, next⟩ :
        Activation κ σ).proceed c.calls (.fail host callee (.call results h) e failed)) ∧
      ∀ j, 0 < j → j ≤ k →
        Serving host c ⟨.call results h, callee, c.machine.base, next⟩ j := by
  have hbegin : c.step host = some ((⟨.call results h, callee, c.machine.base, next⟩ :
      Activation κ σ).proceed c.calls (.begin host callee (.call results h) c.world)) := by
    simp only [step, hcode, hcheck]
  rw [World.invoke_eq] at hfailed
  unfold Verdict.begin Verdict.attempt at hbegin
  cases hcallable : c.world.callable host callee with
  | error refusal =>
    rw [hcallable] at hfailed hbegin
    cases hfailed
    exact ⟨0, c, rfl, hbegin, fun j hj hle => absurd hle (Nat.not_le_of_lt hj)⟩
  | ok body =>
    rw [hcallable] at hfailed hbegin
    obtain ⟨-, hcallee, -⟩ := World.checkCall_eq_ok hcheck
    obtain ⟨n, -, hn, hserving⟩ := iterate_body (iterate_succ hbegin 0) hcallee
    refine ⟨n, _, hn, ?_, hserving⟩
    rw [step_ofOutcome, Activation.leave]
    dsimp only [Purpose.wanted] at hfailed ⊢
    rw [hfailed]
    rfl

end Call

/-- The call that the activation `a` stands for has failed with an error, and its handler, whose
code is `body`, is entered at the moment `first` and at no other. The call is over after `last`. -/
structure EntersHandlerOnce (host : Host κ σ) (c : Configuration κ σ) (a : Activation κ σ)
    (e : RuntimeError) (body : Body κ σ) (inside after : World κ σ) (first last : Nat) : Prop where
  entry : iterate host first c =
    some ⟨inside, body, { a with purpose := .handle e } :: c.calls⟩
  /-- The handler finds the message and nothing else. -/
  message : inside.machine.frame.map Slot.value = [World.messageOf e]
  before : ∀ k, 0 < k → k < first → Serving host c a k
  since : ∀ k, first ≤ k → k ≤ last → Serving host c { a with purpose := .handle e } k
  ended : iterate host (last + 1) c = some ⟨after, a.resume .runtime, c.calls⟩

/-- Where the slots from a raw index upward are one error object, and those below are as before. -/
def LeavesObject (c : Configuration κ σ) (callee : Nat) (object : Value) (after : World κ σ) :
    Prop :=
  ∃ stamp, after.machine.stack.slots = c.stack.slots.take callee ++ [⟨object, stamp⟩]

/-- Where a failure comes to a handler that can be called, the handler is entered then, and once. -/
theorem entersHandlerOnce {a : Activation κ σ} {results : Int} {h : Value} {e : RuntimeError}
    {body : Body κ σ} {failed : World κ σ} {k : Nat} (hpurpose : a.purpose = .call results (some h))
    (hd : iterate host k c = some d)
    (hstep : d.step host = some (a.proceed c.calls (.fail host a.callee a.purpose e failed)))
    (hserving : ∀ j, 0 < j → j ≤ k → Serving host c a j)
    (hcallable : (Verdict.prepare a.callee h e failed).callable host a.callee = .ok body)
    (hcallee : a.callee ≤ failed.machine.stack.height) :
    let inside := (Verdict.prepare a.callee h e failed).enter a.callee
    let handled := (inside.run host body).2.handled a.base a.callee e (inside.run host body).1
    ∃ first last, EntersHandlerOnce host c a e body inside (handled.2.fail a.callee handled.1)
      first last := by
  intro inside handled
  have hentry : iterate host (k + 1) c =
      some ⟨inside, body, { a with purpose := .handle e } :: c.calls⟩ := by
    rw [iterate_succ_last hd, hstep, hpurpose]
    simp only [Verdict.fail, Verdict.attempt, hcallable]
    rfl
  have hlt := Verdict.lt_height_prepare hcallee h e
  obtain ⟨last, hle, hlast, hsince⟩ := iterate_body hentry hlt
  refine ⟨k + 1, last, hentry, World.frame_prepare hcallee h e,
    fun j hj hlt => hserving j hj (Nat.le_of_lt_succ hlt), hsince, ?_⟩
  rw [iterate_succ_last hlast, step_ofOutcome, Activation.leave_handle _ rfl]
  rfl

/-- Failing with an error object leaves it where the callee was. -/
theorem leavesObject_fail {callee : Nat} {u : World κ σ}
    (hevolves : c.machine.Evolves (callee ≤ ·) u.machine)
    (hle : callee ≤ u.machine.stack.height) (object : Value) :
    c.LeavesObject callee object (u.fail callee object) := by
  refine ⟨u.machine.stack.nextStamp, (Machine.slots_settle hle [object]).trans ?_⟩
  rw [hevolves.edit.take_eq]
  rfl

/-- At the limit on nested calls neither the callee nor the handler is entered. -/
theorem refused_at_limit (host : Host κ σ) {arguments callee : Nat} {results handler : Int}
    {next : Status → Body κ σ} (hcode : c.code = .step (.call arguments results handler) next)
    {h : Value} (hcheck : c.machine.checkCall arguments handler = .ok (callee, some h))
    (hlimit : c.machine.limits.maxCallDepth ≤ c.machine.depth) :
    let prepared := Verdict.prepare callee h .callDepth c.world
    let message := World.messageOf .callDepth
    c.world.invoke host (World.runner host c.machine.callsLeft) callee results =
        (.error .callDepth, c.world) ∧
      c.world.handle host (World.runner host c.machine.callsLeft) callee h .callDepth =
        (message, prepared) ∧
      c.step host = some ⟨prepared.fail callee message, next .runtime, c.calls⟩ := by
  intro prepared message
  have hcallee : c.world.callable host callee = .error .callDepth := World.callable_of_limit hlimit
  have hhandler : prepared.callable host callee = .error .callDepth :=
    World.callable_of_limit hlimit
  refine ⟨?_, ?_, ?_⟩
  · rw [World.invoke_eq, hcallee]
  · rw [World.handle_eq, hhandler]
  · simp only [step, hcode, hcheck, Verdict.begin_of_limit hlimit]
    rfl

/-- Below the limit on nested calls a handler is entered, and once, and its object is its first
result if it returns. -/
theorem handled_below_limit (hc : Reachable host c) {arguments callee : Nat}
    {results handler : Int} {next : Status → Body κ σ}
    (hcode : c.code = .step (.call arguments results handler) next) {h : Value}
    (hcheck : c.machine.checkCall arguments handler = .ok (callee, some h)) {body : Body κ σ}
    (hbody : host.Means c.machine h body) {e : RuntimeError} {failed : World κ σ}
    (hinvoke : c.world.invoke host (World.runner host c.machine.callsLeft) callee results =
      (.error e, failed))
    (hdepth : c.machine.depth < c.machine.limits.maxCallDepth) :
    let handled := failed.handle host (World.runner host c.machine.callsLeft) callee h e
    ∃ inside first last,
      EntersHandlerOnce host c ⟨.call results (some h), callee, c.machine.base, next⟩ e body
        inside (handled.2.fail callee handled.1) first last ∧
      ∀ reported left, inside.run host body = (.ok (.ok reported), left) →
        reported ≤ left.machine.top →
        handled.1 = .orNil (left.machine.stack.highest reported).head? := by
  obtain ⟨-, hcallee, -⟩ := World.checkCall_eq_ok hcheck
  have hcalled := World.invoke_evolves host (World.confined_runner host c.machine.callsLeft)
    hcallee results
  rw [hinvoke] at hcalled
  have hle : callee ≤ failed.machine.stack.height :=
    hcalled.edit.le_height (Nat.le_of_lt hcallee)
  obtain ⟨k, d, hd, hstep, hserving⟩ := iterate_failed hcode hcheck hinvoke
  have hmeans : host.Means failed.machine h body := by
    refine hbody.grows hc.numbered ((leads_of_iterate hd).grows.trans ?_)
    apply ((step_objects hstep).congr ?_).closures_grow
    rw [objects_proceed, Verdict.objects_fail]
  have hbelow : failed.machine.depth < failed.machine.limits.maxCallDepth := by
    rw [hcalled.depth, hcalled.limits]
    exact hdepth
  have hcallable := World.callable_prepare (e := e) hle hbelow hmeans
  have hhandle := World.handle_eq host callee failed h e
  have hleft : failed.machine.callsLeft = c.machine.callsLeft := World.callsLeft_eq hcalled
  have hbase : failed.machine.base = c.machine.base := hcalled.base
  rw [hcallable, hleft, hbase] at hhandle
  dsimp only at hhandle ⊢
  rw [hhandle]
  obtain ⟨first, last, honce⟩ := entersHandlerOnce rfl hd hstep hserving hcallable hle
  refine ⟨_, first, last, honce, ?_⟩
  intro reported left hrun hreported
  have hlt : callee + 1 ≤ (Verdict.prepare callee h e failed).machine.stack.height :=
    Verdict.lt_height_prepare hle h e
  obtain ⟨hbase, hheight, -⟩ := World.ended_of_run hlt hrun
  rw [hbase] at hheight
  rw [hrun]
  refine World.handled_fst (Nat.le_of_succ_le hheight) ?_
  rwa [Machine.top, hbase] at hreported

/-- A failed protected call with a handler, below the limit on nested calls, enters the handler
once, on the message, and leaves its first result. At the limit it leaves the message, and no
function is entered. -/
theorem failed_call_handled (hc : Reachable host c) {arguments : Nat} {results handler : Int}
    {next : Status → Body κ σ} (hcode : c.code = .step (.call arguments results handler) next)
    (harguments : arguments < c.machine.top) (hzero : handler ≠ 0) {h : Value}
    (hhandler : c.machine.value? handler = some h) {body : Body κ σ}
    (hbody : host.Means c.machine h body) {after : World κ σ}
    (hfailed : c.world.protectedCall host (World.runner host c.machine.callsLeft) arguments results
      handler = (.ok .runtime, after)) :
    let callee := c.stack.height - arguments - 1
    ∃ e failed, c.world.FailsWith host callee e failed ∧
      (c.machine.depth < c.machine.limits.maxCallDepth →
        ∃ inside first last,
          EntersHandlerOnce host c ⟨.call results (some h), callee, c.machine.base, next⟩ e body
            inside after first last ∧
          ∀ reported left, inside.run host body = (.ok (.ok reported), left) →
            reported ≤ left.machine.top →
            c.LeavesObject callee (.orNil (left.machine.stack.highest reported).head?) after) ∧
      (c.machine.limits.maxCallDepth ≤ c.machine.depth →
        e = .callDepth ∧ c.step host = some ⟨after, next .runtime, c.calls⟩ ∧
          c.LeavesObject callee (World.messageOf .callDepth) after) := by
  intro callee
  have hcheck : c.machine.checkCall arguments handler = .ok (callee, some h) := by
    unfold Machine.checkCall
    rw [if_neg (Nat.not_le_of_lt harguments)]
    dsimp only
    rw [if_neg hzero, hhandler]
  obtain ⟨-, hcallee, -⟩ := World.checkCall_eq_ok hcheck
  have hconfined := World.confined_runner host c.machine.callsLeft
  obtain ⟨e, failed, hinvoke, rfl⟩ := World.protectedCall_runtime hcheck hfailed
  have hcalled := World.invoke_evolves host hconfined hcallee results
  rw [hinvoke] at hcalled
  have hhandled := hcalled.trans
    (World.handle_evolves host hconfined (hcalled.edit.le_height (Nat.le_of_lt hcallee)) h e)
  have hobject := leavesObject_fail hhandled (hhandled.edit.le_height (Nat.le_of_lt hcallee))
    (failed.handle host (World.runner host c.machine.callsLeft) callee h e).1
  refine ⟨e, failed, World.failsWith_of_invoke hinvoke, ?_, ?_⟩
  · intro hdepth
    obtain ⟨inside, first, last, honce, hfirst⟩ :=
      handled_below_limit hc hcode hcheck hbody hinvoke hdepth
    refine ⟨inside, first, last, honce, fun reported left hrun hreported => ?_⟩
    rw [hfirst reported left hrun hreported] at hobject ⊢
    exact hobject
  · intro hlimit
    obtain ⟨hcallee, hhandler, hstep⟩ := refused_at_limit host hcode hcheck hlimit
    rw [hcallee] at hinvoke
    cases hinvoke
    rw [hhandler] at hobject ⊢
    exact ⟨rfl, hstep, hobject⟩

/-- Pushes true and reports it as the result. -/
def answer : Body Unit Unit := .step (.primitive (.push (.bool true))) fun _ => .done (.ok 1)

/-- A host whose functions answer true. -/
def answering : Host Unit Unit := ⟨fun _ => answer, fun _ => answer⟩

/-- The moment before nil is called, with a function as the handler. -/
def atCallOfNil (maxCallDepth : Nat) : Configuration Unit Unit where
  world := ⟨((Machine.new 0 { maxCallDepth }).push (.function ⟨"h"⟩)).push .nil, ()⟩
  code := .step (.call 0 0 1) fun _ => .done (.ok 0)
  calls := []

theorem reachable_atCallOfNil (maxCallDepth : Nat) :
    Reachable answering (atCallOfNil maxCallDepth) :=
  ⟨0, { maxCallDepth }, (), .step (.primitive (.push (.function ⟨"h"⟩))) fun _ =>
    .step (.primitive (.push .nil)) fun _ => .step (.call 0 0 1) fun _ => .done (.ok 0),
    leads_of_iterate (n := 2) rfl⟩

/-- The handler of a call of nil is entered once, and what it answers is the error object. -/
theorem answering_handles :
    Reachable answering (atCallOfNil 1) ∧
    ∃ e failed inside first last after,
      (atCallOfNil 1).world.FailsWith answering 1 e failed ∧
      EntersHandlerOnce answering (atCallOfNil 1)
        ⟨.call 0 (some (.function ⟨"h"⟩)), 1, 0, fun _ => .done (.ok 0)⟩ e answer inside after
        first last ∧
      (atCallOfNil 1).world.protectedCall answering (World.runner answering 1) 0 0 1 =
        (.ok .runtime, after) := by
  have hcall : (atCallOfNil 1).world.protectedCall answering (World.runner answering 1) 0 0 1 =
      (.ok .runtime,
        ((atCallOfNil 1).world.protectedCall answering (World.runner answering 1) 0 0 1).2) := rfl
  obtain ⟨e, failed, hfails, hbelow, -⟩ := failed_call_handled (reachable_atCallOfNil 1)
    (h := .function ⟨"h"⟩) rfl (by decide) (by decide) rfl (.native _) hcall
  obtain ⟨inside, first, last, honce, -⟩ := hbelow (by decide)
  exact ⟨reachable_atCallOfNil 1, e, failed, inside, first, last, _, hfails, honce, hcall⟩

/-- At the limit on nested calls a handler that would answer true is not entered, and the error
object is the message. -/
theorem handler_skipped_at_limit :
    ∃ after, (atCallOfNil 0).world.protectedCall answering (World.runner answering 0) 0 0 1 =
        (.ok .runtime, after) ∧
      answering.Means (atCallOfNil 0).machine (.function ⟨"h"⟩) answer ∧
      (((Verdict.prepare 1 (.function ⟨"h"⟩) .callDepth (atCallOfNil 0).world).enter 1).run
        answering answer).1 = .ok (.ok 1) ∧
      (atCallOfNil 0).LeavesObject 1 (World.messageOf .callDepth) after ∧
      ¬ (atCallOfNil 0).LeavesObject 1 (.bool true) after := by
  refine ⟨_, rfl, .native _, rfl, ⟨_, rfl⟩, ?_⟩
  rintro ⟨stamp, hslots⟩
  cases hslots

end Configuration

end StackEmbedding
