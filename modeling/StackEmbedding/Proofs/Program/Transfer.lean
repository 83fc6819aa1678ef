import StackEmbedding.Proofs.Machine.Position
import StackEmbedding.Proofs.Program.Handler

/-!
# What a protected call puts in the place of its callee

A protected call replaces the callee and its arguments. If the function returns, by the results it
reported, which are the highest values of its frame whatever else it left below them, cut or padded
with nil to the wanted count (`Transferred`). If the call fails, by one string: `World.FailsSaying`
lists the five causes, each with its text. A message handler that fails itself changes nothing about
that string, though what it did to tables, globals and closures stays (`World.Leaves`).

A handler that returns is the business of `StackEmbedding.Proofs.Program.Handler`.
-/

set_option autoImplicit false

namespace StackEmbedding

variable {κ σ : Type} {host : Host κ σ} {w left : World κ σ} {callee : Nat}

/-! ## The two ends of a call -/

/-- The function at a raw index returns, `left` is the world in its frame then, and it left as many
values there as it reported results. -/
def World.Answers (host : Host κ σ) (callee reported : Nat) (w left : World κ σ) : Prop :=
  ∃ body, w.callable host callee = .ok body ∧
    (w.enter callee).run host body = (.ok (.ok reported), left) ∧ reported ≤ left.machine.top

/-- The call of the value at a raw index fails with a text, and this is the world then, in the frame
of the caller. -/
inductive World.FailsSaying (host : Host κ σ) (callee : Nat) (w : World κ σ) :
    String → World κ σ → Prop
  | limit : w.machine.limits.maxCallDepth ≤ w.machine.depth →
      FailsSaying host callee w "stack overflow (call depth)" w
  | notCallable {v : Value} : w.machine.depth < w.machine.limits.maxCallDepth →
      w.machine.stack.value? callee = some v → v.tag ≠ .function →
      FailsSaying host callee w s!"attempt to call a {v.tag.name} value" w
  | reported {body : Body κ σ} {e : RuntimeError} {after : World κ σ} :
      w.callable host callee = .ok body → (w.enter callee).run host body = (.ok (.error e), after) →
      FailsSaying host callee w e.message (after.back w.machine.base)
  | panicked {body : Body κ σ} {cause : Panic} {after : World κ σ} :
      w.callable host callee = .ok body → (w.enter callee).run host body = (.error cause, after) →
      FailsSaying host callee w cause.message (after.back w.machine.base)
  | overReported {body : Body κ σ} {reported : Nat} {after : World κ σ} :
      w.callable host callee = .ok body →
      (w.enter callee).run host body = (.ok (.ok reported), after) → after.machine.top < reported →
      FailsSaying host callee w
        s!"function reported {reported} results but left {after.machine.top}"
        (after.back w.machine.base)

/-- What is given of the results found: all of them if `results` is negative, and else as many as
that, each the one found at its place or nil. -/
def Transferred (results : Int) (found given : List Value) : Prop :=
  (results < 0 → given = found) ∧
    (0 ≤ results → given.length = results.toNat ∧
      ∀ k, k < results.toNat → given[k]? = some (.orNil found[k]?))

/-- The frame of `w` with these values in the place of the callee and all above it, freshly stamped,
and all else as in `left`. -/
structure World.Leaves (w left : World κ σ) (callee : Nat) (values : List Value)
    (after : World κ σ) : Prop where
  identity : after.machine.identity = w.machine.identity
  limits : after.machine.limits = w.machine.limits
  base : after.machine.base = w.machine.base
  depth : after.machine.depth = w.machine.depth
  slots : after.machine.stack.slots =
    w.machine.stack.slots.take callee ++ stamped left.machine.stack.nextStamp values
  objects : after.machine.objects = left.machine.objects
  memory : after.memory = left.memory

/-- The world in which a handler is called: the handler and the text in the place of the callee and
all above it. -/
def World.withHandler (callee : Nat) (handler : Value) (text : String) (w : World κ σ) :
    World κ σ :=
  w.withMachine (w.machine.settle callee [handler, .str (.ofString text)])

/-- The highest values of a frame are the last ones. -/
theorem Machine.highest_eq {m : Machine κ} (hbase : m.base ≤ m.stack.height) {n : Nat}
    (hn : n ≤ m.top) : m.stack.highest n = m.values.drop (m.top - n) := by
  have hplace : m.stack.height - n = m.base + (m.top - n) := by
    rw [top] at hn ⊢
    omega
  rw [Stack.highest, hplace, Stack.valuesFrom_add, values_eq_valuesFrom]

theorem transferred_adjust (results : Int) (found : List Value) :
    Transferred results found (Machine.adjust results found) := by
  constructor
  · intro hall
    exact if_pos hall
  · intro hcount
    obtain ⟨count, rfl⟩ := Int.eq_ofNat_of_zero_le hcount
    exact ⟨Machine.length_adjust_of_nonneg count found,
      fun k hk => Machine.getElem?_adjust hk found⟩

namespace World

/-- What a call puts in the place of its callee leaves the frame of the caller below. -/
theorem leaves_settle (hcallee : callee ≤ w.machine.stack.height)
    (h : w.machine.Evolves (callee ≤ ·) left.machine) (values : List Value) :
    w.Leaves left callee values (left.withMachine (left.machine.settle callee values)) where
  identity := h.identity
  limits := h.limits
  base := h.base
  depth := h.depth
  slots := by
    rw [← h.edit.take_eq]
    exact Machine.slots_settle (h.edit.le_height hcallee) values
  objects := rfl
  memory := rfl

/-- The text of a failure is the message of the error with which the call fails, whatever results
are wanted. -/
theorem invoke_of_failsSaying (hcallee : callee < w.machine.stack.height) {text : String}
    (h : w.FailsSaying host callee text left) :
    ∃ e, e.message = text ∧ w.machine.Evolves (callee ≤ ·) left.machine ∧
      ∀ results, w.invoke host (runner host w.machine.callsLeft) callee results =
        (.error e, left) := by
  obtain ⟨e, hmessage, hfails⟩ : ∃ e, e.message = text ∧ w.FailsWith host callee e left := by
    cases h with
    | limit hlimit => exact ⟨_, rfl, .limit hlimit⟩
    | @notCallable v hdepth hvalue htag =>
      have hnone : host.body? w.machine (.orNil (w.machine.stack.value? callee)) = none := by
        rw [hvalue]
        cases v with
        | function _ | closure _ => exact absurd rfl htag
        | nil | bool _ | int _ | number _ | str _ | table _ => rfl
      refine ⟨_, ?_, .notCallable hdepth hnone⟩
      rw [hvalue]
      rfl
    | reported hcallable hrun => exact ⟨_, rfl, .reported hcallable hrun⟩
    | panicked hcallable hrun => exact ⟨_, rfl, .panicked hcallable hrun⟩
    | overReported hcallable hrun hover =>
      have hbase := (ended_of_run hcallee hrun).base
      rw [Machine.top, hbase] at hover ⊢
      exact ⟨_, rfl, .overReported hcallable hrun hover⟩
  have hinvoke := invoke_of_failsWith hfails
  have hevolves := invoke_evolves host (confined_runner host w.machine.callsLeft) hcallee 0
  rw [hinvoke] at hevolves
  exact ⟨e, hmessage, hevolves, hinvoke⟩

/-- A call is answered or fails. -/
theorem answers_or_fails (host : Host κ σ) (hcallee : callee < w.machine.stack.height) :
    (∃ reported left, w.Answers host callee reported left) ∨
      ∃ text failed, w.FailsSaying host callee text failed := by
  cases hcallable : w.callable host callee with
  | ok body =>
    rcases hrun : (w.enter callee).run host body with ⟨cause | e | reported, left⟩
    · exact .inr ⟨_, _, .panicked hcallable hrun⟩
    · exact .inr ⟨_, _, .reported hcallable hrun⟩
    · by_cases hreported : reported ≤ left.machine.top
      · exact .inl ⟨reported, left, body, hcallable, hrun, hreported⟩
      · exact .inr ⟨_, _, .overReported hcallable hrun (Nat.lt_of_not_le hreported)⟩
  | error e =>
    right
    by_cases hdepth : w.machine.depth < w.machine.limits.maxCallDepth
    · obtain ⟨v, hvalue⟩ : ∃ v, w.machine.stack.value? callee = some v := by
        rw [Stack.value?, List.getElem?_eq_getElem hcallee]
        exact ⟨_, rfl⟩
      refine ⟨_, _, .notCallable hdepth hvalue fun htag => ?_⟩
      obtain ⟨body, hbody⟩ := host.exists_body? w.machine htag
      rw [callable, if_pos hdepth, hvalue] at hcallable
      dsimp only [Value.orNil, Option.getD_some] at hcallable
      rw [hbody] at hcallable
      cases hcallable
    · exact ⟨_, _, .limit (Nat.le_of_not_lt hdepth)⟩

/-! ## The call as a whole -/

variable {arguments : Nat} {results handler : Int} {text : String}

/-- A call that is answered gives the results. -/
theorem call_answers (hcheck : w.machine.checkCall arguments handler = .ok (callee, none))
    {reported : Nat} (h : w.Answers host callee reported left) :
    ∃ given after, w.run host (Program.call arguments results handler) = (.ok .ok, after) ∧
      Transferred results (left.machine.values.drop (left.machine.top - reported)) given ∧
      w.Leaves left callee given after := by
  obtain ⟨body, hcallable, hrun, hreported⟩ := h
  obtain ⟨-, hcallee, -⟩ := checkCall_eq_ok hcheck
  obtain ⟨hbase, hframe, hcaller⟩ := ended_of_run hcallee hrun
  have hfits : reported ≤ left.machine.stack.height - (callee + 1) := by
    rwa [Machine.top, hbase] at hreported
  have hcall : w.protectedCall host (runner host w.machine.callsLeft) arguments results handler =
      _ := protectedCall_returns hcheck hcallable hrun hfits
  rw [Machine.highest_eq hframe hreported] at hcall
  refine ⟨_, _, (Program.runWith_call arguments results handler).trans hcall,
    transferred_adjust results _, ?_⟩
  have hleaves : w.Leaves (left.back w.machine.base) callee _ _ :=
    leaves_settle (Nat.le_of_lt hcallee) hcaller
      (Machine.adjust results (left.machine.values.drop (left.machine.top - reported)))
  exact ⟨hleaves.identity, hleaves.limits, hleaves.base, hleaves.depth, hleaves.slots, rfl, rfl⟩

/-- A call that fails leaves the object that is made of its error. -/
theorem call_leaves_object {h : Option Value} {e : RuntimeError} {object : Value}
    {failed : World κ σ} (hcheck : w.machine.checkCall arguments handler = .ok (callee, h))
    (hinvoke : w.invoke host (runner host w.machine.callsLeft) callee results = (.error e, failed))
    (hobject : h.elim (messageOf e, failed)
      (fun h => failed.handle host (runner host w.machine.callsLeft) callee h e) = (object, left))
    (hevolves : w.machine.Evolves (callee ≤ ·) left.machine) :
    ∃ after, w.run host (Program.call arguments results handler) = (.ok .runtime, after) ∧
      w.Leaves left callee [object] after := by
  have hcall : w.protectedCall host (runner host w.machine.callsLeft) arguments results handler =
      (.ok .runtime, left.fail callee object) := by
    rw [protectedCall_eq, hcheck]
    dsimp only
    rw [hinvoke]
    cases h with
    | none =>
      obtain ⟨rfl, rfl⟩ := Prod.mk.inj hobject
      rfl
    | some h =>
      rw [Option.elim_some] at hobject
      dsimp only
      rw [hobject]
  obtain ⟨-, hcallee, -⟩ := checkCall_eq_ok hcheck
  exact ⟨_, (Program.runWith_call arguments results handler).trans hcall,
    leaves_settle (Nat.le_of_lt hcallee) hevolves _⟩

/-- A call without a handler that fails leaves the text. -/
theorem call_fails (hcheck : w.machine.checkCall arguments handler = .ok (callee, none))
    (h : w.FailsSaying host callee text left) :
    ∃ after, w.run host (Program.call arguments results handler) = (.ok .runtime, after) ∧
      w.Leaves left callee [.str (.ofString text)] after := by
  obtain ⟨-, hcallee, -⟩ := checkCall_eq_ok hcheck
  obtain ⟨e, rfl, hevolves, hinvoke⟩ := invoke_of_failsSaying hcallee h
  exact call_leaves_object hcheck (hinvoke results) rfl hevolves

/-- A handler that fails leaves the text as it was. -/
theorem call_fails_twice {h : Value} {failed : World κ σ} {text' : String}
    (hcheck : w.machine.checkCall arguments handler = .ok (callee, some h))
    (hfirst : w.FailsSaying host callee text failed)
    (hsecond : (failed.withHandler callee h text).FailsSaying host callee text' left) :
    ∃ after, w.run host (Program.call arguments results handler) = (.ok .runtime, after) ∧
      w.Leaves left callee [.str (.ofString text)] after := by
  obtain ⟨-, hcallee, -⟩ := checkCall_eq_ok hcheck
  obtain ⟨e, rfl, hcalled, hinvoke⟩ := invoke_of_failsSaying hcallee hfirst
  -- The handler is called in the slot of the callee and at the same depth.
  have hle : callee ≤ failed.machine.stack.height :=
    hcalled.edit.le_height (Nat.le_of_lt hcallee)
  have hprepared := hcalled.trans (Verdict.prepare_evolves hle h e)
  have hcalls : (Verdict.prepare callee h e failed).machine.callsLeft = w.machine.callsLeft :=
    callsLeft_eq hprepared
  obtain ⟨e', -, hhandled, hinvoke'⟩ :=
    invoke_of_failsSaying (Verdict.lt_height_prepare hle h e) hsecond
  refine call_leaves_object hcheck (hinvoke results) ?_ (hprepared.trans hhandled)
  rw [Option.elim_some, handle_prepare, ← hcalls, hinvoke']
  rfl

end World

/-- A protected call ends in one of two ways, and in the place of the callee and its arguments there
are then the transferred results or the text of the failure. A handler that fails as well leaves
that text. -/
theorem protected_call_transfers (host : Host κ σ) (w : World κ σ) {arguments : Nat}
    (harguments : arguments < w.machine.top) (results : Int) :
    let callee := w.machine.stack.height - arguments - 1
    ((∃ reported left, w.Answers host callee reported left) ∨
      ∃ text failed, w.FailsSaying host callee text failed) ∧
    (∀ reported left, w.Answers host callee reported left →
      ∃ given after, w.run host (Program.call arguments results 0) = (.ok .ok, after) ∧
        Transferred results (left.machine.values.drop (left.machine.top - reported)) given ∧
        w.Leaves left callee given after) ∧
    (∀ text failed, w.FailsSaying host callee text failed →
      ∃ after, w.run host (Program.call arguments results 0) = (.ok .runtime, after) ∧
        w.Leaves failed callee [.str (.ofString text)] after) ∧
    ∀ text failed handler h, handler ≠ 0 → w.machine.value? handler = some h →
      w.FailsSaying host callee text failed →
      ∀ text' left, (failed.withHandler callee h text).FailsSaying host callee text' left →
        ∃ after, w.run host (Program.call arguments results handler) = (.ok .runtime, after) ∧
          w.Leaves left callee [.str (.ofString text)] after := by
  intro callee
  have hcheck := Machine.checkCall_eq harguments
  have hzero : w.machine.checkCall arguments 0 = .ok (callee, none) :=
    (hcheck 0).trans (if_pos rfl)
  obtain ⟨-, hcallee, -⟩ := World.checkCall_eq_ok hzero
  refine ⟨World.answers_or_fails host hcallee, ?_, ?_, ?_⟩
  · intro reported left h
    exact World.call_answers hzero h
  · intro text failed h
    exact World.call_fails hzero h
  · intro text failed handler h hhandler hvalue hfirst text' left hsecond
    have hfound : w.machine.checkCall arguments handler = .ok (callee, some h) := by
      rw [hcheck handler, if_neg hhandler, hvalue]
    exact World.call_fails_twice hfound hfirst hsecond

/-- Leaves three values and reports two. -/
def reportingTwo : Program Unit Unit Ending := do
  .push (.int 1)
  .push (.int 2)
  .push (.int 3)
  return .ok 2

/-- A host of one function that leaves more than it reports; every other raises an error. -/
def untidy : Host Unit Unit where
  native f := if f.name = "two" then reportingTwo else .done (.error (.raised "boom"))
  closure _ := .done (.error (.raised "boom"))

/-- A value, and above it a function with one argument. -/
def atFunction (name : String) : World Unit Unit :=
  ⟨(((Machine.new 0 {}).push (.bool true)).push (.function ⟨name⟩)).push (.int 9), ()⟩

/-- Three results are given for two that were reported, the last of them nil; and an error keeps its
text with no handler, and with a handler that cannot be called. -/
theorem three_given_of_two :
    (∃ given after, (atFunction "two").run untidy (Program.call 1 3 0) = (.ok .ok, after) ∧
      given.length = 3 ∧ given[0]? = some (.int 2) ∧ given[1]? = some (.int 3) ∧
      given[2]? = some .nil ∧ after.machine.stack.slots = ⟨.bool true, 1⟩ :: stamped 7 given) ∧
    (∃ after, (atFunction "fail").run untidy (Program.call 1 3 0) = (.ok .runtime, after) ∧
      after.machine.stack.slots = [⟨.bool true, 1⟩, ⟨.str (.ofString "boom"), 4⟩]) ∧
    ∃ after, (atFunction "fail").run untidy (Program.call 1 3 1) = (.ok .runtime, after) ∧
      after.machine.stack.slots = [⟨.bool true, 1⟩, ⟨.str (.ofString "boom"), 6⟩] := by
  obtain ⟨-, hanswers, -, -⟩ :=
    @protected_call_transfers _ _ untidy (atFunction "two") 1 (by decide) 3
  obtain ⟨-, -, hfails, hfailsTwice⟩ :=
    @protected_call_transfers _ _ untidy (atFunction "fail") 1 (by decide) 3
  obtain ⟨given, after, hrun, ⟨-, hgiven⟩, hleaves⟩ :=
    hanswers 2 _ ⟨reportingTwo, rfl, rfl, by decide⟩
  obtain ⟨hlength, hplaces⟩ := hgiven (by decide)
  obtain ⟨after', hrun', hleaves'⟩ := hfails "boom" _ (.reported (e := .raised "boom") rfl rfl)
  obtain ⟨after'', hrun'', hleaves''⟩ := hfailsTwice "boom" _ 1 (.bool true) (by decide) rfl
    (.reported (e := .raised "boom") rfl rfl) _ _
    (.notCallable (v := .bool true) (by decide) rfl nofun)
  exact ⟨⟨given, after, hrun, hlength, hplaces 0 (by decide), hplaces 1 (by decide),
    hplaces 2 (by decide), hleaves.slots⟩, ⟨after', hrun', hleaves'.slots⟩,
    after'', hrun'', hleaves''.slots⟩

end StackEmbedding
