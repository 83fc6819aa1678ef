import StackEmbedding.Proofs.Program.Change

/-!
# Steps and runs agree

`World.run` and `Configuration.step` describe one execution. A program that runs on a world comes,
step by step, to the outcome and the world that `World.run` gives (`iterate_run`), and a protected
call comes to the status and the world that `World.protectedCall` gives (`iterate_call`).

**The last moment of a call.** Whichever way a call ends, its last step writes every slot from the
callee's upward anew. `Settles` says so: no slot there has a stamp that was issued before that
step, so no identity that was taken during the call can name one of them.
-/

set_option autoImplicit false

namespace StackEmbedding.Configuration

variable {κ σ : Type} {host : Host κ σ}

/-- What `last`, the moment before a protected call ends, has to do with its status and the world
after it. -/
structure Settles (last : Configuration κ σ) (callee : Nat) (results : Int) (status : Status)
    (after : World κ σ) : Prop where
  fresh : after.machine.stack.FreshFrom callee last.stack.nextStamp
  height :
    (status = .ok ∧ ∃ reported, last.code = .done (.ok reported) ∧
      after.machine.stack.height = callee + Machine.kept results reported) ∨
    (status = .runtime ∧ after.machine.stack.height = callee + 1)

theorem settles_fail {last : Configuration κ σ} {w : World κ σ} {callee : Nat}
    (hcallee : callee ≤ w.machine.stack.height)
    (hstamp : last.stack.nextStamp ≤ w.machine.stack.nextStamp) (results : Int) (object : Value) :
    last.Settles callee results .runtime (w.fail callee object) where
  fresh := (Machine.freshFrom_settle hcallee [object]).mono hstamp
  height := .inr ⟨rfl, Machine.height_settle hcallee [object]⟩

theorem step_ofOutcome (w : World κ σ) (outcome : Except Panic Ending) (a : Activation κ σ)
    (rest : List (Activation κ σ)) :
    step host ⟨w, .ofOutcome outcome, a :: rest⟩ =
      some (a.proceed rest (a.leave host outcome w)) := by
  cases outcome <;> rfl

/-- A verdict says for which purpose a function is entered, whatever the call was at before. -/
theorem proceed_purpose {a : Activation κ σ} {rest : List (Activation κ σ)} {v : Verdict κ σ}
    (purpose : Purpose) : Activation.proceed { a with purpose } rest v = a.proceed rest v := by
  cases v <;> rfl

/-- Programs that run with `n` calls left come to their outcome step by step. -/
def Completes (host : Host κ σ) (n : Nat) : Prop :=
  ∀ (w : World κ σ) (p : Body κ σ) (calls : List (Activation κ σ)),
    w.machine.base ≤ w.machine.stack.height → w.machine.callsLeft = n →
      ∃ k, iterate host k ⟨w, p, calls⟩ =
        some ⟨(w.run host p).2, .ofOutcome (w.run host p).1, calls⟩

/-- `last` is the moment before the function called for `a` gives back a result and the world
`after`. -/
structure Returns (host : Host κ σ) (a : Activation κ σ) (rest : List (Activation κ σ))
    (last : Configuration κ σ) (result : Except RuntimeError Unit) (after : World κ σ) : Prop where
  step : last.step host = some (a.proceed rest (.conclude host a.callee a.purpose result after))
  stamp : last.stack.nextStamp ≤ after.machine.stack.nextStamp
  results : result = .ok () → ∃ reported, last.code = .done (.ok reported) ∧
    after.machine.stack.height = a.callee + Machine.kept a.purpose.wanted reported ∧
    after.machine.stack.FreshFrom a.callee last.stack.nextStamp

/-- An attempted call returns what `World.invoke` gives. -/
theorem iterate_attempt {a : Activation κ σ} {w : World κ σ} {rest : List (Activation κ σ)}
    {refused : RuntimeError → Verdict κ σ} {pre : Configuration κ σ}
    (hpre : pre.step host = some (a.proceed rest (.attempt host a.callee a.purpose refused w)))
    (hstamp : pre.stack.nextStamp ≤ w.machine.stack.nextStamp)
    (hrefused : ∀ e, refused e = .conclude host a.callee a.purpose (.error e) w)
    (hbase : w.machine.base = a.base) (hcallee : a.callee < w.machine.stack.height)
    (hcompletes : ∀ n < w.machine.callsLeft, Completes host n) :
    ∃ n last, iterate host n pre = some last ∧
      Returns host a rest last
        (w.invoke host (World.runner host w.machine.callsLeft) a.callee a.purpose.wanted).1
        (w.invoke host (World.runner host w.machine.callsLeft) a.callee a.purpose.wanted).2 := by
  rw [World.invoke_eq]
  unfold Verdict.attempt at hpre
  cases hcallable : w.callable host a.callee with
  | error e =>
    rw [hcallable] at hpre
    refine ⟨0, pre, rfl, ?_, hstamp, fun hok => by cases hok⟩
    rw [hpre]
    exact congrArg (fun v => some (a.proceed rest v)) (hrefused e)
  | ok body =>
    rw [hcallable] at hpre
    have hdepth := World.depth_lt_of_callable hcallable
    have hleft : (w.enter a.callee).machine.callsLeft < w.machine.callsLeft := by
      rw [World.callsLeft_enter]
      simp only [Machine.callsLeft]
      omega
    have hinside := World.run_evolves host (w := w.enter a.callee) hcallee body
    obtain ⟨k, hk⟩ := hcompletes _ hleft (w.enter a.callee) body (a :: rest) hcallee rfl
    dsimp only
    generalize (w.enter a.callee).run host body = ran at hk hinside ⊢
    obtain ⟨outcome, after⟩ := ran
    have hle : a.callee ≤ after.machine.stack.height :=
      Nat.le_of_succ_le (hinside.edit.le_height hcallee)
    refine ⟨k + 1, ⟨after, .ofOutcome outcome, a :: rest⟩, ?_, ?_, ?_, ?_⟩
    · rw [iterate_succ hpre]
      exact hk
    · rw [step_ofOutcome, hbase]
      rfl
    · exact (World.leave_evolves_giveBack hle _ _ _).edit.nextStamp_le
    · intro hok
      obtain ⟨reported, rfl, hresults⟩ := World.giveBack_results _ _ _ hle hok
      exact ⟨reported, rfl, hresults⟩

/-- A failed call with a handler ends with the error object that `World.handle` gives. -/
theorem iterate_handle {a : Activation κ σ} {w : World κ σ} {rest : List (Activation κ σ)}
    {results : Int} {handler : Value} {e : RuntimeError} {pre : Configuration κ σ}
    (hpurpose : a.purpose = .call results (some handler))
    (hpre : pre.step host = some (a.proceed rest (.fail host a.callee a.purpose e w)))
    (hstamp : pre.stack.nextStamp ≤ w.machine.stack.nextStamp)
    (hbase : w.machine.base = a.base) (hcallee : a.callee ≤ w.machine.stack.height)
    (hcompletes : ∀ n < w.machine.callsLeft, Completes host n) :
    ∃ n last object after,
      w.handle host (World.runner host w.machine.callsLeft) a.callee handler e = (object, after) ∧
      iterate host n pre = some last ∧
      last.step host = some (a.proceed rest (.giveUp a.callee object after)) ∧
      last.Settles a.callee results .runtime (after.fail a.callee object) := by
  let b : Activation κ σ := { a with purpose := .handle e }
  have hprepared := Verdict.prepare_evolves hcallee handler e
  have hlt := Verdict.lt_height_prepare hcallee handler e
  rw [hpurpose, ← proceed_purpose (.handle e)] at hpre
  obtain ⟨n, last, hlast, hreturns⟩ := iterate_attempt (a := b) hpre
    (Nat.le_trans hstamp hprepared.edit.nextStamp_le) (fun _ => rfl)
    (hprepared.base.trans hbase) hlt hcompletes
  have hcalled := World.invoke_evolves host
    (World.confined_runner host w.machine.callsLeft) hlt 1
  have hcallsLeft : (Verdict.prepare a.callee handler e w).machine.callsLeft =
      w.machine.callsLeft := World.callsLeft_eq hprepared
  have hwanted : b.purpose.wanted = 1 := rfl
  have hsame : b.callee = a.callee := rfl
  rw [hwanted, hsame, hcallsLeft] at hreturns
  unfold World.handle
  dsimp only
  unfold Verdict.prepare at hcalled hreturns
  generalize World.invoke host (World.runner host w.machine.callsLeft) a.callee 1 _ = called
    at hcalled hreturns ⊢
  obtain ⟨_ | _, after⟩ := called
  · exact ⟨n, last, _, _, rfl, hlast, hreturns.step,
      settles_fail (hcalled.edit.le_height (Nat.le_of_lt hlt)) hreturns.stamp results _⟩
  · obtain ⟨reported, -, hheight, -⟩ := hreturns.results rfl
    have hheight : after.machine.stack.height = a.callee + 1 := hheight
    have hdropped : a.callee ≤ after.machine.stack.dropTop.height := by
      rw [Stack.height_dropTop]
      omega
    exact ⟨n, last, _, _, rfl, hlast, hreturns.step,
      settles_fail (w := after.withMachine (after.machine.withStack after.machine.stack.dropTop))
        hdropped hreturns.stamp results _⟩

/-- A protected call that finds its operands comes, step by step, to the status and the world that
`World.protectedCall` gives. -/
theorem iterate_call_of_completes {w : World κ σ} {arguments : Nat} (results : Int) {handler : Int}
    (next : Status → Body κ σ) (calls : List (Activation κ σ)) {callee : Nat} {h : Option Value}
    (hcheck : w.machine.checkCall arguments handler = .ok (callee, h))
    (hcompletes : ∀ n < w.machine.callsLeft, Completes host n) :
    ∃ status after n last,
      w.protectedCall host (World.runner host w.machine.callsLeft) arguments results handler =
        (.ok status, after) ∧
      iterate host n ⟨w, .step (.call arguments results handler) next, calls⟩ = some last ∧
      last.step host = some ⟨after, next status, calls⟩ ∧
      last.Settles callee results status after := by
  obtain ⟨-, hcallee, -⟩ := World.checkCall_eq_ok hcheck
  have hle := Nat.le_of_lt hcallee
  let a : Activation κ σ := ⟨.call results h, callee, w.machine.base, next⟩
  have hpre : step host ⟨w, .step (.call arguments results handler) next, calls⟩ =
      some (a.proceed calls (.begin host a.callee a.purpose w)) := by
    simp only [step, hcheck]
    rfl
  have hcalled := World.invoke_evolves host
    (World.confined_runner host w.machine.callsLeft) hcallee results
  obtain ⟨n, last, hlast, hreturns⟩ :=
    iterate_attempt hpre (Nat.le_refl _) (fun _ => rfl) rfl hcallee hcompletes
  rw [World.protectedCall_eq, hcheck]
  dsimp only
  have hwanted : a.purpose.wanted = results := rfl
  rw [hwanted] at hreturns
  generalize w.invoke host (World.runner host w.machine.callsLeft) callee results = called
    at hcalled hreturns ⊢
  obtain ⟨e | _, after⟩ := called
  · have hafter := hcalled.edit.le_height hle
    cases h with
    | none =>
      exact ⟨.runtime, _, n, last, rfl, hlast, hreturns.step,
        settles_fail hafter hreturns.stamp results _⟩
    | some value =>
      have hleft : after.machine.callsLeft = w.machine.callsLeft := World.callsLeft_eq hcalled
      obtain ⟨more, final, object, handled, hhandle, hfinal, hstep, hsettles⟩ :=
        iterate_handle (a := a) rfl hreturns.step hreturns.stamp hcalled.base hafter
          (by rw [hleft]; exact hcompletes)
      rw [hleft] at hhandle
      refine ⟨.runtime, _, n + more, final, ?_, ?_, hstep, hsettles⟩
      · show (Except.ok Status.runtime, World.fail callee
          (after.handle host _ callee value e).1 (after.handle host _ callee value e).2) = _
        rw [hhandle]
      · exact (iterate_from hlast more).trans hfinal
  · obtain ⟨reported, hcode, hheight, hfresh⟩ := hreturns.results rfl
    exact ⟨.ok, after, n, last, rfl, hlast, hreturns.step, hfresh,
      .inl ⟨rfl, reported, hcode, hheight⟩⟩

/-- An instruction comes, in one step or in the steps of a call, to what `World.carryOut` gives. -/
theorem iterate_carryOut {w : World κ σ} (i : Instruction κ σ) (next : i.Reply → Body κ σ)
    (calls : List (Activation κ σ))
    (hcompletes : ∀ n < w.machine.callsLeft, Completes host n) :
    ∃ n, iterate host n ⟨w, .step i next, calls⟩ =
      match w.carryOut host (World.runner host w.machine.callsLeft) i with
      | (.ok reply, after) => some ⟨after, next reply, calls⟩
      | (.error cause, after) => some ⟨after, .panic cause, calls⟩ := by
  cases i with
  | primitive p =>
    refine ⟨1, ?_⟩
    simp only [iterate, step, World.carryOut]
    rcases w.machine.perform p with ⟨_ | _, m⟩ <;> rfl
  | call arguments results handler =>
    cases hcheck : w.machine.checkCall arguments handler with
    | error cause =>
      refine ⟨1, ?_⟩
      simp only [iterate, step, World.carryOut, World.protectedCall_eq, hcheck]
      rfl
    | ok found =>
      obtain ⟨callee, h⟩ := found
      obtain ⟨status, after, n, last, hcall, hlast, hstep, -⟩ :=
        iterate_call_of_completes results next calls hcheck hcompletes
      refine ⟨n + 1, ?_⟩
      rw [iterate_succ_last hlast, hstep, World.carryOut, hcall]
  | panic cause =>
    have hnext : next = fun r => r.elim := funext fun r => r.elim
    exact ⟨0, by rw [hnext]; rfl⟩
  | readMemory => exact ⟨1, rfl⟩
  | writeMemory memory => exact ⟨1, rfl⟩

/-- A program comes, step by step, to its answer, where what follows it goes on, or to its panic. -/
theorem iterate_andThen {α : Type} (p : Program κ σ α) {w : World κ σ}
    (hbase : w.machine.base ≤ w.machine.stack.height)
    (hcompletes : ∀ n < w.machine.callsLeft, Completes host n) (next : α → Body κ σ)
    (calls : List (Activation κ σ)) :
    ∃ n, iterate host n ⟨w, p.andThen next, calls⟩ =
      match w.run host p with
      | (.ok a, after) => some ⟨after, next a, calls⟩
      | (.error cause, after) => some ⟨after, .panic cause, calls⟩ := by
  induction p generalizing w with
  | done a => exact ⟨0, rfl⟩
  | step i rest ih =>
    have hevolves := World.carryOut_evolves host
      (World.confined_runner host w.machine.callsLeft) hbase i
    obtain ⟨n, hn⟩ := iterate_carryOut i (fun r => (rest r).andThen next) calls hcompletes
    rw [World.run_step host hbase]
    generalize w.carryOut host (World.runner host w.machine.callsLeft) i = carried
      at hevolves hn ⊢
    obtain ⟨cause | reply, after⟩ := carried
    · exact ⟨n, hn⟩
    · have hleft : after.machine.callsLeft = w.machine.callsLeft := World.callsLeft_eq hevolves
      obtain ⟨more, hmore⟩ := ih reply
        (by rw [hevolves.base]; exact hevolves.edit.le_height hbase)
        (by rw [hleft]; exact hcompletes)
      exact ⟨n + more, (iterate_from hn more).trans hmore⟩

/-- Programs come to their outcome step by step, whatever the number of calls left. -/
theorem completes (n : Nat) : Completes host n := by
  induction n using Nat.strongRecOn with
  | ind n below =>
    intro w p calls hbase hleft
    subst hleft
    obtain ⟨n, hn⟩ := iterate_andThen p hbase below .done calls
    rw [Program.andThen_done] at hn
    refine ⟨n, hn.trans ?_⟩
    rcases w.run host p with ⟨_ | _, after⟩ <;> rfl

/-- A program comes, step by step, to the outcome and the world that `World.run` gives. -/
theorem iterate_run (host : Host κ σ) {w : World κ σ}
    (hbase : w.machine.base ≤ w.machine.stack.height)
    (p : Body κ σ) (calls : List (Activation κ σ)) :
    ∃ n, iterate host n ⟨w, p, calls⟩ =
      some ⟨(w.run host p).2, .ofOutcome (w.run host p).1, calls⟩ :=
  completes _ w p calls hbase rfl

/-- A program that answers comes, step by step, to its answer, and what follows it goes on there. -/
theorem iterate_bind {c : Configuration κ σ} (hbase : c.machine.base ≤ c.stack.height) {α : Type}
    {p : Program κ σ α} {next : α → Program κ σ Ending} {a : α} {after : World κ σ}
    (hcode : c.code = (p >>= next : Program κ σ Ending))
    (hrun : c.world.run host p = (.ok a, after)) :
    ∃ n, iterate host n c = some ⟨after, next a, c.calls⟩ := by
  obtain ⟨w, code, calls⟩ := c
  obtain rfl := hcode
  obtain ⟨n, hn⟩ := iterate_andThen p hbase (fun n _ => completes n) next calls
  rw [show w.run host p = (.ok a, after) from hrun] at hn
  exact ⟨n, hn⟩

/-- A program that answers takes a run from its beginning to its answer. -/
theorem leads_bind {c : Configuration κ σ} (hc : c.WellFormed) {α : Type} {p : Program κ σ α}
    {a : α} {next : α → Program κ σ Ending} {after : World κ σ}
    (hcode : c.code = (p >>= next : Program κ σ Ending))
    (hrun : c.world.run host p = (.ok a, after)) :
    Leads host (fun _ => True) c ⟨after, next a, c.calls⟩ := by
  obtain ⟨n, hn⟩ := iterate_bind hc.base_le_height hcode hrun
  exact leads_of_iterate hn

/-- A protected call that finds its operands comes, step by step, to the status and the world that
`World.protectedCall` gives. -/
theorem iterate_call (host : Host κ σ) {w : World κ σ} {arguments : Nat} (results : Int)
    {handler : Int} (next : Status → Body κ σ) (calls : List (Activation κ σ)) {callee : Nat}
    {h : Option Value}
    (hcheck : w.machine.checkCall arguments handler = .ok (callee, h)) :
    ∃ status after n last,
      w.protectedCall host (World.runner host w.machine.callsLeft) arguments results handler =
        (.ok status, after) ∧
      iterate host n ⟨w, .step (.call arguments results handler) next, calls⟩ = some last ∧
      last.step host = some ⟨after, next status, calls⟩ ∧
      last.Settles callee results status after :=
  iterate_call_of_completes results next calls hcheck fun n _ => completes n

end StackEmbedding.Configuration
