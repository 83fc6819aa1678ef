import StackEmbedding.Program.Run
import StackEmbedding.Proofs.Machine.Footprint
import StackEmbedding.Proofs.Stack.Top

/-!
# Protected calls, part by part

A protected call checks its operands (`Machine.checkCall`), looks up the code of the callee
(`World.callable`), runs it in a frame of its own and takes the results or the failure back into the
frame of the caller (`World.giveBack`). `invoke_eq` and `protectedCall_eq` say that the call of
`StackEmbedding.Program.Run` is made of these parts. There the limit on nested calls is the number
of calls still allowed; here it is the comparison of the depth with the limit.

**What is established here.**
* `protectedCall_evolves`: a protected call edits nothing below its callee.
* `run_evolves`: a host program edits nothing below the base of the frame that it runs in, and
  leaves base and depth as they were, whatever it calls and however it ends.
* `run_step`: a run is its first instruction and the run of the rest.
-/

set_option autoImplicit false

namespace StackEmbedding

variable {κ σ α : Type}

/-! ## The parts -/

/-- The raw index of the callee and the value of the handler, if a call finds both. -/
def Machine.checkCall (m : Machine κ) (arguments : Nat) (handler : Int) :
    Except Panic (Nat × Option Value) :=
  if m.top ≤ arguments then .error (.missingCallee arguments m.top)
  else
    let callee := m.stack.height - arguments - 1
    if handler = 0 then .ok (callee, none)
    else
      match m.value? handler with
      | some h => .ok (callee, some h)
      | none => .error (.invalidPosition .protectedCall handler)

/-- What the operands of a call are found to be. -/
theorem Machine.checkCall_eq {m : Machine κ} {arguments : Nat} (harguments : arguments < m.top)
    (handler : Int) :
    m.checkCall arguments handler =
      if handler = 0 then .ok (m.stack.height - arguments - 1, none)
      else match m.value? handler with
        | some h => .ok (m.stack.height - arguments - 1, some h)
        | none => .error (.invalidPosition .protectedCall handler) :=
  if_neg (Nat.not_le_of_lt harguments)

/-- The values of function type have code. -/
theorem Host.exists_body? (host : Host κ σ) (m : Machine κ) {f : Value} (hf : f.tag = .function) :
    ∃ body, host.body? m f = some body := by
  cases f with
  | function g => exact ⟨_, rfl⟩
  | closure id => exact ⟨_, rfl⟩
  | nil | bool _ | int _ | number _ | str _ | table _ => cases hf

namespace World

/-- The code of the value at a raw index, or why that value cannot be called now. -/
def callable (host : Host κ σ) (callee : Nat) (w : World κ σ) : Except RuntimeError (Body κ σ) :=
  if w.machine.depth < w.machine.limits.maxCallDepth then
    let target := Value.orNil (w.machine.stack.value? callee)
    match host.body? w.machine target with
    | some body => .ok body
    | none => .error (.notCallable target.tag)
  else .error .callDepth

/-- The world inside a call of the value at a raw index. -/
def enter (callee : Nat) (w : World κ σ) : World κ σ := w.withMachine (w.machine.enter callee)

/-- Takes what a function came to into the frame of its caller, whose base is `base`. -/
def giveBack (base callee : Nat) (results : Int) (outcome : Except Panic Ending)
    (w : World κ σ) : Except RuntimeError Unit × World κ σ :=
  let left := w.machine.leave base
  match outcome with
  | .ok (.ok reported) =>
    let (delivered, m) := left.deliver callee results reported
    (delivered, w.withMachine m)
  | .ok (.error e) => (.error e, w.withMachine left)
  | .error cause => (.error (.panicked cause), w.withMachine left)

variable {host : Host κ σ} {w : World κ σ} {callee : Nat}

theorem depth_lt_of_callable {body : Body κ σ} (h : w.callable host callee = .ok body) :
    w.machine.depth < w.machine.limits.maxCallDepth := by
  unfold callable at h
  split at h
  next hdepth => exact hdepth
  next => cases h

theorem callsLeft_enter : (w.enter callee).machine.callsLeft = w.machine.callsLeft - 1 := by
  simp only [enter, withMachine, Machine.enter, Machine.callsLeft]
  omega

/-- A call as its parts: refused, or run one level deeper and given back. -/
theorem invoke_eq (results : Int) :
    w.invoke host (runner host w.machine.callsLeft) callee results =
      match w.callable host callee with
      | .error e => (.error e, w)
      | .ok body =>
        let (outcome, after) := (w.enter callee).run host body
        after.giveBack w.machine.base callee results outcome := by
  unfold run
  rw [callsLeft_enter]
  unfold invoke callable
  by_cases hdepth : w.machine.depth < w.machine.limits.maxCallDepth
  · obtain ⟨calls, hcalls⟩ : ∃ calls, w.machine.callsLeft = calls + 1 :=
      ⟨w.machine.callsLeft - 1, by simp only [Machine.callsLeft]; omega⟩
    simp only [hcalls, runner, if_pos hdepth, Nat.add_sub_cancel]
    cases hbody : host.body? w.machine (.orNil (w.machine.stack.value? callee)) with
    | none => rfl
    | some body =>
      rcases hrun : Program.runWith host (runner host calls) body
        (w.withMachine (w.machine.enter callee)) with ⟨⟨_⟩ | ⟨_⟩ | _, after⟩ <;>
        simp only [giveBack, enter, hrun]
  · have hcalls : w.machine.callsLeft = 0 := by simp only [Machine.callsLeft]; omega
    simp only [hcalls, runner, if_neg hdepth]

/-- A protected call as its parts: refused by a panic, or attempted and its failure settled. -/
theorem protectedCall_eq (runner : Runner κ σ) (arguments : Nat) (results handler : Int) :
    w.protectedCall host runner arguments results handler =
      match w.machine.checkCall arguments handler with
      | .error cause => (.error cause, w)
      | .ok (callee, handler) =>
        match w.invoke host runner callee results with
        | (.ok (), after) => (.ok .ok, after)
        | (.error e, after) =>
          let (object, after) :=
            match handler with
            | none => (messageOf e, after)
            | some h => after.handle host runner callee h e
          (.ok .runtime, after.fail callee object) := by
  unfold protectedCall Machine.checkCall
  by_cases htop : w.machine.top ≤ arguments
  · simp only [if_pos htop]
  · simp only [if_neg htop]
    by_cases hzero : handler = 0
    · rcases hcall : w.invoke host runner (w.machine.stack.height - arguments - 1) results with
        ⟨_ | _, after⟩ <;> simp only [if_pos hzero, hcall]
    · simp only [if_neg hzero]
      cases w.machine.value? handler <;> rfl

/-! ## What a call edits -/

end World

namespace Machine

variable {m n : Machine κ} {callee : Nat}

/-- How many values are left of `reported` results when `results` are wanted. -/
def kept (results : Int) (reported : Nat) : Nat :=
  if results < 0 then reported else results.toNat

theorem length_adjust (results : Int) (values : List Value) :
    (adjust results values).length = kept results values.length := by
  unfold adjust kept
  split
  · rfl
  · rw [List.length_append, List.length_take, List.length_replicate]
    omega

/-- Each of a number of wanted results is the result at its place, nil where there is none. -/
theorem getElem?_adjust {count k : Nat} (hk : k < count) (results : List Value) :
    (adjust count results)[k]? = some (.orNil results[k]?) := by
  have hcount : ¬ ((count : Int) < 0) := Int.not_lt.mpr (Int.natCast_nonneg count)
  rw [adjust, if_neg hcount, Int.toNat_natCast]
  by_cases hlt : k < results.length
  · have hlength : k < (results.take count).length := by
      rw [List.length_take]
      omega
    rw [List.getElem?_append_left hlength, List.getElem?_take_of_lt hk,
      List.getElem?_eq_getElem hlt]
    rfl
  · have hle : results.length ≤ k := Nat.le_of_not_lt hlt
    have htake : results.take count = results := List.take_of_length_le (by omega)
    rw [htake, List.getElem?_append_right hle, List.getElem?_replicate, if_pos (by omega),
      List.getElem?_eq_none hle]
    rfl

theorem length_adjust_of_nonneg (count : Nat) (results : List Value) :
    (adjust count results).length = count := by
  rw [length_adjust, kept, if_neg (Int.not_lt.mpr (Int.natCast_nonneg count)), Int.toNat_natCast]

theorem settle_stack (h : callee ≤ m.stack.height) (values : List Value) :
    (m.settle callee values).stack = m.stack.replaceFrom callee values :=
  Stack.pushAll_resize h values

theorem slots_settle (h : callee ≤ m.stack.height) (values : List Value) :
    (m.settle callee values).stack.slots =
      m.stack.slots.take callee ++ stamped m.stack.nextStamp values := by
  rw [settle_stack h]
  rfl

theorem height_settle (h : callee ≤ m.stack.height) (values : List Value) :
    (m.settle callee values).stack.height = callee + values.length := by
  rw [settle_stack h, Stack.height_replaceFrom h]

theorem freshFrom_settle (h : callee ≤ m.stack.height) (values : List Value) :
    (m.settle callee values).stack.FreshFrom callee m.stack.nextStamp := by
  rw [settle_stack h]
  exact Stack.freshFrom_replaceFrom h values

theorem settle_evolves (h : callee ≤ m.stack.height) (values : List Value) :
    m.Evolves (callee ≤ ·) (m.settle callee values) := by
  refine .withStack ?_
  rw [Stack.pushAll_resize h]
  exact Stack.Edit.refl.replaceFrom callee values h fun _ hk => hk

theorem deliver_evolves (h : callee ≤ m.stack.height) (results : Int) (reported : Nat) :
    m.Evolves (callee ≤ ·) (m.deliver callee results reported).2 := by
  unfold deliver
  dsimp only
  split
  · exact .refl m
  · exact settle_evolves h _

/-- Delivering succeeds when the function left as many values as it reported. -/
theorem deliver_fst_eq_ok {results : Int} {reported : Nat} :
    (m.deliver callee results reported).1 = .ok () ↔
      reported ≤ m.stack.height - (callee + 1) := by
  unfold deliver
  dsimp only
  split
  · simp only [reduceCtorEq, false_iff]
    omega
  · simp only [true_iff]
    omega

/-- A function that left as many values as it reported has its highest ones delivered. -/
theorem deliver_of_le {reported : Nat} (h : reported ≤ m.stack.height - (callee + 1))
    (results : Int) :
    m.deliver callee results reported =
      (.ok (), m.settle callee (adjust results (m.stack.highest reported))) := by
  unfold deliver
  dsimp only
  rw [if_neg (Nat.not_lt_of_le h)]
  rfl

/-- A function that left fewer values than it reported has failed. -/
theorem deliver_of_lt {reported : Nat} (h : m.stack.height - (callee + 1) < reported)
    (results : Int) :
    m.deliver callee results reported =
      (.error (.overReported reported (m.stack.height - (callee + 1))), m) := if_pos h

/-- What is delivered stands from the callee's slot upward, all of it newly written. -/
theorem deliver_results (h : callee ≤ m.stack.height) {results : Int} {reported : Nat}
    (hok : (m.deliver callee results reported).1 = .ok ()) :
    (m.deliver callee results reported).2.stack.height = callee + kept results reported ∧
      (m.deliver callee results reported).2.stack.FreshFrom callee m.stack.nextStamp := by
  have hle := deliver_fst_eq_ok.mp hok
  unfold deliver
  dsimp only
  rw [if_neg (by omega)]
  refine ⟨?_, freshFrom_settle h _⟩
  rw [height_settle h, length_adjust]
  congr 2
  simp only [Stack.valuesFrom, List.length_map, List.length_drop]
  simp only [Stack.height] at hle ⊢
  omega

/-- What a function does above the callee's slot is, for its caller, from the callee's slot up. -/
theorem leave_evolves (h : (m.enter callee).Evolves (callee + 1 ≤ ·) n) :
    m.Evolves (callee ≤ ·) (n.leave m.base) where
  identity := h.identity
  limits := h.limits
  base := rfl
  depth := by simp only [leave, h.depth, enter, Nat.add_sub_cancel]
  edit := h.edit.mono fun k hk => by omega

end Machine

namespace World

variable (host : Host κ σ) {runner : Runner κ σ} {w after : World κ σ} {callee : Nat}

theorem leave_evolves_giveBack (hcallee : callee ≤ w.machine.stack.height) (base : Nat)
    (results : Int) (outcome : Except Panic Ending) :
    (w.machine.leave base).Evolves (callee ≤ ·)
      (w.giveBack base callee results outcome).2.machine :=
  match outcome with
  | .ok (.ok _) => Machine.deliver_evolves (m := w.machine.leave base) hcallee _ _
  | .ok (.error _) => .refl _
  | .error _ => .refl _

theorem giveBack_evolves (hcallee : callee < w.machine.stack.height)
    (h : (w.enter callee).machine.Evolves (callee + 1 ≤ ·) after.machine)
    (results : Int) (outcome : Except Panic Ending) :
    w.machine.Evolves (callee ≤ ·)
      (after.giveBack w.machine.base callee results outcome).2.machine := by
  have hleft := Machine.leave_evolves h
  exact hleft.trans
    (leave_evolves_giveBack (hleft.edit.le_height (Nat.le_of_lt hcallee)) _ results outcome)

/-- What a function gives back with success are the results that it reported. -/
theorem giveBack_results (base : Nat) (results : Int) (outcome : Except Panic Ending)
    (hcallee : callee ≤ w.machine.stack.height)
    (hok : (w.giveBack base callee results outcome).1 = .ok ()) :
    ∃ reported, outcome = .ok (.ok reported) ∧
      (w.giveBack base callee results outcome).2.machine.stack.height =
        callee + Machine.kept results reported ∧
      (w.giveBack base callee results outcome).2.machine.stack.FreshFrom callee
        w.machine.stack.nextStamp :=
  match outcome, hok with
  | .ok (.ok reported), hok =>
    ⟨reported, rfl, Machine.deliver_results (m := w.machine.leave base) hcallee hok⟩

/-- The calls of a runner stay in the frames they are given. -/
def Confined (runner : Runner κ σ) : Prop :=
  ∀ run, runner = some run → ∀ (body : Body κ σ) (w : World κ σ),
    w.machine.base ≤ w.machine.stack.height →
      w.machine.Evolves (w.machine.base ≤ ·) (run body w).2.machine

theorem invoke_evolves (hrunner : Confined runner) (hcallee : callee < w.machine.stack.height)
    (results : Int) :
    w.machine.Evolves (callee ≤ ·) (w.invoke host runner callee results).2.machine := by
  unfold invoke
  cases runner with
  | none => exact .refl _
  | some run =>
    dsimp only
    cases host.body? w.machine (.orNil (w.machine.stack.value? callee)) with
    | none => exact .refl _
    | some body =>
      have hbody := hrunner run rfl body (w.enter callee) hcallee
      rcases hrun : run body (w.enter callee) with ⟨outcome, after⟩
      rw [hrun] at hbody
      simp only [enter] at hrun
      simp only [hrun]
      have := giveBack_evolves hcallee hbody results outcome
      rcases outcome with _ | ⟨_ | _⟩ <;> exact this

/-- A call that succeeds leaves its results from the callee's slot upward. -/
theorem height_invoke {host : Host κ σ} (hrunner : Confined runner)
    (hcallee : callee < w.machine.stack.height) {results : Int}
    (hok : (w.invoke host runner callee results).1 = .ok ()) :
    ∃ reported, (w.invoke host runner callee results).2.machine.stack.height =
      callee + Machine.kept results reported := by
  unfold invoke at hok ⊢
  cases runner with
  | none => cases hok
  | some run =>
    dsimp only at hok ⊢
    cases hbody : host.body? w.machine (.orNil (w.machine.stack.value? callee)) with
    | none => rw [hbody] at hok; cases hok
    | some body =>
      simp only [hbody] at hok ⊢
      have hinside := hrunner run rfl body (w.enter callee) hcallee
      rcases hrun : run body (w.enter callee) with ⟨outcome, after⟩
      rw [hrun] at hinside
      simp only [enter] at hrun
      simp only [hrun] at hok ⊢
      have hleft := (Machine.leave_evolves hinside).edit.le_height (Nat.le_of_lt hcallee)
      match outcome, hok with
      | .ok (.ok reported), hok => exact ⟨reported, (Machine.deliver_results hleft hok).1⟩

theorem handle_evolves (hrunner : Confined runner) (hcallee : callee ≤ w.machine.stack.height)
    (handler : Value) (e : RuntimeError) :
    w.machine.Evolves (callee ≤ ·) (w.handle host runner callee handler e).2.machine := by
  have hprepared := Machine.settle_evolves hcallee [handler, messageOf e]
  have hheight := Machine.height_settle hcallee [handler, messageOf e]
  have hlt : callee < (w.machine.settle callee [handler, messageOf e]).stack.height := by
    rw [hheight]
    exact Nat.lt_add_of_pos_right (Nat.succ_pos _)
  have hcalled := invoke_evolves host hrunner
    (w := w.withMachine (w.machine.settle callee [handler, messageOf e])) hlt 1
  unfold handle
  dsimp only
  rcases hinvoke : invoke host runner callee 1
      (w.withMachine (w.machine.settle callee [handler, messageOf e])) with ⟨⟨_⟩ | ⟨⟨⟩⟩, after⟩
  · rw [hinvoke] at hcalled
    exact hprepared.trans hcalled
  · have hok : (invoke host runner callee 1
        (w.withMachine (w.machine.settle callee [handler, messageOf e]))).1 = .ok () := by
      rw [hinvoke]
    obtain ⟨reported, hreported⟩ := height_invoke hrunner hlt hok
    rw [hinvoke] at hcalled hreported
    refine (hprepared.trans hcalled).trans (.withStack (Stack.edit_dropTop.mono fun k hk => ?_))
    have hheight : after.machine.stack.height = callee + 1 := hreported
    simp only at hk
    omega

/-- What `Machine.checkCall` lets through lies in the frame. -/
theorem checkCall_eq_ok {arguments : Nat} {handler : Int} {h : Option Value}
    (hcheck : w.machine.checkCall arguments handler = .ok (callee, h)) :
    w.machine.base ≤ callee ∧ callee < w.machine.stack.height ∧
      callee + arguments + 1 = w.machine.stack.height := by
  unfold Machine.checkCall at hcheck
  split at hcheck
  · cases hcheck
  · next htop =>
    have : callee = w.machine.stack.height - arguments - 1 := by
      dsimp only at hcheck
      split at hcheck
      · exact congrArg Prod.fst (Except.ok.inj hcheck).symm
      · split at hcheck
        · exact congrArg Prod.fst (Except.ok.inj hcheck).symm
        · cases hcheck
    simp only [Machine.top] at htop
    omega

/-- A protected call that finds its operands succeeds, or fails with an error object in the place of
the callee and all above it; either way nothing below the callee was edited. -/
theorem protectedCall_cases (hrunner : Confined runner) {arguments : Nat} (results : Int)
    {handler : Int} {h : Option Value}
    (hcheck : w.machine.checkCall arguments handler = .ok (callee, h)) :
    (∃ after, w.protectedCall host runner arguments results handler = (.ok .ok, after) ∧
      w.machine.Evolves (callee ≤ ·) after.machine) ∨
    ∃ (object : Value) (u : World κ σ), w.protectedCall host runner arguments results handler =
        (.ok .runtime, u.fail callee object) ∧
      w.machine.Evolves (callee ≤ ·) u.machine ∧ callee ≤ u.machine.stack.height := by
  obtain ⟨-, hcallee, -⟩ := checkCall_eq_ok hcheck
  rw [protectedCall_eq, hcheck]
  dsimp only
  have hcalled := invoke_evolves host hrunner hcallee results
  rcases hcall : invoke host runner callee results w with ⟨e | _, after⟩ <;> rw [hcall] at hcalled
  · have hle := hcalled.edit.le_height (Nat.le_of_lt hcallee)
    cases h with
    | none => exact .inr ⟨_, after, rfl, hcalled, hle⟩
    | some value =>
      have hhandled := hcalled.trans (handle_evolves host hrunner hle value e)
      exact .inr ⟨_, _, rfl, hhandled, hhandled.edit.le_height (Nat.le_of_lt hcallee)⟩
  · exact .inl ⟨after, rfl, hcalled⟩

/-- A protected call whose function returns delivers the results in the place of the callee. -/
theorem protectedCall_returns {host : Host κ σ} {arguments reported : Nat}
    {results handler : Int} {h : Option Value} {body : Body κ σ} {left : World κ σ}
    (hcheck : w.machine.checkCall arguments handler = .ok (callee, h))
    (hcallable : w.callable host callee = .ok body)
    (hrun : (w.enter callee).run host body = (.ok (.ok reported), left))
    (hreported : reported ≤ left.machine.stack.height - (callee + 1)) :
    w.protectedCall host (World.runner host w.machine.callsLeft) arguments results handler =
      (.ok .ok, left.withMachine ((left.machine.leave w.machine.base).settle callee
        (Machine.adjust results (left.machine.stack.highest reported)))) := by
  have hdeliver := Machine.deliver_of_le (m := left.machine.leave w.machine.base) hreported results
  have hinvoke : w.invoke host (World.runner host w.machine.callsLeft) callee results =
      (.ok (), left.withMachine ((left.machine.leave w.machine.base).settle callee
        (Machine.adjust results (left.machine.stack.highest reported)))) := by
    rw [invoke_eq, hcallable]
    dsimp only
    rw [hrun]
    dsimp only [giveBack]
    rw [hdeliver]
    rfl
  rw [protectedCall_eq, hcheck]
  dsimp only
  rw [hinvoke]

/-- A protected call edits nothing below its callee, however it ends. -/
theorem protectedCall_evolves (hrunner : Confined runner) {arguments : Nat} (results : Int)
    {handler : Int} {h : Option Value}
    (hcheck : w.machine.checkCall arguments handler = .ok (callee, h)) :
    w.machine.Evolves (callee ≤ ·)
      (w.protectedCall host runner arguments results handler).2.machine := by
  rcases protectedCall_cases host hrunner results hcheck with
    ⟨after, hcall, hafter⟩ | ⟨object, u, hcall, hu, hle⟩
  · rw [hcall]
    exact hafter
  · rw [hcall]
    exact hu.trans (Machine.settle_evolves hle _)

end World

/-! ## What a program edits -/

variable (host : Host κ σ)

/-- Carrying out an instruction stays in the frame when calls do. -/
theorem World.carryOut_evolves {runner : World.Runner κ σ} (hrunner : World.Confined runner)
    {w : World κ σ} (hbase : w.machine.base ≤ w.machine.stack.height) (i : Instruction κ σ) :
    w.machine.Evolves (w.machine.base ≤ ·) (w.carryOut host runner i).2.machine := by
  cases i with
  | primitive p =>
    exact (Machine.perform_evolves w.machine p).mono
      fun k hk => Machine.base_le_of_touches hbase hk
  | call arguments results handler =>
    cases hcheck : w.machine.checkCall arguments handler with
    | error cause =>
      simp only [World.carryOut, World.protectedCall_eq, hcheck]
      exact .refl _
    | ok found =>
      obtain ⟨callee, h⟩ := found
      obtain ⟨hle, -⟩ := World.checkCall_eq_ok hcheck
      exact (World.protectedCall_evolves host hrunner results hcheck).mono
        fun k hk => Nat.le_trans hle hk
  | panic cause | readMemory | writeMemory memory => exact .refl _

/-- A program stays in its frame when its calls do. -/
theorem Program.runWith_evolves {runner : World.Runner κ σ} (hrunner : World.Confined runner)
    (p : Program κ σ α) (w : World κ σ) (hbase : w.machine.base ≤ w.machine.stack.height) :
    w.machine.Evolves (w.machine.base ≤ ·) (p.runWith host runner w).2.machine := by
  induction p generalizing w with
  | done a => exact .refl _
  | step i next ih =>
    have hstep := World.carryOut_evolves host hrunner hbase i
    rw [Program.runWith]
    rcases hcarry : w.carryOut host runner i with ⟨_ | reply, after⟩ <;> rw [hcarry] at hstep
    · exact hstep
    · have hrest := ih reply after (by rw [hstep.base]; exact hstep.edit.le_height hbase)
      rw [hstep.base] at hrest
      exact hstep.trans hrest

theorem Program.runWith_andThen {β : Type} (runner : World.Runner κ σ) (p : Program κ σ α)
    (next : α → Program κ σ β) (w : World κ σ) :
    (p.andThen next).runWith host runner w =
      match p.runWith host runner w with
      | (.ok a, after) => (next a).runWith host runner after
      | (.error cause, after) => (.error cause, after) := by
  induction p generalizing w with
  | done a => rfl
  | step i rest ih =>
    simp only [Program.andThen, Program.runWith]
    rcases w.carryOut host runner i with ⟨_ | reply, after⟩
    · rfl
    · exact ih reply after

/-- Running a program that is one protected call. -/
theorem Program.runWith_call {host : Host κ σ} {runner : World.Runner κ σ} {w : World κ σ}
    (arguments : Nat) (results handler : Int) :
    (call arguments results handler : Program κ σ Status).runWith host runner w =
      w.protectedCall host runner arguments results handler := by
  rw [call, runWith, World.carryOut]
  rcases w.protectedCall host runner arguments results handler with ⟨_ | _, after⟩ <;> rfl

theorem Program.andThen_done (p : Program κ σ α) : p.andThen .done = p := by
  induction p with
  | done a => rfl
  | step i next ih => exact congrArg (Program.step i) (funext ih)

namespace World

theorem confined_runner (calls : Nat) : Confined (runner host calls) := by
  induction calls with
  | zero => intro run hrun; cases hrun
  | succ calls ih =>
    intro run hrun body w hbase
    cases hrun
    exact Program.runWith_evolves host ih body w hbase

theorem callsLeft_eq {touched : Nat → Prop} {m n : Machine κ} (h : m.Evolves touched n) :
    n.callsLeft = m.callsLeft := by
  rw [Machine.callsLeft, Machine.callsLeft, h.limits, h.depth]

variable {w : World κ σ}

/-- A host program edits nothing below the base of its frame and leaves base and depth alone. -/
theorem run_evolves (hbase : w.machine.base ≤ w.machine.stack.height) (p : Program κ σ α) :
    w.machine.Evolves (w.machine.base ≤ ·) (w.run host p).2.machine :=
  Program.runWith_evolves host (confined_runner host _) p w hbase

/-- A function that ended leaves a frame above its slot, and for its caller what lies below. -/
structure Ended (callee : Nat) (w left : World κ σ) : Prop where
  base : left.machine.base = callee + 1
  base_le_height : left.machine.base ≤ left.machine.stack.height
  caller : w.machine.Evolves (callee ≤ ·) (left.machine.leave w.machine.base)

theorem ended_of_run {host : Host κ σ} {callee : Nat} (hcallee : callee < w.machine.stack.height)
    {p : Program κ σ α} {outcome : Except Panic α} {left : World κ σ}
    (hrun : (w.enter callee).run host p = (outcome, left)) : w.Ended callee left := by
  have hinside := run_evolves host (w := w.enter callee) hcallee p
  rw [hrun] at hinside
  have hbase : left.machine.base = callee + 1 := hinside.base
  refine ⟨hbase, ?_, Machine.leave_evolves hinside⟩
  rw [hbase]
  exact hinside.edit.le_height hcallee

/-- Running a program is carrying out its first instruction and running the rest. -/
theorem run_step (hbase : w.machine.base ≤ w.machine.stack.height) (i : Instruction κ σ)
    (next : i.Reply → Program κ σ α) :
    w.run host (.step i next) =
      match w.carryOut host (runner host w.machine.callsLeft) i with
      | (.ok reply, after) => after.run host (next reply)
      | (.error cause, after) => (.error cause, after) := by
  have hevolves := carryOut_evolves host (confined_runner host w.machine.callsLeft) hbase i
  unfold run
  rw [Program.runWith]
  generalize w.carryOut host (runner host w.machine.callsLeft) i = carried at hevolves ⊢
  obtain ⟨_ | reply, after⟩ := carried
  · rfl
  · simp only [callsLeft_eq hevolves]

/-- Running one program after another is running them one after the other. -/
theorem run_bind {β : Type} (hbase : w.machine.base ≤ w.machine.stack.height) {p : Program κ σ α}
    {a : α} {after : World κ σ} (h : w.run host p = (.ok a, after)) (next : α → Program κ σ β) :
    w.run host (p >>= next) = after.run host (next a) := by
  have hevolves := run_evolves host hbase p
  rw [h] at hevolves
  have hcalls : after.machine.callsLeft = w.machine.callsLeft := callsLeft_eq hevolves
  have hfirst : p.runWith host (runner host w.machine.callsLeft) w = (.ok a, after) := h
  show (p.andThen next).runWith host (runner host w.machine.callsLeft) w = _
  rw [Program.runWith_andThen, hfirst, run, hcalls]

end World

end StackEmbedding
