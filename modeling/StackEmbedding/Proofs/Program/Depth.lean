import StackEmbedding.Proofs.Program.Handler

/-!
# The limit on nested calls bounds every run

Functions call each other and themselves through globals, tables, arguments and message handlers, so
nothing in the code of a host bounds how deep its calls nest. The depth of the machine does.
`call_limit_bounds_run` says that it counts the functions that were entered and not left, that it
never passes the limit, that every run ends, and that a function is entered exactly below the limit.

**Counting.** `Tallied` follows a run and counts, without looking at the depth, where a step enters
a function (`enters`) and where one leaves a function (`leaves`). A callee that fails and hands its
error to a handler is left in the same step that enters the handler.

**Ending.** Within one call the measure is the number of calls left, and below it the program that
runs (`Configuration.completes`). A whole run is an induction on the list of calls: each function
ends, and so does the handler that its failure may enter (`iterate_leave`).
-/

set_option autoImplicit false

namespace StackEmbedding

variable {κ σ : Type} {host : Host κ σ}

/-- Only a call that fails goes on with another function, its handler. -/
theorem Activation.purpose_of_leave {a : Activation κ σ} {outcome : Except Panic Ending}
    {w after : World κ σ} {purpose : Purpose} {body : Body κ σ}
    (h : a.leave host outcome w = .enter purpose body after) : ∃ e, purpose = .handle e := by
  unfold leave Verdict.conclude at h
  dsimp only at h
  split at h
  next =>
    unfold Verdict.succeed at h
    split at h <;> cases h
  next e _ =>
    unfold Verdict.fail at h
    split at h
    next => cases h
    next =>
      unfold Verdict.attempt at h
      dsimp only at h
      split at h
      next => cases h; exact ⟨e, rfl⟩
      next => cases h
    next => cases h

namespace Configuration

variable {c d : Configuration κ σ} {limits : Limits} {entered left : Nat}

/-! ## Entering and leaving -/

/-- Whether the next step enters a function, the callee of a call or the handler of one. -/
def enters (host : Host κ σ) (c : Configuration κ σ) : Bool :=
  (c.verdict? host).any fun v => v.status?.isNone

/-- Whether the next step leaves a function: the running one ends, and a caller is there. -/
def leaves (c : Configuration κ σ) : Bool :=
  match c.code with
  | .done _ | .step (.panic _) _ => !c.calls.isEmpty
  | _ => false

/-- A moment of a run from a new machine, with how many functions were entered and left before. -/
inductive Tallied (host : Host κ σ) (limits : Limits) : Nat → Nat → Configuration κ σ → Prop
  | start (identity : Nat) (memory : σ) (code : Body κ σ) :
      Tallied host limits 0 0 ⟨⟨Machine.new identity limits, memory⟩, code, []⟩
  | step {entered left : Nat} {c d : Configuration κ σ} :
      Tallied host limits entered left c → c.step host = some d →
        Tallied host limits (entered + (c.enters host).toNat) (left + c.leaves.toNat) d
  | restart {entered left : Nat} {c : Configuration κ σ} (memory : σ) (code : Body κ σ) :
      Tallied host limits entered left c → c.calls = [] →
        Tallied host limits entered left ⟨⟨c.machine, memory⟩, code, []⟩

/-- Every moment of every run has a tally. -/
theorem Reachable.tallied (hc : Reachable host c) :
    ∃ limits entered left, Tallied host limits entered left c := by
  obtain ⟨identity, limits, memory, code, hleads⟩ := hc
  refine ⟨limits, ?_⟩
  induction hleads with
  | refl => exact ⟨0, 0, .start identity memory code⟩
  | step _ _ hstep ih =>
    obtain ⟨_, _, hd⟩ := ih
    exact ⟨_, _, hd.step hstep⟩
  | restart memory code _ hcalls ih =>
    obtain ⟨_, _, hd⟩ := ih
    exact ⟨_, _, hd.restart memory code hcalls⟩

theorem Tallied.reachable (h : Tallied host limits entered left c) : Reachable host c := by
  induction h with
  | start identity memory code => exact ⟨identity, limits, memory, code, .refl⟩
  | step _ hstep ih =>
    have hlater : Leads host (fun _ => True) _ _ := Leads.refl.step trivial hstep
    exact ih.leads hlater
  | restart memory code _ hcalls ih =>
    have hlater : Leads host (fun _ => True) _ _ := Leads.refl.restart memory code hcalls
    exact ih.leads hlater

/-- How one step moves the depth and the list of calls. -/
structure Counts (host : Host κ σ) (c d : Configuration κ σ) : Prop where
  limits : d.machine.limits = c.machine.limits
  depth : d.machine.depth + c.leaves.toNat = c.machine.depth + (c.enters host).toNat
  calls : d.calls.length + c.leaves.toNat = c.calls.length + (c.enters host).toNat
  room : c.enters host = true → d.machine.depth ≤ d.machine.limits.maxCallDepth

/-- A step that neither enters nor leaves. -/
theorem Counts.of_quiet (henters : c.enters host = false) (hleaves : c.leaves = false)
    (hlimits : d.machine.limits = c.machine.limits) (hdepth : d.machine.depth = c.machine.depth)
    (hcalls : d.calls = c.calls) : c.Counts host d := by
  refine ⟨hlimits, ?_, ?_, ?_⟩
  · rw [henters, hleaves, hdepth]
  · rw [henters, hleaves, hcalls]
  · rw [henters]
    exact nofun

/-- A step that carries out a verdict, from the machine `m` of the caller. -/
theorem Counts.of_verdict {a : Activation κ σ} {rest : List (Activation κ σ)} {v : Verdict κ σ}
    {m : Machine κ} (hverdict : c.verdict? host = some v) (hwithin : v.Within a.callee m)
    (hlimits : m.limits = c.machine.limits) (hdepth : m.depth + c.leaves.toNat = c.machine.depth)
    (hcalls : rest.length + c.leaves.toNat = c.calls.length) :
    c.Counts host (a.proceed rest v) := by
  have henters : c.enters host = v.status?.isNone := by rw [enters, hverdict, Option.any_some]
  have hlimits' := hwithin.evolves.limits
  have hdepth' := hwithin.evolves.depth
  have hroom := hwithin.room
  cases v with
  | enter purpose body w =>
    have hsame : w.machine.depth = m.depth := hdepth'
    have hbelow : w.machine.depth < w.machine.limits.maxCallDepth := hroom rfl
    refine ⟨hlimits'.trans hlimits, ?_, ?_, fun _ => hbelow⟩
    · rw [henters]
      show w.machine.depth + 1 + c.leaves.toNat = c.machine.depth + 1
      omega
    · rw [henters]
      show rest.length + 1 + c.leaves.toNat = c.calls.length + 1
      omega
  | answer status w =>
    refine ⟨hlimits'.trans hlimits, ?_, ?_, ?_⟩
    · rw [henters]
      show w.machine.depth + c.leaves.toNat = c.machine.depth
      rw [← hdepth]
      exact congrArg (· + c.leaves.toNat) hdepth'
    · rw [henters]
      exact hcalls
    · rw [henters]
      exact nofun

/-- The running function ends. -/
theorem counts_finish (hc : c.Framed) (hdepth : c.machine.depth = c.calls.length)
    {outcome : Except Panic Ending} (hleaves : c.leaves = !c.calls.isEmpty)
    (hverdict : c.verdict? host = c.calls.head?.map fun a => a.leave host outcome c.world)
    (h : c.finish host outcome = some d) : c.Counts host d := by
  have hbase := hc.base_le_height
  have hnested := hc.nested
  unfold finish at h
  cases hcalls : c.calls with
  | nil => rw [hcalls] at h; cases h
  | cons a rest =>
    rw [hcalls] at h hnested hleaves hverdict hdepth
    obtain rfl := Option.some.inj h
    rw [hnested.1] at hbase
    have hwithin := Activation.within_leave host (w := c.world) outcome hbase
    refine .of_verdict hverdict hwithin rfl ?_ ?_
    · show c.machine.depth - 1 + c.leaves.toNat = c.machine.depth
      rw [hleaves, hdepth]
      rfl
    · rw [hleaves, hcalls]
      rfl

/-- Every step moves the depth as it moves the list of calls. -/
theorem step_counts (hc : c.Framed) (hdepth : c.machine.depth = c.calls.length)
    (h : c.step host = some d) : c.Counts host d := by
  unfold step at h
  split at h
  next ending hcode =>
    exact counts_finish hc hdepth (by simp only [leaves, hcode]) (by simp only [verdict?, hcode]) h
  next cause _ hcode =>
    exact counts_finish hc hdepth (by simp only [leaves, hcode]) (by simp only [verdict?, hcode]) h
  next p next hcode =>
    have hperform := Machine.perform_evolves c.machine p
    have henters : c.enters host = false := by simp only [enters, verdict?, hcode, Option.any_none]
    have hleaves : c.leaves = false := by simp only [leaves, hcode]
    rcases hresult : c.machine.perform p with ⟨cause | reply, m⟩ <;>
      rw [hresult] at h hperform <;> obtain rfl := Option.some.inj h <;>
      exact .of_quiet henters hleaves hperform.limits hperform.depth rfl
  next arguments results handler next hcode =>
    have hleaves : c.leaves = false := by simp only [leaves, hcode]
    cases hcheck : c.machine.checkCall arguments handler with
    | error cause =>
      rw [hcheck] at h
      obtain rfl := Option.some.inj h
      have henters : c.enters host = false := by
        simp only [enters, verdict?, hcode, hcheck, Option.any_none]
      exact .of_quiet henters hleaves rfl rfl rfl
    | ok found =>
      obtain ⟨callee, handler⟩ := found
      rw [hcheck] at h
      obtain rfl := Option.some.inj h
      obtain ⟨-, hcallee, -⟩ := World.checkCall_eq_ok hcheck
      have hwithin : (Verdict.begin host callee (.call results handler) c.world).Within callee
          c.machine :=
        Verdict.within_attempt host _ hcallee fun e =>
          Verdict.within_fail host _ (Nat.le_of_lt hcallee) e
      refine .of_verdict (by simp only [verdict?, hcode, hcheck]) hwithin rfl ?_ ?_ <;>
        rw [hleaves] <;> rfl
  next hcode =>
    obtain rfl := Option.some.inj h
    exact .of_quiet (by simp only [enters, verdict?, hcode, Option.any_none])
      (by simp only [leaves, hcode]) rfl rfl rfl
  next hcode =>
    obtain rfl := Option.some.inj h
    exact .of_quiet (by simp only [enters, verdict?, hcode, Option.any_none])
      (by simp only [leaves, hcode]) rfl rfl rfl

/-- What holds of the depth at every moment of a run. -/
structure DepthCounts (limits : Limits) (entered left : Nat) (c : Configuration κ σ) : Prop where
  kept : c.machine.limits = limits
  calls : c.machine.depth = c.calls.length
  tally : entered = left + c.machine.depth
  le_limit : c.machine.depth ≤ limits.maxCallDepth

theorem Tallied.depthCounts (h : Tallied host limits entered left c) :
    c.DepthCounts limits entered left := by
  induction h with
  | start identity memory code => exact ⟨rfl, rfl, rfl, Nat.zero_le _⟩
  | @step entered left c d before hstep ih =>
    obtain ⟨hlimits, hcalls, htally, hle⟩ := ih
    have hcounts := step_counts before.reachable.wellFormed.toFramed hcalls hstep
    have hdepth := hcounts.depth
    have hlength := hcounts.calls
    have hlimits' := hcounts.limits.trans hlimits
    refine ⟨hlimits', by omega, by omega, ?_⟩
    cases henters : c.enters host with
    | true =>
      rw [← hlimits']
      exact hcounts.room henters
    | false =>
      rw [henters, Bool.toNat_false] at hdepth
      omega
  | restart memory code _ hcalls ih =>
    obtain ⟨hlimits, hlength, htally, hle⟩ := ih
    rw [hcalls] at hlength
    exact ⟨hlimits, hlength, htally, hle⟩

/-! ## Every run ends -/

/-- The running function is left, after the handler that its failure may enter, and its caller goes
on with a status. -/
theorem iterate_leave (host : Host κ σ) (hc : c.WellFormed) {a : Activation κ σ}
    {rest : List (Activation κ σ)} (hcalls : c.calls = a :: rest) :
    ∃ n status after, iterate host n c = some ⟨after, a.resume status, rest⟩ := by
  obtain ⟨w, p, calls⟩ := c
  obtain rfl : calls = a :: rest := hcalls
  obtain ⟨n, hn⟩ := iterate_run host hc.base_le_height p (a :: rest)
  have hleft := (iterate_succ_last hn).trans (step_ofOutcome _ _ a rest)
  cases hverdict : a.leave host (w.run host p).1 (w.run host p).2 with
  | answer status after => exact ⟨n + 1, status, after, by rw [hleft, hverdict]; rfl⟩
  | enter purpose body inside =>
    -- A handler enters no other function when it ends.
    obtain ⟨e, rfl⟩ := Activation.purpose_of_leave hverdict
    rw [hverdict] at hleft
    have hfits := (hc.leads (leads_of_iterate hleft)).base_le_height
    obtain ⟨m, hm⟩ := iterate_run host hfits body ({ a with purpose := .handle e } :: rest)
    have hended := (iterate_succ_last hm).trans (step_ofOutcome _ _ _ rest)
    rw [Activation.leave_handle _ rfl] at hended
    exact ⟨n + 1 + (m + 1), .runtime, _, (iterate_from hleft _).trans hended⟩

/-- Every run ends, with no call left. -/
theorem iterate_ends (hc : c.WellFormed) :
    ∃ n d, iterate host n c = some d ∧ d.calls = [] ∧ d.step host = none := by
  generalize hcalls : c.calls = calls
  induction calls generalizing c with
  | nil =>
    obtain ⟨w, p, calls⟩ := c
    obtain rfl : calls = [] := hcalls
    obtain ⟨n, hn⟩ := iterate_run host hc.base_le_height p []
    refine ⟨n, _, hn, rfl, ?_⟩
    cases (w.run host p).1 <;> rfl
  | cons a rest ih =>
    obtain ⟨n, status, after, hn⟩ := iterate_leave host hc hcalls
    obtain ⟨m, d, hm, hd⟩ := ih (hc.leads (leads_of_iterate hn)) rfl
    exact ⟨n + m, d, (iterate_from hn m).trans hm, hd⟩

/-! ## Calls and the limit -/

/-- What becomes of a protected call, with its callee at the raw index `callee`. -/
structure CallBounded (host : Host κ σ) (c : Configuration κ σ) (callee : Nat) (results : Int)
    (handler : Option Value) (next : Status → Body κ σ) : Prop where
  /-- It is over after finitely many steps, and its caller goes on with a status. -/
  answered : ∃ n status after, iterate host (n + 1) c = some ⟨after, next status, c.calls⟩
  /-- A callee that is a function is entered below the limit, and only there. -/
  enters_iff : ∀ body, host.body? c.machine (.orNil (c.stack.value? callee)) = some body →
    (c.enters host = true ↔ c.machine.depth < c.machine.limits.maxCallDepth)
  entered : ∀ body, host.body? c.machine (.orNil (c.stack.value? callee)) = some body →
    c.machine.depth < c.machine.limits.maxCallDepth →
      c.step host = some ⟨c.world.enter callee, body,
        ⟨.call results handler, callee, c.machine.base, next⟩ :: c.calls⟩
  /-- At the limit the call fails in one step. The message stands in the place of the callee and all
  above it, and nothing else changed. -/
  refused : c.machine.limits.maxCallDepth ≤ c.machine.depth →
    ∃ stack, c.step host =
        some ⟨c.world.withMachine (c.machine.withStack stack), next .runtime, c.calls⟩ ∧
      c.LeavesObject callee (World.messageOf .callDepth)
        (c.world.withMachine (c.machine.withStack stack))

theorem callBounded {arguments callee : Nat} {results handler : Int} {next : Status → Body κ σ}
    {h : Option Value} (hcode : c.code = .step (.call arguments results handler) next)
    (hcheck : c.machine.checkCall arguments handler = .ok (callee, h)) :
    c.CallBounded host callee results h next := by
  obtain ⟨-, hcallee, -⟩ := World.checkCall_eq_ok hcheck
  have hverdict : c.verdict? host = some (.begin host callee (.call results h) c.world) := by
    simp only [verdict?, hcode, hcheck]
  have hstep : c.step host = some ((⟨.call results h, callee, c.machine.base, next⟩ :
      Activation κ σ).proceed c.calls (.begin host callee (.call results h) c.world)) := by
    simp only [step, hcode, hcheck]
  constructor
  case answered =>
    obtain ⟨status, after, n, last, -, hlast, hend, -⟩ :=
      iterate_call host results next c.calls hcheck
    rw [← hcode] at hlast
    exact ⟨n, status, after, (iterate_succ_last hlast).trans hend⟩
  case enters_iff =>
    intro body hbody
    rw [enters, hverdict, Option.any_some]
    by_cases hdepth : c.machine.depth < c.machine.limits.maxCallDepth
    · rw [Verdict.begin_of_body hdepth hbody]
      exact iff_of_true rfl hdepth
    · rw [Verdict.begin_of_limit (Nat.le_of_not_lt hdepth)]
      exact iff_of_false Bool.false_ne_true hdepth
  case entered =>
    intro body hbody hdepth
    rw [hstep, Verdict.begin_of_body hdepth hbody]
    rfl
  case refused =>
    intro hlimit
    have hevolves := Verdict.refusedAt_evolves (w := c.world) (Nat.le_of_lt hcallee) h
    have hobject := leavesObject_fail hevolves (hevolves.edit.le_height (Nat.le_of_lt hcallee))
      (World.messageOf .callDepth)
    obtain ⟨stack, hstack⟩ := Verdict.refusedAt_eq callee h c.world
    rw [hstep, Verdict.begin_of_limit hlimit]
    rw [hstack] at hobject ⊢
    exact ⟨_, rfl, hobject⟩

/-- At every moment of a run the depth counts the functions that were entered and not left, and is
at most the limit; the run ends; and a protected call that finds its operands is over after finitely
many steps, its callee entered exactly below the limit if it is a function. A call that does not
find its operands panics at once. -/
theorem call_limit_bounds_run (hc : Reachable host c) :
    (∃ limits entered left, Tallied host limits entered left c) ∧
    (∀ limits entered left, Tallied host limits entered left c →
      c.DepthCounts limits entered left) ∧
    (∃ n d, iterate host n c = some d ∧ d.calls = [] ∧ d.step host = none) ∧
    ∀ (arguments : Nat) (results handler : Int) (next : Status → Body κ σ),
      c.code = .step (.call arguments results handler) next →
      match c.machine.checkCall arguments handler with
      | .ok (callee, value) => c.CallBounded host callee results value next
      | .error cause => c.step host = some ⟨c.world, .panic cause, c.calls⟩ := by
  refine ⟨hc.tallied, fun limits entered left h => h.depthCounts, iterate_ends hc.wellFormed, ?_⟩
  intro arguments results handler next hcode
  split
  next callee value hcheck => exact callBounded hcode hcheck
  next cause hcheck => simp only [step, hcode, hcheck]

/-- Calls itself, through a name that the host knows. -/
def recurse : Body Unit Unit := .step (.primitive (.push (.function ⟨"f"⟩))) fun _ =>
  .step (.call 0 0 0) fun _ => .done (.ok 0)

/-- A host whose functions call without end. -/
def recursing : Host Unit Unit := ⟨fun _ => recurse, fun _ => recurse⟩

/-- The moment before the third nested call, where two are allowed. -/
def beforeThird : Configuration Unit Unit where
  world :=
    let called := (((Machine.new 0 { maxCallDepth := 2 }).push (.function ⟨"f"⟩)).enter 0).push
      (.function ⟨"f"⟩)
    ⟨(called.enter 1).push (.function ⟨"f"⟩), ()⟩
  code := .step (.call 0 0 0) fun _ => .done (.ok 0)
  calls :=
    [⟨.call 0 none, 1, 1, fun _ => .done (.ok 0)⟩, ⟨.call 0 none, 0, 0, fun _ => .done (.ok 0)⟩]

theorem tallied_beforeThird : Tallied recursing { maxCallDepth := 2 } 2 0 beforeThird := by
  have hstart : Tallied recursing { maxCallDepth := 2 } 0 0
    ⟨⟨Machine.new 0 { maxCallDepth := 2 }, ()⟩, recurse, []⟩ := .start 0 () recurse
  exact ((((hstart.step rfl).step rfl).step rfl).step rfl).step rfl

/-- The third of two allowed nested calls is refused, and the run ends. -/
theorem third_call_refused :
    Reachable recursing beforeThird ∧ Tallied recursing { maxCallDepth := 2 } 2 0 beforeThird ∧
    beforeThird.machine.depth = 2 ∧ beforeThird.enters recursing = false ∧
    (∃ stack, beforeThird.step recursing =
      some ⟨beforeThird.world.withMachine (beforeThird.machine.withStack stack),
        .done (.ok 0), beforeThird.calls⟩) ∧
    ∃ n d, iterate recursing n beforeThird = some d ∧ d.step recursing = none := by
  obtain ⟨-, hcounts, ⟨n, d, hn, -, hd⟩, hcall⟩ :=
    call_limit_bounds_run tallied_beforeThird.reachable
  have hdepth := hcounts _ _ _ tallied_beforeThird
  have hbounded : beforeThird.CallBounded recursing 2 0 none (fun _ => .done (.ok 0)) :=
    hcall 0 0 0 _ rfl
  obtain ⟨stack, hstep, -⟩ := hbounded.refused (by decide)
  refine ⟨tallied_beforeThird.reachable, tallied_beforeThird,
    (Nat.zero_add _).symm.trans hdepth.tally.symm, ?_, ⟨stack, hstep⟩, n, d, hn, hd⟩
  have hfunction := hbounded.enters_iff recurse rfl
  exact Bool.eq_false_iff.mpr fun henters => absurd (hfunction.mp henters) (by decide)

end Configuration

end StackEmbedding
