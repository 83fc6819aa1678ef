import StackEmbedding.Proofs.Program.Configuration

/-!
# What a step changes

`Configuration.touches` says which slots the next step may write or drop. A step moves the frame in
one of four ways (`Configuration.Reframes`): it stays in the running function, enters one, leaves
one, or leaves one for the handler of its call.

**What is established here.**
* `step_changes`: one step edits only the slots that it touches, and moves the frame in one of the
  four ways.
* `Reachable.wellFormed`: the invariant of every run, with the base of the frame at most the height
  of the stack, the calls nested, and the stamps distinct.
* `Leads.kept_or_fresh`: over a run, a slot keeps its value as long as it keeps its stamp.
-/

set_option autoImplicit false

namespace StackEmbedding

variable {κ σ : Type}

/-! ## Verdicts stay above the callee's slot -/

namespace Verdict

/-- The world of a verdict arises from the machine `m` of the caller by an edit of the slots from
the callee's upward. If a function is entered, it holds the callee's slot and is below the limit on
nested calls. -/
structure Within (callee : Nat) (m : Machine κ) (v : Verdict κ σ) : Prop where
  evolves : m.Evolves (callee ≤ ·) v.world.machine
  fits : v.status? = none → callee < v.world.machine.stack.height
  room : v.status? = none → v.world.machine.depth < v.world.machine.limits.maxCallDepth

variable (host : Host κ σ) {callee : Nat} (purpose : Purpose) {w : World κ σ} {m : Machine κ}
  {v : Verdict κ σ}

theorem Within.of_evolves (h : m.Evolves (callee ≤ ·) w.machine) (hv : v.Within callee w.machine) :
    v.Within callee m :=
  ⟨h.trans hv.evolves, hv.fits, hv.room⟩

theorem within_giveUp (hcallee : callee ≤ w.machine.stack.height) (object : Value) :
    (giveUp callee object w).Within callee w.machine :=
  ⟨Machine.settle_evolves hcallee [object], nofun, nofun⟩

theorem within_attempt {refused : RuntimeError → Verdict κ σ}
    (hcallee : callee < w.machine.stack.height)
    (hrefused : ∀ e, (refused e).Within callee w.machine) :
    (attempt host callee purpose refused w).Within callee w.machine := by
  unfold attempt
  cases hcallable : w.callable host callee with
  | error e => exact hrefused e
  | ok body => exact ⟨.refl _, fun _ => hcallee, fun _ => World.depth_lt_of_callable hcallable⟩

theorem height_prepare (hcallee : callee ≤ w.machine.stack.height) (handler : Value)
    (e : RuntimeError) : (prepare callee handler e w).machine.stack.height = callee + 2 :=
  Machine.height_settle hcallee [handler, World.messageOf e]

theorem lt_height_prepare (hcallee : callee ≤ w.machine.stack.height) (handler : Value)
    (e : RuntimeError) : callee < (prepare callee handler e w).machine.stack.height := by
  rw [height_prepare hcallee]
  omega

theorem prepare_evolves (hcallee : callee ≤ w.machine.stack.height) (handler : Value)
    (e : RuntimeError) :
    w.machine.Evolves (callee ≤ ·) (prepare callee handler e w).machine :=
  Machine.settle_evolves hcallee [handler, World.messageOf e]

theorem within_fail (hcallee : callee ≤ w.machine.stack.height) (e : RuntimeError) :
    (fail host callee purpose e w).Within callee w.machine := by
  unfold fail
  split
  next => exact within_giveUp hcallee _
  next results handler =>
    have hlt := lt_height_prepare hcallee handler e
    refine .of_evolves (prepare_evolves hcallee handler e)
      (within_attempt host (.handle e) hlt fun _ => ?_)
    exact within_giveUp (Nat.le_of_lt hlt) _
  next => exact within_giveUp hcallee _

/-- The world in which the result of a handler is off the stack. -/
theorem dropTop_evolves (hheight : w.machine.stack.height = callee + 1) :
    w.machine.Evolves (callee ≤ ·) (w.machine.withStack w.machine.stack.dropTop) :=
  .withStack (Stack.edit_dropTop.mono fun k hk => by omega)

end Verdict

/-- A function that ends leaves its frame, and the verdict stays above its callee's slot. -/
theorem Activation.within_leave (host : Host κ σ) {a : Activation κ σ} {w : World κ σ}
    (outcome : Except Panic Ending) (hcallee : a.callee < w.machine.stack.height) :
    (a.leave host outcome w).Within a.callee (w.machine.leave a.base) := by
  have hle := Nat.le_of_lt hcallee
  have hgiven := World.leave_evolves_giveBack hle a.base a.purpose.wanted outcome
  have hresults := World.giveBack_results a.base a.purpose.wanted outcome hle
  unfold leave
  rcases hgive : w.giveBack a.base a.callee a.purpose.wanted outcome with ⟨e | _, after⟩ <;>
    rw [hgive] at hgiven hresults
  · exact .of_evolves hgiven (Verdict.within_fail host a.purpose (hgiven.edit.le_height hle) e)
  · refine .of_evolves hgiven ?_
    unfold Verdict.conclude Verdict.succeed
    dsimp only
    split
    next => exact ⟨.refl _, nofun, nofun⟩
    next e hpurpose =>
      obtain ⟨reported, -, hheight, -⟩ := hresults rfl
      rw [hpurpose] at hheight
      have hheight : after.machine.stack.height = a.callee + 1 := hheight
      have hdropped := Verdict.dropTop_evolves hheight
      refine .of_evolves (w := after.withMachine _) hdropped (Verdict.within_giveUp ?_ _)
      exact hdropped.edit.le_height (by omega)

namespace Configuration

variable {host : Host κ σ} {c d e : Configuration κ σ}

/-! ## Changes of one step -/

/-- The raw indices whose slots the next step may write or drop. A call takes its callee's slot
when it is entered, and the slots above when it is over. -/
def touches (host : Host κ σ) (c : Configuration κ σ) (k : Nat) : Prop :=
  match c.code with
  | .step (.primitive p) _ => c.machine.touches p k
  | .step (.call arguments _ handler) _ =>
    ∃ callee h, c.machine.checkCall arguments handler = .ok (callee, h) ∧
      (k = callee ∨ callee < k ∧ ∃ e, c.world.callable host callee = .error e)
  | .done _ | .step (.panic _) _ => ∃ a ∈ c.calls.head?, a.callee ≤ k
  | _ => False

/-- How the calls and the base of the frame change in one step. -/
inductive Reframes (host : Host κ σ) (c d : Configuration κ σ) : Prop
  | stay (calls : d.calls = c.calls) (base : d.machine.base = c.machine.base)
      (fits : c.machine.base ≤ d.stack.height)
  | enter (a : Activation κ σ) (calls : d.calls = a :: c.calls)
      (caller : a.base = c.machine.base) (inside : c.machine.base ≤ a.callee)
      (touched : c.touches host a.callee) (base : d.machine.base = a.callee + 1)
      (fits : a.callee < d.stack.height)
  | leave (a : Activation κ σ) (calls : c.calls = a :: d.calls) (base : d.machine.base = a.base)
      (touched : ∀ k, a.callee ≤ k → c.touches host k) (fits : a.callee ≤ d.stack.height)
  | handle (a b : Activation κ σ) (rest : List (Activation κ σ)) (before : c.calls = a :: rest)
      (calls : d.calls = b :: rest) (callee : b.callee = a.callee) (caller : b.base = a.base)
      (touched : ∀ k, a.callee ≤ k → c.touches host k)
      (base : d.machine.base = a.callee + 1) (fits : a.callee < d.stack.height)

/-- What one step changes: the frame and the slots that it touches. -/
structure Changes (host : Host κ σ) (c d : Configuration κ σ) : Prop where
  identity : d.machine.identity = c.machine.identity
  edit : Stack.Edit (c.touches host) c.stack d.stack
  frames : c.Reframes host d

/-- A step that stays in the running function. -/
theorem Changes.of_evolves (hbase : c.machine.base ≤ c.stack.height) {touched : Nat → Prop}
    (h : c.machine.Evolves touched d.machine) (htouched : ∀ k, touched k → c.touches host k)
    (hinside : ∀ k, touched k → c.machine.base ≤ k) (hcalls : d.calls = c.calls) :
    c.Changes host d where
  identity := h.identity
  edit := h.edit.mono htouched
  frames := .stay hcalls h.base ((h.edit.mono hinside).le_height hbase)

theorem stack_proceed (a : Activation κ σ) (rest : List (Activation κ σ)) (v : Verdict κ σ) :
    (a.proceed rest v).stack = v.world.machine.stack := by
  cases v <;> rfl

theorem identity_proceed (a : Activation κ σ) (rest : List (Activation κ σ)) (v : Verdict κ σ) :
    (a.proceed rest v).machine.identity = v.world.machine.identity := by
  cases v <;> rfl

theorem changes_begin {arguments : Nat} {results handler : Int} {next : Status → Body κ σ}
    (hcode : c.code = .step (.call arguments results handler) next) {callee : Nat}
    {h : Option Value} (hcheck : c.machine.checkCall arguments handler = .ok (callee, h)) :
    c.Changes host ((Activation.mk (.call results h) callee c.machine.base next).proceed c.calls
      (.begin host callee (.call results h) c.world)) := by
  obtain ⟨hinside, hcallee, -⟩ := World.checkCall_eq_ok hcheck
  have htouched : c.touches host callee := by
    simp only [touches, hcode]
    exact ⟨callee, h, hcheck, .inl rfl⟩
  unfold Verdict.begin Verdict.attempt
  cases hcallable : c.world.callable host callee with
  | ok body => exact ⟨rfl, .refl, .enter _ rfl rfl hinside htouched rfl hcallee⟩
  | error e =>
    dsimp only
    have hall : ∀ k, callee ≤ k → c.touches host k := by
      intro k hk
      simp only [touches, hcode]
      refine ⟨callee, h, hcheck, ?_⟩
      rcases Nat.eq_or_lt_of_le hk with rfl | hlt
      · exact .inl rfl
      · exact .inr ⟨hlt, e, hcallable⟩
    have hle := Nat.le_of_lt hcallee
    have hwithin := Verdict.within_fail host (.call results h) hle e
    refine ⟨?_, ?_, ?_⟩
    · rw [identity_proceed]
      exact hwithin.evolves.identity
    · rw [stack_proceed]
      exact hwithin.evolves.edit.mono hall
    · generalize Verdict.fail host callee (.call results h) e c.world = v at hwithin ⊢
      cases v with
      | enter purpose body w => exact .enter _ rfl rfl hinside htouched rfl (hwithin.fits rfl)
      | answer status w =>
        exact .stay rfl hwithin.evolves.base
          (Nat.le_trans hinside (hwithin.evolves.edit.le_height hle))

/-- The calls lie in one another: each function runs above the slot of its callee, and that slot
lies in the frame of its caller. -/
def Nested : Nat → List (Activation κ σ) → Prop
  | _, [] => True
  | base, a :: rest => base = a.callee + 1 ∧ a.base ≤ a.callee ∧ Nested a.base rest

/-- The running function has its frame, and its callers have theirs below. -/
structure Framed (c : Configuration κ σ) : Prop where
  base_le_height : c.machine.base ≤ c.stack.height
  nested : Nested c.machine.base c.calls

/-- What holds at every moment of every run. -/
structure WellFormed (c : Configuration κ σ) : Prop extends Framed c where
  stamped : c.stack.WellStamped

theorem changes_finish (hc : c.Framed) {outcome : Except Panic Ending}
    (htouches : ∀ a ∈ c.calls.head?, ∀ k, a.callee ≤ k → c.touches host k)
    (h : c.finish host outcome = some d) : c.Changes host d := by
  have hbase := hc.base_le_height
  have hnested := hc.nested
  unfold finish at h
  cases hcalls : c.calls with
  | nil => rw [hcalls] at h; cases h
  | cons a rest =>
    rw [hcalls] at h hnested htouches
    obtain rfl := Option.some.inj h
    rw [hnested.1] at hbase
    have htouched := htouches a rfl
    have hwithin := Activation.within_leave host (w := c.world) outcome hbase
    refine ⟨?_, ?_, ?_⟩
    · rw [identity_proceed]
      exact hwithin.evolves.identity
    · rw [stack_proceed]
      exact hwithin.evolves.edit.mono htouched
    · generalize a.leave host outcome c.world = v at hwithin ⊢
      cases v with
      | enter purpose body w =>
        exact .handle a _ rest hcalls rfl rfl rfl htouched rfl (hwithin.fits rfl)
      | answer status w =>
        exact .leave a hcalls hwithin.evolves.base htouched
          (hwithin.evolves.edit.le_height (Nat.le_of_succ_le hbase))

/-- What one step of a run changes. -/
theorem step_changes (hc : c.Framed) (h : c.step host = some d) : c.Changes host d := by
  have hbase := hc.base_le_height
  unfold step at h
  split at h
  next ending hcode =>
    refine changes_finish hc (fun a ha k hk => ?_) h
    simp only [touches, hcode]
    exact ⟨a, ha, hk⟩
  next cause _ hcode =>
    refine changes_finish hc (fun a ha k hk => ?_) h
    simp only [touches, hcode]
    exact ⟨a, ha, hk⟩
  next p next hcode =>
    have hperform := Machine.perform_evolves c.machine p
    have htouched : ∀ k, c.machine.touches p k → c.touches host k := by
      intro k hk
      simpa only [touches, hcode] using hk
    rcases hresult : c.machine.perform p with ⟨cause | reply, m⟩ <;>
      rw [hresult] at h hperform <;> obtain rfl := Option.some.inj h
    · exact .of_evolves hbase hperform htouched (fun k => Machine.base_le_of_touches hbase) rfl
    · exact .of_evolves hbase hperform htouched (fun k => Machine.base_le_of_touches hbase) rfl
  next arguments results handler next hcode =>
    cases hcheck : c.machine.checkCall arguments handler with
    | error cause =>
      rw [hcheck] at h
      obtain rfl := Option.some.inj h
      exact ⟨rfl, .refl, .stay rfl rfl hbase⟩
    | ok found =>
      rw [hcheck] at h
      obtain rfl := Option.some.inj h
      exact changes_begin hcode hcheck
  next => obtain rfl := Option.some.inj h; exact ⟨rfl, .refl, .stay rfl rfl hbase⟩
  next => obtain rfl := Option.some.inj h; exact ⟨rfl, .refl, .stay rfl rfl hbase⟩

theorem Framed.step (hc : c.Framed) (h : c.step host = some d) : d.Framed := by
  have hchange := step_changes hc h
  have hnested := hc.nested
  refine ⟨?_, ?_⟩
  · cases hchange.frames with
    | stay calls base fits => rw [base]; exact fits
    | enter a calls caller inside touched base fits => rw [base]; exact fits
    | leave a calls base touched fits =>
      rw [calls] at hnested
      rw [base]
      exact Nat.le_trans hnested.2.1 fits
    | handle a b rest before calls callee caller touched base fits => rw [base]; exact fits
  · cases hchange.frames with
    | stay calls base fits => rw [base, calls]; exact hnested
    | enter a calls caller inside touched base fits =>
      rw [calls, base]
      refine ⟨rfl, ?_, ?_⟩ <;> rw [caller]
      · exact inside
      · exact hnested
    | leave a calls base touched fits =>
      rw [calls] at hnested
      rw [base]
      exact hnested.2.2
    | handle a b rest before calls callee caller touched base fits =>
      rw [before] at hnested
      rw [calls, base]
      refine ⟨by rw [callee], ?_, ?_⟩ <;> rw [caller]
      · rw [callee]
        exact hnested.2.1
      · exact hnested.2.2

theorem WellFormed.step (hc : c.WellFormed) (h : c.step host = some d) : d.WellFormed :=
  ⟨hc.toFramed.step h, (step_changes hc.toFramed h).edit.wellStamped hc.stamped⟩

/-- A step touches slots of the running frame, or ends a call and touches slots from its callee's
upward. -/
theorem base_le_of_touches (hc : c.Framed) {k : Nat} (h : c.touches host k) :
    c.machine.base ≤ k ∨ ∃ a rest, c.calls = a :: rest ∧ a.callee ≤ k := by
  unfold touches at h
  split at h
  next => exact .inl (Machine.base_le_of_touches hc.base_le_height h)
  next =>
    obtain ⟨callee, handler, hcheck, hk⟩ := h
    obtain ⟨hinside, -⟩ := World.checkCall_eq_ok hcheck
    rcases hk with rfl | ⟨hlt, -⟩
    · exact .inl hinside
    · exact .inl (Nat.le_trans hinside (Nat.le_of_lt hlt))
  next =>
    obtain ⟨a, ha, hk⟩ := h
    obtain ⟨rest, hcalls⟩ := List.head?_eq_some_iff.mp ha
    exact .inr ⟨a, rest, hcalls, hk⟩
  next =>
    obtain ⟨a, ha, hk⟩ := h
    obtain ⟨rest, hcalls⟩ := List.head?_eq_some_iff.mp ha
    exact .inr ⟨a, rest, hcalls, hk⟩
  next => exact h.elim

/-! ## Runs -/

/-- `d` is a later moment than `c`, every step between them taken from an allowed configuration.
Between two programs of the host at the top level, memory and code are whatever the host likes. -/
inductive Leads (host : Host κ σ) (allowed : Configuration κ σ → Prop) (c : Configuration κ σ) :
    Configuration κ σ → Prop
  | refl : Leads host allowed c c
  | step {d e : Configuration κ σ} :
      Leads host allowed c d → allowed d → d.step host = some e → Leads host allowed c e
  | restart {d : Configuration κ σ} (memory : σ) (code : Body κ σ) :
      Leads host allowed c d → d.calls = [] → Leads host allowed c ⟨⟨d.machine, memory⟩, code, []⟩

/-- A moment of some run that began with a new machine. -/
def Reachable (host : Host κ σ) (c : Configuration κ σ) : Prop :=
  ∃ identity limits memory code,
    Leads host (fun _ => True) ⟨⟨Machine.new identity limits, memory⟩, code, []⟩ c

theorem Leads.trans {allowed : Configuration κ σ → Prop} (first : Leads host allowed c d)
    (second : Leads host allowed d e) : Leads host allowed c e := by
  induction second with
  | refl => exact first
  | step _ hallowed hstep ih => exact ih.step hallowed hstep
  | restart memory code _ hcalls ih => exact ih.restart memory code hcalls

theorem Leads.mono {allowed wider : Configuration κ σ → Prop} (h : Leads host allowed c d)
    (hsub : ∀ c, allowed c → wider c) : Leads host wider c d := by
  induction h with
  | refl => exact .refl
  | step _ hallowed hstep ih => exact ih.step (hsub _ hallowed) hstep
  | restart memory code _ hcalls ih => exact ih.restart memory code hcalls

theorem leads_of_iterate {n : Nat} (h : iterate host n c = some d) :
    Leads host (fun _ => True) c d := by
  induction n generalizing d with
  | zero => obtain rfl := Option.some.inj h; exact .refl
  | succ n ih =>
    rw [iterate_add] at h
    obtain ⟨e, he, hstep⟩ := Option.bind_eq_some_iff.mp h
    refine (ih he).step trivial ?_
    rw [iterate] at hstep
    obtain ⟨f, hf, hlast⟩ := Option.bind_eq_some_iff.mp hstep
    exact hf.trans hlast

theorem Reachable.leads {allowed : Configuration κ σ → Prop} (hc : Reachable host c)
    (h : Leads host allowed c d) : Reachable host d := by
  obtain ⟨identity, limits, memory, code, hstart⟩ := hc
  exact ⟨identity, limits, memory, code, hstart.trans (h.mono fun _ _ => trivial)⟩

theorem WellFormed.leads {allowed : Configuration κ σ → Prop} (hc : c.WellFormed)
    (h : Leads host allowed c d) : d.WellFormed := by
  induction h with
  | refl => exact hc
  | step _ _ hstep ih => exact ih.step hstep
  | restart memory code _ hcalls ih => exact ⟨⟨ih.base_le_height, trivial⟩, ih.stamped⟩

/-- Every moment of every run is well formed. -/
theorem Reachable.wellFormed (hc : Reachable host c) : c.WellFormed := by
  obtain ⟨identity, limits, memory, code, hstart⟩ := hc
  have hnew : WellFormed (⟨⟨Machine.new identity limits, memory⟩, code, []⟩ :
      Configuration κ σ) := ⟨⟨Nat.le_refl 0, trivial⟩, Stack.wellStamped_empty⟩
  exact hnew.leads hstart

/-- What runs in a frame keeps a moment well formed. -/
theorem WellFormed.run (host : Host κ σ) (hc : c.WellFormed) {α : Type} (p : Program κ σ α)
    (code : Body κ σ) :
    WellFormed ⟨(c.world.run host p).2, code, c.calls⟩ := by
  have hevolves := World.run_evolves host hc.base_le_height p
  refine ⟨⟨?_, ?_⟩, hevolves.edit.wellStamped hc.stamped⟩
  · show (c.world.run host p).2.machine.base ≤ (c.world.run host p).2.machine.stack.height
    rw [hevolves.base]
    exact hevolves.edit.le_height hc.base_le_height
  · show Nested (c.world.run host p).2.machine.base c.calls
    rw [hevolves.base]
    exact hc.nested

/-- A run takes place on one machine. -/
theorem Leads.identity_eq {allowed : Configuration κ σ → Prop} (hc : c.WellFormed)
    (h : Leads host allowed c d) : d.machine.identity = c.machine.identity := by
  induction h with
  | refl => rfl
  | step before _ hstep ih =>
    exact (step_changes (hc.leads before).toFramed hstep).identity.trans ih
  | restart memory code _ _ ih => exact ih

/-- The base of the frame in which a run takes place when all calls are left. -/
def rootBase : Nat → List (Activation κ σ) → Nat
  | base, [] => base
  | _, a :: rest => rootBase a.base rest

theorem rootBase_step (hc : c.Framed) (h : c.step host = some d) :
    rootBase d.machine.base d.calls = rootBase c.machine.base c.calls := by
  cases (step_changes hc h).frames with
  | stay calls base fits => rw [calls, base]
  | enter a calls caller inside touched base fits => rw [calls, rootBase, caller]
  | leave a calls base touched fits => rw [calls, rootBase, base]
  | handle a b rest before calls callee caller touched base fits =>
    rw [before, calls, rootBase, rootBase, caller]

theorem Leads.rootBase_eq {allowed : Configuration κ σ → Prop} (hc : c.WellFormed)
    (h : Leads host allowed c d) :
    rootBase d.machine.base d.calls = rootBase c.machine.base c.calls := by
  induction h with
  | refl => rfl
  | step before _ hstep ih => exact (rootBase_step (hc.leads before).toFramed hstep).trans ih
  | restart memory code _ hcalls ih =>
    rw [hcalls] at ih
    exact ih

/-- With the same calls entered and not left, the base of the frame is the same. -/
theorem Leads.base_eq {allowed : Configuration κ σ → Prop} (hc : c.WellFormed)
    (h : Leads host allowed c d) (hcalls : d.calls = c.calls) :
    d.machine.base = c.machine.base := by
  have hroot := h.rootBase_eq hc
  have hbefore := hc.nested
  have hafter := (hc.leads h).nested
  rw [hcalls] at hroot hafter
  cases hlist : c.calls with
  | nil =>
    rw [hlist] at hroot
    exact hroot
  | cons a rest =>
    rw [hlist] at hbefore hafter
    exact hafter.1.trans hbefore.1.symm

/-- Stamps are issued in the order of time. -/
theorem Leads.nextStamp_le {allowed : Configuration κ σ → Prop} (hc : c.WellFormed)
    (h : Leads host allowed c d) : c.stack.nextStamp ≤ d.stack.nextStamp := by
  induction h with
  | refl => exact Nat.le_refl _
  | step before _ hstep ih =>
    exact Nat.le_trans ih (step_changes (hc.leads before).toFramed hstep).edit.nextStamp_le
  | restart memory code _ hcalls ih => exact ih

/-- Between two moments of a run, a slot is the one its index had, or its stamp was issued since. -/
theorem Leads.kept_or_fresh {allowed : Configuration κ σ → Prop} (hc : c.WellFormed)
    (h : Leads host allowed c d) {k : Nat} {slot : Slot} (hslot : d.stack.slots[k]? = some slot) :
    c.stack.slots[k]? = some slot ∨ c.stack.nextStamp ≤ slot.stamp := by
  induction h with
  | refl => exact .inl hslot
  | step before _ hstep ih =>
    have hedit := (step_changes (hc.leads before).toFramed hstep).edit
    rcases hedit.kept_or_fresh hslot with hkept | hfresh
    · exact ih hkept
    · exact .inr (Nat.le_trans (before.nextStamp_le hc) hfresh)
  | restart memory code _ hcalls ih => exact ih hslot

end Configuration

end StackEmbedding
