import StackEmbedding.Proofs.Machine.Locality
import StackEmbedding.Proofs.Program.Agreement

/-!
# A program sees its own frame only

Two runs of one program, on worlds in which it sees the same frame but which differ below: in the
base, in the values there and how many they are, and in all stamps. `run_local` says that the runs
go in step and end alike, and that each leaves the slots below its base as they were.

The invariant is that the runs stay alike above the two bases they began with (`Alike`): every base,
every callee's slot and the top lie equally far above them, in the running function and in all of
its callers.

**The programs.** All instructions are allowed but the primitives that `Primitive.Ordinary` leaves
out, in the program and in every function that it calls. A program may keep every answer that it
gets in the memory of the host, so alike memories speak of all answers.

**The excluded runs.** The panic of a table primitive whose position names one of its own operands
tells a raw index in its text (`Overruns`).
-/

set_option autoImplicit false

namespace StackEmbedding

variable {κ σ α : Type}

/-! ## Ordinary code -/

/-- An instruction whose answer tells nothing about raw indices, stamps or identities. -/
def Instruction.Ordinary : Instruction κ σ → Prop
  | .primitive p => p.Ordinary
  | _ => True

/-- A program of ordinary instructions. -/
def Program.Ordinary : Program κ σ α → Prop
  | .done _ => True
  | .step i next => i.Ordinary ∧ ∀ r, (next r).Ordinary

/-- A host whose functions are ordinary programs. -/
structure Host.Ordinary (host : Host κ σ) : Prop where
  native : ∀ f, (host.native f).Ordinary
  closure : ∀ code, (host.closure code).Ordinary

/-! ## Calls on machines alike -/

namespace Machine.Alike

variable {m n : Machine κ} {b₁ b₂ : Nat} (h : Alike b₁ b₂ m n)
include h

theorem enter (k : Nat) : Alike b₁ b₂ (m.enter (b₁ + k)) (n.enter (b₂ + k)) :=
  ⟨h.limits, congrArg (· + 1) h.depth, h.globals, h.tables, h.closures, ⟨k + 1, rfl, rfl⟩, h.stack⟩

theorem leave (j : Nat) : Alike b₁ b₂ (m.leave (b₁ + j)) (n.leave (b₂ + j)) :=
  ⟨h.limits, congrArg (· - 1) h.depth, h.globals, h.tables, h.closures, ⟨j, rfl, rfl⟩, h.stack⟩

theorem settle (k : Nat) (values : List Value) :
    Alike b₁ b₂ (m.settle (b₁ + k) values) (n.settle (b₂ + k) values) :=
  h.withStack ((h.stack.resize k).pushAll values)

theorem deliver (k : Nat) (results : Int) (reported : Nat) :
    (m.deliver (b₁ + k) results reported).1 = (n.deliver (b₂ + k) results reported).1 ∧
      Alike b₁ b₂ (m.deliver (b₁ + k) results reported).2
        (n.deliver (b₂ + k) results reported).2 := by
  obtain ⟨l, hs, ht⟩ := h.stack.height
  have havailable : m.stack.height - (b₁ + k + 1) = n.stack.height - (b₂ + k + 1) := by omega
  unfold Machine.deliver
  dsimp only
  rw [havailable]
  by_cases hover : n.stack.height - (b₂ + k + 1) < reported
  · rw [if_pos hover, if_pos hover]
    exact ⟨rfl, h⟩
  · have hs' : m.stack.height - reported = b₁ + (l - reported) := by omega
    have ht' : n.stack.height - reported = b₂ + (l - reported) := by omega
    rw [if_neg hover, if_neg hover, hs', ht', h.stack.valuesFrom]
    exact ⟨rfl, h.settle k _⟩

/-- The entry checks of a call find the same, equally far above the two indices. -/
theorem checkCall (arguments : Nat) (handler : Int) :
    (∃ k found, m.checkCall arguments handler = .ok (b₁ + k, found) ∧
      n.checkCall arguments handler = .ok (b₂ + k, found)) ∨
    ∃ cause, m.checkCall arguments handler = .error cause ∧
      n.checkCall arguments handler = .error cause := by
  obtain ⟨j, l, hm, hn, hs, ht⟩ := h.offsets
  unfold Machine.checkCall
  rw [← h.top, ← h.value? handler]
  by_cases htop : m.top ≤ arguments
  · rw [if_pos htop, if_pos htop]
    exact .inr ⟨_, rfl, rfl⟩
  · have hlt : arguments < l := by
      simp only [Machine.top] at htop
      omega
    have hs' : m.stack.height - arguments - 1 = b₁ + (l - arguments - 1) := by omega
    have ht' : n.stack.height - arguments - 1 = b₂ + (l - arguments - 1) := by omega
    rw [if_neg htop, if_neg htop, hs', ht']
    dsimp only
    by_cases hzero : handler = 0
    · rw [if_pos hzero, if_pos hzero]
      exact .inl ⟨_, _, rfl, rfl⟩
    · rw [if_neg hzero, if_neg hzero]
      cases m.value? handler with
      | some found => exact .inl ⟨_, _, rfl, rfl⟩
      | none => exact .inr ⟨_, rfl, rfl⟩

end Machine.Alike

/-- The worlds agree on everything above `b₁` and `b₂` and besides the stack. -/
structure World.Alike (b₁ b₂ : Nat) (w v : World κ σ) : Prop where
  memory : w.memory = v.memory
  machine : Machine.Alike b₁ b₂ w.machine v.machine

namespace World.Alike

variable {host : Host κ σ} {w v : World κ σ} {b₁ b₂ : Nat} (h : Alike b₁ b₂ w v)
include h

theorem withMachine {m n : Machine κ} (hmn : Machine.Alike b₁ b₂ m n) :
    Alike b₁ b₂ (w.withMachine m) (v.withMachine n) :=
  ⟨h.memory, hmn⟩

theorem callable (k : Nat) : w.callable host (b₁ + k) = v.callable host (b₂ + k) := by
  have hbody : ∀ target, host.body? w.machine target = host.body? v.machine target := by
    intro target
    cases target <;> simp only [Host.body?, h.machine.closures]
  unfold World.callable
  rw [h.machine.depth, h.machine.limits, h.machine.stack.value? k]
  simp only [hbody]

theorem giveBack (j k : Nat) (results : Int) (outcome : Except Panic Ending) :
    (w.giveBack (b₁ + j) (b₁ + k) results outcome).1 =
        (v.giveBack (b₂ + j) (b₂ + k) results outcome).1 ∧
      Alike b₁ b₂ (w.giveBack (b₁ + j) (b₁ + k) results outcome).2
        (v.giveBack (b₂ + j) (b₂ + k) results outcome).2 := by
  have hleft := h.machine.leave j
  match outcome with
  | .ok (.ok reported) =>
    obtain ⟨hsame, halike⟩ := hleft.deliver k results reported
    exact ⟨hsame, h.memory, halike⟩
  | .ok (.error e) => exact ⟨rfl, h.memory, hleft⟩
  | .error cause => exact ⟨rfl, h.memory, hleft⟩

end World.Alike

theorem Host.Ordinary.callable {host : Host κ σ} (hhost : host.Ordinary) {w : World κ σ}
    {callee : Nat} {body : Body κ σ} (h : w.callable host callee = .ok body) : body.Ordinary := by
  unfold World.callable at h
  split at h
  · dsimp only at h
    split at h
    next found hfound =>
      obtain rfl := Except.ok.inj h
      unfold Host.body? at hfound
      split at hfound
      next f _ => exact Option.some.inj hfound ▸ hhost.native f
      next id _ =>
        obtain rfl := Option.some.inj hfound
        cases w.machine.closures.get? id with
        | none => trivial
        | some code => exact hhost.closure code
      next => cases hfound
    next => cases h
  · cases h

/-! ## Verdicts on worlds alike -/

namespace Verdict

/-- The same decision, on worlds alike; a function that is entered is ordinary. -/
inductive Alike (b₁ b₂ : Nat) : Verdict κ σ → Verdict κ σ → Prop
  | enter {w v : World κ σ} (purpose : Purpose) (body : Body κ σ) (ordinary : body.Ordinary)
      (worlds : World.Alike b₁ b₂ w v) :
      Alike b₁ b₂ (.enter purpose body w) (.enter purpose body v)
  | answer {w v : World κ σ} (status : Status) (worlds : World.Alike b₁ b₂ w v) :
      Alike b₁ b₂ (.answer status w) (.answer status v)

variable {host : Host κ σ} {w v : World κ σ} {b₁ b₂ : Nat} {purpose : Purpose}

theorem alike_giveUp (h : World.Alike b₁ b₂ w v) (k : Nat) (object : Value) :
    Alike b₁ b₂ (giveUp (b₁ + k) object w) (giveUp (b₂ + k) object v) :=
  .answer _ ⟨h.memory, h.machine.settle k [object]⟩

theorem alike_attempt (hhost : host.Ordinary) (h : World.Alike b₁ b₂ w v) (k : Nat)
    {f g : RuntimeError → Verdict κ σ} (hrefused : ∀ e, Alike b₁ b₂ (f e) (g e)) :
    Alike b₁ b₂ (attempt host (b₁ + k) purpose f w) (attempt host (b₂ + k) purpose g v) := by
  unfold attempt
  cases hcallable : w.callable host (b₁ + k) with
  | ok body =>
    rw [← h.callable k, hcallable]
    exact .enter _ body (hhost.callable hcallable) h
  | error e =>
    rw [← h.callable k, hcallable]
    exact hrefused e

theorem alike_fail (hhost : host.Ordinary) (h : World.Alike b₁ b₂ w v) (k : Nat)
    (e : RuntimeError) :
    Alike b₁ b₂ (fail host (b₁ + k) purpose e w) (fail host (b₂ + k) purpose e v) := by
  unfold fail
  split
  next => exact alike_giveUp h k _
  next results handler =>
    have hprepared :
        World.Alike b₁ b₂ (prepare (b₁ + k) handler e w) (prepare (b₂ + k) handler e v) :=
      ⟨h.memory, h.machine.settle k _⟩
    exact alike_attempt hhost hprepared k fun _ => alike_giveUp hprepared k _
  next => exact alike_giveUp h k _

/-- Only where a handler's result stands on top is the top looked at. -/
theorem alike_succeed (h : World.Alike b₁ b₂ w v) (k : Nat)
    (hheight : ∀ e, purpose = .handle e → b₁ < w.machine.stack.height) :
    Alike b₁ b₂ (succeed (b₁ + k) purpose w) (succeed (b₂ + k) purpose v) := by
  unfold succeed
  split
  next => exact .answer _ h
  next e =>
    have hpositive := hheight e rfl
    rw [h.machine.stack.top? hpositive]
    exact alike_giveUp
      (h.withMachine (h.machine.withStack (h.machine.stack.dropTop hpositive))) k _

theorem Alike.status? {x y : Verdict κ σ} (h : Alike b₁ b₂ x y) : x.status? = y.status? := by
  cases h <;> rfl

end Verdict

/-! ## Moments alike -/

/-- The same call, its callee's slot and its caller's base equally far above `b₁` and `b₂`. -/
structure Activation.Alike (b₁ b₂ : Nat) (a b : Activation κ σ) : Prop where
  purpose : a.purpose = b.purpose
  callee : ∃ k, a.callee = b₁ + k ∧ b.callee = b₂ + k
  base : ∃ j, a.base = b₁ + j ∧ b.base = b₂ + j
  resume : a.resume = b.resume
  ordinary : ∀ status, (a.resume status).Ordinary

theorem Activation.Alike.leave {host : Host κ σ} (hhost : host.Ordinary) {a b : Activation κ σ}
    {w v : World κ σ} {b₁ b₂ : Nat} (h : a.Alike b₁ b₂ b) (hworlds : World.Alike b₁ b₂ w v)
    (hcallee : a.callee ≤ w.machine.stack.height) (outcome : Except Panic Ending) :
    Verdict.Alike b₁ b₂ (a.leave host outcome w) (b.leave host outcome v) := by
  obtain ⟨purpose, callee, base, resume⟩ := a
  obtain ⟨_, callee', base', _⟩ := b
  obtain ⟨rfl, ⟨k, rfl, rfl⟩, ⟨j, rfl, rfl⟩, -, -⟩ := h
  obtain ⟨hsame, halike⟩ := hworlds.giveBack j k purpose.wanted outcome
  have hresults := World.giveBack_results (b₁ + j) purpose.wanted outcome hcallee
  unfold Activation.leave
  dsimp only at hresults ⊢
  generalize w.giveBack (b₁ + j) (b₁ + k) purpose.wanted outcome = given at hsame halike hresults ⊢
  generalize v.giveBack (b₂ + j) (b₂ + k) purpose.wanted outcome = given' at hsame halike ⊢
  obtain ⟨result, after⟩ := given
  obtain ⟨_, after'⟩ := given'
  obtain rfl := hsame
  cases result with
  | error e => exact Verdict.alike_fail hhost halike k e
  | ok _ =>
    apply Verdict.alike_succeed halike k
    intro e hpurpose
    obtain ⟨reported, -, hheight, -⟩ := hresults rfl
    rw [hpurpose] at hheight
    have hheight : after.machine.stack.height = b₁ + k + 1 := hheight
    show b₁ < after.machine.stack.height
    omega

namespace Configuration

variable {host : Host κ σ} {b₁ b₂ : Nat} {c c' d d' : Configuration κ σ}

/-- The same moment, on worlds alike, in the running function and in all of its callers. -/
structure Alike (b₁ b₂ : Nat) (c d : Configuration κ σ) : Prop where
  worlds : World.Alike b₁ b₂ c.world d.world
  code : c.code = d.code
  ordinary : c.code.Ordinary
  calls : List.Forall₂ (Activation.Alike b₁ b₂) c.calls d.calls

theorem alike_proceed {a b : Activation κ σ} {rest rest' : List (Activation κ σ)}
    {v v' : Verdict κ σ} (ha : a.Alike b₁ b₂ b)
    (hrest : List.Forall₂ (Activation.Alike b₁ b₂) rest rest') (hv : v.Alike b₁ b₂ v') :
    Alike b₁ b₂ (a.proceed rest v) (b.proceed rest' v') := by
  cases hv with
  | @enter w w' purpose body ordinary worlds =>
    obtain ⟨k, hk, hk'⟩ := ha.callee
    have hinside : Machine.Alike b₁ b₂ (w.machine.enter a.callee) (w'.machine.enter b.callee) := by
      rw [hk, hk']
      exact worlds.machine.enter k
    exact ⟨worlds.withMachine hinside, rfl, ordinary,
      .cons ⟨rfl, ha.callee, ha.base, ha.resume, ha.ordinary⟩ hrest⟩
  | answer status worlds =>
    exact ⟨worlds, congrFun ha.resume status, ha.ordinary status, hrest⟩

/-- The next step is a primitive that panics with a raw index in the text. -/
def Overruns (c : Configuration κ σ) : Prop :=
  ∃ p next height raw, c.code = .step (.primitive p) next ∧
    (c.machine.perform p).1 = .error (.outOfBounds height raw)

/-- Both runs are over, or both take a step to moments alike. -/
def StepAlike (b₁ b₂ : Nat) (x y : Option (Configuration κ σ)) : Prop :=
  (x = none ∧ y = none) ∨ ∃ c d, x = some c ∧ y = some d ∧ Alike b₁ b₂ c d

theorem finish_alike (hhost : host.Ordinary) (hc : c.Framed) (h : Alike b₁ b₂ c d)
    (outcome : Except Panic Ending) :
    StepAlike b₁ b₂ (c.finish host outcome) (d.finish host outcome) := by
  have hnested := hc.nested
  have hbase := hc.base_le_height
  have hcalls := h.calls
  unfold finish
  generalize c.calls = xs at hcalls hnested ⊢
  generalize d.calls = ys at hcalls ⊢
  cases hcalls with
  | nil => exact .inl ⟨rfl, rfl⟩
  | @cons a b rest rest' ha hrest =>
    rw [hnested.1] at hbase
    exact .inr ⟨_, _, rfl, rfl, alike_proceed ha hrest
      (ha.leave hhost h.worlds (Nat.le_of_succ_le hbase) outcome)⟩

/-- Moments alike stay alike in one step. -/
theorem step_alike (hhost : host.Ordinary) (hc : c.Framed) (hinside : ¬ c.Overruns)
    (h : Alike b₁ b₂ c d) : StepAlike b₁ b₂ (c.step host) (d.step host) := by
  have hordinary := h.ordinary
  unfold step
  rw [← h.code]
  match hcode : c.code, hordinary with
  | .done ending, _ => exact finish_alike hhost hc h _
  | .step (.panic cause) _, _ => exact finish_alike hhost hc h _
  | .step .readMemory next, hordinary =>
    refine .inr ⟨_, _, rfl, rfl, h.worlds, ?_, hordinary.2 _, h.calls⟩
    simp only [h.worlds.memory]
  | .step (.writeMemory memory) next, hordinary =>
    exact .inr ⟨_, _, rfl, rfl, ⟨rfl, h.worlds.machine⟩, rfl, hordinary.2 _, h.calls⟩
  | .step (.primitive p) next, hordinary =>
    rcases Machine.perform_alike h.worlds.machine hordinary.1 with
      ⟨height, raw, hover⟩ | ⟨hsame, hm⟩
    · exact absurd ⟨p, next, height, raw, hcode, hover⟩ hinside
    · dsimp only
      generalize c.machine.perform p = performed at hsame hm ⊢
      generalize d.machine.perform p = performed' at hsame hm ⊢
      obtain ⟨cause | reply, m⟩ := performed <;> obtain ⟨_, m'⟩ := performed' <;>
        obtain rfl := hsame
      · exact .inr ⟨_, _, rfl, rfl, h.worlds.withMachine hm, rfl, ⟨trivial, fun r => r.elim⟩,
          h.calls⟩
      · exact .inr ⟨_, _, rfl, rfl, h.worlds.withMachine hm, rfl, hordinary.2 reply, h.calls⟩
  | .step (.call arguments results handler) next, hordinary =>
    rcases h.worlds.machine.checkCall arguments handler with
      ⟨k, found, hc', hd'⟩ | ⟨cause, hc', hd'⟩
    · simp only [hc', hd']
      refine .inr ⟨_, _, rfl, rfl, alike_proceed ?_ h.calls
        (Verdict.alike_attempt hhost h.worlds k fun e => Verdict.alike_fail hhost h.worlds k e)⟩
      exact ⟨rfl, ⟨k, rfl, rfl⟩, h.worlds.machine.base, rfl, hordinary.2⟩
    · simp only [hc', hd']
      exact .inr ⟨_, _, rfl, rfl, h.worlds, rfl, ⟨trivial, fun r => r.elim⟩, h.calls⟩

/-- In moments alike, the next step answers a caller with the same status, or neither does. -/
theorem verdict?_alike (hhost : host.Ordinary) (hc : c.Framed) (h : Alike b₁ b₂ c d) :
    (c.verdict? host).map Verdict.status? = (d.verdict? host).map Verdict.status? := by
  have hleave : ∀ outcome, (c.calls.head?.map fun a => (a.leave host outcome c.world).status?) =
      d.calls.head?.map fun a => (a.leave host outcome d.world).status? := by
    intro outcome
    have hnested := hc.nested
    have hbase := hc.base_le_height
    have hcalls := h.calls
    generalize c.calls = xs at hcalls hnested ⊢
    generalize d.calls = ys at hcalls ⊢
    cases hcalls with
    | nil => rfl
    | cons ha hrest =>
      rw [hnested.1] at hbase
      exact congrArg some (ha.leave hhost h.worlds (Nat.le_of_succ_le hbase) outcome).status?
  unfold verdict?
  rw [← h.code]
  split
  next => rw [Option.map_map, Option.map_map]; exact hleave _
  next => rw [Option.map_map, Option.map_map]; exact hleave _
  next arguments results handler next _ =>
    rcases h.worlds.machine.checkCall arguments handler with
      ⟨k, found, hc', hd'⟩ | ⟨cause, hc', hd'⟩
    · simp only [hc', hd', Option.map_some]
      exact congrArg some (Verdict.alike_attempt hhost h.worlds k
        fun e => Verdict.alike_fail hhost h.worlds k e).status?
    · simp only [hc', hd']
  next => rfl

/-- No step touches a slot below an index that is at most the base and every callee. -/
theorem le_of_touches {b : Nat} (hc : c.Framed) (hbase : b ≤ c.machine.base)
    (hcallee : ∀ a ∈ c.calls, b ≤ a.callee) {k : Nat} (hk : c.touches host k) : b ≤ k := by
  rcases base_le_of_touches hc hk with hle | ⟨a, rest, hcalls, hle⟩
  · exact Nat.le_trans hbase hle
  · exact Nat.le_trans (hcallee a (by simp [hcalls])) hle

theorem le_callee {xs ys : List (Activation κ σ)}
    (h : List.Forall₂ (Activation.Alike b₁ b₂) xs ys) :
    (∀ a ∈ xs, b₁ ≤ a.callee) ∧ ∀ b ∈ ys, b₂ ≤ b.callee := by
  induction h with
  | nil => simp
  | cons hab _ ih =>
    obtain ⟨l, hl, hl'⟩ := hab.callee
    simp only [List.forall_mem_cons]
    exact ⟨⟨by omega, ih.1⟩, ⟨by omega, ih.2⟩⟩

/-- In moments alike, no step touches a slot below `b₁` or `b₂`. -/
theorem Alike.le_of_touches (host : Host κ σ) (h : Alike b₁ b₂ c d) (hc : c.Framed)
    (hd : d.Framed) :
    (∀ k, c.touches host k → b₁ ≤ k) ∧ ∀ k, d.touches host k → b₂ ≤ k := by
  obtain ⟨j, hj, hj'⟩ := h.worlds.machine.base
  obtain ⟨hleft, hright⟩ := le_callee h.calls
  constructor
  · intro k hk
    exact Configuration.le_of_touches hc (hj ▸ Nat.le_add_right b₁ j) hleft hk
  · intro k hk
    exact Configuration.le_of_touches hd (hj' ▸ Nat.le_add_right b₂ j) hright hk

/-! ## Runs alike -/

/-- Two moments of two runs that began on the worlds `w` and `v` and go in step. -/
structure InStep (host : Host κ σ) (w v : World κ σ) (c d : Configuration κ σ) : Prop where
  /-- All that lies above the two bases of the beginning is the same, and all besides the stack. -/
  worlds : World.Alike w.machine.base v.machine.base c.world d.world
  /-- The same code goes on, so all answers so far were the same to it. -/
  code : c.code = d.code
  /-- A primitive that comes next answers the same or panics with the same text. -/
  reply : ∀ p next, c.code = .step (.primitive p) next →
    (c.machine.perform p).1 = (d.machine.perform p).1
  /-- A caller that is answered next is answered with the same status. -/
  status : (c.verdict? host).map Verdict.status? = (d.verdict? host).map Verdict.status?
  below_left : ∀ k < w.machine.base, c.stack.slots[k]? = w.machine.stack.slots[k]?
  below_right : ∀ k < v.machine.base, d.stack.slots[k]? = v.machine.stack.slots[k]?

/-- The invariant of two runs in step. -/
structure Paired (b₁ b₂ : Nat) (s t : Stack) (c d : Configuration κ σ) : Prop where
  alike : Alike b₁ b₂ c d
  left : c.Framed
  right : d.Framed
  below_left : ∀ k < b₁, c.stack.slots[k]? = s.slots[k]?
  below_right : ∀ k < b₂, d.stack.slots[k]? = t.slots[k]?

theorem Paired.iterate (hhost : host.Ordinary) {s t : Stack} (h : Paired b₁ b₂ s t c d)
    (hinside : ∀ n c', iterate host n c = some c' → ¬ c'.Overruns) (n : Nat) :
    (iterate host n c = none ∧ iterate host n d = none) ∨
    ∃ c' d', iterate host n c = some c' ∧ iterate host n d = some d' ∧ Paired b₁ b₂ s t c' d' := by
  induction n generalizing c d with
  | zero => exact .inr ⟨c, d, rfl, rfl, h⟩
  | succ n ih =>
    rcases step_alike hhost h.left (hinside 0 c rfl) h.alike with
      ⟨hc, hd⟩ | ⟨c', d', hc, hd, halike⟩
    · exact .inl ⟨by rw [Configuration.iterate, hc]; rfl, by rw [Configuration.iterate, hd]; rfl⟩
    · obtain ⟨hleft, hright⟩ := h.alike.le_of_touches host h.left h.right
      rw [iterate_succ hc, iterate_succ hd]
      refine ih ⟨halike, h.left.step hc, h.right.step hd, ?_, ?_⟩ ?_
      · intro k hk
        rw [(step_changes h.left hc).edit.slot_eq fun hk' => Nat.not_le_of_lt hk (hleft k hk')]
        exact h.below_left k hk
      · intro k hk
        rw [(step_changes h.right hd).edit.slot_eq fun hk' => Nat.not_le_of_lt hk (hright k hk')]
        exact h.below_right k hk
      · intro m e he
        exact hinside (m + 1) e (by rw [iterate_succ hc]; exact he)

/-- A run that is over was over nowhere before. -/
theorem iterate_over_unique {m n : Nat} (hm : iterate host m c = some d) (hd : d.step host = none)
    (hn : iterate host n c = some d') (hd' : d'.step host = none) : d = d' := by
  have hover : ∀ {m n : Nat} {d d' : Configuration κ σ}, iterate host m c = some d →
      d.step host = none → iterate host n c = some d' → m ≤ n → d = d' := by
    intro m n d d' hm hd hn hle
    obtain ⟨e, he, hmore⟩ := iterate_of_le hn hle
    obtain rfl := Option.some.inj (hm.symm.trans he)
    cases hk : n - m with
    | zero => rw [hk] at hmore; exact Option.some.inj hmore
    | succ k => rw [hk, Configuration.iterate, hd] at hmore; cases hmore
  rcases Nat.le_total m n with hle | hle
  · exact hover hm hd hn hle
  · exact (hover hn hd' hm hle).symm

theorem step_ofOutcome_nil (w : World κ σ) (outcome : Except Panic Ending) :
    step host ⟨w, .ofOutcome outcome, []⟩ = none := by
  cases outcome <;> rfl

theorem ofOutcome_injective {x y : Except Panic Ending}
    (h : (Program.ofOutcome x : Body κ σ) = .ofOutcome y) : x = y := by
  cases x <;> cases y <;> simp_all [Program.ofOutcome, Program.panic]

end Configuration

/-- The programs that run on two worlds see the same: the values of the frame, and all but the
stack. -/
def World.SameView (w v : World κ σ) : Prop := World.Alike w.machine.base v.machine.base w v

open StackEmbedding.Configuration in
/-- Two runs of one program, on worlds in which it sees the same, go in step, end alike, and leave
what lies below their frames unchanged. -/
theorem run_local {host : Host κ σ} (hhost : host.Ordinary) {p : Body κ σ} (hp : p.Ordinary)
    {w v : World κ σ} (hview : w.SameView v)
    (hinside : ∀ n c, iterate host n ⟨w, p, []⟩ = some c → ¬ c.Overruns) :
    (∀ n, (iterate host n ⟨w, p, []⟩ = none ∧ iterate host n ⟨v, p, []⟩ = none) ∨
      ∃ c d, iterate host n ⟨w, p, []⟩ = some c ∧ iterate host n ⟨v, p, []⟩ = some d ∧
        InStep host w v c d) ∧
    (w.run host p).1 = (v.run host p).1 ∧ (w.run host p).2.SameView (v.run host p).2 ∧
    (∀ k < w.machine.base,
      (w.run host p).2.machine.stack.slots[k]? = w.machine.stack.slots[k]?) ∧
    ∀ k < v.machine.base,
      (v.run host p).2.machine.stack.slots[k]? = v.machine.stack.slots[k]? := by
  have hstart : Paired w.machine.base v.machine.base w.machine.stack v.machine.stack
      (⟨w, p, []⟩ : Configuration κ σ) ⟨v, p, []⟩ :=
    ⟨⟨hview, rfl, hp, .nil⟩, ⟨hview.machine.stack.left, trivial⟩,
      ⟨hview.machine.stack.right, trivial⟩, fun _ _ => rfl, fun _ _ => rfl⟩
  have hpaired := hstart.iterate hhost hinside
  refine ⟨fun n => ?_, ?_⟩
  · rcases hpaired n with hover | ⟨c, d, hc, hd, h⟩
    · exact .inl hover
    · refine .inr ⟨c, d, hc, hd, h.alike.worlds, h.alike.code, fun q next hcode => ?_,
        verdict?_alike hhost h.left h.alike, h.below_left, h.below_right⟩
      have hordinary := h.alike.ordinary
      rw [hcode] at hordinary
      rcases Machine.perform_alike h.alike.worlds.machine hordinary.1 with
        ⟨height, raw, hover⟩ | ⟨hsame, -⟩
      · exact absurd ⟨q, next, height, raw, hcode, hover⟩ (hinside n c hc)
      · exact hsame
  · obtain ⟨m, hm⟩ := iterate_run host hview.machine.stack.left p []
    obtain ⟨n, hn⟩ := iterate_run host hview.machine.stack.right p []
    obtain ⟨hover, -⟩ | ⟨c, d, hc, hd, h⟩ := hpaired m
    · rw [hm] at hover
      cases hover
    obtain rfl := Option.some.inj (hm.symm.trans hc)
    -- Where the first run is over the second is, so they end after equally many steps.
    obtain rfl : d = ⟨(v.run host p).2, .ofOutcome (v.run host p).1, []⟩ := by
      refine iterate_over_unique hd ?_ hn (step_ofOutcome_nil _ _)
      obtain ⟨u, code, calls⟩ := d
      obtain rfl : _ = code := h.alike.code
      cases h.alike.calls
      exact step_ofOutcome_nil _ _
    refine ⟨ofOutcome_injective h.alike.code, ?_, h.below_left, h.below_right⟩
    have hw := (World.run_evolves host hview.machine.stack.left p).base
    have hv := (World.run_evolves host hview.machine.stack.right p).base
    unfold World.SameView
    rw [hw, hv]
    exact h.alike.worlds

/-- A host whose functions push a copy of their first argument as their result. -/
def echoing : Host Unit Unit :=
  ⟨fun _ => .step (.primitive (.pushValue 1)) fun _ => .done (.ok 1),
    fun _ => .step (.primitive (.pushValue 1)) fun _ => .done (.ok 1)⟩

/-- Calls the function below one argument. -/
def callingEcho : Body Unit Unit := .step (.call 1 1 0) fun _ => .done (.ok 1)

/-- A frame with a function and an argument, above other values. -/
def frameAbove (below : List Value) : World Unit Unit :=
  ⟨{ Machine.new 0 {} with
      stack := Stack.empty.pushAll (below ++ [.function ⟨"echo"⟩, .bool true])
      base := below.length }, ()⟩

open StackEmbedding.Configuration in
/-- The laws of `run_local` for a call above no slot and above two. -/
theorem callingEcho_local :
    (frameAbove []).SameView (frameAbove [.nil, .nil]) ∧
    ((frameAbove []).run echoing callingEcho).1 =
      ((frameAbove [.nil, .nil]).run echoing callingEcho).1 ∧
    ((frameAbove []).run echoing callingEcho).2.SameView
      ((frameAbove [.nil, .nil]).run echoing callingEcho).2 := by
  have hview : (frameAbove []).SameView (frameAbove [.nil, .nil]) :=
    ⟨rfl, rfl, rfl, rfl, rfl, rfl, ⟨0, rfl, rfl⟩, by decide, by decide, by decide⟩
  have hhost : echoing.Ordinary :=
    ⟨fun _ => ⟨trivial, fun _ => trivial⟩, fun _ => ⟨trivial, fun _ => trivial⟩⟩
  have hinside : ∀ n c, iterate echoing n ⟨frameAbove [], callingEcho, []⟩ = some c →
      ¬ c.Overruns := by
    rintro n c hc ⟨q, next, height, raw, hcode, hover⟩
    match n, hc with
    | 0, hc => obtain rfl := Option.some.inj hc; cases hcode
    | 1, hc => obtain rfl := Option.some.inj hc; cases hcode; cases hover
    | 2, hc => obtain rfl := Option.some.inj hc; cases hcode
    | 3, hc => obtain rfl := Option.some.inj hc; cases hcode
    | n + 4, hc => cases hc
  obtain ⟨-, hresult, hafter, -⟩ := run_local hhost (p := callingEcho)
    ⟨trivial, fun _ => trivial⟩ hview hinside
  exact ⟨hview, hresult, hafter⟩

end StackEmbedding
