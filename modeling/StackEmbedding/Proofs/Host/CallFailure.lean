import StackEmbedding.Proofs.Host.Push

/-!
# What a failed typed call leaves on the stack

`Environment.call` reports a failed call with a status. A caller is told to pop the error object of
such a call, so the frame has to be what it was before, and one slot more.

**What is established here.** `call_failed_leaves`: this is so for every failed call but one kind.
Where the stack has no room for the function and its arguments the call is refused with the status
`memory`, and leaves no error object. The room is the exact condition, and the status tells the two
apart.
-/

set_option autoImplicit false

namespace StackEmbedding

variable {κ σ α β : Type} {host : Host κ σ} {runner : World.Runner κ σ} {w : World κ σ}

/-- The frame of `after` is that of `w`, values and stamps, with one slot more on top. -/
structure World.OneMore (w after : World κ σ) : Prop where
  base : after.machine.base = w.machine.base
  depth : after.machine.depth = w.machine.depth
  slots : ∃ slot, after.machine.stack.slots = w.machine.stack.slots ++ [slot]

/-- Popping the slot more restores the frame. -/
theorem World.OneMore.pop {after : World κ σ} (h : w.OneMore after)
    (hbase : w.machine.base ≤ w.machine.stack.height) :
    ∃ m, after.machine.pop 1 = (.ok (), m) ∧ m.base = w.machine.base ∧
      m.stack.slots = w.machine.stack.slots := by
  obtain ⟨hsame, -, slot, hslots⟩ := h
  have hheight : after.machine.stack.height = w.machine.stack.height + 1 := by
    rw [Stack.height, hslots, List.length_append]
    rfl
  have htop : 1 ≤ after.machine.top := by
    rw [Machine.top, hsame]
    omega
  refine ⟨_, if_pos htop, hsame, ?_⟩
  show (after.machine.stack.resize (after.machine.stack.height - 1)).slots = _
  rw [Stack.resize, if_pos (Nat.sub_le _ _), hheight]
  simp only [Stack.truncate, hslots, Nat.add_sub_cancel]
  exact List.take_left

theorem Program.runWith_bind_eq_ok {p : Program κ σ α} {next : α → Program κ σ β} {b : β}
    {after : World κ σ} (h : (p >>= next).runWith host runner w = (.ok b, after)) :
    ∃ a mid, p.runWith host runner w = (.ok a, mid) ∧
      (next a).runWith host runner mid = (.ok b, after) := by
  rw [runWith_bind] at h
  rcases hp : p.runWith host runner w with ⟨_ | a, mid⟩
  · rw [hp] at h
    cases h
  · rw [hp] at h
    exact ⟨a, mid, rfl, h⟩

theorem Program.runWith_absolute_eq (position : Int) :
    (absolute position : Program κ σ Int).runWith host runner w =
      (.ok (w.machine.absolute position), w) := by
  unfold absolute Machine.absolute
  split <;> rfl

theorem Program.runWith_absolute (position : Int) :
    ∃ p, (absolute position : Program κ σ Int).runWith host runner w = (.ok p, w) :=
  ⟨_, runWith_absolute_eq position⟩

@[simp] theorem Machine.height_push (m : Machine κ) (v : Value) :
    (m.push v).stack.height = m.stack.height + 1 := Stack.height_push v

/-- What writes above a pushed value writes above the stack that it was pushed on. -/
theorem Machine.Evolves.after_push {m n : Machine κ} {v : Value}
    (h : (m.push v).Evolves ((m.push v).stack.height ≤ ·) n) :
    m.Evolves (m.stack.height ≤ ·) n := by
  apply (Machine.Evolves.push v).trans
  apply h.mono
  intro k hk
  rw [Machine.height_push] at hk
  omega

/-- Pushing values writes a slot for each above the stack, unless it panics. -/
theorem Environment.runWith_pushAll (values : List HostValue) {after : World κ σ}
    (h : (pushAll values : Program κ σ Unit).runWith host runner w = (.ok (), after)) :
    w.machine.Evolves (w.machine.stack.height ≤ ·) after.machine ∧
      after.machine.stack.height = w.machine.stack.height + values.length := by
  induction values generalizing w with
  | nil =>
    obtain rfl : w = after := congrArg Prod.snd h
    exact ⟨.refl _, rfl⟩
  | cons v rest ih =>
    obtain ⟨_, mid, hv, hrest⟩ := Program.runWith_bind_eq_ok h
    obtain ⟨pushed, hpushed⟩ | ⟨cause, hpushed⟩ :=
      v.pushesOne host runner w
    · rw [hpushed] at hv
      obtain rfl : w.withMachine (w.machine.push pushed) = mid := congrArg Prod.snd hv
      obtain ⟨hevolves, hheight⟩ := ih hrest
      refine ⟨hevolves.after_push, ?_⟩
      rw [hheight, List.length_cons]
      show (w.machine.push pushed).stack.height + _ = _
      rw [Machine.height_push]
      omega
    · rw [hpushed] at hv
      cases hv

namespace Environment

/-- A typed call whose handler is at a position counted from the base, or zero. -/
def callAt (name : String) (drop : Bool) (arguments : List HostValue) (types : List HostType)
    (handler : Int) : Program κ σ (Except CallError (List HostValue)) := do
  if !(← .perform (.hasCapacity (arguments.length + 1))) then return .error (.failed .memory)
  if (← .perform (.getGlobal (.ofString name))) ≠ .function then
    .pop 1
    return .error (.notAFunction name)
  pushAll arguments
  let status ← .call arguments.length types.length handler
  if !status.isOk then return .error (.failed status)
  let results ← readResults (-(types.length : Int)) 1 types
  if drop then .pop types.length
  return results.mapError .mismatch

theorem call_eq_callAt (name : String) (handler : Int) (drop : Bool) (arguments : List HostValue)
    (types : List HostType) :
    (call name handler drop arguments types : Program κ σ _) =
      (if handler = 0 then pure 0 else .absolute handler) >>=
        callAt name drop arguments types := by
  by_cases hzero : handler = 0
  · simp only [call, if_pos hzero]
    rfl
  · simp only [call, if_neg hzero]
    rfl

theorem callAt_failed {name : String} {handler : Int} {drop : Bool}
    {arguments : List HostValue} {types : List HostType} {status : Status} {after : World κ σ}
    (h : (callAt name drop arguments types handler).runWith host runner w =
      (.ok (.error (.failed status)), after)) :
    (w.machine.hasCapacity (arguments.length + 1) = false ∧ status = .memory ∧ after = w) ∨
    ∃ u : World κ σ, w.machine.hasCapacity (arguments.length + 1) = true ∧
      w.machine.Evolves (w.machine.stack.height ≤ ·) u.machine ∧
      u.machine.stack.height = w.machine.stack.height + arguments.length + 1 ∧
      u.protectedCall host runner arguments.length types.length handler = (.ok status, after) ∧
      status.isOk = false := by
  unfold callAt at h
  obtain ⟨fits, _, hfits, h⟩ := Program.runWith_bind_eq_ok h
  rw [Program.runWith_perform] at hfits
  obtain ⟨rfl, rfl⟩ : w.machine.hasCapacity (arguments.length + 1) = fits ∧ w = _ :=
    ⟨Except.ok.inj (congrArg Prod.fst hfits), congrArg Prod.snd hfits⟩
  split at h
  next hfull =>
    rw [Program.runWith_pure] at h
    cases h
    exact .inl ⟨by simpa only [Bool.not_eq_true'] using hfull, rfl, rfl⟩
  next hroom =>
    refine .inr ?_
    obtain ⟨tag, fetched, hfetch, h⟩ := Program.runWith_bind_eq_ok h
    rw [Program.runWith_perform] at hfetch
    obtain ⟨v, rfl⟩ : ∃ v, w.withMachine (w.machine.push v) = fetched :=
      ⟨_, congrArg Prod.snd hfetch⟩
    split at h
    next =>
      obtain ⟨_, _, -, h⟩ := Program.runWith_bind_eq_ok h
      rw [Program.runWith_pure] at h
      cases h
    next =>
      obtain ⟨_, u, hpush, h⟩ := Program.runWith_bind_eq_ok h
      obtain ⟨hevolves, hheight⟩ := runWith_pushAll arguments hpush
      obtain ⟨s, called, hcall, h⟩ := Program.runWith_bind_eq_ok h
      split at h
      next hfailed =>
        rw [Program.runWith_pure] at h
        cases h
        rw [Program.runWith_call] at hcall
        refine ⟨u, by simpa only [Bool.not_eq_true', Bool.not_eq_false] using hroom,
          hevolves.after_push, ?_, hcall, by simpa only [Bool.not_eq_true'] using hfailed⟩
        rw [hheight]
        show (w.machine.push v).stack.height + _ = _
        rw [Machine.height_push]
        omega
      next =>
        -- The call succeeded, so whatever fails from here on is a result that does not convert.
        obtain ⟨results, _, -, h⟩ := Program.runWith_bind_eq_ok h
        cases drop
        · cases results <;> cases h
        · obtain ⟨_, _, -, h⟩ := Program.runWith_bind_eq_ok h
          cases results <;> cases h

/-- A typed call without room is refused and changes nothing. -/
theorem callAt_refused (name : String) (handler : Int) (drop : Bool) (arguments : List HostValue)
    (types : List HostType) (hfull : w.machine.hasCapacity (arguments.length + 1) = false) :
    (callAt name drop arguments types handler).runWith host runner w =
      (.ok (.error (.failed .memory)), w) := by
  unfold callAt
  rw [Program.runWith_bind, Program.runWith_perform]
  simp only [Machine.perform, hfull]
  rfl

end Environment

/-- The status of a failed protected call, and what it leaves of the frame of its caller. -/
theorem World.protectedCall_failed (hrunner : World.Confined runner) {arguments : Nat}
    {results handler : Int} {status : Status} {after : World κ σ} (hstatus : status.isOk = false)
    (h : w.protectedCall host runner arguments results handler = (.ok status, after)) :
    status = .runtime ∧ ∃ (callee : Nat) (object : Value) (u : World κ σ),
      callee + arguments + 1 = w.machine.stack.height ∧ after = u.fail callee object ∧
      w.machine.Evolves (callee ≤ ·) u.machine ∧ callee ≤ u.machine.stack.height := by
  cases hcheck : w.machine.checkCall arguments handler with
  | error cause =>
    rw [World.protectedCall_eq, hcheck] at h
    cases h
  | ok found =>
    obtain ⟨callee, handlerValue⟩ := found
    obtain ⟨-, -, hcallee⟩ := World.checkCall_eq_ok hcheck
    rcases World.protectedCall_cases host hrunner results hcheck with
      ⟨u, hcall, -⟩ | ⟨object, u, hcall, hu, hle⟩
    · rw [hcall] at h
      cases h
      cases hstatus
    · rw [hcall] at h
      cases h
      exact ⟨rfl, callee, object, u, hcallee, rfl, hu, hle⟩

/-- One error object above the slots of `w`, none of which was written. -/
theorem World.oneMore_fail {u : World κ σ}
    (hevolves : w.machine.Evolves (w.machine.stack.height ≤ ·) u.machine)
    (hle : w.machine.stack.height ≤ u.machine.stack.height) (object : Value) :
    w.OneMore (u.fail w.machine.stack.height object) := by
  have hkept : u.machine.stack.slots.take w.machine.stack.height = w.machine.stack.slots := by
    rw [hevolves.edit.take_eq]
    exact List.take_length
  refine ⟨hevolves.base, hevolves.depth, ⟨object, u.machine.stack.nextStamp⟩,
    (Machine.slots_settle hle [object]).trans ?_⟩
  rw [hkept]
  rfl

/-- A call that failed without being refused leaves the frame it found and the error object above
it, and popping that restores the frame; a call for which there is no room is refused with the
status `memory` and leaves no object. -/
theorem call_failed_leaves (w : World κ σ) (name : String) (handler : Int) (drop : Bool)
    (arguments : List HostValue) (types : List HostType) :
    (w.machine.hasCapacity (arguments.length + 1) = false →
      w.run host (Environment.call name handler drop arguments types) =
        (.ok (.error (.failed .memory)), w)) ∧
    (w.machine.hasCapacity (arguments.length + 1) = true → ∀ status after,
      w.run host (Environment.call name handler drop arguments types) =
        (.ok (.error (.failed status)), after) →
      status = .runtime ∧ w.OneMore after ∧
        (∃ (object : Value) (u : World κ σ), after = u.fail w.machine.stack.height object) ∧
        (w.machine.base ≤ w.machine.stack.height →
          ∃ m, after.machine.pop 1 = (.ok (), m) ∧ m.base = w.machine.base ∧
            m.stack.slots = w.machine.stack.slots)) := by
  unfold World.run
  have hconfined := World.confined_runner host w.machine.callsLeft
  generalize World.runner host w.machine.callsLeft = runner at hconfined ⊢
  rw [Environment.call_eq_callAt]
  obtain ⟨position, hposition⟩ : ∃ position,
      (if handler = 0 then pure 0 else Program.absolute handler : Program κ σ Int).runWith host
        runner w = (.ok position, w) := by
    split
    · exact ⟨0, rfl⟩
    · exact Program.runWith_absolute handler
  rw [Program.runWith_bind, hposition]
  refine ⟨Environment.callAt_refused name position drop arguments types, ?_⟩
  intro hroom status after h
  obtain ⟨hfull, -⟩ | ⟨u, -, hu, hheight, hcall, hstatus⟩ := Environment.callAt_failed h
  · rw [hroom] at hfull
    cases hfull
  · obtain ⟨hruntime, callee, object, v, hcallee, rfl, hv, hle⟩ :=
      World.protectedCall_failed hconfined hstatus hcall
    obtain rfl : w.machine.stack.height = callee := by omega
    have hmore := World.oneMore_fail (hu.trans hv) hle object
    exact ⟨hruntime, hmore, ⟨object, v, rfl⟩, hmore.pop⟩

/-- A host whose functions report an error. -/
def refusing : Host Unit Unit :=
  ⟨fun _ => .done (.error (.raised "boom")), fun _ => .done (.error (.raised "boom"))⟩

/-- A stack of one slot and a limit on its height, with a global function. -/
def withRoomFor (maxStack : Nat) : World Unit Unit where
  machine := { (Machine.new 0 { maxStack }).push (.bool true) with
    globals := (∅ : Table).setKey (.str (.ofString "f")) (.function ⟨"f"⟩) }
  memory := ()

/-- The call of a function that reports an error leaves one slot more. -/
theorem refusing_call_leaves :
    ∃ after, (withRoomFor 9).run refusing (Environment.call "f" 0 true [] []) =
      (.ok (.error (.failed .runtime)), after) ∧ (withRoomFor 9).OneMore after := by
  have hrun : (withRoomFor 9).run refusing (Environment.call "f" 0 true [] []) =
      (.ok (.error (.failed .runtime)),
        ((withRoomFor 9).run refusing (Environment.call "f" 0 true [] [])).2) := rfl
  exact ⟨_, hrun, ((call_failed_leaves (withRoomFor 9) "f" 0 true [] []).2 rfl _ _ hrun).2.1⟩

/-- A call that is refused for lack of room reports a failure and leaves no slot more. -/
theorem refused_call_leaves_nothing :
    ∃ after, (withRoomFor 1).run refusing (Environment.call "f" 0 true [] []) =
      (.ok (.error (.failed .memory)), after) ∧ ¬ (withRoomFor 1).OneMore after := by
  refine ⟨withRoomFor 1, rfl, ?_⟩
  rintro ⟨-, -, slot, hslots⟩
  have hlength : 1 = 1 + 1 := congrArg List.length hslots
  omega

end StackEmbedding
