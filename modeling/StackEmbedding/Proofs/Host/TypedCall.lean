import StackEmbedding.Proofs.Host.CallHandler
import StackEmbedding.Proofs.Host.Read

/-!
# Typed calls

`typed_call` follows a typed call with room for its operands and a level of nesting left. The
function finds in its frame what the arguments stand for. Its results come to the caller cut or
padded with nil to the declared ones, each is converted where it lies, and the slots are then popped
or kept as the caller wanted, whether or not all results converted.
-/

set_option autoImplicit false

namespace StackEmbedding

variable {κ σ : Type} {host : Host κ σ} {w : World κ σ}

/-! ## Slots on top of a frame -/

namespace Machine

variable {m : Machine κ} {below : List Slot} {first : Nat} {values : List Value}

theorem height_of_slots (hslots : m.stack.slots = below ++ stamped first values) :
    m.stack.height = below.length + values.length := by
  rw [Stack.height, hslots, List.length_append, length_stamped]

/-- The slots on top of a frame, by their positions counted from the top. -/
theorem slot_of_slots (hslots : m.stack.slots = below ++ stamped first values)
    (hbase : m.base ≤ below.length) {k : Nat} {v : Value} (hv : values[k]? = some v) :
    m.value? (-(values.length : Int) + k) = some v ∧
      m.slotId? (-(values.length : Int) + k) = some ⟨below.length + k, first + k⟩ := by
  have hheight := height_of_slots hslots
  have hk : k < values.length := (List.getElem?_eq_some_iff.mp hv).1
  have hresolve : m.resolve? (-(values.length : Int) + k) = some (below.length + k) := by
    rw [resolve?_eq_some_iff (by omega)]
    omega
  have hslot : m.stack.slots[below.length + k]? = some ⟨v, first + k⟩ := by
    rw [hslots, List.getElem?_append_right (Nat.le_add_right _ _), Nat.add_sub_cancel_left,
      getElem?_stamped, hv, Option.map_some]
  refine ⟨?_, slotId?_eq_some_iff.mpr ⟨hresolve, v, hslot⟩⟩
  rw [value?, hresolve, Option.bind_some, Stack.value?, hslot, Option.map_some]

theorem pop_of_slots (hslots : m.stack.slots = below ++ stamped first values)
    (hbase : m.base ≤ below.length) :
    ∃ s : Stack, m.pop values.length = (.ok (), m.withStack s) ∧ s.slots = below := by
  have hheight := height_of_slots hslots
  have htop : values.length ≤ m.top := by
    rw [top]
    omega
  refine ⟨_, if_pos htop, ?_⟩
  rw [Stack.resize, if_pos (Nat.sub_le _ _), hheight, Nat.add_sub_cancel]
  show m.stack.slots.take below.length = below
  rw [hslots]
  exact List.take_left

end Machine

/-! ## The call -/

namespace World

/-- The world in which the function of a typed call runs. -/
def inCallee (w : World κ σ) (f : Value) (arguments : List HostValue) : World κ σ :=
  (w.poised f arguments).enter w.machine.stack.height

/-- The function of a typed call finds what the arguments stand for, in order and nothing else. -/
theorem values_inCallee (f : Value) (arguments : List HostValue) :
    (w.inCallee f arguments).machine.values =
      arguments.map (HostValue.runtime w.machine) := by
  show ((w.machine.stack.replaceFrom w.machine.stack.height _).valuesFrom
    (w.machine.stack.height + 1)) = _
  rw [Stack.valuesFrom_add, Stack.valuesFrom_replaceFrom_self (Nat.le_refl _)]
  rfl

/-- Below the limit on nested calls a function can be called. -/
theorem callable_poised {f : Value} {body : Body κ σ} (arguments : List HostValue)
    (hdepth : w.machine.depth < w.machine.limits.maxCallDepth)
    (hbody : host.body? w.machine f = some body) :
    (w.poised f arguments).callable host w.machine.stack.height = .ok body := by
  have hbelow : (w.poised f arguments).machine.depth <
      (w.poised f arguments).machine.limits.maxCallDepth := hdepth
  have hcallee : (w.poised f arguments).machine.stack.value? w.machine.stack.height = some f :=
    Stack.value?_replaceFrom (Nat.le_refl _) _ 0
  have hmeans : host.body? (w.poised f arguments).machine f = some body := hbody
  rw [callable, if_pos hbelow, hcallee]
  dsimp only [Value.orNil, Option.getD_some]
  rw [hmeans]

/-- The operands of a typed call lie above the slots of the caller. -/
theorem take_poised (w : World κ σ) (f : Value) (arguments : List HostValue) :
    (w.poised f arguments).machine.stack.slots.take w.machine.stack.height =
      w.machine.stack.slots := by
  show (w.machine.stack.pushAll _).slots.take w.machine.stack.height = _
  rw [Stack.slots_pushAll]
  exact List.take_left

/-- The frame of `w` with more slots on top, and all else as a function left it. -/
structure Returns (w left : World κ σ) (more : List Slot) (after : World κ σ) : Prop where
  identity : after.machine.identity = w.machine.identity
  slots : after.machine.stack.slots = w.machine.stack.slots ++ more
  base : after.machine.base = w.machine.base
  depth : after.machine.depth = w.machine.depth
  tables : after.machine.tables = left.machine.tables
  globals : after.machine.globals = left.machine.globals
  closures : after.machine.closures = left.machine.closures
  memory : after.memory = left.memory

/-- The protected call of a typed call whose function returns leaves the frame of the caller and the
wanted number of results. -/
theorem protectedCall_poised {f : Value} {arguments : List HostValue} {handler : Int}
    {h : Option Value} {body : Body κ σ} {reported : Nat} {left : World κ σ} (count : Nat)
    (hcheck : (w.poised f arguments).machine.checkCall arguments.length handler =
      .ok (w.machine.stack.height, h))
    (hdepth : w.machine.depth < w.machine.limits.maxCallDepth)
    (hbody : host.body? w.machine f = some body)
    (hrun : (w.inCallee f arguments).run host body = (.ok (.ok reported), left))
    (hreported : reported ≤ left.machine.top) :
    ∃ back, (w.poised f arguments).protectedCall host (runner host w.machine.callsLeft)
        arguments.length count handler = (.ok .ok, back) ∧
      w.Returns left (stamped left.machine.stack.nextStamp
        (Machine.adjust count (left.machine.stack.highest reported))) back := by
  have hcallee : w.machine.stack.height < (w.poised f arguments).machine.stack.height := by
    rw [height_poised]
    omega
  obtain ⟨hbase, hheight, hcaller⟩ := ended_of_run hcallee hrun
  rw [hbase] at hheight
  have hfits : reported ≤ left.machine.stack.height - (w.machine.stack.height + 1) := by
    rwa [Machine.top, hbase] at hreported
  have hkept : left.machine.stack.slots.take w.machine.stack.height = w.machine.stack.slots :=
    hcaller.edit.take_eq.trans (w.take_poised f arguments)
  refine ⟨_, protectedCall_returns hcheck (callable_poised arguments hdepth hbody) hrun hfits,
    hcaller.identity, ?_, rfl, hcaller.depth, rfl, rfl, rfl, rfl⟩
  have hslots := Machine.slots_settle (m := left.machine.leave w.machine.base)
    (Nat.le_of_succ_le hheight) (Machine.adjust count (left.machine.stack.highest reported))
  exact hslots.trans (congrArg (· ++ _) hkept)

end World

/-- Concluding a call that succeeded reads the results on top of the frame, and pops them if so
wanted. -/
theorem Environment.runWith_conclude (host : Host κ σ) (runner : World.Runner κ σ) {u : World κ σ}
    (drop : Bool) {types : List HostType} {below : List Slot} {first : Nat}
    {values : List Value}
    (hslots : u.machine.stack.slots = below ++ stamped first values)
    (hbase : u.machine.base ≤ below.length) (hlength : values.length = types.length)
    {conversion : Nat → Option HostValue}
    (hconversion : ∀ k t v, types[k]? = some t → values[k]? = some v →
      t.convert u.machine.identity ⟨below.length + k, first + k⟩ v = conversion k) :
    ∃ (answer : Except Nat (List HostValue)) (s : Stack),
      (conclude drop types .ok).runWith host runner u =
        (.ok (answer.mapError .mismatch), u.withMachine (u.machine.withStack s)) ∧
      Collects conversion types.length 1 answer ∧
      s.slots = below ++ if drop then [] else stamped first values := by
  have hread : ∀ k t, types[k]? = some t →
      (t.read (-(types.length : Int) + k) : Program κ σ (Option HostValue)).runWith host runner u =
        (.ok (conversion k), u) := by
    intro k t ht
    have hk : k < values.length := by
      rw [hlength]
      exact (List.getElem?_eq_some_iff.mp ht).1
    have hv : values[k]? = some values[k] := List.getElem?_eq_getElem hk
    obtain ⟨hvalue, hslot⟩ := Machine.slot_of_slots hslots hbase hv
    rw [hlength] at hvalue hslot
    rw [HostType.runWith_read hvalue hslot, hconversion k t _ ht hv]
  obtain ⟨answer, hrun, hcollects⟩ := runWith_readResults hread 1
  have hconclude : (conclude drop types .ok : Program κ σ _) =
      readResults (-(types.length : Int)) 1 types >>= fun results => do
        if drop then Program.pop types.length
        return results.mapError .mismatch := rfl
  rw [hconclude, Program.runWith_bind, hrun]
  dsimp only
  cases drop with
  | false => exact ⟨answer, u.machine.stack, rfl, hcollects, hslots⟩
  | true =>
    obtain ⟨s, hpop, hs⟩ := Machine.pop_of_slots hslots hbase
    rw [hlength] at hpop
    refine ⟨answer, s, Program.runWith_perform_bind hpop, hcollects, ?_⟩
    rw [hs, if_pos rfl, List.append_nil]

/-- What the result at a place is as a value of the type declared for it. The results are delivered
above the slots of `w`, with consecutive stamps from `first`. -/
def World.converted (w : World κ σ) (types : List HostType) (first : Nat) (results : List Value)
    (k : Nat) : Option HostValue :=
  types[k]?.bind
    (HostType.convert w.machine.identity ⟨w.machine.stack.height + k, first + k⟩
      (.orNil results[k]?))

/-- The protected call of a typed call finds the function, whatever handler it is given. -/
theorem World.checkCall_handlerPosition (hbase : w.machine.base ≤ w.machine.stack.height)
    {handler : Int} (hhandler : handler = 0 ∨ ∃ h, w.machine.value? handler = some h) (f : Value)
    (arguments : List HostValue) :
    ∃ h, (w.poised f arguments).machine.checkCall arguments.length
      (Environment.handlerPosition w.machine handler) = .ok (w.machine.stack.height, h) := by
  by_cases hzero : handler = 0
  · rw [Environment.handlerPosition, if_pos hzero, checkCall_poised hbase, if_pos rfl]
    exact ⟨none, rfl⟩
  · obtain ⟨h, hnamed⟩ := hhandler.resolve_left hzero
    rw [Environment.handlerPosition, if_neg hzero]
    exact ⟨some h, checkCall_of_named hbase f arguments hnamed⟩

/-- A typed call whose function returns converts the results and leaves the frame of the caller. -/
theorem Environment.call_returns (hbase : w.machine.base ≤ w.machine.stack.height) {name : String}
    {handler : Int} (hhandler : handler = 0 ∨ ∃ h, w.machine.value? handler = some h) (drop : Bool)
    {arguments : List HostValue} (types : List HostType)
    (hroom : w.machine.hasCapacity (arguments.length + 1) = true)
    (hdepth : w.machine.depth < w.machine.limits.maxCallDepth)
    (hfunction : (w.machine.globals.getField (.ofString name)).tag = .function)
    (harguments : ∀ v ∈ arguments, v.BelongsTo w.machine) {body : Body κ σ}
    (hbody : host.body? w.machine (w.machine.globals.getField (.ofString name)) = some body)
    {reported : Nat} {left : World κ σ}
    (hrun : (w.inCallee (w.machine.globals.getField (.ofString name)) arguments).run host body =
      (.ok (.ok reported), left))
    (hreported : reported ≤ left.machine.top) :
    let results := left.machine.stack.highest reported
    let first := left.machine.stack.nextStamp
    ∃ answer after, w.run host (call name handler drop arguments types) =
        (.ok (answer.mapError .mismatch), after) ∧
      Collects (w.converted types first results) types.length 1 answer ∧
      w.Returns left (if drop then [] else stamped first (Machine.adjust types.length results))
        after := by
  intro results first
  -- The handler has no part in a call whose function returns; it only has to be found.
  obtain ⟨h, hcheck⟩ := World.checkCall_handlerPosition hbase hhandler
    (w.machine.globals.getField (.ofString name)) arguments
  obtain ⟨back, hcall, hback⟩ :=
    World.protectedCall_poised types.length hcheck hdepth hbody hrun hreported
  have hlength := Machine.length_adjust_of_nonneg types.length results
  have hconversion : ∀ k t v, types[k]? = some t →
      (Machine.adjust types.length results)[k]? = some v →
      t.convert back.machine.identity ⟨w.machine.stack.slots.length + k, first + k⟩ v =
        w.converted types first results k := by
    intro k t v ht hv
    rw [Machine.getElem?_adjust (List.getElem?_eq_some_iff.mp ht).1, Option.some.injEq] at hv
    rw [World.converted, ht, Option.bind_some, hback.identity, ← hv]
    rfl
  have hbase' : back.machine.base ≤ w.machine.stack.height := by
    rw [hback.base]
    exact hbase
  obtain ⟨answer, s, hconclude, hcollects, hs⟩ :=
    runWith_conclude host (World.runner host w.machine.callsLeft) drop hback.slots hbase' hlength
      hconversion
  refine ⟨answer, back.withMachine (back.machine.withStack s), ?_, hcollects, hback.identity, hs,
    hback.base, hback.depth, hback.tables, hback.globals, hback.closures, hback.memory⟩
  rw [World.run, runWith_call_eq, callAt_function hroom hfunction harguments, hcall]
  exact hconclude

/-- A typed call with room for its operands, below the limit on nested calls. If the global is no
function nothing changes. Otherwise the function runs in a frame that holds what the arguments stand
for. If it returns, the answer is its results converted in order, nil standing for those it did not
report, or the place of the first that does not convert; and the frame of the caller is as it was,
with the wanted results on top of it unless they are dropped. -/
theorem typed_call (host : Host κ σ) (w : World κ σ)
    (hbase : w.machine.base ≤ w.machine.stack.height) (name : String) {handler : Int}
    (hhandler : handler = 0 ∨ ∃ h, w.machine.value? handler = some h) (drop : Bool)
    (arguments : List HostValue) (types : List HostType)
    (harguments : ∀ v ∈ arguments, v.BelongsTo w.machine)
    (hroom : w.machine.hasCapacity (arguments.length + 1) = true)
    (hdepth : w.machine.depth < w.machine.limits.maxCallDepth) :
    let f := w.machine.globals.getField (.ofString name)
    let run := w.run host (Environment.call name handler drop arguments types)
    (f.tag ≠ .function →
      ∃ after, run = (.ok (.error (.notAFunction name)), after) ∧ w.Unchanged after) ∧
    (f.tag = .function → ∃ body, host.body? w.machine f = some body ∧
      (w.inCallee f arguments).machine.values = arguments.map (HostValue.runtime w.machine) ∧
      ∀ reported left, (w.inCallee f arguments).run host body = (.ok (.ok reported), left) →
        reported ≤ left.machine.top →
        let results := left.machine.stack.highest reported
        let first := left.machine.stack.nextStamp
        ∃ answer after, run = (.ok (answer.mapError .mismatch), after) ∧
          Environment.Collects (w.converted types first results) types.length 1 answer ∧
          ∃ more, w.Returns left more after ∧ more.length = (if drop then 0 else types.length) ∧
            more.map Slot.value = if drop then [] else Machine.adjust types.length results) := by
  intro f run
  refine ⟨fun hother => ?_, fun hfunction => ?_⟩
  · exact ⟨_, Environment.runWith_call_eq.trans
      (Environment.callAt_notAFunction hbase hroom hother), w.unchanged_spend 1⟩
  · obtain ⟨body, hbody⟩ := host.exists_body? w.machine hfunction
    refine ⟨body, hbody, World.values_inCallee f arguments, fun reported left hrun hreported => ?_⟩
    intro results first
    obtain ⟨answer, after, hcall, hcollects, hreturns⟩ := Environment.call_returns hbase hhandler
      drop types hroom hdepth hfunction harguments hbody hrun hreported
    refine ⟨answer, after, hcall, hcollects, _, hreturns, ?_⟩
    cases drop with
    | false =>
      exact ⟨(length_stamped first _).trans (Machine.length_adjust_of_nonneg types.length results),
        map_value_stamped first _⟩
    | true => exact ⟨rfl, rfl⟩

/-- A host whose functions answer their arguments and true. -/
def repeating : Host Unit Unit where
  native _ := .step (.primitive .top) fun (n : Nat) =>
    .step (.primitive (.push (.bool true))) fun _ => .done (.ok (n + 1))
  closure _ := .done (.ok 0)

/-- A world with a table in its frame and the global function `echo`. -/
def withEcho : World Unit Unit := withFunction "echo" [.table 0]

theorem heldTable_belongsTo : heldTable.BelongsTo withEcho.machine :=
  Handle.belongsTo_of_slotId? 1 (Stack.wellStamped_empty.replaceFrom 0 _) rfl

/-- A function that answers its argument, a table, and true, called for three results: the table is
the one in the first of the new slots, and the third result is absent. -/
theorem typed_call_of_echo :
    withEcho.machine.value? 1 = some (.table 0) ∧ ∃ after more, withEcho.run repeating
        (Environment.call "echo" 1 false [.table heldTable] [.table, .bool, .option .text]) =
          (.ok (.ok [.table ⟨0, some ⟨1, 5⟩⟩, .bool true, .absent]), after) ∧
      after.machine.stack.slots = withEcho.machine.stack.slots ++ more ∧
      more.map Slot.value = [.table 0, .bool true, .nil] := by
  have hnamed : withEcho.machine.value? 1 = some (.table 0) := rfl
  have hown : ∀ v ∈ [HostValue.table heldTable], v.BelongsTo withEcho.machine := by
    intro v hv h hmem
    obtain rfl := List.mem_singleton.mp hv
    obtain rfl := List.mem_singleton.mp hmem
    exact heldTable_belongsTo
  obtain ⟨body, hbody, -, hreturns⟩ := (typed_call repeating withEcho (by decide) "echo"
    (.inr ⟨_, hnamed⟩) false [.table heldTable] [.table, .bool, .option .text] hown rfl
    (by decide)).2 rfl
  obtain rfl := Option.some.inj hbody
  obtain ⟨answer, after, hrun, -, more, hafter, -, hmore⟩ := hreturns 2 _ rfl (by decide)
  have hanswer : answer.mapError CallError.mismatch =
      .ok [.table ⟨0, some ⟨1, 5⟩⟩, .bool true, .absent] :=
    (Except.ok.inj (congrArg Prod.fst hrun)).symm
  rw [hanswer] at hrun
  exact ⟨hnamed, after, more, hrun, hafter.slots, hmore⟩

end StackEmbedding
