import StackEmbedding.Proofs.Host.Call

/-!
# The message handler of a typed call

A typed call is told its handler by a position, makes that position count from the base, pushes the
function and the arguments, and has the position looked up again. A position that names a slot of
the frame still names it then. One that names none may come to name something: a position above the
frame names what the call itself pushed, the one just below the frame becomes zero, which stands for
no handler, and one further below counts from the top of the frame as it is then.

**What is established here.** `call_handler`: the handler of a typed call, for every position, and
that the call is refused in no other case. `stray_handler_is_used` shows that a position which names
no slot is not always refused.
-/

set_option autoImplicit false

namespace StackEmbedding

variable {κ σ : Type} {host : Host κ σ} {w : World κ σ}

section Lookup

variable (hbase : w.machine.base ≤ w.machine.stack.height) (f : Value)
  (arguments : List HostValue) {handler : Int}

include hbase

/-- A handler that the position named when the call began is the one that is found. -/
theorem checkCall_of_named {h : Value} (hnamed : w.machine.value? handler = some h) :
    (w.poised f arguments).machine.checkCall arguments.length (w.machine.absolute handler) =
      .ok (w.machine.stack.height, some h) := by
  obtain ⟨hpositive, hvalue⟩ := Machine.value?_absolute hbase hnamed
  rw [Machine.value?_of_pos hpositive] at hvalue
  have hlt := (List.getElem?_eq_some_iff.mp hvalue).1
  rw [World.checkCall_poised hbase, if_neg (by omega), Machine.value?_of_pos hpositive,
    World.values_poised hbase, List.getElem?_append_left hlt, hvalue]
  rfl

/-- A position above the frame names what the call pushed. -/
theorem checkCall_of_above (hpositive : 0 < handler) (hnone : w.machine.value? handler = none) :
    (w.poised f arguments).machine.checkCall arguments.length (w.machine.absolute handler) =
      handlerAt w.machine.stack.height handler
        (f :: arguments.map (HostValue.runtime w.machine))[handler.toNat - 1 - w.machine.top]? := by
  rw [Machine.value?_of_pos hpositive] at hnone
  have hle := List.getElem?_eq_none_iff.mp hnone
  rw [Machine.absolute, if_pos hpositive, World.checkCall_poised hbase, if_neg (by omega),
    Machine.value?_of_pos hpositive, World.values_poised hbase, List.getElem?_append_right hle,
    Machine.length_values]

/-- The position just below the frame becomes the one that stands for no handler. -/
theorem checkCall_of_just_below (hhandler : handler = -(w.machine.top + 1 : Int)) :
    (w.poised f arguments).machine.checkCall arguments.length (w.machine.absolute handler) =
      .ok (w.machine.stack.height, none) := by
  have hzero : w.machine.absolute handler = 0 := by
    rw [Machine.absolute, if_neg (by omega)]
    omega
  rw [World.checkCall_poised hbase, if_pos hzero]

/-- A position further below counts from the top of what the call pushed. -/
theorem checkCall_of_far_below (hhandler : handler < -(w.machine.top + 1 : Int)) :
    let position := w.machine.absolute handler
    (w.poised f arguments).machine.checkCall arguments.length position =
      handlerAt w.machine.stack.height position
        (w.machine.values ++ f :: arguments.map
          (HostValue.runtime w.machine)).reverse[(-position).toNat - 1]? := by
  intro position
  have hnegative : position < 0 := by
    show w.machine.absolute handler < 0
    rw [Machine.absolute, if_neg (by omega)]
    omega
  have hbase' : (w.poised f arguments).machine.base ≤
      (w.poised f arguments).machine.stack.height := by
    rw [World.height_poised]
    show w.machine.base ≤ _
    omega
  rw [World.checkCall_poised hbase, if_neg (by omega), Machine.value?_of_neg hbase' hnegative,
    World.values_poised hbase]

end Lookup

/-- The handler of a typed call that comes to its protected call. A position that names a slot when
the call begins gives the value of that slot; a position that names none gives what it names once
the function and the arguments are pushed, no handler if it is just below the frame, and is refused
otherwise. -/
theorem call_handler (host : Host κ σ) (w : World κ σ)
    (hbase : w.machine.base ≤ w.machine.stack.height) (name : String) {handler : Int}
    (hzero : handler ≠ 0) (drop : Bool) (arguments : List HostValue) (types : List HostType)
    (hroom : w.machine.hasCapacity (arguments.length + 1) = true)
    (hfunction : (w.machine.globals.getField (.ofString name)).tag = .function)
    (harguments : ∀ v ∈ arguments, v.BelongsTo w.machine) :
    let f := w.machine.globals.getField (.ofString name)
    let operands := f :: arguments.map (HostValue.runtime w.machine)
    let poised := w.poised f arguments
    let position := w.machine.absolute handler
    let callee := w.machine.stack.height
    let found := poised.machine.checkCall arguments.length position
    let runner := World.runner host w.machine.callsLeft
    w.run host (Environment.call name handler drop arguments types) =
        Environment.concluded host runner drop types
          (poised.protectedCall host runner arguments.length types.length position) ∧
      (∀ cause, found = .error cause →
        w.run host (Environment.call name handler drop arguments types) = (.error cause, poised)) ∧
      (∀ h, w.machine.value? handler = some h → found = .ok (callee, some h)) ∧
      (w.machine.value? handler = none →
        (0 < handler → found =
          handlerAt callee handler operands[handler.toNat - 1 - w.machine.top]?) ∧
        (handler = -(w.machine.top + 1 : Int) → found = .ok (callee, none)) ∧
        (handler < -(w.machine.top + 1 : Int) → found =
          handlerAt callee position
            (w.machine.values ++ operands).reverse[(-position).toNat - 1]?)) := by
  intro f operands poised position callee found runner
  have hposition : Environment.handlerPosition w.machine handler = position := if_neg hzero
  have hrun : w.run host (Environment.call name handler drop arguments types) =
      Environment.concluded host runner drop types
        (poised.protectedCall host runner arguments.length types.length position) := by
    rw [World.run, Environment.runWith_call_eq, hposition]
    exact Environment.callAt_function hroom hfunction harguments
  refine ⟨hrun, fun cause hrefused => ?_, fun h hnamed =>
    checkCall_of_named hbase f arguments hnamed, fun hnone =>
      ⟨fun hpositive => checkCall_of_above hbase f arguments hpositive hnone,
        checkCall_of_just_below hbase f arguments, checkCall_of_far_below hbase f arguments⟩⟩
  have hcheck : poised.machine.checkCall arguments.length position = .error cause := hrefused
  rw [hrun, World.protectedCall_eq, hcheck]
  rfl

/-- A host whose function `fail` reports an error, and whose other functions answer true. -/
def mending : Host Unit Unit where
  native f :=
    if f.name = "fail" then .done (.error (.raised "boom"))
    else .step (.primitive (.push (.bool true))) fun _ => .done (.ok 1)
  closure _ := .done (.ok 0)

/-- A world with one global function and some values in its frame. -/
def withFunction (name : String) (values : List Value) : World Unit Unit where
  machine := { (Machine.new 0 {}).withStack (Stack.pushAll ∅ values) with
    globals := (∅ : Table).setKey (.str (.ofString name)) (.function ⟨name⟩) }
  memory := ()

/-- A handler in the frame is found by its position counted from the top. -/
theorem handler_in_frame_is_found :
    (-1 : Int) ≠ 0 ∧ (withFunction "fail" [.function ⟨"mend"⟩]).machine.value? (-1) =
        some (.function ⟨"mend"⟩) ∧
      ((withFunction "fail" [.function ⟨"mend"⟩]).poised (.function ⟨"fail"⟩) []).machine.checkCall
        0 ((withFunction "fail" [.function ⟨"mend"⟩]).machine.absolute (-1)) =
          .ok (1, some (.function ⟨"mend"⟩)) := by
  have hzero : (-1 : Int) ≠ 0 := by decide
  have hnamed : (withFunction "fail" [.function ⟨"mend"⟩]).machine.value? (-1) =
      some (.function ⟨"mend"⟩) := rfl
  have hcall := call_handler mending (withFunction "fail" [.function ⟨"mend"⟩]) (by decide) "fail"
    hzero true [] [] rfl rfl nofun
  exact ⟨hzero, hnamed, hcall.2.2.1 _ hnamed⟩

/-- A position that names no slot is not refused: on an empty frame the second position names the
argument that the call pushes, which then handles the error, and the last position stands for no
handler. -/
theorem stray_handler_is_used :
    (withFunction "fail" []).machine.value? 2 = none ∧
    (withFunction "fail" []).machine.value? (-1) = none ∧
    (∃ after, (withFunction "fail" []).run mending
        (Environment.call "fail" 2 true [.native ⟨"mend"⟩] []) =
          (.ok (.error (.failed .runtime)), after) ∧
      after.machine.values = [.bool true]) ∧
    ∃ after, (withFunction "fail" []).run mending
        (Environment.call "fail" (-1) true [.native ⟨"mend"⟩] []) =
          (.ok (.error (.failed .runtime)), after) ∧
      after.machine.values = [.str (.ofString "boom")] :=
  ⟨rfl, rfl, ⟨_, rfl, rfl⟩, ⟨_, rfl, rfl⟩⟩

end StackEmbedding
