import StackEmbedding.Proofs.Host.Fetch

/-!
# Balance of typed access

Stores, reads and lengths through handles, and stores and reads of globals, made one after the
other. A state is left with the slots it had, stamps included, and above them one for each read that
was told to keep its slot and for each that answered a value with a handle in it, since such a value
refers to the slot it was read from (`HostValue.pinsSlot_iff`). Whether an access succeeds makes no
difference to this.

The count is read off the record of what was made (`Access.Made.leaves`), and the record is tied to
the run by `Access.Ran`: a handle may go stale or come to be while accesses are made, so what a read
leaves depends on the state that it finds.
-/

set_option autoImplicit false

namespace StackEmbedding

variable {κ σ : Type}

/-- One typed access to a table or to a global. The reads into an out-parameter say what it holds
before. -/
inductive Access where
  | set (h : Handle) (key value : HostValue)
  | get (h : Handle) (key : HostValue) (t : HostType)
  | getInto (h : Handle) (key : HostValue) (keep : Bool) (t : HostType) (held : HostValue)
  | length (h : Handle)
  | isEmpty (h : Handle)
  | setGlobal (name : String) (value : HostValue)
  | global (name : String) (t : HostType)
  | globalInto (name : String) (keep : Bool) (t : HostType) (held : HostValue)

namespace Access

/-- What an access answers. -/
inductive Reply where
  | stored (succeeded : Bool)
  | found (answer : Option HostValue)
  /-- Whether a read succeeded, and what its out-parameter holds afterwards. -/
  | received (result : Bool × HostValue)
  | length (n : Int64)
  | empty (isEmpty : Bool)

/-- The program of an access. -/
def program : Access → Program κ σ Reply
  | set h key value => return .stored (← h.set key value)
  | get h key t => return .found (← h.fetch key false t)
  | getInto h key keep t held => return .received (← h.fetchInto key keep t held)
  | length h => return .length (← h.length)
  | isEmpty h => return .empty (← h.isEmpty)
  | setGlobal name value => return .stored (← Environment.setGlobal name value)
  | global name t => return .found (← Environment.global name false t)
  | globalInto name keep t held => return .received (← Environment.globalInto name keep t held)

/-- Makes accesses in order and answers what they answer. -/
def performAll : List Access → Program κ σ (List Reply)
  | [] => return []
  | a :: rest => do
    let reply ← a.program
    return reply :: (← performAll rest)

/-- The handles that an access uses. -/
def handles : Access → List Handle
  | set h key value => h :: (key.handles ++ value.handles)
  | get h key _ | getInto h key _ _ _ => h :: key.handles
  | length h | isEmpty h => [h]
  | setGlobal _ value => value.handles
  | global .. | globalInto .. => []

/-- The access uses handles of one machine only. -/
def OwnedBy (identity : Nat) (a : Access) : Prop := ∀ h ∈ a.handles, h.owner = identity

/-- What the out-parameter of an access holds before. -/
def held? : Access → Option HostValue
  | getInto _ _ _ _ held | globalInto _ _ _ held => some held
  | _ => none

/-- An answer of a read that failed. -/
def Reply.IsFailedRead : Reply → Prop
  | found none | received (false, _) => True
  | _ => False

/-- The handles that lie in what a read answered. -/
def Reply.handles : Reply → List Handle
  | found (some v) | received (true, v) => v.handles
  | _ => []

/-- An access that was made: the worlds before and after, and the answer. -/
structure Made (κ σ : Type) where
  before : World κ σ
  access : Access
  reply : Reply
  after : World κ σ

/-- How many slots an access leaves: one for a read that keeps its slot, through a handle only where
that was found, and one for another read with a handle in its result. -/
def Made.leaves (made : Made κ σ) : Nat :=
  match made.access with
  | .getInto h _ true _ _ => if (h.locate made.before.machine).isSome then 1 else 0
  | .globalInto _ true _ _ => 1
  | _ => if made.reply.handles ≠ [] then 1 else 0

/-- A run of accesses one after the other, each with its answer. -/
inductive Ran (host : Host κ σ) : World κ σ → List (Made κ σ) → World κ σ → Prop
  | nil (w : World κ σ) : Ran host w [] w
  | cons {w middle after : World κ σ} {a : Access} {reply : Reply} {rest : List (Made κ σ)} :
      w.run host a.program = (.ok reply, middle) → Ran host middle rest after →
      Ran host w (⟨w, a, reply, middle⟩ :: rest) after

/-- What an access does to the frame, and what a failed read does to all else. -/
structure Made.Balanced (made : Made κ σ) : Prop where
  grown : ∃ above, made.before.machine.GrownBy above made.after.machine ∧
    above.length = made.leaves
  failed : made.reply.IsFailedRead →
    made.after.machine.tables = made.before.machine.tables ∧
      made.after.machine.globals = made.before.machine.globals ∧
      ∀ result, made.reply = .received result → made.access.held? = some result.2

variable {host : Host κ σ} {w after : World κ σ}

/-! ## One access -/

/-- An access that stores or measures leaves nothing. -/
theorem Made.Balanced.of_same {made : Made κ σ}
    (hgrown : made.before.machine.GrownBy [] made.after.machine) (hleaves : made.leaves = 0)
    (hreply : ¬ made.reply.IsFailedRead) : made.Balanced :=
  ⟨⟨[], hgrown, hleaves.symm⟩, fun hfailed => absurd hfailed hreply⟩

/-- A read leaves what it pushed and did not pop. -/
theorem Made.Balanced.of_read {made : Made κ σ} {above : List Slot}
    (hgrown : made.before.OnlyGrown above made.after) (hlength : above.length = made.leaves)
    (hheld : made.reply.IsFailedRead →
      ∀ result, made.reply = .received result → made.access.held? = some result.2) :
    made.Balanced :=
  ⟨⟨above, hgrown.grown, hlength⟩, fun hfailed => ⟨hgrown.tables, hgrown.globals, hheld hfailed⟩⟩

/-- A read into an out-parameter that failed left it as it was. -/
theorem held_of_failed {held : HostValue} {answer : Option HostValue}
    (hfailed : (Reply.received (held.received answer)).IsFailedRead) {result : Bool × HostValue}
    (hresult : Reply.received (held.received answer) = .received result) :
    some held = some result.2 := by
  cases hresult
  cases answer with
  | none => rfl
  | some v => exact hfailed.elim

/-- A read that is not told to keep its slot keeps it where a handle lies in what it answers. -/
theorem pins_found (answer : Option HostValue) :
    answer.elim false HostValue.pinsSlot = true ↔ (Reply.found answer).handles ≠ [] := by
  cases answer with
  | none => exact iff_of_false Bool.false_ne_true (absurd rfl ·)
  | some v => exact v.pinsSlot_iff

theorem pins_received (held : HostValue) (answer : Option HostValue) :
    answer.elim false HostValue.pinsSlot = true ↔
      (Reply.received (held.received answer)).handles ≠ [] := by
  cases answer with
  | none => exact pins_found none
  | some v => exact pins_found (some v)

/-- Every access answers, and is balanced. -/
theorem balanced (host : Host κ σ) (hbase : w.machine.base ≤ w.machine.stack.height) {a : Access}
    (howned : a.OwnedBy w.machine.identity) :
    ∃ reply after, w.run host a.program = (.ok reply, after) ∧
      Made.Balanced ⟨w, a, reply, after⟩ := by
  cases a with
  | set h key value =>
    obtain ⟨stored, after, hrun, -, hrefused, hdone⟩ := h.set_cases host _ w key value
    have hframe : w.SameFrame after := by
      cases stored with
      | false => exact (hrefused rfl).toSameFrame
      | true =>
        obtain ⟨id, k, -, -, hupdated⟩ := hdone rfl
        exact hupdated.toSameFrame
    exact ⟨.stored stored, after, World.run_return hrun Reply.stored,
      .of_same (hframe.grown (p := h.set key value) hbase hrun) rfl id⟩
  | get h key t =>
    have hkey : ∀ k ∈ key.handles, k.owner = w.machine.identity :=
      fun k hk => howned k (List.mem_cons_of_mem h hk)
    obtain ⟨answer, above, after, hrun, hgrown, hlength⟩ := h.fetch_reads host _ w hkey false t
    rw [if_neg Bool.false_ne_true] at hlength
    exact ⟨.found answer, after, World.run_return hrun Reply.found,
      .of_read hgrown (hlength.trans (if_congr (pins_found answer) rfl rfl)) nofun⟩
  | getInto h key keep t held =>
    have hkey : ∀ k ∈ key.handles, k.owner = w.machine.identity :=
      fun k hk => howned k (List.mem_cons_of_mem h hk)
    obtain ⟨answer, above, after, hrun, hgrown, hlength⟩ := h.fetch_reads host _ w hkey keep t
    refine ⟨.received (held.received answer), after,
      World.run_return (World.run_return hrun held.received) Reply.received,
      .of_read hgrown ?_ fun hfailed _ => held_of_failed hfailed⟩
    rw [hlength]
    cases keep with
    | true => rfl
    | false =>
      rw [if_neg Bool.false_ne_true]
      exact if_congr (pins_received held answer) rfl rfl
  | length h =>
    obtain ⟨n, after, hrun, hgrown⟩ := h.length_reads host _ w
    exact ⟨.length n, after, World.run_return hrun Reply.length, .of_same hgrown.grown rfl id⟩
  | isEmpty h =>
    obtain ⟨n, after, hrun, hgrown⟩ := h.length_reads host _ w
    exact ⟨.empty (n = 0), after,
      World.run_return (World.run_return hrun fun n => decide (n = 0)) Reply.empty,
      .of_same hgrown.grown rfl id⟩
  | setGlobal name value =>
    obtain ⟨stored, after, hrun, -, hrefused, hdone⟩ :=
      Environment.setGlobal_cases host _ hbase name value
    have hframe : w.SameFrame after := by
      cases stored with
      | false => rw [hrefused rfl]; exact (w.unchanged_spend 0).toSameFrame
      | true => exact (hdone rfl).toSameFrame
    exact ⟨.stored stored, after, World.run_return hrun Reply.stored, .of_same
      (hframe.grown (p := Environment.setGlobal name value) hbase hrun) rfl id⟩
  | global name t =>
    obtain ⟨answer, above, after, hrun, hgrown, hlength⟩ :=
      Environment.global_reads host _ hbase name false t
    exact ⟨.found answer, after, World.run_return hrun Reply.found,
      .of_read hgrown (hlength.trans (if_congr (pins_found answer) rfl rfl)) nofun⟩
  | globalInto name keep t held =>
    obtain ⟨answer, above, after, hrun, hgrown, hlength⟩ :=
      Environment.global_reads host _ hbase name keep t
    refine ⟨.received (held.received answer), after,
      World.run_return (World.run_return hrun held.received) Reply.received,
      .of_read hgrown ?_ fun hfailed _ => held_of_failed hfailed⟩
    rw [hlength]
    cases keep with
    | true => rfl
    | false => exact if_congr (pins_received held answer) rfl rfl

/-! ## Accesses one after the other -/

/-- The record of a run is what running the accesses gives. -/
theorem Ran.uncons {a : Access} {rest : List Access} {trace : List (Made κ σ)}
    (hran : Ran host w trace after) (haccesses : trace.map Made.access = a :: rest) (reply : Reply)
    (hreply : (w.run host a.program).1 = .ok reply) :
    ∃ tail, trace = ⟨w, a, reply, (w.run host a.program).2⟩ :: tail ∧
      tail.map Made.access = rest ∧ Ran host (w.run host a.program).2 tail after := by
  cases hran with
  | nil => cases haccesses
  | cons hfirst hrest =>
    obtain ⟨rfl, htail⟩ := List.cons.inj haccesses
    rw [hfirst] at hreply
    cases hreply
    rw [hfirst]
    exact ⟨_, rfl, htail, hrest⟩

/-- Accesses made one after the other all answer, and each is balanced. -/
theorem performAll_ran (host : Host κ σ) (hbase : w.machine.base ≤ w.machine.stack.height)
    {accesses : List Access} (howned : ∀ a ∈ accesses, a.OwnedBy w.machine.identity) :
    ∃ trace after, w.run host (performAll accesses) = (.ok (trace.map Made.reply), after) ∧
      trace.map Made.access = accesses ∧ Ran host w trace after ∧
      (∃ above, w.machine.GrownBy above after.machine ∧
        above.length = (trace.map Made.leaves).sum) ∧
      ∀ made ∈ trace, made.Balanced := by
  -- The frame only grows, so the rest finds a state that fits the same assumptions.
  induction accesses generalizing w with
  | nil =>
    exact ⟨[], w, rfl, rfl, .nil w, ⟨[], .refl _, rfl⟩,
      fun _ hmade => absurd hmade List.not_mem_nil⟩
  | cons a rest ih =>
    obtain ⟨reply, middle, hfirst, hmade⟩ := balanced host hbase (howned a List.mem_cons_self)
    obtain ⟨above, hgrown, hlength⟩ := hmade.grown
    have hbase' : middle.machine.base ≤ middle.machine.stack.height := by
      rw [hgrown.base, hgrown.height]
      exact Nat.le_add_right_of_le hbase
    have howned' : ∀ a ∈ rest, a.OwnedBy middle.machine.identity := by
      intro b hb
      rw [hgrown.identity]
      exact howned b (List.mem_cons_of_mem a hb)
    obtain ⟨trace, after, hrun, haccesses, hran, ⟨higher, hrest, hsum⟩, hbalanced⟩ :=
      ih hbase' howned'
    refine ⟨⟨w, a, reply, middle⟩ :: trace, after, ?_, ?_, .cons hfirst hran,
      ⟨above ++ higher, hgrown.trans hrest, ?_⟩, ?_⟩
    · rw [performAll, World.run_bind host hbase hfirst, World.run_bind host hbase' hrun]
      rfl
    · rw [List.map_cons, haccesses]
    · rw [List.length_append, List.map_cons, List.sum_cons, hlength, hsum]
    · intro made hmem
      rcases List.mem_cons.mp hmem with rfl | hmem
      · exact hmade
      · exact hbalanced made hmem

end Access

/-- Typed access is balanced. Accesses that use handles of one machine all answer, whether they
succeed or fail, and leave the frame with the slots that it had, each with its value and stamp, and
with as many slots on top as the accesses leave; a handle that was found is found where it was, and
stands for the same table. A read that failed changed neither its out-parameter nor any table or
global. -/
theorem accesses_balanced (host : Host κ σ) (w : World κ σ)
    (hbase : w.machine.base ≤ w.machine.stack.height) (accesses : List Access)
    (howned : ∀ a ∈ accesses, a.OwnedBy w.machine.identity) :
    ∃ trace after,
      w.run host (Access.performAll accesses) = (.ok (trace.map Access.Made.reply), after) ∧
      trace.map Access.Made.access = accesses ∧ Access.Ran host w trace after ∧
      after.machine.top = w.machine.top + (trace.map Access.Made.leaves).sum ∧
      after.machine.base = w.machine.base ∧
      (∀ (k : Nat) (slot : Slot), w.machine.stack.slots[k]? = some slot →
        after.machine.stack.slots[k]? = some slot) ∧
      (∀ h : Handle, ∀ p, h.locate w.machine = some p →
        h.locate after.machine = some p ∧ h.runtime after.machine = h.runtime w.machine) ∧
      ∀ made ∈ trace, made.reply.IsFailedRead →
        made.after.machine.tables = made.before.machine.tables ∧
        made.after.machine.globals = made.before.machine.globals ∧
        ∀ result, made.reply = .received result → made.access.held? = some result.2 := by
  obtain ⟨trace, after, hrun, haccesses, hran, ⟨above, hgrown, hlength⟩, hbalanced⟩ :=
    Access.performAll_ran host hbase howned
  refine ⟨trace, after, hrun, haccesses, hran, ?_, hgrown.base, ?_, ?_, ?_⟩
  · rw [hgrown.top hbase, hlength]
  · intro k slot hslot
    rw [hgrown.slot (List.getElem?_eq_some_iff.mp hslot).1, hslot]
  · intro h p hp
    exact ⟨Handle.locate_grown hgrown hp, Handle.runtime_grown hgrown hp⟩
  · intro made hmade
    exact (hbalanced made hmade).failed

/-- A read that keeps nothing, of a global that is a table, and two reads that keep their slots: of
a field that holds no text, and of a global that is not there. -/
def storeAndReads : List Access :=
  [.setGlobal "held" (.table heldTable), .global "held" .table,
    .getInto heldTable (.text "name") true .text (.text "unnamed"),
    .globalInto "missing" true .bool (.bool true)]

/-- A read of a table leaves its slot, and reads that keep their slots leave them, also where they
fail. -/
theorem storeAndReads_leave_three :
    holdingTable.machine.base ≤ holdingTable.machine.stack.height ∧
    (∀ a ∈ storeAndReads, a.OwnedBy holdingTable.machine.identity) ∧
    ∃ replies after, holdingTable.run passive (Access.performAll storeAndReads) =
      (.ok replies, after) ∧ after.machine.top = holdingTable.machine.top + 3 := by
  have hbase : holdingTable.machine.base ≤ holdingTable.machine.stack.height := by decide
  have howned : ∀ a ∈ storeAndReads, a.OwnedBy holdingTable.machine.identity := by
    unfold Access.OwnedBy
    decide
  obtain ⟨trace, after, hrun, haccesses, hran, htop, -⟩ :=
    accesses_balanced passive holdingTable hbase storeAndReads howned
  refine ⟨hbase, howned, trace.map Access.Made.reply, after, hrun, ?_⟩
  obtain ⟨tail, rfl, haccesses, hran⟩ := hran.uncons haccesses (.stored true) rfl
  obtain ⟨tail, rfl, haccesses, hran⟩ :=
    hran.uncons haccesses (.found (some (.table ⟨0, some ⟨1, 3⟩⟩))) rfl
  obtain ⟨tail, rfl, haccesses, hran⟩ :=
    hran.uncons haccesses (.received (false, .text "unnamed")) rfl
  obtain ⟨tail, rfl, haccesses, hran⟩ :=
    hran.uncons haccesses (.received (true, .bool false)) rfl
  obtain rfl : tail = [] := List.map_eq_nil_iff.mp haccesses
  exact htop

end StackEmbedding
