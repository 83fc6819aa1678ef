import StackEmbedding.Proofs.Host.Fetch
import StackEmbedding.Proofs.Host.WriteRead
import StackEmbedding.Proofs.Text.Utf8

/-!
# Access by name and by key

A key that is text goes by name: it never lies on the stack, and its entry is looked up without
making a key of a value. The same bytes as a key of another type are pushed, and go through the
stack. Both ways answer the same and leave the same state but for the stamps, of which the longer
way uses up one more; so a handle that is read is not the same handle, but it is found at the same
position.

**Which way is taken** is a matter of the key alone: text always goes by name, raw bytes never do,
and a string of the machine or of a variant does where its bytes are UTF-8. Where they are not, the
access is the very program that it is for raw bytes.
-/

set_option autoImplicit false

namespace StackEmbedding

variable {κ σ : Type} {w : World κ σ}

/-! ## States that differ in stamps only -/

/-- Two machines that differ in nothing but the stamps. -/
structure Machine.SameButStamps (m n : Machine κ) : Prop where
  identity : n.identity = m.identity
  limits : n.limits = m.limits
  base : n.base = m.base
  depth : n.depth = m.depth
  globals : n.globals = m.globals
  tables : n.tables = m.tables
  closures : n.closures = m.closures
  contents : n.stack.contents = m.stack.contents

/-- Two worlds that differ in nothing but the stamps. -/
structure World.SameButStamps (v w : World κ σ) : Prop where
  machine : v.machine.SameButStamps w.machine
  memory : w.memory = v.memory

/-- Two values that are the same, or differ in a handle that is found at the same position of two
machines. -/
inductive HostValue.SamePlace (m n : Machine κ) : HostValue → HostValue → Prop
  | same (v : HostValue) : SamePlace m n v v
  | table {h h' : Handle} {p : Int} : h.locate m = some p → h'.locate n = some p →
      SamePlace m n (.table h) (.table h')
  | variant {h h' : Handle} {p : Int} : h.locate m = some p → h'.locate n = some p →
      SamePlace m n (.variant (.table h)) (.variant (.table h'))
  | present {v v' : HostValue} : SamePlace m n v v' → SamePlace m n (.present v) (.present v')

/-- What a value in a slot is as a value of a type depends on the slot in its handle only. -/
theorem HostType.convert_samePlace {m n : Machine κ} {owner : Nat} {slot slot' : SlotId} {v : Value}
    (hfound : ∀ id, v = .table id → ∃ p, (⟨owner, some slot⟩ : Handle).locate m = some p ∧
      (⟨owner, some slot'⟩ : Handle).locate n = some p) (t : HostType) :
    Option.Rel (HostValue.SamePlace m n) (t.convert owner slot v) (t.convert owner slot' v) := by
  have hsame : ∀ answer : Option HostValue, Option.Rel (HostValue.SamePlace m n) answer answer := by
    intro answer
    cases answer with
    | none => exact .none
    | some u => exact .some (.same u)
  induction t with
  | table =>
    cases v with
    | table id =>
      obtain ⟨p, hp, hp'⟩ := hfound id rfl
      exact .some (.table hp hp')
    | nil | bool _ | int _ | number _ | str _ | function _ | closure _ => exact .none
  | variant =>
    cases v with
    | table id =>
      obtain ⟨p, hp, hp'⟩ := hfound id rfl
      exact .some (.variant hp hp')
    | nil | bool _ | int _ | number _ | str _ | function _ | closure _ => exact hsame _
  | option t ih =>
    rw [convert, convert]
    split
    · exact hsame _
    · revert ih
      generalize t.convert owner slot v = answer
      generalize t.convert owner slot' v = answer'
      intro ih
      cases ih with
      | some h => exact .some (.present h)
      | none => exact .none
  | int _ | float64 | float32 | bool | text | bytes | runtimeString | native => exact hsame _

theorem World.sameButStamps_spend (w : World κ σ) (stamps stamps' : Nat) :
    (w.withMachine (w.machine.spend stamps)).SameButStamps
      (w.withMachine (w.machine.spend stamps')) :=
  ⟨⟨rfl, rfl, rfl, rfl, rfl, rfl, rfl, rfl⟩, rfl⟩

theorem World.sameButStamps_push (w : World κ σ) (stamps stamps' : Nat) (v : Value) :
    (w.withMachine ((w.machine.spend stamps).push v)).SameButStamps
      (w.withMachine ((w.machine.spend stamps').push v)) :=
  ⟨⟨rfl, rfl, rfl, rfl, rfl, rfl, rfl,
    (Stack.contents_push _ v).trans (Stack.contents_push (w.machine.spend stamps).stack v).symm⟩,
    rfl⟩

/-- Reads of one value that used up different numbers of stamps agree. -/
theorem World.taken_samePlace (hbase : w.machine.base ≤ w.machine.stack.height)
    (stamps stamps' : Nat) (v : Value) (keep : Bool) (t : HostType) :
    ∃ answer answer' after after', w.taken stamps v keep t = (.ok answer, after) ∧
      w.taken stamps' v keep t = (.ok answer', after') ∧ after.SameButStamps after' ∧
      Option.Rel (HostValue.SamePlace after.machine after'.machine) answer answer' := by
  refine ⟨_, _, _, _, rfl, rfl, ?_⟩
  by_cases hpins : (t.convert w.machine.identity (w.machine.nextSlot stamps) v).elim false
      HostValue.pinsSlot = true
  · have hpins' : (t.convert w.machine.identity (w.machine.nextSlot stamps') v).elim false
        HostValue.pinsSlot = true := by
      apply Classical.byContradiction
      intro hunpinned
      rw [HostType.convert_of_unpinned (Bool.eq_false_iff.mpr hunpinned)] at hpins
      exact hunpinned hpins
    rw [hpins, hpins', Bool.or_true, if_pos rfl, if_pos rfl]
    refine ⟨w.sameButStamps_push stamps stamps' v, HostType.convert_samePlace ?_ t⟩
    rintro id rfl
    have htop := (Machine.GrownBy.push (w.machine.spend stamps) (.table id)).top hbase
    have htop' := (Machine.GrownBy.push (w.machine.spend stamps') (.table id)).top hbase
    obtain ⟨hfound, -⟩ := Handle.locate_top (m := w.machine.spend stamps) hbase id
    obtain ⟨hfound', -⟩ := Handle.locate_top (m := w.machine.spend stamps') hbase id
    rw [htop] at hfound
    rw [htop'] at hfound'
    exact ⟨_, hfound, hfound'⟩
  · have hsame := HostType.convert_of_unpinned (Bool.eq_false_iff.mpr hpins)
      (w.machine.nextSlot stamps')
    rw [hsame]
    constructor
    · split
      · exact w.sameButStamps_push stamps stamps' v
      · exact w.sameButStamps_spend (stamps + 1) (stamps' + 1)
    · cases t.convert w.machine.identity (w.machine.nextSlot stamps) v with
      | none => exact .none
      | some u => exact .some (.same u)

theorem World.stored_same (w : World κ σ) (stamps stamps' : Nat) (id : TableId)
    (key value : Value) :
    ∃ stored after after', w.stored stamps id key value = (.ok stored, after) ∧
      w.stored stamps' id key value = (.ok stored, after') ∧ after.SameButStamps after' := by
  rw [stored, stored]
  cases (w.machine.table id).set key value with
  | ok t => exact ⟨true, _, _, rfl, rfl, ⟨rfl, rfl, rfl, rfl, rfl, rfl, rfl, rfl⟩, rfl⟩
  | error e => exact ⟨false, _, _, rfl, rfl, w.sameButStamps_spend stamps stamps'⟩

/-! ## The way a key takes -/

/-- A key that is a string of these bytes. -/
inductive HostValue.Spells (b : Bytes) : HostValue → Prop
  | text {s : String} : b = .ofString s → Spells b (.text s)
  | runtimeString : Spells b (.runtimeString b)
  | variant : Spells b (.variant (.str b))
  | bytes : Spells b (.bytes b)

namespace HostValue.Spells

variable {b : Bytes} {key : HostValue}

theorem runtime_eq (h : key.Spells b) (m : Machine κ) : key.runtime m = .str b := by
  cases h with
  | text hb => rw [hb]; rfl
  | runtimeString | variant | bytes => rfl

theorem handles_eq (h : key.Spells b) : key.handles = [] := by
  cases h <;> rfl

/-- A string other than raw bytes goes by name where it is text. -/
theorem fieldName?_of_text (h : key.Spells b) (hkey : key ≠ .bytes b) {s : String}
    (hs : b = .ofString s) : key.fieldName? = some b := by
  have htext : b.text?.isSome = true := by rw [Bytes.text?_eq_some_iff.mpr hs, Option.isSome_some]
  cases h with
  | text hb => rw [hb]; rfl
  | runtimeString => exact if_pos htext
  | variant => exact if_pos htext
  | bytes => exact absurd rfl hkey

/-- A string that is no text goes through the stack. -/
theorem fieldName?_of_not_text (h : key.Spells b) (hb : ¬ ∃ s : String, b = .ofString s) :
    key.fieldName? = none := by
  have htext : ¬ b.text?.isSome = true := by
    intro hsome
    obtain ⟨s, hs⟩ := Option.isSome_iff_exists.mp hsome
    exact hb ⟨s, Bytes.text?_eq_some_iff.mp hs⟩
  cases h with
  | text hs => exact absurd ⟨_, hs⟩ hb
  | runtimeString => exact if_neg htext
  | variant => exact if_neg htext
  | bytes => rfl

/-- Access through the stack is access with raw bytes as the key. -/
theorem set_eq (h : key.Spells b) (hname : key.fieldName? = none) (t : Handle) (value : HostValue) :
    (t.set key value : Program κ σ Bool) = t.set (.bytes b) value := by
  cases h with
  | text hs => cases hname
  | runtimeString =>
    simp only [Handle.set, hname]
    rfl
  | variant =>
    simp only [Handle.set, hname]
    rfl
  | bytes => rfl

theorem fetch_eq (h : key.Spells b) (hname : key.fieldName? = none) (t : Handle) (keep : Bool)
    (u : HostType) : (t.fetch key keep u : Program κ σ (Option HostValue)) =
      t.fetch (.bytes b) keep u := by
  cases h with
  | text hs => cases hname
  | runtimeString =>
    simp only [Handle.fetch, hname]
    rfl
  | variant =>
    simp only [Handle.fetch, hname]
    rfl
  | bytes => rfl

end HostValue.Spells

/-! ## Primitives -/

namespace Machine

variable {m : Machine κ} {position : Int} {id : TableId}

/-- Storing under a string never fails. -/
theorem store_str (m : Machine κ) (operation : Operation) (id : TableId) (name : Bytes)
    (v : Value) :
    m.store operation (.table id) (.str name) v =
      (.ok (.ok ()), { m with tables := m.tables.set id ((m.table id).setKey (.str name) v) }) :=
  rfl

/-- Storing a value under a name is storing it under the string that lies below it. -/
theorem setField_agrees (hpositive : 0 < position) (htable : m.value? position = some (.table id))
    (name : Bytes) {s s' : Stack} {v : Value} (hs : s.contents = m.stack.contents ++ [v])
    (hs' : s'.contents = m.stack.contents ++ [.str name, v]) :
    ∃ reply n n', (m.withStack s).setField position name = (.ok reply, n) ∧
      (m.withStack s').setTable position = (.ok reply, n') ∧ n.SameButStamps n' := by
  have htarget := (value?_eq_some_iff hpositive).mp htable
  have hnamed : (m.withStack s).setField position name =
      (m.withStack s.dropTop).store .setField (.table id) (.str name) v :=
    setField_eq (m := m.withStack s) hpositive hs htarget
  have hgeneric : (m.withStack s').setTable position =
      (m.withStack s'.dropTop.dropTop).store .setTable (.table id) (.str name) v :=
    setTable_eq (m := m.withStack s') hpositive hs' htarget
  rw [store_str] at hnamed hgeneric
  have hsplit : s'.contents = (m.stack.contents ++ [.str name]) ++ [v] := by
    rw [hs', List.append_assoc]
    rfl
  have hrest : s.dropTop.contents = m.stack.contents := (Stack.top_of_contents hs).2
  have hrest' : s'.dropTop.dropTop.contents = m.stack.contents :=
    (Stack.top_of_contents (Stack.top_of_contents hsplit).2).2
  exact ⟨.ok (), _, _, hnamed, hgeneric, rfl, rfl, rfl, rfl, rfl, rfl, rfl,
    hrest'.trans hrest.symm⟩

/-- Looking up a name is looking up the string that lies on top. -/
theorem getField_agrees (hpositive : 0 < position) (htable : m.value? position = some (.table id))
    (name : Bytes) {s s' : Stack} (hs : s.contents = m.stack.contents)
    (hs' : s'.contents = m.stack.contents ++ [.str name]) :
    ∃ reply n n', (m.withStack s).getField position name = (.ok reply, n) ∧
      (m.withStack s').getTable position = (.ok reply, n') ∧ n.SameButStamps n' := by
  have htarget := (value?_eq_some_iff hpositive).mp htable
  have htarget' : s.contents[m.place position]? = some (.table id) := by rw [hs, htarget]
  have hnamed : (m.withStack s).getField position name =
      (.ok (.ok ((m.table id).getField name).tag),
        (m.withStack s).push ((m.table id).getField name)) :=
    getField_eq (m := m.withStack s) hpositive htarget'
  have hgeneric : (m.withStack s').getTable position =
      (.ok (.ok ((m.table id).getField name).tag),
        (m.withStack s'.dropTop).push ((m.table id).getField name)) :=
    getTable_eq (m := m.withStack s') hpositive hs' htarget
  have hrest' : s'.dropTop.contents = m.stack.contents := (Stack.top_of_contents hs').2
  refine ⟨.ok ((m.table id).getField name).tag, _, _, hnamed, hgeneric, rfl, rfl, rfl, rfl, rfl,
    rfl, rfl, ?_⟩
  show (s'.dropTop.push ((m.table id).getField name)).contents =
    (s.push ((m.table id).getField name)).contents
  rw [Stack.contents_push, Stack.contents_push, hrest', hs]

end Machine

/-! ## Access through a handle -/

namespace HostValue.Spells

variable {b : Bytes} {key key' : HostValue}

/-- Stores under two keys of the same bytes agree. -/
theorem set_agrees (host : Host κ σ) (w : World κ σ) (h : Handle) (hkey : key.Spells b)
    (hkey' : key'.Spells b) (value : HostValue) :
    ∃ stored after after', w.run host (h.set key value) = (.ok stored, after) ∧
      w.run host (h.set key' value) = (.ok stored, after') ∧ after.SameButStamps after' := by
  have hlive : ∀ k : HostValue, k.Spells b → k.Live w.machine := by
    intro k hk t ht
    rw [hk.handles_eq] at ht
    cases ht
  obtain hstale | ⟨p, id, hp, hid, -, hvalue⟩ := Handle.stale_or_named w h key value
  · have hstale' : ¬ ((h.locate w.machine).isSome = true ∧ key'.Live w.machine ∧
        value.Live w.machine) := by
      rintro ⟨hfound, -, hvalue⟩
      exact hstale ⟨hfound, hlive key hkey, hvalue⟩
    exact ⟨false, w, w, Handle.runWith_set_refused hstale, Handle.runWith_set_refused hstale',
      w.sameButStamps_spend 0 0⟩
  · obtain ⟨stamps, hrun⟩ := Handle.runWith_set host (World.runner host w.machine.callsLeft) hp hid
      (hlive key hkey) hvalue
    obtain ⟨stamps', hrun'⟩ := Handle.runWith_set host (World.runner host w.machine.callsLeft) hp
      hid (hlive key' hkey') hvalue
    obtain ⟨stored, after, after', hstored, hstored', hsame⟩ :=
      w.stored_same stamps stamps' id (.str b) (value.runtime w.machine)
    rw [hkey.runtime_eq, hstored] at hrun
    rw [hkey'.runtime_eq, hstored'] at hrun'
    exact ⟨stored, after, after', hrun, hrun', hsame⟩

/-- Reads under two keys of the same bytes agree. -/
theorem fetch_agrees (host : Host κ σ) (w : World κ σ) (h : Handle) (hkey : key.Spells b)
    (hkey' : key'.Spells b) (keep : Bool) (t : HostType) :
    ∃ answer answer' after after', w.run host (h.fetch key keep t) = (.ok answer, after) ∧
      w.run host (h.fetch key' keep t) = (.ok answer', after') ∧ after.SameButStamps after' ∧
      Option.Rel (HostValue.SamePlace after.machine after'.machine) answer answer' := by
  have howner : ∀ k : HostValue, k.Spells b → ∀ u ∈ k.handles, u.owner = w.machine.identity := by
    intro k hk u hu
    rw [hk.handles_eq] at hu
    cases hu
  cases hp : h.locate w.machine with
  | none =>
    exact ⟨none, none, w, w, Handle.runWith_fetch_stale hp key keep t,
      Handle.runWith_fetch_stale hp key' keep t, w.sameButStamps_spend 0 0, .none⟩
  | some p =>
    obtain ⟨id, hid⟩ := Handle.runtime_eq_table hp
    obtain ⟨stamps, hrun⟩ := Handle.runWith_fetch host (World.runner host w.machine.callsLeft) hp
      hid (howner key hkey) keep t
    obtain ⟨stamps', hrun'⟩ := Handle.runWith_fetch host (World.runner host w.machine.callsLeft) hp
      hid (howner key' hkey') keep t
    obtain ⟨answer, answer', after, after', htaken, htaken', hsame, hanswer⟩ :=
      World.taken_samePlace (Handle.base_le_of_locate hp) stamps stamps'
        ((w.machine.table id).get (.str b)) keep t
    rw [hkey.runtime_eq, htaken] at hrun
    rw [hkey'.runtime_eq, htaken'] at hrun'
    exact ⟨answer, answer', after, after', hrun, hrun', hsame, hanswer⟩

end HostValue.Spells

/-- Access by name agrees with access by key. A string is the name of a field where it is text and
no raw bytes, and its accesses are those of its raw bytes where it is no text. In either case its
stores and reads answer what those under its raw bytes answer, handles compared by position, and
leave the same state but for stamps. The primitives agree, too, at every position that names a table
below their operands. -/
theorem named_access_agrees (host : Host κ σ) (w : World κ σ) (h : Handle) {b : Bytes}
    {key : HostValue} (hkey : key.Spells b) :
    (key ≠ .bytes b → (∃ s : String, b = .ofString s) → key.fieldName? = some b) ∧
    ((¬ ∃ s : String, b = .ofString s) → key.fieldName? = none ∧
      (∀ value, (h.set key value : Program κ σ Bool) = h.set (.bytes b) value) ∧
      ∀ keep t held, (h.fetchInto key keep t held : Program κ σ (Bool × HostValue)) =
        h.fetchInto (.bytes b) keep t held) ∧
    (∀ value, ∃ stored after after', w.run host (h.set key value) = (.ok stored, after) ∧
      w.run host (h.set (.bytes b) value) = (.ok stored, after') ∧ after.SameButStamps after') ∧
    (∀ keep t held, ∃ succeeded out out' after after',
      w.run host (h.fetchInto key keep t held) = (.ok (succeeded, out), after) ∧
      w.run host (h.fetchInto (.bytes b) keep t held) = (.ok (succeeded, out'), after') ∧
      after.SameButStamps after' ∧ out.SamePlace after.machine after'.machine out') ∧
    ∀ position id, 0 < position → w.machine.value? position = some (.table id) →
      (∀ s s' v, s.contents = w.machine.stack.contents ++ [v] →
        s'.contents = w.machine.stack.contents ++ [.str b, v] →
        ∃ reply n n', (w.machine.withStack s).setField position b = (.ok reply, n) ∧
          (w.machine.withStack s').setTable position = (.ok reply, n') ∧ n.SameButStamps n') ∧
      ∀ s s', s.contents = w.machine.stack.contents →
        s'.contents = w.machine.stack.contents ++ [.str b] →
        ∃ reply n n', (w.machine.withStack s).getField position b = (.ok reply, n) ∧
          (w.machine.withStack s').getTable position = (.ok reply, n') ∧ n.SameButStamps n' := by
  refine ⟨?_, ?_, ?_, ?_, ?_⟩
  · rintro hne ⟨s, hs⟩
    exact hkey.fieldName?_of_text hne hs
  · intro hb
    have hname := hkey.fieldName?_of_not_text hb
    refine ⟨hname, hkey.set_eq hname h, fun keep t held => ?_⟩
    rw [Handle.fetchInto, Handle.fetchInto, hkey.fetch_eq hname]
  · exact hkey.set_agrees host w h .bytes
  · intro keep t held
    obtain ⟨answer, answer', after, after', hrun, hrun', hsame, hanswer⟩ :=
      hkey.fetch_agrees host w h .bytes keep t
    refine ⟨answer.isSome, answer.getD held, answer'.getD held, after, after',
      World.run_return hrun held.received, ?_, hsame, ?_⟩
    · cases hanswer with
      | some _ => exact World.run_return hrun' held.received
      | none => exact World.run_return hrun' held.received
    · cases hanswer with
      | some hplace => exact hplace
      | none => exact .same held
  · intro position id hpositive htable
    exact ⟨fun s s' v => Machine.setField_agrees hpositive htable b,
      fun s s' => Machine.getField_agrees hpositive htable b⟩

/-- A field that is stored by name and one that is stored under the raw bytes of the name. -/
theorem store_by_name_agrees :
    (HostValue.text "size").Spells (.ofString "size") ∧
    ∃ after after', holdingTable.run passive (heldTable.set (.text "size") (.bool true)) =
        (.ok true, after) ∧
      holdingTable.run passive (heldTable.set (.bytes (.ofString "size")) (.bool true)) =
        (.ok true, after') ∧ after.SameButStamps after' := by
  have hspells : (HostValue.text "size").Spells (.ofString "size") := .text rfl
  obtain ⟨stored, after, after', hnamed, hgeneric, hsame⟩ :=
    (named_access_agrees passive holdingTable heldTable hspells).2.2.1 (.bool true)
  obtain ⟨stored', after'', hrun, hiff, -⟩ :=
    heldTable.set_cases passive _ holdingTable (.text "size") (.bool true)
  obtain rfl : stored' = true := hiff.mpr ⟨rfl, nofun, nofun, nofun, nofun⟩
  obtain rfl : stored = true := Except.ok.inj (congrArg Prod.fst (hnamed.symm.trans hrun))
  exact ⟨hspells, after, after', hnamed, hgeneric, hsame⟩

end StackEmbedding
