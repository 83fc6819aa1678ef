import StackEmbedding.Proofs.Machine.Objects
import StackEmbedding.Proofs.Machine.Operands
import StackEmbedding.Proofs.Machine.SlotIdentity
import StackEmbedding.Proofs.Table.Border

/-!
# What the primitives on tables and globals take and leave

A primitive takes as many operands off the stack and leaves as many values there when it fails with
a result as when it succeeds (`Machine.Exchanges`). What it looks up is what the table holds
(`LooksUp`), and a store changes one entry of one table or no object at all (`Stores`). Neither
depends on which slots hold the same table: one table may be target, key and value at once.

**Positions of operands.** All of this is about positions whose slots stay. A position is resolved
while the operands are still on the stack, and looked at when they are gone. One that names an
operand is valid at first and leads nowhere then: the primitive panics with the operands taken, and
a look-up has left nothing in place of its key (`table_access_answers`).
-/

set_option autoImplicit false

namespace StackEmbedding

variable {κ : Type}

/-! ## Taking and leaving -/

namespace Machine

variable {m n : Machine κ} {position : Int} {raw taken : Nat} {target key v : Value}

/-- The machine without its `taken` highest slots. -/
def withoutTop (m : Machine κ) (taken : Nat) : Machine κ :=
  m.withStack (m.stack.truncate (m.stack.height - taken))

/-- In place of the `taken` highest slots of `m`, `n` has freshly stamped slots with the values
`pushed`. The slots below and the bounds of the frame are those of `m`. -/
def Exchanges (taken : Nat) (pushed : List Value) (m n : Machine κ) : Prop :=
  (m.withoutTop taken).GrownBy (stamped m.stack.nextStamp pushed) n

/-- The position names a slot that holds the value `target` and lies below the `taken` highest. -/
def NamesBelow (m : Machine κ) (taken : Nat) (position : Int) (target : Value) : Prop :=
  ∃ raw, m.resolve? position = some raw ∧ raw + taken < m.stack.height ∧
    m.stack.value? raw = some target

@[simp] theorem withoutTop_zero (m : Machine κ) : m.withoutTop 0 = m := by
  simp [withoutTop, withStack, Stack.truncate, Stack.height]

theorem withoutTop_one (m : Machine κ) : m.withStack m.stack.dropTop = m.withoutTop 1 := rfl

theorem withoutTop_two (m : Machine κ) : m.withStack m.stack.dropTop.dropTop = m.withoutTop 2 := by
  have hslots : m.stack.dropTop.dropTop.slots = m.stack.slots.take (m.stack.height - 2) := by
    rw [Stack.dropTop, Stack.height_dropTop]
    show (m.stack.slots.take (m.stack.height - 1)).take (m.stack.height - 1 - 1) = _
    rw [List.take_take, Nat.min_eq_left (Nat.sub_le _ _), Nat.sub_sub]
  exact congrArg (fun slots => m.withStack ⟨slots, m.stack.nextStamp⟩) hslots

theorem height_withoutTop : (m.withoutTop taken).stack.height = m.stack.height - taken := by
  rw [withoutTop, withStack, Stack.height_truncate, Nat.min_eq_left (Nat.sub_le _ _)]

theorem exchanges_withoutTop (m : Machine κ) (taken : Nat) :
    m.Exchanges taken [] (m.withoutTop taken) := GrownBy.refl _

theorem exchanges_push (m : Machine κ) (taken : Nat) (v : Value) :
    m.Exchanges taken [v] ((m.withoutTop taken).push v) := GrownBy.push (m.withoutTop taken) v

/-- An index below what was taken is looked at as before. -/
theorem atRaw_withoutTop {α : Type} {act : Value → Outcome (Machine κ) α}
    (hbelow : raw + taken < m.stack.height) (htarget : m.stack.value? raw = some target) :
    (m.withoutTop taken).atRaw raw act = act target := by
  have hvalue : (m.withoutTop taken).stack.value? raw = some target := by
    rw [withoutTop, withStack, Stack.value?, Stack.slot_truncate_below (by omega)]
    exact htarget
  exact atRaw_of_value? hvalue

/-- An index among what was taken leads nowhere. -/
theorem atRaw_of_taken {α : Type} {act : Value → Outcome (Machine κ) α}
    (htaken : m.stack.height ≤ raw + taken) :
    (m.withoutTop taken).atRaw raw act =
      (.error (.outOfBounds (m.stack.height - taken) raw), m.withoutTop taken) := by
  have hvalue : (m.withoutTop taken).stack.value? raw = none := by
    rw [withoutTop, withStack, Stack.value?, Stack.slot_truncate_above (by omega)]
    rfl
  rw [atRaw, hvalue]
  dsimp only
  rw [height_withoutTop]

/-! ## Operands -/

/-- A frame of at least `k` slots has a value at the `k`th place from the top. -/
theorem exists_operand {k : Nat} (hpositive : 0 < k) (hk : k ≤ m.top) :
    ∃ v, m.value? (-(k : Int)) = some v ∧ m.stack.value? (m.stack.height - k) = some v := by
  have htop : m.top ≤ m.stack.height := Nat.sub_le _ _
  have hraw : m.resolve? (-(k : Int)) = some (m.stack.height - k) := by
    have hback : (- -(k : Int)).toNat = k := by omega
    rw [resolve?, if_neg (by omega), if_pos (by omega), hback, if_pos hk]
  obtain ⟨v, hv⟩ : ∃ v, m.stack.value? (m.stack.height - k) = some v := by
    have hlt : m.stack.height - k < m.stack.slots.length := Nat.sub_lt (by omega) hpositive
    rw [Stack.value?, List.getElem?_eq_getElem hlt]
    exact ⟨_, rfl⟩
  exact ⟨v, by rw [value?, hraw, Option.bind_some, hv], hv⟩

theorem top?_eq_value? (s : Stack) : s.top? = s.value? (s.height - 1) := by
  rw [Stack.top?, List.getLast?_eq_getElem?, Stack.value?, Stack.height]

theorem exists_top (hoperand : 1 ≤ m.top) :
    ∃ v, m.value? (-1) = some v ∧ m.stack.top? = some v := by
  rw [top?_eq_value?]
  exact exists_operand Nat.one_pos hoperand

theorem exists_second (hoperands : 2 ≤ m.top) :
    ∃ v, m.value? (-2) = some v ∧ m.stack.dropTop.top? = some v := by
  obtain ⟨v, hv, hheld⟩ := exists_operand Nat.two_pos hoperands
  have hheight : 2 ≤ m.stack.height := hoperands.trans (Nat.sub_le _ _)
  refine ⟨v, hv, ?_⟩
  rw [top?_eq_value?, Stack.height_dropTop, Nat.sub_sub, ← hheld]
  show (m.stack.truncate _).value? _ = _
  rw [Stack.value?, Stack.slot_truncate_below (by omega)]
  rfl

/-- What a position resolves to is in the frame. -/
theorem lt_top_of_resolve? (hraw : m.resolve? position = some raw)
    (hbelow : raw + taken < m.stack.height) : taken < m.top := by
  have hbase : m.base ≤ raw := by
    by_cases hframe : m.base ≤ m.stack.height
    · exact base_le_of_resolve? hframe hraw
    · simp only [resolve?, top] at hraw
      split at hraw
      next => simp at hraw; omega
      next => simp at hraw; omega
  simp only [top]
  omega

/-- A position that names a slot below the operands names a value there. -/
theorem namesBelow_of_resolve? (hraw : m.resolve? position = some raw)
    (hbelow : raw + taken < m.stack.height) :
    ∃ target, m.value? position = some target ∧ m.NamesBelow taken position target := by
  have hlt : raw < m.stack.slots.length := Nat.lt_of_le_of_lt (Nat.le_add_right _ _) hbelow
  have hheld : m.stack.value? raw = some m.stack.slots[raw].value := by
    rw [Stack.value?, List.getElem?_eq_getElem hlt]
    rfl
  exact ⟨_, by rw [value?, hraw, Option.bind_some, hheld], raw, hraw, hbelow, hheld⟩

end Machine

/-! ## Looking up and storing -/

/-- What is answered and pushed for a look-up in the table that `target` names: the type of what the
table holds, and that; an error and nil if `target` names no table. -/
inductive LooksUp (operation : Operation) (target : Value) (lookup : Table → Value)
    (m : Machine κ) : Except RuntimeError TypeTag → Value → Prop
  | found {id : TableId} : target = .table id →
      LooksUp operation target lookup m (.ok (lookup (m.table id)).tag) (lookup (m.table id))
  | notTable : target.tag ≠ .table →
      LooksUp operation target lookup m (.error (.notIndexable operation target.tag)) .nil

/-- What a store under a key of the table that `target` names does to the objects, and its answer:
the entry under the key changes and nothing else, or the key is refused or `target` names no table,
and no object changes. -/
inductive Stores (operation : Operation) (target key value : Value) (m n : Machine κ) :
    Except RuntimeError Unit → Prop
  | stored {id : TableId} {k : Key} : target = .table id → Key.ofValue? key = some k →
      (m.table id).Updated k value (n.table id) →
      (∀ other, other ≠ id → n.table other = m.table other) →
      n.globals = m.globals → Stores operation target key value m n (.ok ())
  | refused {id : TableId} {e : RuntimeError} : target = .table id →
      (key = .nil ∧ e = .nilKey ∨ key.isNaN = true ∧ e = .nanKey) → n.objects = m.objects →
      Stores operation target key value m n (.error e)
  | notTable : target.tag ≠ .table → n.objects = m.objects →
      Stores operation target key value m n (.error (.notIndexable operation target.tag))

/-- What is answered and pushed for the length of `target`: the bytes of a string, the border of a
table, an error and nil for anything else. -/
inductive HasLength (target : Value) (m : Machine κ) : Except RuntimeError Unit → Value → Prop
  | string {bytes : Bytes} : target = .str bytes →
      HasLength target m (.ok ()) (.int (Int64.ofNat bytes.length))
  | table {id : TableId} {n : Int64} : target = .table id → n.toInt = (m.table id).border →
      HasLength target m (.ok ()) (.int n)
  | other : target.tag ≠ .string → target.tag ≠ .table →
      HasLength target m (.error (.noLength target.tag)) .nil

namespace Machine

variable {m n : Machine κ} {position : Int} {target key v : Value}

theorem pushFetched_effect (m : Machine κ) (taken : Nat) (operation : Operation) (target : Value)
    (lookup : Table → Value) :
    ∃ answer v n, (m.withoutTop taken).pushFetched
        ((indexable operation target).map fun id => lookup (m.table id)) = (.ok answer, n) ∧
      LooksUp operation target lookup m answer v ∧ m.Exchanges taken [v] n ∧
      n.objects = m.objects := by
  cases target with
  | table id => exact ⟨_, _, _, rfl, .found rfl, m.exchanges_push taken _, rfl⟩
  | nil | bool _ | int _ | number _ | str _ | function _ | closure _ =>
    exact ⟨_, _, _, rfl, .notTable nofun, m.exchanges_push taken _, rfl⟩

theorem store_effect (m : Machine κ) (taken : Nat) (operation : Operation)
    (target key value : Value) :
    ∃ answer n, (m.withoutTop taken).store operation target key value = (.ok answer, n) ∧
      Stores operation target key value m n answer ∧ m.Exchanges taken [] n := by
  have hkept := m.exchanges_withoutTop taken
  cases target with
  | table id =>
    cases hset : (m.table id).set key value with
    | error e =>
      exact ⟨_, _, store_refused hset, .refused rfl (Table.set_eq_error_iff.mp hset) rfl, hkept⟩
    | ok t =>
      obtain ⟨k, hk⟩ : ∃ k, Key.ofValue? key = some k := by
        rw [← Option.isSome_iff_exists, ← Value.isKey_eq_isSome]
        exact (Table.store_of_set hset).1
      have hdone : (m.withoutTop taken).store operation (.table id) key value =
          (.ok (.ok ()), { m.withoutTop taken with tables := m.tables.set id t }) :=
        store_accepted hset
      have htable := (m.withoutTop taken).table_store operation id key value
      rw [hdone] at htable
      refine ⟨_, _, hdone, .stored rfl hk ?_ ?_ rfl, rfl, rfl, rfl, rfl, rfl, hkept.slots⟩
      · rw [htable id, if_pos rfl, Table.store_of_key hk]
        exact (m.table id).updated_setKey k value
      · intro other hother
        rw [htable other, if_neg hother]
        rfl
  | nil | bool _ | int _ | number _ | str _ | function _ | closure _ =>
    exact ⟨_, _, rfl, .notTable nofun rfl, hkept⟩

/-! ## One primitive after the other -/

theorem getTable_effect (h : m.NamesBelow 1 position target) :
    ∃ key, m.value? (-1) = some key ∧
      ∃ answer v n, m.getTable position = (.ok answer, n) ∧
        LooksUp .getTable target (fun t => t.get key) m answer v ∧ m.Exchanges 1 [v] n ∧
        n.objects = m.objects := by
  obtain ⟨raw, hraw, hbelow, htarget⟩ := h
  obtain ⟨key, hkey, htop⟩ := exists_top (Nat.le_of_lt (lt_top_of_resolve? hraw hbelow))
  refine ⟨key, hkey, ?_⟩
  rw [getTable_at hraw htop, withoutTop_one, atRaw_withoutTop hbelow htarget]
  exact m.pushFetched_effect 1 .getTable target fun t => t.get key

theorem getField_effect (h : m.NamesBelow 0 position target) (name : Bytes) :
    ∃ answer v n, m.getField position name = (.ok answer, n) ∧
      LooksUp .getField target (fun t => t.get (.str name)) m answer v ∧ m.Exchanges 0 [v] n ∧
      n.objects = m.objects := by
  obtain ⟨raw, hraw, -, htarget⟩ := h
  have heffect := m.pushFetched_effect 0 .getField target fun t => t.get (.str name)
  rw [withoutTop_zero] at heffect
  rw [getField_at hraw, atRaw_of_value? htarget]
  exact heffect

theorem length_effect (h : m.NamesBelow 0 position target) :
    ∃ answer v n, m.length position = (.ok answer, n) ∧ HasLength target m answer v ∧
      m.Exchanges 0 [v] n ∧ n.objects = m.objects := by
  obtain ⟨raw, hraw, -, htarget⟩ := h
  have hpushed := m.exchanges_push 0
  rw [withoutTop_zero] at hpushed
  rw [length_at hraw, atRaw_of_value? htarget]
  cases target with
  | str bytes => exact ⟨_, _, _, rfl, .string rfl, hpushed _, rfl⟩
  | table id => exact ⟨_, _, _, rfl, .table rfl (m.table id).toInt_border, hpushed _, rfl⟩
  | nil | bool _ | int _ | number _ | function _ | closure _ =>
    exact ⟨_, _, _, rfl, .other nofun nofun, hpushed _, rfl⟩

theorem setTable_effect (h : m.NamesBelow 2 position target) :
    ∃ key value, m.value? (-2) = some key ∧ m.value? (-1) = some value ∧
      ∃ answer n, m.setTable position = (.ok answer, n) ∧
        Stores .setTable target key value m n answer ∧ m.Exchanges 2 [] n := by
  obtain ⟨raw, hraw, hbelow, htarget⟩ := h
  have hoperands := Nat.le_of_lt (lt_top_of_resolve? hraw hbelow)
  obtain ⟨value, hvalue, htop⟩ := exists_top (Nat.le_of_succ_le hoperands)
  obtain ⟨key, hkey, hsecond⟩ := exists_second hoperands
  refine ⟨key, value, hkey, hvalue, ?_⟩
  rw [setTable_at hraw hoperands htop hsecond, withoutTop_two, atRaw_withoutTop hbelow htarget]
  exact m.store_effect 2 .setTable target key value

theorem setField_effect (h : m.NamesBelow 1 position target) (name : Bytes) :
    ∃ value, m.value? (-1) = some value ∧
      ∃ answer n, m.setField position name = (.ok answer, n) ∧
        Stores .setField target (.str name) value m n answer ∧ m.Exchanges 1 [] n := by
  obtain ⟨raw, hraw, hbelow, htarget⟩ := h
  obtain ⟨value, hvalue, htop⟩ := exists_top (Nat.le_of_lt (lt_top_of_resolve? hraw hbelow))
  refine ⟨value, hvalue, ?_⟩
  rw [setField_at hraw htop, withoutTop_one, atRaw_withoutTop hbelow htarget]
  exact m.store_effect 1 .setField target (.str name) value

theorem setGlobal_effect (hoperand : 1 ≤ m.top) (name : Bytes) :
    ∃ value, m.value? (-1) = some value ∧
      ∃ n, m.setGlobal name = (.ok (), n) ∧ m.globals.Updated (.str name) value n.globals ∧
        n.tables = m.tables ∧ m.Exchanges 1 [] n := by
  obtain ⟨value, hvalue, htop⟩ := exists_top hoperand
  have hdone : m.setGlobal name = (.ok (), { m.withoutTop 1 with
      globals := m.globals.setKey (.str name) value }) := by
    rw [setGlobal, if_neg (Nat.not_lt_of_le hoperand), htop]
    rfl
  have hkept := m.exchanges_withoutTop 1
  exact ⟨value, hvalue, _, hdone, Table.updated_setKey _ _ _, rfl, rfl, rfl, rfl, rfl, rfl,
    hkept.slots⟩

end Machine

/-! ## All of them -/

/-- On a position below its operands every primitive on tables and globals answers, takes its
operands, and leaves one value if it looks something up and none if it stores. What it leaves is
what was looked up, nil for an error; a store changes the entry it names, and an error nothing. -/
theorem tables_and_globals_exchange (m : Machine κ) :
    (∀ position target, m.NamesBelow 1 position target →
      ∃ key, m.value? (-1) = some key ∧
        ∃ answer v n, m.perform (.getTable position) = (.ok answer, n) ∧
          LooksUp .getTable target (fun t => t.get key) m answer v ∧ m.Exchanges 1 [v] n ∧
          n.objects = m.objects) ∧
    (∀ position target name, m.NamesBelow 0 position target →
      ∃ answer v n, m.perform (.getField position name) = (.ok answer, n) ∧
        LooksUp .getField target (fun t => t.get (.str name)) m answer v ∧ m.Exchanges 0 [v] n ∧
        n.objects = m.objects) ∧
    (∀ position target, m.NamesBelow 0 position target →
      ∃ answer v n, m.perform (.length position) = (.ok answer, n) ∧
        HasLength target m answer v ∧ m.Exchanges 0 [v] n ∧ n.objects = m.objects) ∧
    (∀ name, ∃ v n, m.perform (.getGlobal name) = (.ok v.tag, n) ∧ v = m.globals.get (.str name) ∧
        m.Exchanges 0 [v] n ∧ n.objects = m.objects) ∧
    (∀ position target, m.NamesBelow 2 position target →
      ∃ key value, m.value? (-2) = some key ∧ m.value? (-1) = some value ∧
        ∃ answer n, m.perform (.setTable position) = (.ok answer, n) ∧
          Stores .setTable target key value m n answer ∧ m.Exchanges 2 [] n) ∧
    (∀ position target name, m.NamesBelow 1 position target →
      ∃ value, m.value? (-1) = some value ∧
        ∃ answer n, m.perform (.setField position name) = (.ok answer, n) ∧
          Stores .setField target (.str name) value m n answer ∧ m.Exchanges 1 [] n) ∧
    (∀ name, 1 ≤ m.top →
      ∃ value, m.value? (-1) = some value ∧
        ∃ n, m.perform (.setGlobal name) = (.ok (), n) ∧
          m.globals.Updated (.str name) value n.globals ∧ n.tables = m.tables ∧
          m.Exchanges 1 [] n) := by
  have hpushed := m.exchanges_push 0
  rw [Machine.withoutTop_zero] at hpushed
  exact ⟨fun _ _ h => Machine.getTable_effect h,
    fun _ _ name h => Machine.getField_effect h name,
    fun _ _ h => Machine.length_effect h,
    fun name => ⟨_, _, rfl, rfl, hpushed _, rfl⟩,
    fun _ _ h => Machine.setTable_effect h,
    fun _ _ name h => Machine.setField_effect h name,
    fun name hoperand => Machine.setGlobal_effect hoperand name⟩

/-- A stack with one table three times. -/
def threefold : Machine Unit := ((Machine.new 0 {}).createTable.push (.table 0)).push (.table 0)

/-- A table is looked up in itself, stored in itself under itself, and made a global. -/
theorem table_under_itself :
    (∃ answer v n, threefold.perform (.getTable 1) = (.ok answer, n) ∧
      n.stack.slots = [⟨.table 0, 1⟩, ⟨.table 0, 2⟩, ⟨v, 4⟩] ∧ v = .nil) ∧
    (∃ answer n, threefold.perform (.length (-1)) = (.ok answer, n) ∧ n.stack.height = 4) ∧
    (∃ n, threefold.perform (.setTable 1) = (.ok (.ok ()), n) ∧
      n.stack.slots = [⟨.table 0, 1⟩] ∧ (n.table 0).get (.table 0) = .table 0) ∧
    ∃ n, threefold.perform (.setGlobal [107]) = (.ok (), n) ∧
      n.globals.get (.str [107]) = .table 0 := by
  obtain ⟨hget, -, hlength, -, hset, -, hsetGlobal⟩ := tables_and_globals_exchange threefold
  refine ⟨?_, ?_, ?_, ?_⟩
  · obtain ⟨key, hkey, answer, v, n, hperform, hlooksUp, hexchanges, -⟩ :=
      hget 1 (.table 0) ⟨0, rfl, by decide, rfl⟩
    refine ⟨answer, v, n, hperform, hexchanges.slots, ?_⟩
    cases hlooksUp with
    | found htarget =>
      obtain rfl := Value.table.inj htarget
      exact Table.get_empty key
    | notTable htag => rfl
  · obtain ⟨answer, v, n, hperform, -, hexchanges, -⟩ :=
      hlength (-1) (.table 0) ⟨2, rfl, by decide, rfl⟩
    exact ⟨answer, n, hperform, hexchanges.height⟩
  · obtain ⟨key, value, hkey, hvalue, answer, n, hperform, hstores, hexchanges⟩ :=
      hset 1 (.table 0) ⟨0, rfl, by decide, rfl⟩
    obtain rfl : .table 0 = key := Option.some.inj hkey
    obtain rfl : .table 0 = value := Option.some.inj hvalue
    cases hstores with
    | stored htarget hk hupdated _ _ =>
      obtain rfl := Value.table.inj htarget
      exact ⟨n, hperform, hexchanges.slots, hupdated.get_same hk⟩
    | refused _ hkey _ => rcases hkey with ⟨hnil, -⟩ | ⟨hnan, -⟩ <;> contradiction
    | notTable htag _ => exact absurd rfl htag
  · obtain ⟨value, hvalue, n, hperform, hupdated, -⟩ := hsetGlobal [107] (by decide)
    obtain rfl : .table 0 = value := Option.some.inj hvalue
    exact ⟨n, hperform, hupdated.get_same rfl⟩

/-! ## Positions of operands -/

/-- The primitives that look for a table at a position. -/
inductive TableAccess where
  | getTable
  | getField (name : Bytes)
  | setTable
  | setField (name : Bytes)
  | length

namespace TableAccess

/-- How many operands are taken. -/
def operands : TableAccess → Nat
  | setTable => 2
  | getTable | setField _ => 1
  | getField _ | length => 0

/-- The primitive, at a position. -/
def primitive (position : Int) : TableAccess → Primitive κ
  | getTable => .getTable position
  | getField name => .getField position name
  | setTable => .setTable position
  | setField name => .setField position name
  | length => .length position

end TableAccess

/-- A primitive that finds its operands answers unless its position names one of them. Then it
panics, and has taken them and left nothing. -/
theorem table_access_answers (m : Machine κ) (a : TableAccess) {position : Int} {raw : Nat}
    (hraw : m.resolve? position = some raw) (hoperands : a.operands ≤ m.top) :
    (raw + a.operands < m.stack.height →
      ∃ answer n, m.perform (a.primitive position) = (.ok answer, n)) ∧
    (m.stack.height ≤ raw + a.operands →
      m.perform (a.primitive position) =
        (.error (.outOfBounds (m.stack.height - a.operands) raw), m.withoutTop a.operands)) ∧
    (raw + 1 < m.stack.height →
      ∃ key target, m.value? (-1) = some key ∧ m.value? position = some target ∧
        ∃ answer v n, m.perform (.getTable position) = (.ok answer, n) ∧
          LooksUp .getTable target (fun t => t.get key) m answer v ∧ m.Exchanges 1 [v] n) := by
  refine ⟨fun hbelow => ?_, fun htaken => ?_, fun hbelow => ?_⟩
  · obtain ⟨target, -, hnames⟩ := Machine.namesBelow_of_resolve? hraw hbelow
    cases a with
    | getTable =>
      obtain ⟨_, _, answer, _, n, hperform, _⟩ := Machine.getTable_effect hnames
      exact ⟨answer, n, hperform⟩
    | getField name =>
      obtain ⟨answer, _, n, hperform, _⟩ := Machine.getField_effect hnames name
      exact ⟨answer, n, hperform⟩
    | setTable =>
      obtain ⟨_, _, _, _, answer, n, hperform, _⟩ := Machine.setTable_effect hnames
      exact ⟨answer, n, hperform⟩
    | setField name =>
      obtain ⟨_, _, answer, n, hperform, _⟩ := Machine.setField_effect hnames name
      exact ⟨answer, n, hperform⟩
    | length =>
      obtain ⟨answer, _, n, hperform, _⟩ := Machine.length_effect hnames
      exact ⟨answer, n, hperform⟩
  · have hlt := Machine.lt_height_of_resolve? hraw
    cases a with
    | getTable =>
      obtain ⟨key, -, hkey⟩ := Machine.exists_top hoperands
      exact (Machine.getTable_at hraw hkey).trans (Machine.atRaw_of_taken htaken)
    | setField name =>
      obtain ⟨value, -, hvalue⟩ := Machine.exists_top hoperands
      exact (Machine.setField_at hraw hvalue name).trans (Machine.atRaw_of_taken htaken)
    | setTable =>
      obtain ⟨value, -, hvalue⟩ := Machine.exists_top (Nat.le_of_succ_le hoperands)
      obtain ⟨key, -, hkey⟩ := Machine.exists_second hoperands
      refine (Machine.setTable_at hraw hoperands hvalue hkey).trans ?_
      rw [Machine.withoutTop_two]
      exact Machine.atRaw_of_taken htaken
    | getField _ | length => exact absurd hlt (Nat.not_lt_of_le htaken)
  · obtain ⟨target, htarget, hnames⟩ := Machine.namesBelow_of_resolve? hraw hbelow
    obtain ⟨key, hkey, answer, v, n, hperform, hlooksUp, hexchanges, -⟩ :=
      Machine.getTable_effect hnames
    exact ⟨key, target, hkey, htarget, answer, v, n, hperform, hlooksUp, hexchanges⟩

/-- A stack with a table and, above it, a key. -/
def keyAboveTable : Machine Unit := (Machine.new 0 {}).createTable.push (.str [107])

/-- The table is looked at; the key that is looked up in itself is gone. -/
theorem lookUp_at_table_and_at_key :
    (∃ answer n, keyAboveTable.perform (.getTable 1) = (.ok answer, n)) ∧
    keyAboveTable.perform (.getTable (-1)) =
      (.error (.outOfBounds 1 1), keyAboveTable.withoutTop 1) := by
  obtain ⟨hanswers, -, -⟩ :=
    @table_access_answers _ keyAboveTable .getTable 1 0 rfl (by decide)
  obtain ⟨-, hpanics, -⟩ :=
    @table_access_answers _ keyAboveTable .getTable (-1) 1 rfl (by decide)
  exact ⟨hanswers (by decide), hpanics (by decide)⟩

/-- A lone key. -/
def loneKey : Machine Unit := (Machine.new 0 {}).push (.str [107])

/-- The position is valid and the key is there; the look-up panics all the same, and there is no
value in place of the key. -/
theorem lookUp_in_key_panics :
    loneKey.resolve? (-1) = some 0 ∧ TableAccess.getTable.operands ≤ loneKey.top ∧
    loneKey.perform (.getTable (-1)) = (.error (.outOfBounds 0 0), loneKey.withoutTop 1) ∧
    (loneKey.withoutTop 1).stack.slots = [] := by
  refine ⟨rfl, by decide, rfl, rfl⟩

end StackEmbedding
