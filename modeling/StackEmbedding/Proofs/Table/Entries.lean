import Mathlib.Data.Set.Card
import StackEmbedding.Machine.Tables
import StackEmbedding.Proofs.Table.Key

/-!
# Tables as finite maps over raw equality

A table is known by what is read under each value. `Table.afterStores` makes stores one after the
other in a table without entries, and `finite_map_of_stores` says what is read then: the value of
the last accepted store under an equal key. The keys of the entries stand for classes of raw-equal
values, one entry for each class that reads as something.

**The invariant.** `Table.Normal`: no entry holds nil, and every key of an entry is made of a value,
so that no entry stands under a float that is an integer or no number.

**What it does not say.** The order of the entries has no meaning and is left out.
-/

set_option autoImplicit false

namespace StackEmbedding

namespace Value

/-- Whether a value is a float that is no number. -/
def isNaN : Value → Bool
  | number x => x.isNaN
  | _ => false

/-- Whether a store under a value is accepted: it is neither nil nor NaN. -/
def isKey (v : Value) : Bool := !v.isNil && !v.isNaN

theorem isKey_eq_isSome (v : Value) : v.isKey = (Key.ofValue? v).isSome := by
  rw [Bool.eq_iff_iff, Option.isSome_iff_exists, Key.exists_ofValue?_iff]
  cases v <;> simp [isKey, isNil, isNaN]

/-- A store under `a` is accepted and meets `b` exactly when the two have one key. -/
theorem isKey_and_rawEq_iff {a b : Value} :
    (a.isKey && a.rawEq b) = true ↔ ∃ k, Key.ofValue? a = some k ∧ Key.ofValue? b = some k := by
  by_cases ha : a = nil
  · subst ha
    simp [isKey, isNil, Key.ofValue?]
  · rw [Bool.and_eq_true, Key.rawEq_iff ha, isKey_eq_isSome, and_iff_right_iff_imp]
    rintro ⟨k, hk, -⟩
    rw [hk, Option.isSome_some]

end Value

namespace Table

variable {t t' : Table} {k : Key} {v : Value}

/-! ## One entry -/

/-- The entry under `k` is the value `v`, or is gone where `v` is nil, and no other changed. -/
def Updated (t : Table) (k : Key) (v : Value) (t' : Table) : Prop :=
  ∀ j, t'.entries.get? j = if j = k then (if v = .nil then none else some v) else t.entries.get? j

theorem updated_setKey (t : Table) (k : Key) (v : Value) : t.Updated k v (t.setKey k v) := by
  intro j
  cases v with
  | nil => exact FiniteMap.get?_erase t.entries k j
  | bool _ | int _ | number _ | str _ | function _ | closure _ | table _ =>
    exact FiniteMap.get?_insert t.entries k _ j

/-- The stored value is read under every value that has the same key. -/
theorem Updated.get_same (h : t.Updated k v t') {key : Value} (hkey : Key.ofValue? key = some k) :
    t'.get key = v := by
  rw [get, hkey, Option.elim_some, getKey, h k, if_pos rfl]
  split
  next hnil => exact hnil.symm
  next => rfl

/-- A value that has another key, or none, reads as before. -/
theorem Updated.get_other (h : t.Updated k v t') {key : Value} (hkey : Key.ofValue? key ≠ some k) :
    t'.get key = t.get key := by
  rw [get, get]
  cases hj : Key.ofValue? key with
  | none => rfl
  | some j =>
    have hne : j ≠ k := by
      rintro rfl
      exact hkey hj
    rw [Option.elim_some, Option.elim_some, getKey, getKey, h j, if_neg hne]

/-- A table without entries reads as nil. -/
theorem get_empty (key : Value) : (∅ : Table).get key = .nil := by
  unfold get
  cases Key.ofValue? key <;> rfl

/-! ## One store -/

/-- A store is refused exactly under nil and under NaN. -/
theorem set_eq_error_iff {key value : Value} {e : RuntimeError} :
    t.set key value = .error e ↔ key = .nil ∧ e = .nilKey ∨ key.isNaN = true ∧ e = .nanKey := by
  have hkey := key.isKey_eq_isSome
  unfold set
  cases hk : Key.ofValue? key with
  | some k =>
    rw [hk, Option.isSome_some, Value.isKey, Bool.and_eq_true, Bool.not_eq_true',
      Bool.not_eq_true'] at hkey
    have hnil : key ≠ .nil := by
      rintro rfl
      cases hkey.1
    simp [hnil, hkey.2]
  | none =>
    rcases Key.ofValue?_eq_none_iff.mp hk with rfl | ⟨x, rfl, hx⟩
    · simp [Value.isNil, Value.isNaN, eq_comm]
    · simp [Value.isNil, Value.isNaN, hx, eq_comm]

/-- The table after a store; a store that is refused leaves it. -/
def store (t : Table) (key value : Value) : Table :=
  match t.set key value with
  | .ok after => after
  | .error _ => t

theorem store_of_key {key : Value} (hk : Key.ofValue? key = some k) (value : Value) :
    t.store key value = t.setKey k value := by
  rw [store, set, hk]

theorem store_of_none {key : Value} (hk : Key.ofValue? key = none) (value : Value) :
    t.store key value = t := by
  rw [store, set, hk]

/-- What is read after a store. -/
theorem get_store (t : Table) (stored value key : Value) :
    (t.store stored value).get key =
      if stored.isKey && stored.rawEq key then value else t.get key := by
  cases hk : Key.ofValue? stored with
  | none =>
    have hrefused : stored.isKey = false := by rw [Value.isKey_eq_isSome, hk, Option.isSome_none]
    rw [store_of_none hk, hrefused, Bool.false_and, if_neg nofun]
  | some k =>
    rw [store_of_key hk]
    by_cases hkey : Key.ofValue? key = some k
    · rw [if_pos (Value.isKey_and_rawEq_iff.mpr ⟨k, hk, hkey⟩)]
      exact (updated_setKey t k value).get_same hkey
    · rw [if_neg, (updated_setKey t k value).get_other hkey]
      intro hmeets
      obtain ⟨j, hj, hj'⟩ := Value.isKey_and_rawEq_iff.mp hmeets
      exact hkey (hj'.trans (hj.symm.trans hk))

/-! ## Stores one after the other -/

/-- The table after stores, made one after the other in a table without entries. -/
def afterStores (stores : List (Value × Value)) : Table :=
  stores.foldl (fun t s => t.store s.1 s.2) ∅

/-- The value of the last accepted store under a key that is raw-equal to `key`. -/
def lastStored? (stores : List (Value × Value)) (key : Value) : Option Value :=
  (stores.filter fun s => s.1.isKey && s.1.rawEq key).getLast?.map Prod.snd

theorem afterStores_concat (stores : List (Value × Value)) (s : Value × Value) :
    afterStores (stores ++ [s]) = (afterStores stores).store s.1 s.2 := by
  rw [afterStores, List.foldl_append, List.foldl_cons, List.foldl_nil, afterStores]

theorem lastStored?_concat (stores : List (Value × Value)) (s : Value × Value) (key : Value) :
    lastStored? (stores ++ [s]) key =
      if s.1.isKey && s.1.rawEq key then some s.2 else lastStored? stores key := by
  unfold lastStored?
  rw [List.filter_append, List.filter_singleton]
  cases s.1.isKey && s.1.rawEq key with
  | true => simp
  | false => simp

/-- What is read after stores is the value of the last one that meets the key. -/
theorem get_afterStores (stores : List (Value × Value)) (key : Value) :
    (afterStores stores).get key = .orNil (lastStored? stores key) := by
  induction stores using List.reverseRecOn with
  | nil => exact get_empty key
  | append_singleton stores s ih =>
    rw [afterStores_concat, get_store, lastStored?_concat, ih]
    split <;> rfl

/-! ## The invariant -/

/-- No entry holds nil, and the key of every entry is made of a value. -/
structure Normal (t : Table) : Prop where
  present : ∀ k v, t.entries.get? k = some v → v ≠ .nil
  made : ∀ k v, t.entries.get? k = some v → Key.ofValue? k.toValue = some k

theorem normal_empty : Normal ∅ := ⟨nofun, nofun⟩

theorem Normal.store (h : t.Normal) (key value : Value) : (t.store key value).Normal := by
  cases hk : Key.ofValue? key with
  | none =>
    rw [store_of_none hk]
    exact h
  | some k =>
    rw [store_of_key hk]
    have hupdated := updated_setKey t k value
    constructor
    · intro j v hv
      rw [hupdated j] at hv
      split at hv
      next =>
        split at hv
        next => cases hv
        next hvalue =>
          cases hv
          exact hvalue
      next => exact h.present j v hv
    · intro j v hv
      rw [hupdated j] at hv
      split at hv
      next hjk =>
        rw [hjk]
        exact Key.ofValue?_toValue hk
      next => exact h.made j v hv

theorem normal_afterStores (stores : List (Value × Value)) : (afterStores stores).Normal := by
  induction stores using List.reverseRecOn with
  | nil => exact normal_empty
  | append_singleton stores s ih =>
    rw [afterStores_concat]
    exact ih.store s.1 s.2

/-- A key that is made of a value is no NaN and no float that is an integer. -/
theorem Normal.float (h : t.Normal) {x : Binary64} {v : Value}
    (hv : t.entries.get? (.float x) = some v) : x.isNaN = false ∧ x.toInt64? = none := by
  rcases Key.ofValue?_number_eq_some_iff.mp (h.made _ _ hv) with ⟨i, -, hi⟩ | ⟨hnan, hint, -⟩
  · cases hi
  · exact ⟨hnan, hint⟩

/-- A value reads as something exactly when its key has an entry. -/
theorem Normal.get_ne_nil_iff (h : t.Normal) {key : Value} :
    t.get key ≠ .nil ↔ ∃ k ∈ t.entries.entries.map Prod.fst, Key.ofValue? key = some k := by
  simp only [List.mem_map, Prod.exists, exists_and_right, exists_eq_right,
    ← FiniteMap.get?_eq_some_iff]
  unfold get
  cases hk : Key.ofValue? key with
  | none => simp
  | some k =>
    simp only [Option.elim_some, getKey, Option.some.injEq, exists_eq_right']
    cases hv : t.entries.get? k with
    | none => simp [Value.orNil]
    | some v => simpa [Value.orNil] using h.present k v hv

/-! ## The size -/

/-- The values that have a key are a class of raw-equal values. -/
theorem rawEq_class {key : Value} {k : Key} (hk : Key.ofValue? key = some k) :
    {v | key.rawEq v = true} = {v | Key.ofValue? v = some k} := by
  have hne : key ≠ .nil := by
    rintro rfl
    cases hk
  ext v
  simp [Key.rawEq_iff hne, hk]

/-- There are as many entries as classes of raw-equal values that read as something. -/
theorem Normal.encard_classes (h : t.Normal) :
    {C : Set Value | ∃ key, t.get key ≠ .nil ∧ C = {v | key.rawEq v = true}}.encard =
      t.entryCount := by
  classical
  -- A class is known by its key, and the keys of the entries are distinct.
  have hclasses : {C : Set Value | ∃ key, t.get key ≠ .nil ∧ C = {v | key.rawEq v = true}} =
      (fun k => {v | Key.ofValue? v = some k}) '' (t.entries.entries.map Prod.fst).toFinset := by
    ext C
    simp only [Set.mem_ofPred_eq, Set.mem_image, List.coe_toFinset]
    constructor
    · rintro ⟨key, hkey, rfl⟩
      obtain ⟨k, hmem, hk⟩ := h.get_ne_nil_iff.mp hkey
      exact ⟨k, hmem, (rawEq_class hk).symm⟩
    · rintro ⟨k, hmem, rfl⟩
      obtain ⟨⟨k, v⟩, hentry, rfl⟩ := List.mem_map.mp hmem
      have hk := h.made _ v ((FiniteMap.get?_eq_some_iff _ _ _).mpr hentry)
      exact ⟨_, h.get_ne_nil_iff.mpr ⟨_, hmem, hk⟩, (rawEq_class hk).symm⟩
  have hinjective : Set.InjOn (fun k => {v | Key.ofValue? v = some k})
      ((t.entries.entries.map Prod.fst).toFinset : Set Key) := by
    intro k hmem j _ hkj
    rw [List.coe_toFinset] at hmem
    obtain ⟨⟨k, v⟩, hentry, rfl⟩ := List.mem_map.mp hmem
    have hk := h.made _ v ((FiniteMap.get?_eq_some_iff _ _ _).mpr hentry)
    have hj : Key.ofValue? _ = some j := (Set.ext_iff.mp hkj _).mp hk
    exact Option.some.inj (hk.symm.trans hj)
  rw [hclasses, hinjective.encard_image, Set.encard_coe_eq_coe_finsetCard,
    List.toFinset_card_of_nodup t.entries.distinct, List.length_map]
  rfl

/-! ## The map that stores make -/

/-- The table `t` is the map that stores make, one after the other, in a table without entries. -/
structure MapOf (stores : List (Value × Value)) (t : Table) : Prop where
  /-- What is read is the value of the last accepted store under an equal key. -/
  get : ∀ key, t.get key = .orNil (lastStored? stores key)
  unkeyed : ∀ key, key = .nil ∨ key.isNaN = true → t.get key = .nil
  field : ∀ name, t.getField name = t.get (.str name)
  refused : ∀ key value e, t.set key value = .error e ↔
    key = .nil ∧ e = .nilKey ∨ key.isNaN = true ∧ e = .nanKey
  /-- There is one entry for each class of raw-equal values that reads as something. -/
  size : {C : Set Value | ∃ key, t.get key ≠ .nil ∧ C = {v | key.rawEq v = true}}.encard =
    t.entryCount
  present : ∀ k v, t.entries.get? k = some v → v ≠ .nil
  noninteger : ∀ x v, t.entries.get? (.float x) = some v → x.isNaN = false ∧ x.toInt64? = none

theorem mapOf_afterStores (stores : List (Value × Value)) : MapOf stores (afterStores stores) where
  get := get_afterStores stores
  unkeyed := by
    intro key hkey
    have hrefused : key.isKey = false := by
      rcases hkey with rfl | hnan
      · rfl
      · rw [Value.isKey, hnan, Bool.not_true, Bool.and_false]
    have hnone : Key.ofValue? key = none := by simpa [Value.isKey_eq_isSome] using hrefused
    rw [Table.get, hnone, Option.elim_none]
  field := fun _ => rfl
  refused := fun _ _ _ => set_eq_error_iff
  size := (normal_afterStores stores).encard_classes
  present := (normal_afterStores stores).present
  noninteger := fun _ _ => (normal_afterStores stores).float

end Table

/-! ## Stores through the machine -/

namespace Machine

variable {κ : Type}

/-- A store through the machine changes the table that it names as `Table.store` says, and no
other. -/
theorem table_store (m : Machine κ) (operation : Operation) (id : TableId) (key value : Value)
    (other : TableId) :
    (m.store operation (.table id) key value).2.table other =
      if other = id then (m.table id).store key value else m.table other := by
  unfold store Table.store
  dsimp only [indexable]
  cases (m.table id).set key value with
  | ok after =>
    simp only [table, Heap.get?_set]
    split <;> rfl
  | error e =>
    dsimp only
    split
    next heq => rw [heq]
    next => rfl

/-- A store that the table accepts changes that table. -/
theorem store_accepted {m : Machine κ} {operation : Operation} {id : TableId} {key value : Value}
    {t : Table} (h : (m.table id).set key value = .ok t) :
    m.store operation (.table id) key value =
      (.ok (.ok ()), { m with tables := m.tables.set id t }) := by
  unfold store
  dsimp only [indexable]
  rw [h]

/-- A store that the table refuses is reported, and nothing changed. -/
theorem store_refused {m : Machine κ} {operation : Operation} {id : TableId} {key value : Value}
    {e : RuntimeError} (h : (m.table id).set key value = .error e) :
    m.store operation (.table id) key value = (.ok (.error e), m) := by
  simp only [store, indexable, h]

/-- The machine after stores in one table, whether they were accepted or not. -/
def afterStores (m : Machine κ) (operation : Operation) (id : TableId)
    (stores : List (Value × Value)) : Machine κ :=
  stores.foldl (fun m s => (m.store operation (.table id) s.1 s.2).2) m

theorem table_afterStores {m : Machine κ} {id : TableId} (hempty : m.table id = ∅)
    (operation : Operation) (stores : List (Value × Value)) :
    (m.afterStores operation id stores).table id = Table.afterStores stores := by
  induction stores using List.reverseRecOn with
  | nil => exact hempty
  | append_singleton stores s ih =>
    rw [afterStores, List.foldl_append, List.foldl_cons, List.foldl_nil, ← afterStores,
      table_store, if_pos rfl, ih, Table.afterStores_concat]

end Machine

/-- Stores in a table without entries make a finite map over the classes of raw-equal values. What
the machine reports for a store under nil or NaN names the cause, and the store leaves the machine
as it was. -/
theorem finite_map_of_stores (stores : List (Value × Value)) :
    Table.MapOf stores (Table.afterStores stores) ∧
    RuntimeError.nilKey.message = "index is nil" ∧
    RuntimeError.nanKey.message = "index is NaN" ∧
    ∀ (κ : Type) (m : Machine κ) (operation : Operation) (id : TableId), m.table id = ∅ →
      let after := m.afterStores operation id stores
      after.table id = Table.afterStores stores ∧
      ∀ key value e, (after.table id).set key value = .error e →
        after.store operation (.table id) key value = (.ok (.error e), after) :=
  ⟨Table.mapOf_afterStores stores, rfl, rfl, fun _ _ operation _ hempty =>
    ⟨Machine.table_afterStores hempty operation stores, fun _ _ _ => Machine.store_refused⟩⟩

/-- True under the integer one, a value under NaN and another under nil, false under the float one,
and a value that is stored and taken away again. -/
def mixedStores : List (Value × Value) :=
  [(.int 1, .bool true), (.number (.quietNaN false), .int 5), (.nil, .int 6),
    (.number (.ofInt 1), .bool false), (.str [97], .int 7), (.str [97], .nil)]

/-- After these stores there is one entry, which reads as false under both ones. -/
theorem one_entry_of_stores :
    (Table.afterStores mixedStores).get (.int 1) = .bool false ∧
    (Table.afterStores mixedStores).get (.number (.ofInt 1)) = .bool false ∧
    {C : Set Value | ∃ key, (Table.afterStores mixedStores).get key ≠ .nil ∧
      C = {v | key.rawEq v = true}}.encard = 1 ∧
    (Table.afterStores mixedStores).set (.number (.quietNaN false)) .nil = .error .nanKey ∧
    (((Machine.new 0 {} : Machine Unit).createTable.afterStores .setTable 0 mixedStores).store
      .setTable (.table 0) .nil (.int 1)).1 = .ok (.error .nilKey) := by
  obtain ⟨hmap, -, -, hmachine⟩ := finite_map_of_stores mixedStores
  obtain ⟨-, hrefused⟩ :=
    hmachine Unit (Machine.new 0 {} : Machine Unit).createTable .setTable 0 rfl
  refine ⟨?_, ?_, hmap.size.trans ?_, (hmap.refused _ _ _).mpr (.inr ⟨by decide, rfl⟩), ?_⟩
  · rw [hmap.get]
    decide
  · rw [hmap.get]
    decide
  · have hcount : (Table.afterStores mixedStores).entryCount = 1 := by decide
    rw [hcount]
    rfl
  · rw [hrefused .nil (.int 1) .nilKey rfl]

end StackEmbedding
