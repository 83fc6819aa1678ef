import StackEmbedding.Proofs.Table.Entries

/-!
# The border of a table

The integers that read as something form runs, and the border is the end of the run that begins at
one. `Table.Searches` looks for it one integer after the other and has no bound of its own. It ends
since a table has finitely many entries: a run of `n` integers takes `n` of them.

A store moves the border in two ways. A value under the integer above it joins the run with the one
that begins there, if any; nil under an integer of the run cuts it below that integer. Which way the
integer is written as a key, as an integer or as a float, makes no difference.

**Beyond 64 bits.** An integer of more than 64 bits is the key of no entry and reads as nil, so that
no run goes on for ever.

**What is established here.** `Table.Normal.borderLaw`: in a table that holds no nil, the border is
what the search ends at and the only end of the run from one, and it moves as above.
-/

set_option autoImplicit false

namespace StackEmbedding

/-! ## Integers as keys -/

/-- As a key the value stands for the integer `n`: it is that integer or the float of that value. -/
def Value.IsIndex (key : Value) (n : Nat) : Prop :=
  ∃ i : Int64, i.toInt = n ∧ key.rawEq (.int i) = true

/-- A value stands for one integer at most. -/
theorem Value.IsIndex.unique {key : Value} {n m : Nat} (hn : key.IsIndex n) (hm : key.IsIndex m) :
    n = m := by
  obtain ⟨i, hi, hkey⟩ := hn
  obtain ⟨j, hj, hkey'⟩ := hm
  have hij : (Value.int i).rawEq (.int j) = true := by
    rw [rawEq_comm] at hkey
    exact rawEq_trans hkey hkey'
  have heq : i = j := by simpa [rawEq] using hij
  subst heq
  exact Int.ofNat_inj.mp (hi.symm.trans hj)

namespace Table

variable {t t' : Table} {key value : Value} {n m : Nat}

/-- What is read under the integer `n`. -/
def atIndex (t : Table) (n : Nat) : Value := (int64? n).elim .nil fun i => t.get (.int i)

theorem hasIndex_eq_true_iff :
    t.hasIndex n = true ↔ ∃ i : Int64, i.toInt = n ∧ ∃ v, t.entries.get? (.int i) = some v := by
  simp only [hasIndex, Option.any_eq_true, int64?_eq_some_iff, FiniteMap.contains,
    Option.isSome_iff_exists]

theorem atIndex_ne_nil_iff :
    t.atIndex n ≠ .nil ↔ ∃ i : Int64, i.toInt = n ∧ t.get (.int i) ≠ .nil := by
  simp only [atIndex, ← int64?_eq_some_iff]
  cases int64? n with
  | none => simp
  | some i => simp

/-- In a table that holds no nil, an integer is a key exactly when it reads as something. -/
theorem Normal.hasIndex_iff (h : t.Normal) : t.hasIndex n = true ↔ t.atIndex n ≠ .nil := by
  rw [hasIndex_eq_true_iff, atIndex_ne_nil_iff]
  refine exists_congr fun i => and_congr_right fun _ => ?_
  show _ ↔ Value.orNil (t.entries.get? (.int i)) ≠ .nil
  cases hv : t.entries.get? (.int i) with
  | none => simp [Value.orNil]
  | some v => simpa [Value.orNil] using h.present _ v hv

/-! ## The search -/

/-- The search for the border that has come to `n` ends at `m`. -/
inductive Searches (t : Table) : Nat → Nat → Prop
  | ends {n : Nat} : t.hasIndex (n + 1) = false → Searches t n n
  | next {n m : Nat} : t.hasIndex (n + 1) = true → Searches t (n + 1) m → Searches t n m

/-- A search ends at the first integer whose successor is no key. -/
theorem searches_iff :
    t.Searches n m ↔
      n ≤ m ∧ (∀ i, n < i → i ≤ m → t.hasIndex i = true) ∧ t.hasIndex (m + 1) = false := by
  constructor
  · intro h
    induction h with
    | ends hstop => exact ⟨Nat.le_refl _, fun i hi hle => absurd hle (Nat.not_le_of_lt hi), hstop⟩
    | @next n m hkey _ ih =>
      obtain ⟨hle, hrun, hstop⟩ := ih
      refine ⟨Nat.le_of_succ_le hle, fun i hi hi' => ?_, hstop⟩
      by_cases hfirst : i = n + 1
      · rw [hfirst]
        exact hkey
      · exact hrun i (by omega) hi'
  · rintro ⟨hle, hrun, hstop⟩
    obtain ⟨more, rfl⟩ := Nat.exists_eq_add_of_le hle
    induction more generalizing n with
    | zero => exact .ends hstop
    | succ more ih =>
      have hshift : n + (more + 1) = n + 1 + more := by omega
      rw [hshift] at hrun hstop ⊢
      exact .next (hrun (n + 1) (Nat.lt_succ_self n) (Nat.le_add_right _ _))
        (ih (Nat.le_add_right _ _) (fun i hi hi' => hrun i (by omega) hi') hstop)

/-- A run of integers that are keys takes as many entries. -/
theorem run_le_entryCount (hrun : ∀ i, 0 < i → i ≤ n → t.hasIndex i = true) :
    n ≤ t.entryCount := by
  have hindex : ∀ i ∈ List.range' 1 n, ∃ j : Int64, Int64.ofInt i = j ∧ j.toInt = i ∧
      ∃ v, t.entries.get? (.int j) = some v := by
    intro i hi
    obtain ⟨hlow, hhigh⟩ := List.mem_range'_1.mp hi
    obtain ⟨j, hj, hv⟩ := hasIndex_eq_true_iff.mp (hrun i hlow (by omega))
    exact ⟨j, by rw [← hj, Int64.ofInt_toInt], hj, hv⟩
  have hdistinct : ((List.range' 1 n).map fun i : Nat => Key.int (Int64.ofInt i)).Nodup := by
    refine List.Nodup.map_on ?_ List.nodup_range'
    intro i hi k hk heq
    obtain ⟨j, hij, hj, -⟩ := hindex i hi
    obtain ⟨l, hkl, hl, -⟩ := hindex k hk
    have hsame : j = l := by rw [← hij, ← hkl]; exact Key.int.inj heq
    rw [hsame, hl] at hj
    exact (Int.ofNat_inj.mp hj).symm
  have hkeys : ((List.range' 1 n).map fun i : Nat => Key.int (Int64.ofInt i)) ⊆
      t.entries.entries.map Prod.fst := by
    intro k hk
    obtain ⟨i, hi, rfl⟩ := List.mem_map.mp hk
    obtain ⟨j, hij, -, v, hv⟩ := hindex i hi
    rw [hij]
    exact List.mem_map.mpr ⟨_, (FiniteMap.get?_eq_some_iff _ _ _).mp hv, rfl⟩
  simpa [entryCount, FiniteMap.size] using (List.subperm_of_subset hdistinct hkeys).length_le

theorem border_eq_findIdx (t : Table) :
    t.border = (List.range t.entries.size).findIdx fun i => !t.hasIndex (i + 1) := by
  rw [border, List.takeWhile_eq_take_findIdx_not, List.length_take,
    Nat.min_eq_left List.findIdx_le_length]

theorem border_le_entryCount (t : Table) : t.border ≤ t.entryCount := by
  rw [border_eq_findIdx, entryCount]
  exact List.findIdx_le_length.trans (Nat.le_of_eq List.length_range)

theorem hasIndex_of_le_border {i : Nat} (hpositive : 0 < i) (hle : i ≤ t.border) :
    t.hasIndex i = true := by
  rw [border_eq_findIdx] at hle
  have hbelow := List.not_of_lt_findIdx (Nat.lt_of_lt_of_le (Nat.sub_one_lt_of_lt hpositive) hle)
  rw [List.getElem_range, Nat.sub_add_cancel hpositive] at hbelow
  simpa using hbelow

/-- The integer above the border is no key. -/
theorem hasIndex_border_succ (t : Table) : t.hasIndex (t.border + 1) = false := by
  by_cases hlt : t.border < t.entries.size
  · rw [border_eq_findIdx] at hlt ⊢
    have hstop := @List.findIdx_getElem _ (fun i => !t.hasIndex (i + 1))
      (List.range t.entries.size) (by rwa [List.length_range])
    rw [List.getElem_range] at hstop
    simpa using hstop
  · -- All entries are taken by the run, so that it cannot go on.
    apply Bool.eq_false_iff.mpr
    intro hkey
    have hrun : t.border + 1 ≤ t.entryCount := run_le_entryCount fun i hpositive hle => by
      by_cases hlast : i = t.border + 1
      · rw [hlast]
        exact hkey
      · exact hasIndex_of_le_border hpositive (by omega)
    exact hlt hrun

/-- The search from zero ends, and at the border. -/
theorem searches_zero_iff : t.Searches 0 n ↔ n = t.border := by
  constructor
  · intro h
    obtain ⟨-, hrun, hstop⟩ := searches_iff.mp h
    rcases Nat.lt_trichotomy n t.border with hlt | heq | hgt
    · rw [hasIndex_of_le_border (Nat.succ_pos n) hlt] at hstop
      cases hstop
    · exact heq
    · have hkey := hrun (t.border + 1) (Nat.succ_pos _) hgt
      rw [hasIndex_border_succ] at hkey
      cases hkey
  · rintro rfl
    exact searches_iff.mpr
      ⟨Nat.zero_le _, fun _ => hasIndex_of_le_border, t.hasIndex_border_succ⟩

/-! ## The end of the run from one -/

/-- All of `1, …, n` read as something, and `n + 1` reads as nil. -/
structure IsBorder (t : Table) (n : Nat) : Prop where
  run : ∀ i, 0 < i → i ≤ n → t.atIndex i ≠ .nil
  ends : t.atIndex (n + 1) = .nil

/-- The border is the only end of the run from one. -/
theorem Normal.isBorder_iff (h : t.Normal) : t.IsBorder n ↔ n = t.border := by
  rw [← searches_zero_iff, searches_iff, Bool.eq_false_iff, ne_eq, h.hasIndex_iff, not_not]
  constructor
  · intro hn
    exact ⟨Nat.zero_le n, fun i hi hle => h.hasIndex_iff.mpr (hn.run i hi hle), hn.ends⟩
  · rintro ⟨-, hrun, hends⟩
    exact ⟨fun i hi hle => h.hasIndex_iff.mp (hrun i hi hle), hends⟩

theorem Normal.isBorder_border (h : t.Normal) : t.IsBorder t.border := h.isBorder_iff.mpr rfl

/-! ## How a store moves it -/

/-- An accepted store is made under a key, and its table is the one after the store. -/
theorem store_of_set (h : t.set key value = .ok t') :
    key.isKey = true ∧ t' = t.store key value := by
  rw [Value.isKey_eq_isSome, store, h]
  unfold set at h
  cases hk : Key.ofValue? key with
  | some k => exact ⟨rfl, rfl⟩
  | none =>
    rw [hk] at h
    cases h

/-- The integer that a store is made under reads as the value that was stored. -/
theorem atIndex_of_isIndex (h : t.set key value = .ok t') (hkey : key.IsIndex n) :
    t'.atIndex n = value := by
  obtain ⟨hisKey, rfl⟩ := store_of_set h
  obtain ⟨i, hi, hraw⟩ := hkey
  rw [atIndex, int64?_eq_some_iff.mpr hi, Option.elim_some, get_store, hisKey, hraw,
    Bool.and_self, if_pos rfl]

/-- Every other integer reads as before. -/
theorem atIndex_of_not_isIndex (h : t.set key value = .ok t') (hkey : ¬ key.IsIndex n) :
    t'.atIndex n = t.atIndex n := by
  obtain ⟨hisKey, rfl⟩ := store_of_set h
  unfold atIndex
  cases hn : int64? n with
  | none => rfl
  | some i =>
    have hraw : key.rawEq (.int i) = false :=
      Bool.eq_false_iff.mpr fun heq => hkey ⟨i, int64?_eq_some_iff.mp hn, heq⟩
    rw [Option.elim_some, Option.elim_some, get_store, hraw, Bool.and_false, if_neg nofun]

theorem Normal.set (h : t.Normal) (hset : t.set key value = .ok t') : t'.Normal := by
  obtain ⟨-, rfl⟩ := store_of_set hset
  exact h.store key value

/-- A value under the integer above the border joins the run with the one that begins there. -/
theorem Normal.border_joins (h : t.Normal) (hset : t.set key value = .ok t')
    (hkey : key.IsIndex (t.border + 1)) (hvalue : value ≠ .nil) :
    t.border + 1 ≤ t'.border ∧
      (∀ i, t.border + 1 < i → i ≤ t'.border → t.atIndex i ≠ .nil) ∧
      t.atIndex (t'.border + 1) = .nil := by
  have hother : ∀ i, i ≠ t.border + 1 → t'.atIndex i = t.atIndex i :=
    fun i hi => atIndex_of_not_isIndex hset fun hindex => hi (hindex.unique hkey)
  have hborder := (h.set hset).isBorder_border
  have hle : t.border + 1 ≤ t'.border := by
    apply Nat.le_of_not_lt
    intro hlt
    -- The integer above the new border would be one of the old run, or the one stored under.
    by_cases hlast : t'.border + 1 = t.border + 1
    · have hread := atIndex_of_isIndex hset hkey
      rw [← hlast, hborder.ends] at hread
      exact hvalue hread.symm
    · have hread := h.isBorder_border.run (t'.border + 1) (Nat.succ_pos _) (by omega)
      rw [← hother _ hlast, hborder.ends] at hread
      exact hread rfl
  refine ⟨hle, fun i hlow hhigh => ?_, ?_⟩
  · rw [← hother i (Nat.ne_of_gt hlow)]
    exact hborder.run i (Nat.zero_lt_of_lt hlow) hhigh
  · rw [← hother _ (by omega)]
    exact hborder.ends

/-- Nil under an integer of the run cuts the run below that integer. -/
theorem Normal.border_cut (h : t.Normal) (hset : t.set key .nil = .ok t') (hkey : key.IsIndex n)
    (hpositive : 0 < n) (hle : n ≤ t.border) : t'.border = n - 1 := by
  symm
  apply (h.set hset).isBorder_iff.mp
  constructor
  · intro i hi hlt
    rw [atIndex_of_not_isIndex hset fun hindex => by
      have := hindex.unique hkey
      omega]
    exact h.isBorder_border.run i hi (by omega)
  · rw [Nat.sub_add_cancel hpositive]
    exact atIndex_of_isIndex hset hkey

/-- Every other store leaves the border where it is. -/
theorem Normal.border_kept (h : t.Normal) (hset : t.set key value = .ok t')
    (habove : key.IsIndex (t.border + 1) → value = .nil)
    (hinside : ∀ n, 0 < n → n ≤ t.border → key.IsIndex n → value ≠ .nil) :
    t'.border = t.border := by
  symm
  apply (h.set hset).isBorder_iff.mp
  constructor
  · intro i hi hle
    by_cases hindex : key.IsIndex i
    · rw [atIndex_of_isIndex hset hindex]
      exact hinside i hi hle hindex
    · rw [atIndex_of_not_isIndex hset hindex]
      exact h.isBorder_border.run i hi hle
  · by_cases hindex : key.IsIndex (t.border + 1)
    · rw [atIndex_of_isIndex hset hindex]
      exact habove hindex
    · rw [atIndex_of_not_isIndex hset hindex]
      exact h.isBorder_border.ends

/-- Where the border of a table is, and how an accepted store moves it. -/
structure BorderLaw (t : Table) : Prop where
  /-- The search for the border ends, and there. -/
  search : ∀ n, t.Searches 0 n ↔ n = t.border
  /-- The border is the only integer up to which all read as something and the next does not. -/
  only : ∀ n, t.IsBorder n ↔ n = t.border
  bound : t.border ≤ t.entryCount
  joins : ∀ key value t', t.set key value = .ok t' → key.IsIndex (t.border + 1) → value ≠ .nil →
    t.border + 1 ≤ t'.border ∧ (∀ i, t.border + 1 < i → i ≤ t'.border → t.atIndex i ≠ .nil) ∧
      t.atIndex (t'.border + 1) = .nil
  cuts : ∀ key t' n, t.set key .nil = .ok t' → key.IsIndex n → 0 < n → n ≤ t.border →
    t'.border = n - 1
  keeps : ∀ key value t', t.set key value = .ok t' →
    (key.IsIndex (t.border + 1) → value = .nil) →
    (∀ n, 0 < n → n ≤ t.border → key.IsIndex n → value ≠ .nil) → t'.border = t.border

theorem Normal.borderLaw (h : t.Normal) : t.BorderLaw where
  search _ := searches_zero_iff
  only _ := h.isBorder_iff
  bound := t.border_le_entryCount
  joins _ _ _ := h.border_joins
  cuts _ _ _ := h.border_cut
  keeps _ _ _ := h.border_kept

/-- The border is an integer of 64 bits. -/
theorem toInt_border (t : Table) : (Int64.ofNat t.border).toInt = t.border := by
  by_cases hzero : t.border = 0
  · rw [hzero]
    rfl
  · obtain ⟨i, hi, -⟩ := hasIndex_eq_true_iff.mp
      (hasIndex_of_le_border (Nat.pos_of_ne_zero hzero) (Nat.le_refl t.border))
    have hof : Int64.ofNat t.border = i := by
      rw [← Int64.ofInt_eq_ofNat, ← hi, Int64.ofInt_toInt]
    rw [hof, hi]

theorem Normal.border_eq_zero_iff (h : t.Normal) : t.border = 0 ↔ t.get (.int 1) = .nil := by
  rw [eq_comm, ← h.isBorder_iff]
  constructor
  · exact IsBorder.ends
  · intro hnil
    exact ⟨fun i hi hle => absurd hle (Nat.not_le_of_lt hi), hnil⟩

end Table

end StackEmbedding
