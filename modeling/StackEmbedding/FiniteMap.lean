/-!
# Finite maps as lists of distinct keys

`FiniteMap α β` is a finite map from `α` to `β`: the entries in some order, no key twice. The order
is not part of the meaning; a map is known by its look-ups and its size. Tables, the numbered
stores of the machine and the variables of a script are finite maps.

**What is established here.** `get?_insert`, `get?_erase` and `get?_empty` say what each operation
does to the look-ups, and `get?_eq_some_iff` that look-ups and entries agree.
-/

namespace StackEmbedding

/-- A finite map, as entries with distinct keys. -/
structure FiniteMap (α β : Type) where
  entries : List (α × β)
  distinct : (entries.map Prod.fst).Nodup

namespace FiniteMap

variable {α β : Type} [DecidableEq α]

/-- The map without entries. -/
def empty : FiniteMap α β := ⟨[], List.Pairwise.nil⟩

instance : EmptyCollection (FiniteMap α β) := ⟨empty⟩

/-- The value under a key. -/
def get? (m : FiniteMap α β) (k : α) : Option β := m.entries.lookup k

/-- Whether a key has a value. -/
def contains (m : FiniteMap α β) (k : α) : Bool := (m.get? k).isSome

/-- How many keys have a value. -/
def size (m : FiniteMap α β) : Nat := m.entries.length

/-- The map without a key. -/
def erase (m : FiniteMap α β) (k : α) : FiniteMap α β :=
  ⟨m.entries.filter fun e => e.1 ≠ k, m.distinct.sublist (List.filter_sublist.map _)⟩

/-- The map with a value under a key, in place of any other. -/
def insert (m : FiniteMap α β) (k : α) (v : β) : FiniteMap α β :=
  ⟨(k, v) :: (m.erase k).entries, by
    refine List.nodup_cons.mpr ⟨?_, (m.erase k).distinct⟩
    simp [erase]⟩

@[simp] theorem get?_empty (k : α) : (∅ : FiniteMap α β).get? k = none := rfl

theorem lookup_filter (entries : List (α × β)) (k j : α) :
    (entries.filter fun e => e.1 ≠ k).lookup j = if j = k then none else entries.lookup j := by
  induction entries with
  | nil => simp
  | cons e rest ih =>
    obtain ⟨i, v⟩ := e
    by_cases hik : i = k
    · subst hik
      by_cases hj : j = i
      · subst hj; simpa using ih
      · have hb : (j == i) = false := by simpa using hj
        simp only [ne_eq, decide_not] at ih
        simp [List.lookup_cons, ih, hj, hb]
    · simp only [ne_eq, decide_not] at ih
      by_cases hji : j = i
      · subst hji
        simp [hik]
      · have hb : (j == i) = false := by simpa using hji
        simp [List.lookup_cons, hik, ih, hb]

/-- Erasing a key takes its value away and no other. -/
@[simp] theorem get?_erase (m : FiniteMap α β) (k j : α) :
    (m.erase k).get? j = if j = k then none else m.get? j :=
  lookup_filter m.entries k j

/-- Inserting gives the key the new value and keeps every other value. -/
@[simp] theorem get?_insert (m : FiniteMap α β) (k : α) (v : β) (j : α) :
    (m.insert k v).get? j = if j = k then some v else m.get? j := by
  have herase := lookup_filter m.entries k j
  by_cases hj : j = k
  · subst hj; simp [get?, insert]
  · have hb : (j == k) = false := by simpa using hj
    rw [if_neg hj] at herase ⊢
    simp only [get?, insert, erase, List.lookup_cons, hb]
    exact herase

/-- Look-ups and entries agree. -/
theorem get?_eq_some_iff (m : FiniteMap α β) (k : α) (v : β) :
    m.get? k = some v ↔ (k, v) ∈ m.entries := by
  obtain ⟨entries, distinct⟩ := m
  simp only [get?]
  induction entries with
  | nil => simp
  | cons e rest ih =>
    obtain ⟨i, w⟩ := e
    have hnodup := List.nodup_cons.mp distinct
    by_cases hki : k = i
    · subst hki
      have hnot : (k, v) ∉ rest := fun h => hnodup.1 (List.mem_map.mpr ⟨_, h, rfl⟩)
      simp [hnot, eq_comm]
    · have hb : (k == i) = false := by simpa using hki
      simp [List.lookup_cons, hb, ih hnodup.2, hki]

end FiniteMap

end StackEmbedding
