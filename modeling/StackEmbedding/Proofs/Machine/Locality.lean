import StackEmbedding.Proofs.Machine.Footprint
import StackEmbedding.Proofs.Stack.Above

/-!
# Primitives see the frame only

`Machine.Alike b₁ b₂ m n` says that two machines agree on everything but what lies below the raw
index `b₁` of the one and `b₂` of the other: the values there, how many they are, and all stamps.
The bases of their frames lie equally far above these indices.

**What is established here.** `perform_alike`: an ordinary primitive answers the same on both, a
panic with its text included, and leaves them alike.

**What is not ordinary.** `Primitive.hasCapacity` and slot identities depend on raw indices by
purpose, `Primitive.identity` tells machines apart, and `Primitive.snapshot` shows the whole
machine. A raw index also stands in the text of `Panic.outOfBounds`, so that panic is set apart.
-/

set_option autoImplicit false

namespace StackEmbedding

/-- A primitive that answers nothing about raw indices, stamps or the machine's identity. -/
def Primitive.Ordinary {κ : Type} : Primitive κ → Prop
  | .hasCapacity _ | .slotId _ | .positionOf _ | .identity | .snapshot => False
  | _ => True

namespace Machine

variable {κ α : Type} {m n : Machine κ} {b₁ b₂ : Nat}

/-- The machines agree on everything above `b₁` and `b₂` and besides the stack. -/
structure Alike (b₁ b₂ : Nat) (m n : Machine κ) : Prop where
  limits : m.limits = n.limits
  depth : m.depth = n.depth
  globals : m.globals = n.globals
  tables : m.tables = n.tables
  closures : m.closures = n.closures
  base : ∃ j, m.base = b₁ + j ∧ n.base = b₂ + j
  stack : Stack.Alike b₁ b₂ m.stack n.stack

/-- Two outcomes that are the same on machines alike, unless the first is the panic whose text
tells a raw index. -/
def AlikeOutcome (b₁ b₂ : Nat) (x y : Outcome (Machine κ) α) : Prop :=
  (∃ height raw, x.1 = .error (.outOfBounds height raw)) ∨ x.1 = y.1 ∧ Alike b₁ b₂ x.2 y.2

namespace Alike

theorem withStack (h : Alike b₁ b₂ m n) {s t : Stack} (hst : Stack.Alike b₁ b₂ s t) :
    Alike b₁ b₂ (m.withStack s) (n.withStack t) :=
  ⟨h.limits, h.depth, h.globals, h.tables, h.closures, h.base, hst⟩

theorem push (h : Alike b₁ b₂ m n) (v : Value) : Alike b₁ b₂ (m.push v) (n.push v) :=
  h.withStack (h.stack.push v)

/-- Heights and bases are equally far above the two indices. -/
theorem offsets (h : Alike b₁ b₂ m n) :
    ∃ j k, m.base = b₁ + j ∧ n.base = b₂ + j ∧
      m.stack.height = b₁ + k ∧ n.stack.height = b₂ + k := by
  obtain ⟨j, hm, hn⟩ := h.base
  obtain ⟨k, hs, ht⟩ := h.stack.height
  exact ⟨j, k, hm, hn, hs, ht⟩

theorem top (h : Alike b₁ b₂ m n) : m.top = n.top := by
  obtain ⟨j, k, hm, hn, hs, ht⟩ := h.offsets
  simp only [Machine.top]
  omega

/-- A position names slots equally far above the two indices, or none. -/
theorem resolve? (h : Alike b₁ b₂ m n) (position : Int) :
    (∃ k, m.resolve? position = some (b₁ + k) ∧ n.resolve? position = some (b₂ + k) ∧
      b₁ + k < m.stack.height) ∨
    m.resolve? position = none ∧ n.resolve? position = none := by
  obtain ⟨j, k, hm, hn, hs, ht⟩ := h.offsets
  have htop := h.top
  unfold Machine.resolve?
  by_cases hpositive : 0 < position
  · rw [if_pos hpositive, if_pos hpositive]
    by_cases hlt : j + (position.toNat - 1) < k
    · refine .inl ⟨j + (position.toNat - 1), ?_, ?_, by omega⟩ <;>
        rw [if_pos (by omega), Option.some.injEq] <;> omega
    · exact .inr ⟨if_neg (by omega), if_neg (by omega)⟩
  · rw [if_neg hpositive, if_neg hpositive]
    by_cases hnegative : position < 0
    · rw [if_pos hnegative, if_pos hnegative, ← htop]
      by_cases hback : (-position).toNat ≤ m.top
      · rw [if_pos hback, if_pos hback]
        have hle : m.top ≤ k := by
          simp only [Machine.top]
          omega
        exact .inl ⟨k - (-position).toNat, by rw [Option.some.injEq]; omega,
          by rw [Option.some.injEq]; omega, by omega⟩
      · exact .inr ⟨if_neg hback, if_neg hback⟩
    · rw [if_neg hnegative, if_neg hnegative]
      exact .inr ⟨rfl, rfl⟩

theorem value? (h : Alike b₁ b₂ m n) (position : Int) : m.value? position = n.value? position := by
  rcases h.resolve? position with ⟨k, hm, hn, -⟩ | ⟨hm, hn⟩
  · simp only [Machine.value?, hm, hn, Option.bind_some, h.stack.value? k]
  · simp only [Machine.value?, hm, hn, Option.bind_none]

theorem atPosition (h : Alike b₁ b₂ m n) (operation : Operation) (position : Int)
    {f g : Nat → Outcome (Machine κ) α}
    (hact : ∀ k, b₁ + k < m.stack.height → AlikeOutcome b₁ b₂ (f (b₁ + k)) (g (b₂ + k))) :
    AlikeOutcome b₁ b₂ (m.atPosition operation position f) (n.atPosition operation position g) := by
  unfold Machine.atPosition
  rcases h.resolve? position with ⟨k, hm, hn, hlt⟩ | ⟨hm, hn⟩
  · rw [hm, hn]
    exact hact k hlt
  · rw [hm, hn]
    exact .inr ⟨rfl, h⟩

theorem atRaw (h : Alike b₁ b₂ m n) {k : Nat} {f g : Value → Outcome (Machine κ) α}
    (hact : ∀ v, AlikeOutcome b₁ b₂ (f v) (g v)) :
    AlikeOutcome b₁ b₂ (m.atRaw (b₁ + k) f) (n.atRaw (b₂ + k) g) := by
  unfold Machine.atRaw
  rw [← h.stack.value? k]
  cases m.stack.value? (b₁ + k) with
  | some v => exact hact v
  | none => exact .inl ⟨_, _, rfl⟩

theorem table (h : Alike b₁ b₂ m n) (id : TableId) : m.table id = n.table id := by
  simp only [Machine.table, h.tables]

theorem pushFetched (h : Alike b₁ b₂ m n) (fetched : Except RuntimeError Value) :
    AlikeOutcome b₁ b₂ (m.pushFetched fetched) (n.pushFetched fetched) := by
  cases fetched <;> exact .inr ⟨rfl, h.push _⟩

theorem store (h : Alike b₁ b₂ m n) (operation : Operation) (target key v : Value) :
    AlikeOutcome b₁ b₂ (m.store operation target key v) (n.store operation target key v) := by
  unfold Machine.store
  cases indexable operation target with
  | error e => exact .inr ⟨rfl, h⟩
  | ok id =>
    dsimp only
    rw [h.table id, h.tables]
    cases (n.table id).set key v with
    | error e => exact .inr ⟨rfl, h⟩
    | ok t => exact .inr ⟨rfl, h.limits, h.depth, h.globals, rfl, h.closures, h.base, h.stack⟩

end Alike

section Operations

variable (h : Alike b₁ b₂ m n)
include h

/-- Cutting the frame to a size that is counted from the top. -/
theorem Alike.resize_back {back : Nat} (hback : back ≤ m.top) :
    Alike b₁ b₂ (m.withStack (m.stack.resize (m.stack.height - back)))
      (n.withStack (n.stack.resize (n.stack.height - back))) := by
  obtain ⟨j, k, hm, hn, hs, ht⟩ := h.offsets
  have hle : back ≤ k := by
    simp only [Machine.top] at hback
    omega
  have hs' : m.stack.height - back = b₁ + (k - back) := by omega
  have ht' : n.stack.height - back = b₂ + (k - back) := by omega
  rw [hs', ht']
  exact h.withStack (h.stack.resize _)

theorem setTop_alike (position : Int) :
    AlikeOutcome b₁ b₂ (m.setTop position) (n.setTop position) := by
  unfold setTop
  by_cases hpositive : 0 ≤ position
  · obtain ⟨j, hm, hn⟩ := h.base
    rw [if_pos hpositive, if_pos hpositive, hm, hn, Nat.add_assoc, Nat.add_assoc]
    exact .inr ⟨rfl, h.withStack (h.stack.resize _)⟩
  · rw [if_neg hpositive, if_neg hpositive, ← h.top]
    by_cases hback : (-position).toNat - 1 ≤ m.top
    · rw [if_pos hback, if_pos hback]
      exact .inr ⟨rfl, h.resize_back hback⟩
    · rw [if_neg hback, if_neg hback]
      exact .inr ⟨rfl, h⟩

theorem pop_alike (count : Nat) : AlikeOutcome b₁ b₂ (m.pop count) (n.pop count) := by
  unfold pop
  rw [← h.top]
  by_cases hcount : count ≤ m.top
  · rw [if_pos hcount, if_pos hcount]
    exact .inr ⟨rfl, h.resize_back hcount⟩
  · rw [if_neg hcount, if_neg hcount]
    exact .inr ⟨rfl, h⟩

theorem insert_alike (position : Int) :
    AlikeOutcome b₁ b₂ (m.insert position) (n.insert position) := by
  apply h.atPosition
  intro k hk
  have hpositive : b₁ < m.stack.height := Nat.lt_of_le_of_lt (Nat.le_add_right b₁ k) hk
  rw [h.stack.top? hpositive]
  refine .inr ⟨rfl, h.withStack ((h.stack.dropTop hpositive).insert ?_ _)⟩
  rw [Stack.height_dropTop]
  omega

theorem replace_alike (position : Int) :
    AlikeOutcome b₁ b₂ (m.replace position) (n.replace position) := by
  apply h.atPosition
  intro k hk
  have hpositive : b₁ < m.stack.height := Nat.lt_of_le_of_lt (Nat.le_add_right b₁ k) hk
  have hdrop := h.stack.dropTop hpositive
  obtain ⟨l, hs, ht⟩ := hdrop.height
  rw [h.stack.top? hpositive]
  by_cases hlt : k < l
  · simp only [if_pos (show b₁ + k < m.stack.dropTop.height by omega),
      if_pos (show b₂ + k < n.stack.dropTop.height by omega)]
    exact .inr ⟨rfl, h.withStack (hdrop.overwrite k _)⟩
  · simp only [if_neg (show ¬ b₁ + k < m.stack.dropTop.height by omega),
      if_neg (show ¬ b₂ + k < n.stack.dropTop.height by omega)]
    exact .inr ⟨rfl, h.withStack hdrop⟩

theorem copy_alike (source target : Int) :
    AlikeOutcome b₁ b₂ (m.copy source target) (n.copy source target) := by
  refine h.atPosition _ _ fun k hk => h.atPosition _ _ fun l hl => ?_
  rw [h.stack.value? k]
  exact .inr ⟨rfl, h.withStack (h.stack.overwrite l _)⟩

theorem getTable_alike (position : Int) :
    AlikeOutcome b₁ b₂ (m.getTable position) (n.getTable position) := by
  apply h.atPosition
  intro k hk
  have hpositive : b₁ < m.stack.height := Nat.lt_of_le_of_lt (Nat.le_add_right b₁ k) hk
  have hrest := h.withStack (h.stack.dropTop hpositive)
  rw [h.stack.top? hpositive]
  apply hrest.atRaw
  intro v
  have hfetched : ∀ id, (m.withStack m.stack.dropTop).table id =
    (n.withStack n.stack.dropTop).table id := hrest.table
  simp only [hfetched]
  exact hrest.pushFetched _

theorem setTable_alike (position : Int) :
    AlikeOutcome b₁ b₂ (m.setTable position) (n.setTable position) := by
  apply h.atPosition
  intro k hk
  rw [← h.top]
  by_cases htop : m.top < 2
  · rw [if_pos htop, if_pos htop]
    exact .inr ⟨rfl, h⟩
  · obtain ⟨j, l, hm, hn, hs, ht⟩ := h.offsets
    have hheight : b₁ + 1 < m.stack.height := by
      simp only [Machine.top] at htop
      omega
    have hdrop := h.stack.dropTop (Nat.lt_of_succ_lt hheight)
    have hpositive : b₁ < m.stack.dropTop.height := by
      rw [Stack.height_dropTop]
      omega
    rw [if_neg htop, if_neg htop, h.stack.top? (Nat.lt_of_succ_lt hheight),
      hdrop.top? hpositive]
    have hrest := h.withStack (hdrop.dropTop hpositive)
    exact hrest.atRaw fun v => hrest.store _ _ _ _

theorem setField_alike (position : Int) (name : Bytes) :
    AlikeOutcome b₁ b₂ (m.setField position name) (n.setField position name) := by
  apply h.atPosition
  intro k hk
  have hpositive : b₁ < m.stack.height := Nat.lt_of_le_of_lt (Nat.le_add_right b₁ k) hk
  have hrest := h.withStack (h.stack.dropTop hpositive)
  rw [h.stack.top? hpositive]
  exact hrest.atRaw fun v => hrest.store _ _ _ _

theorem length_alike (position : Int) :
    AlikeOutcome b₁ b₂ (m.length position) (n.length position) := by
  refine h.atPosition _ _ fun k hk => h.atRaw fun v => ?_
  have hlength : m.lengthOf v = n.lengthOf v := by
    cases v <;> simp only [lengthOf, h.table]
  rw [hlength]
  cases n.lengthOf v <;> exact .inr ⟨rfl, h.push _⟩

theorem setGlobal_alike (name : Bytes) :
    AlikeOutcome b₁ b₂ (m.setGlobal name) (n.setGlobal name) := by
  unfold setGlobal
  rw [← h.top]
  by_cases htop : m.top < 1
  · rw [if_pos htop, if_pos htop]
    exact .inr ⟨rfl, h⟩
  · obtain ⟨j, l, hm, hn, hs, ht⟩ := h.offsets
    have hpositive : b₁ < m.stack.height := by
      simp only [Machine.top] at htop
      omega
    rw [if_neg htop, if_neg htop, h.stack.top? hpositive, h.globals]
    exact .inr ⟨rfl, h.limits, h.depth, rfl, h.tables, h.closures, h.base,
      h.stack.dropTop hpositive⟩

/-- An ordinary primitive answers the same on machines alike, and leaves them alike. -/
theorem perform_alike {p : Primitive κ} (hp : p.Ordinary) :
    AlikeOutcome b₁ b₂ (m.perform p) (n.perform p) := by
  cases p with
  | hasCapacity _ | slotId _ | positionOf _ | identity | snapshot => exact hp.elim
  | top => exact .inr ⟨congrArg Except.ok h.top, h⟩
  | setTop position => exact setTop_alike h position
  | pop count => exact pop_alike h count
  | remove position =>
    exact h.atPosition _ _ fun k hk =>
      .inr ⟨rfl, h.withStack (h.stack.remove (Nat.le_of_lt hk))⟩
  | insert position => exact insert_alike h position
  | replace position => exact replace_alike h position
  | copy source target => exact copy_alike h source target
  | rotate position count =>
    exact h.atPosition _ _ fun k hk =>
      .inr ⟨rfl, h.withStack (h.stack.rotate (Nat.le_of_lt hk) count)⟩
  | pushValue position =>
    apply h.atPosition
    intro k hk
    rw [h.stack.value? k]
    exact .inr ⟨rfl, h.push _⟩
  | push v => exact .inr ⟨rfl, h.push v⟩
  | pushClosure code =>
    simp only [perform, pushClosure, h.closures]
    exact .inr ⟨rfl, h.limits, h.depth, h.globals, h.tables, rfl, h.base, h.stack.push _⟩
  | value position => exact .inr ⟨congrArg Except.ok (h.value? position), h⟩
  | createTable =>
    simp only [perform, createTable, h.tables]
    exact .inr ⟨rfl, h.limits, h.depth, h.globals, rfl, h.closures, h.base, h.stack.push _⟩
  | getTable position => exact getTable_alike h position
  | getField position name =>
    refine h.atPosition _ _ fun k hk => h.atRaw fun v => ?_
    simp only [h.table]
    exact h.pushFetched _
  | setTable position => exact setTable_alike h position
  | setField position name => exact setField_alike h position name
  | length position => exact length_alike h position
  | getGlobal name =>
    simp only [perform, getGlobal, h.globals]
    exact .inr ⟨rfl, h.push _⟩
  | setGlobal name => exact setGlobal_alike h name

end Operations

end Machine

end StackEmbedding
