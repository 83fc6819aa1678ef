import StackEmbedding.Machine.Primitive
import StackEmbedding.Proofs.Stack.Edit

/-!
# What a primitive touches

`Machine.touches p k` says, from the machine before the primitive `p`, whether `p` may write or drop
the slot at the raw index `k`. `Machine.Evolves touched m n` says that `n` arises from `m` within
one frame: base, depth, limits and identity are the same, and the stack was edited at indices in
`touched` only.

**What is established here.**
* `perform_evolves`: a primitive edits what it touches and moves no frame, whether it answers or
  panics.
* `base_le_of_touches`: a primitive touches nothing below the base of its frame.

Tables, globals and closures are outside these statements.
-/

set_option autoImplicit false

namespace StackEmbedding.Machine

variable {κ α : Type} {m n o : Machine κ}

/-! ## Evolution within a frame -/

/-- `n` arises from `m` within one frame, by an edit of the stack at indices in `touched`. -/
structure Evolves (touched : Nat → Prop) (m n : Machine κ) : Prop where
  identity : n.identity = m.identity
  limits : n.limits = m.limits
  base : n.base = m.base
  depth : n.depth = m.depth
  edit : Stack.Edit touched m.stack n.stack

namespace Evolves

variable {touched wider : Nat → Prop}

theorem refl (m : Machine κ) : m.Evolves touched m := ⟨rfl, rfl, rfl, rfl, .refl⟩

theorem trans (first : m.Evolves touched n) (second : n.Evolves touched o) :
    m.Evolves touched o where
  identity := second.identity.trans first.identity
  limits := second.limits.trans first.limits
  base := second.base.trans first.base
  depth := second.depth.trans first.depth
  edit := first.edit.trans second.edit

theorem mono (h : m.Evolves touched n) (hsub : ∀ k, touched k → wider k) : m.Evolves wider n :=
  ⟨h.identity, h.limits, h.base, h.depth, h.edit.mono hsub⟩

theorem withStack {stack : Stack} (h : Stack.Edit touched m.stack stack) :
    m.Evolves touched (m.withStack stack) :=
  ⟨rfl, rfl, rfl, rfl, h⟩

theorem push (v : Value) : m.Evolves (m.stack.height ≤ ·) (m.push v) :=
  .withStack (Stack.edit_push v)

end Evolves

/-! ## Positions -/

/-- A position names a slot of the frame. -/
theorem resolve?_eq_some_iff (hbase : m.base ≤ m.stack.height) {position : Int} {raw : Nat} :
    m.resolve? position = some raw ↔ m.base ≤ raw ∧ raw < m.stack.height ∧
      (position = raw - m.base + 1 ∨ position = raw - m.stack.height) := by
  unfold resolve?
  split
  next hpos =>
    simp only [Option.ite_none_right_eq_some, Option.some.injEq]
    omega
  next hpos =>
    split
    next hneg =>
      simp only [Option.ite_none_right_eq_some, Option.some.injEq]
      simp only [top]
      omega
    next hzero =>
      simp only [reduceCtorEq, false_iff]
      omega

theorem base_le_of_resolve? (hbase : m.base ≤ m.stack.height) {position : Int} {raw : Nat}
    (h : m.resolve? position = some raw) : m.base ≤ raw :=
  ((resolve?_eq_some_iff hbase).mp h).1

/-- What a position names lies below the top, in a frame or not. -/
theorem lt_height_of_resolve? {position : Int} {raw : Nat} (h : m.resolve? position = some raw) :
    raw < m.stack.height := by
  unfold resolve? at h
  split at h
  next =>
    simp only [Option.ite_none_right_eq_some, Option.some.injEq] at h
    omega
  next =>
    split at h
    next =>
      simp only [Option.ite_none_right_eq_some, Option.some.injEq] at h
      simp only [top] at h
      omega
    next => cases h

/-! ## Footprints -/

/-- The raw indices whose slots a primitive may write or drop. -/
def touches (m : Machine κ) : Primitive κ → Nat → Prop
  | .setTop position, k =>
    if 0 ≤ position then min m.stack.height (m.base + position.toNat) ≤ k
    else (-position).toNat - 1 ≤ m.top ∧ m.stack.height - ((-position).toNat - 1) ≤ k
  | .pop count, k => count ≤ m.top ∧ m.stack.height - count ≤ k
  | .remove position, k | .insert position, k | .rotate position _, k =>
    ∃ raw, m.resolve? position = some raw ∧ raw ≤ k
  | .replace position, k =>
    ∃ raw, m.resolve? position = some raw ∧ (k = raw ∨ m.stack.height - 1 ≤ k)
  | .copy source target, k => m.resolve? source ≠ none ∧ m.resolve? target = some k
  | .getTable position, k | .setField position _, k =>
    m.resolve? position ≠ none ∧ m.stack.height - 1 ≤ k
  | .setTable position, k => m.resolve? position ≠ none ∧ 2 ≤ m.top ∧ m.stack.height - 2 ≤ k
  | .setGlobal _, k => 1 ≤ m.top ∧ m.stack.height - 1 ≤ k
  | .pushValue _, k | .push _, k | .pushClosure _, k | .createTable, k | .getField .., k
  | .length _, k | .getGlobal _, k => m.stack.height ≤ k
  | .top, _ | .hasCapacity _, _ | .value _, _ | .slotId _, _ | .positionOf _, _ | .identity, _
  | .snapshot, _ => False

/-- A primitive touches nothing below its frame. -/
theorem base_le_of_touches (hbase : m.base ≤ m.stack.height) {p : Primitive κ} {k : Nat}
    (h : m.touches p k) : m.base ≤ k := by
  have hsome : ∀ position, m.resolve? position ≠ none → m.base < m.stack.height := by
    intro position hne
    obtain ⟨raw, hraw⟩ := Option.ne_none_iff_exists'.mp hne
    exact Nat.lt_of_le_of_lt (base_le_of_resolve? hbase hraw) (lt_height_of_resolve? hraw)
  cases p with
  | setTop position =>
    simp only [touches, top] at h
    split at h <;> omega
  | pop count => simp only [touches, top] at h; omega
  | remove position | insert position | rotate position _ =>
    obtain ⟨raw, hraw, hk⟩ := h
    exact Nat.le_trans (base_le_of_resolve? hbase hraw) hk
  | replace position =>
    obtain ⟨raw, hraw, hk⟩ := h
    have := base_le_of_resolve? hbase hraw
    have := lt_height_of_resolve? hraw
    omega
  | copy source target => exact base_le_of_resolve? hbase h.2
  | getTable position | setField position _ => have := hsome position h.1; have := h.2; omega
  | setTable position => simp only [touches, top] at h; omega
  | setGlobal name => simp only [touches, top] at h; omega
  | pushValue _ | push _ | pushClosure _ | createTable | getField _ _ | length _ | getGlobal _ =>
    exact Nat.le_trans hbase h
  | top | hasCapacity _ | value _ | slotId _ | positionOf _ | identity | snapshot => exact h.elim

/-! ## A primitive edits what it touches -/

section Effects

variable {P : Machine κ → Prop}

theorem atPosition_snd {operation : Operation} {position : Int}
    {act : Nat → Outcome (Machine κ) α} (hnone : P m)
    (hsome : ∀ raw, m.resolve? position = some raw → P (act raw).2) :
    P (m.atPosition operation position act).2 := by
  unfold atPosition
  split
  next raw hraw => exact hsome raw hraw
  next => exact hnone

theorem atRaw_snd {raw : Nat} {act : Value → Outcome (Machine κ) α} (hnone : P m)
    (hsome : ∀ v, m.stack.value? raw = some v → P (act v).2) : P (m.atRaw raw act).2 := by
  unfold atRaw
  split
  next v hv => exact hsome v hv
  next => exact hnone

theorem pushFetched_evolves (m : Machine κ) (fetched : Except RuntimeError Value) :
    m.Evolves (m.stack.height ≤ ·) (m.pushFetched fetched).2 := by
  cases fetched <;> exact .push _

theorem store_evolves {touched : Nat → Prop} (m : Machine κ) (operation : Operation)
    (target key value : Value) : m.Evolves touched (m.store operation target key value).2 := by
  unfold store
  split
  · exact .refl m
  · split
    · exact .refl m
    · exact ⟨rfl, rfl, rfl, rfl, .refl⟩

end Effects

theorem setTop_evolves (m : Machine κ) (position : Int) :
    m.Evolves (m.touches (.setTop position)) (m.setTop position).2 := by
  simp only [setTop]
  split
  next hpos =>
    refine .withStack ((Stack.edit_resize _).mono fun k hk => ?_)
    simpa only [touches, if_pos hpos] using hk
  next hneg =>
    split
    next hback =>
      refine .withStack ((Stack.edit_resize _).mono fun k hk => ?_)
      simp only [touches, if_neg hneg]
      exact ⟨hback, by omega⟩
    next => exact .refl m

theorem pop_evolves (m : Machine κ) (count : Nat) :
    m.Evolves (m.touches (.pop count)) (m.pop count).2 := by
  unfold pop
  split
  next hcount => exact .withStack ((Stack.edit_resize _).mono fun k hk => ⟨hcount, by omega⟩)
  next => exact .refl m

theorem insert_evolves (m : Machine κ) (position : Int) :
    m.Evolves (m.touches (.insert position)) (m.insert position).2 := by
  apply atPosition_snd (.refl m)
  intro raw hraw
  have hlt := lt_height_of_resolve? hraw
  have hle : raw ≤ m.stack.dropTop.height := by
    rw [Stack.height_dropTop]
    omega
  have hdrop : Stack.Edit (m.touches (.insert position)) m.stack m.stack.dropTop :=
    Stack.edit_dropTop.mono fun k hk => ⟨raw, hraw, by omega⟩
  exact .withStack (hdrop.trans ((Stack.edit_insert hle _).mono fun k hk => ⟨raw, hraw, hk⟩))

theorem replace_evolves (m : Machine κ) (position : Int) :
    m.Evolves (m.touches (.replace position)) (m.replace position).2 := by
  refine atPosition_snd (.refl m) fun raw hraw => .withStack ?_
  have hdrop : Stack.Edit (m.touches (.replace position)) m.stack m.stack.dropTop :=
    Stack.edit_dropTop.mono fun k hk => ⟨raw, hraw, .inr hk⟩
  split
  next => exact hdrop.overwrite raw _ ⟨raw, hraw, .inl rfl⟩
  next => exact hdrop

theorem copy_evolves (m : Machine κ) (source target : Int) :
    m.Evolves (m.touches (.copy source target)) (m.copy source target).2 := by
  apply atPosition_snd (.refl m)
  intro src hsrc
  apply atPosition_snd (.refl m)
  intro dst hdst
  exact .withStack (Stack.Edit.refl.overwrite dst _ ⟨by simp [hsrc], hdst⟩)

theorem getTable_evolves (m : Machine κ) (position : Int) :
    m.Evolves (m.touches (.getTable position)) (m.getTable position).2 := by
  apply atPosition_snd (.refl m)
  intro raw hraw
  have htouched : ∀ k, m.stack.height - 1 ≤ k → m.touches (.getTable position) k :=
    fun k hk => ⟨by simp [hraw], hk⟩
  have hdrop : m.Evolves (m.touches (.getTable position)) (m.withStack m.stack.dropTop) :=
    .withStack (Stack.edit_dropTop.mono htouched)
  refine atRaw_snd hdrop fun v _ => hdrop.trans ((pushFetched_evolves _ _).mono fun k hk => ?_)
  exact htouched k (by simpa only [withStack, Stack.height_dropTop] using hk)

theorem getField_evolves (m : Machine κ) (position : Int) (name : Bytes) :
    m.Evolves (m.touches (.getField position name)) (m.getField position name).2 := by
  apply atPosition_snd (.refl m)
  intro raw _
  exact atRaw_snd (.refl m) fun v _ => pushFetched_evolves m _

theorem setTable_evolves (m : Machine κ) (position : Int) :
    m.Evolves (m.touches (.setTable position)) (m.setTable position).2 := by
  apply atPosition_snd (.refl m)
  intro raw hraw
  split
  next => exact .refl m
  next htop =>
    have htouched : ∀ k, m.stack.height - 2 ≤ k → m.touches (.setTable position) k :=
      fun k hk => ⟨by simp [hraw], by omega, hk⟩
    have hdrop : m.Evolves (m.touches (.setTable position))
        (m.withStack m.stack.dropTop.dropTop) := by
      refine .withStack (Stack.Edit.trans (Stack.edit_dropTop.mono fun k hk => ?_)
        (Stack.edit_dropTop.mono fun k hk => ?_))
      · exact htouched k (by omega)
      · rw [Stack.height_dropTop] at hk
        exact htouched k (by omega)
    exact atRaw_snd hdrop fun v _ => hdrop.trans (store_evolves _ _ _ _ _)

theorem setField_evolves (m : Machine κ) (position : Int) (name : Bytes) :
    m.Evolves (m.touches (.setField position name)) (m.setField position name).2 := by
  apply atPosition_snd (.refl m)
  intro raw hraw
  have hdrop : m.Evolves (m.touches (.setField position name)) (m.withStack m.stack.dropTop) :=
    .withStack (Stack.edit_dropTop.mono fun k hk => ⟨by simp [hraw], hk⟩)
  exact atRaw_snd hdrop fun v _ => hdrop.trans (store_evolves _ _ _ _ _)

theorem length_evolves (m : Machine κ) (position : Int) :
    m.Evolves (m.touches (.length position)) (m.length position).2 := by
  apply atPosition_snd (.refl m)
  intro raw _
  apply atRaw_snd (.refl m)
  intro v _
  split <;> exact .push _

theorem setGlobal_evolves (m : Machine κ) (name : Bytes) :
    m.Evolves (m.touches (.setGlobal name)) (m.setGlobal name).2 := by
  unfold setGlobal
  split
  next => exact .refl m
  next htop => exact ⟨rfl, rfl, rfl, rfl, Stack.edit_dropTop.mono fun k hk => ⟨by omega, hk⟩⟩

/-- A primitive edits only what it touches and stays in its frame. -/
theorem perform_evolves (m : Machine κ) (p : Primitive κ) :
    m.Evolves (m.touches p) (m.perform p).2 := by
  cases p with
  | top | hasCapacity _ | value _ | slotId _ | positionOf _ | identity | snapshot => exact .refl m
  | setTop position => exact setTop_evolves m position
  | pop count => exact pop_evolves m count
  | remove position =>
    apply atPosition_snd (.refl m)
    intro raw hraw
    have hle := Nat.le_of_lt (lt_height_of_resolve? hraw)
    exact .withStack ((Stack.edit_remove hle).mono fun k hk => ⟨raw, hraw, hk⟩)
  | insert position => exact insert_evolves m position
  | replace position => exact replace_evolves m position
  | copy source target => exact copy_evolves m source target
  | rotate position count =>
    apply atPosition_snd (.refl m)
    intro raw hraw
    have hle := Nat.le_of_lt (lt_height_of_resolve? hraw)
    exact .withStack ((Stack.edit_rotate hle count).mono fun k hk => ⟨raw, hraw, hk⟩)
  | pushValue position => exact atPosition_snd (.refl m) fun raw _ => .push _
  | push v => exact .push v
  | pushClosure _ | createTable => exact ⟨rfl, rfl, rfl, rfl, Stack.edit_push _⟩
  | getTable position => exact getTable_evolves m position
  | getField position name => exact getField_evolves m position name
  | setTable position => exact setTable_evolves m position
  | setField position name => exact setField_evolves m position name
  | length position => exact length_evolves m position
  | getGlobal name => exact .push _
  | setGlobal name => exact setGlobal_evolves m name

end StackEmbedding.Machine
