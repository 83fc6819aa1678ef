import StackEmbedding.Proofs.Program.Objects

/-!
# The code of a function never changes

A native function means what the host says, always. A closure means the code that the heap holds
under its number, and the heap changes while a run goes on. `Host.Means` says what a value means at
one moment, and `Reachable.means` that it means the same at every later moment: a run only ever
adds closures, under numbers that were not given out before.
-/

set_option autoImplicit false

namespace StackEmbedding

variable {κ σ α : Type}

namespace Heap

variable {h k l : Heap α}

/-- `k` arises from `h` by creating objects. -/
inductive Grows (h : Heap α) : Heap α → Prop
  | refl : Grows h h
  | create {k : Heap α} (a : α) : Grows h k → Grows h (k.create a).2

/-- Every object has a number that was given out. -/
def Numbered (h : Heap α) : Prop := ∀ n a, h.get? n = some a → n < h.next

theorem numbered_empty : (∅ : Heap α).Numbered := by
  intro n a hn
  cases hn

theorem Numbered.create (hh : h.Numbered) (a : α) : (h.create a).2.Numbered := by
  intro n b hn
  rw [get?_create] at hn
  show n < h.next + 1
  split at hn
  next heq => omega
  next => exact Nat.lt_succ_of_lt (hh n b hn)

namespace Grows

theorem trans (first : Grows h k) (second : Grows k l) : Grows h l := by
  induction second with
  | refl => exact first
  | create a _ ih => exact ih.create a

theorem numbered (hgrows : Grows h k) (hh : h.Numbered) : k.Numbered := by
  induction hgrows with
  | refl => exact hh
  | create a _ ih => exact ih.create a

/-- Objects keep their contents while a heap grows. -/
theorem get? (hgrows : Grows h k) (hh : h.Numbered) {n : Nat} {a : α} (hn : h.get? n = some a) :
    k.get? n = some a := by
  induction hgrows with
  | refl => exact hn
  | create b before ih =>
    have hlt := (before.numbered hh) n a ih
    rw [get?_create, if_neg (Nat.ne_of_lt hlt)]
    exact ih

end Grows

end Heap

/-- A value is a function, and this is its code. -/
inductive Host.Means (host : Host κ σ) (m : Machine κ) : Value → Body κ σ → Prop
  | native (f : Native) : host.Means m (.function f) (host.native f)
  | closure {id : ClosureId} {code : κ} :
      m.closures.get? id = some code → host.Means m (.closure id) (host.closure code)

variable {host : Host κ σ} {m n : Machine κ} {v : Value} {body : Body κ σ}

/-- What is run for a function is its code. -/
theorem Host.Means.body? (h : host.Means m v body) : host.body? m v = some body := by
  cases h with
  | native f => rfl
  | closure hcode => simp only [Host.body?, hcode, Option.elim_some]

theorem Host.Means.grows (h : host.Means m v body) (hnumbered : m.closures.Numbered)
    (hgrows : m.closures.Grows n.closures) : host.Means n v body := by
  cases h with
  | native f => exact .native f
  | closure hcode => exact .closure (hgrows.get? hnumbered hcode)

/-! ## What a run does to the closures -/

/-- A machine that differs in at most one object has at most one closure more. -/
theorem Machine.ObjectStep.closures_grow (h : m.ObjectStep n) : m.closures.Grows n.closures := by
  cases h with
  | same h | createTable h | store _ h | setGlobal _ _ h =>
    have hclosures : n.closures = m.closures := congrArg Objects.closures h
    rw [hclosures]
    exact .refl
  | createClosure code h =>
    have hclosures : n.closures = (m.closures.create code).2 := congrArg Objects.closures h
    rw [hclosures]
    exact Heap.Grows.refl.create code

namespace Configuration

variable {c d : Configuration κ σ}

/-- Between two moments of a run, closures are created and never changed. -/
theorem Leads.grows {allowed : Configuration κ σ → Prop} (h : Leads host allowed c d) :
    c.machine.closures.Grows d.machine.closures := by
  induction h with
  | refl => exact .refl
  | step _ _ hstep ih => exact ih.trans (step_objects hstep).closures_grow
  | restart memory code _ _ ih => exact ih

theorem Reachable.numbered (hc : Reachable host c) : c.machine.closures.Numbered := by
  obtain ⟨identity, limits, memory, code, hstart⟩ := hc
  exact hstart.grows.numbered Heap.numbered_empty

/-- A function has the same code at every later moment of a run. -/
theorem Reachable.means {allowed : Configuration κ σ → Prop} (hc : Reachable host c)
    (h : Leads host allowed c d) {v : Value} {body : Body κ σ}
    (hmeans : host.Means c.machine v body) : host.Means d.machine v body :=
  hmeans.grows hc.numbered h.grows

end Configuration

end StackEmbedding
