import StackEmbedding.FiniteMap

/-!
# Heaps: objects named by the order of their creation

A `Heap α` holds objects that outlive the values which name them. An object is named by its
number, counted from zero in the order of creation; two names are the same object exactly when the
numbers are equal. Reading a number that was never given out answers nothing.
-/

namespace StackEmbedding

/-- Objects by number, and the number that the next one gets. -/
structure Heap (α : Type) where
  objects : FiniteMap Nat α
  next : Nat

namespace Heap

variable {α : Type}

/-- The heap without objects. -/
def empty : Heap α := ⟨∅, 0⟩

instance : EmptyCollection (Heap α) := ⟨empty⟩

/-- The object of this number. -/
def get? (h : Heap α) (n : Nat) : Option α := h.objects.get? n

/-- A new object and its number. -/
def create (h : Heap α) (a : α) : Nat × Heap α := (h.next, ⟨h.objects.insert h.next a, h.next + 1⟩)

/-- The heap with another object under a number. -/
def set (h : Heap α) (n : Nat) (a : α) : Heap α := { h with objects := h.objects.insert n a }

@[simp] theorem get?_set (h : Heap α) (n : Nat) (a : α) (k : Nat) :
    (h.set n a).get? k = if k = n then some a else h.get? k := by simp [get?, set]

@[simp] theorem get?_create (h : Heap α) (a : α) (k : Nat) :
    (h.create a).2.get? k = if k = h.next then some a else h.get? k := by simp [get?, create]

end Heap

end StackEmbedding
