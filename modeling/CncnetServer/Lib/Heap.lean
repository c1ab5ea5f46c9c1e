import Mathlib.Logic.Function.Basic

/-!
Shared references: cells that several owners see, handed out one after another.

An allocation never touches a cell that was handed out before, so what is known
of such a cell (`r < h.next`) survives it; `modify` changes one cell for all owners.
-/

abbrev Ref := Nat

structure Heap (C : Type) where
  cell : Ref → C
  next : Ref

namespace Heap

variable {C : Type}

/-- Store `c` in a new cell, `h.next`. -/
def alloc (h : Heap C) (c : C) : Heap C := ⟨Function.update h.cell h.next c, h.next + 1⟩

def modify (h : Heap C) (r : Ref) (f : C → C) : Heap C :=
  { h with cell := Function.update h.cell r (f (h.cell r)) }

@[simp] theorem next_alloc (h : Heap C) (c : C) : (h.alloc c).next = h.next + 1 := rfl

@[simp] theorem cell_alloc_next (h : Heap C) (c : C) : (h.alloc c).cell h.next = c := by
  simp [alloc]

theorem cell_alloc_of_lt (h : Heap C) (c : C) {r : Ref} (hr : r < h.next) :
    (h.alloc c).cell r = h.cell r := by
  have hne : r ≠ h.next := Nat.ne_of_lt hr
  simp [alloc, hne]

@[simp] theorem next_modify (h : Heap C) (r : Ref) (f : C → C) : (h.modify r f).next = h.next := rfl

theorem cell_modify (h : Heap C) (r j : Ref) (f : C → C) :
    (h.modify r f).cell j = if j = r then f (h.cell j) else h.cell j := by
  unfold modify
  by_cases hj : j = r
  · subst hj; simp
  · simp [hj]

/-- What `f` leaves as it is, `modify` leaves as it is in every cell. -/
theorem apply_cell_modify {α : Type} (g : C → α) {f : C → C} (hf : ∀ c, g (f c) = g c)
    (h : Heap C) (r j : Ref) : g ((h.modify r f).cell j) = g (h.cell j) := by
  rw [cell_modify]
  split
  · exact hf _
  · rfl

end Heap
