import Mathlib.Data.List.Nodup
import Mathlib.Data.Finset.Card
import Mathlib.Data.Finset.Range

/-!
Points in time that keep a distance.

A list of points any two of which are at least `g` apart has at most
`T / g + 1` of them in a window of length `T` (`length_window_le`).
-/

namespace Spacing

/-- The points are at least `g` apart. -/
def Apart (g x y : Nat) : Prop := x + g ≤ y ∨ y + g ≤ x

instance (g x y : Nat) : Decidable (Apart g x y) := inferInstanceAs (Decidable (_ ∨ _))

theorem Apart.symm {g x y : Nat} (h : Apart g x y) : Apart g y x := Or.symm h

/-- A later point is apart from what has come before. -/
theorem apart_of_le {g x y z : Nat} (hx : x ≤ z) (hz : z + g ≤ y) : Apart g y x :=
  Or.inr (by omega)

theorem pairwise_append_singleton {g x : Nat} {xs : List Nat} (hxs : xs.Pairwise (Apart g))
    (hx : ∀ y ∈ xs, Apart g x y) : (xs ++ [x]).Pairwise (Apart g) := by
  rw [List.pairwise_append]
  refine ⟨hxs, List.pairwise_singleton _ _, ?_⟩
  intro y hy z hz
  obtain rfl := List.mem_singleton.mp hz
  exact (hx y hy).symm

/-- **Windows.** At most `T / g + 1` points fit into `[a, a + T]`. -/
theorem length_window_le {g : Nat} (hg : 0 < g) {xs : List Nat} (hxs : xs.Pairwise (Apart g))
    (a T : Nat) : (xs.filter fun x => a ≤ x ∧ x ≤ a + T).length ≤ T / g + 1 := by
  generalize hys : (xs.filter fun x => decide (a ≤ x ∧ x ≤ a + T)) = ys
  have hin : ∀ y ∈ ys, a ≤ y ∧ y ≤ a + T := by
    intro y hy
    rw [← hys, List.mem_filter] at hy
    exact of_decide_eq_true hy.2
  have hapart : ys.Pairwise (Apart g) := by
    rw [← hys]
    exact hxs.filter _
  -- no two of them lie in the same of the `T / g + 1` cells of width `g`
  have hnodup : (ys.map fun y => (y - a) / g).Nodup := by
    rw [List.nodup_iff_pairwise_ne, List.pairwise_map]
    refine hapart.imp_of_mem ?_
    intro x y hx hy hxy heq
    have hxa := (hin x hx).1
    have hya := (hin y hy).1
    have hxlo := Nat.div_mul_le_self (x - a) g
    have hylo := Nat.div_mul_le_self (y - a) g
    have hxhi := Nat.lt_div_mul_add (a := x - a) hg
    have hyhi := Nat.lt_div_mul_add (a := y - a) hg
    rw [heq] at hxlo hxhi
    rcases hxy with h | h <;> omega
  have hrange : (ys.map fun y => (y - a) / g).toFinset ⊆ Finset.range (T / g + 1) := by
    intro c hc
    rw [List.mem_toFinset, List.mem_map] at hc
    obtain ⟨y, hy, rfl⟩ := hc
    have hle : (y - a) / g ≤ T / g := Nat.div_le_div_right (by have := hin y hy; omega)
    rw [Finset.mem_range]
    omega
  have hcard := Finset.card_le_card hrange
  rw [List.toFinset_card_of_nodup hnodup, List.length_map, Finset.card_range] at hcard
  exact hcard

end Spacing
