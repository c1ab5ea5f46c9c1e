import Mathlib.Data.Nat.Basic

/-!
Buffers of a fixed size that are written in place, over and over.

`SameFrom k` says that two buffers agree from the index `k` on: no write below `k` breaks
it, so what only ever writes below `k` leaves the rest as it was at the start. `mapPrefix`
is a loop that applies a function to the entries below `k`, one after another.
-/

namespace Buffers

variable {α : Type*} {n : Nat}

/-- The loop `for i in 0..k` with `b[i] = f(b[i])` for its body. -/
def mapPrefix (f : α → α) : (k : Nat) → k ≤ n → Vector α n → Vector α n
  | 0, _, b => b
  | k + 1, h, b =>
    let b := mapPrefix f k (Nat.le_of_succ_le h) b
    b.set k (f b[k])

theorem getElem_mapPrefix (f : α → α) (b : Vector α n) {k : Nat} (hk : k ≤ n) {j : Nat}
    (hj : j < n) : (mapPrefix f k hk b)[j] = if j < k then f b[j] else b[j] := by
  induction k with
  | zero => rfl
  | succ k ih =>
    have hbelow := ih (Nat.le_of_succ_le hk)
    unfold mapPrefix
    dsimp only
    rw [Vector.getElem_set]
    by_cases hlast : k = j
    · subst hlast
      have hself := ih (Nat.le_of_succ_le hk)
      rw [if_neg (Nat.lt_irrefl k)] at hself
      rw [if_pos rfl, if_pos (Nat.lt_succ_self k), hself]
    · rw [if_neg hlast, hbelow]
      by_cases hlt : j < k
      · rw [if_pos hlt, if_pos (Nat.lt_succ_of_lt hlt)]
      · rw [if_neg hlt, if_neg (by omega)]

def SameFrom (k : Nat) (b b' : Vector α n) : Prop := ∀ j (hj : j < n), k ≤ j → b[j] = b'[j]

namespace SameFrom

variable {k : Nat} {b b' b'' : Vector α n}

theorem refl (k : Nat) (b : Vector α n) : SameFrom k b b := fun _ _ _ => rfl

theorem symm (h : SameFrom k b b') : SameFrom k b' b := fun j hj hk => (h j hj hk).symm

theorem trans (h : SameFrom k b b') (h' : SameFrom k b' b'') : SameFrom k b b'' :=
  fun j hj hk => (h j hj hk).trans (h' j hj hk)

theorem set {i : Nat} (hi : i < n) (hik : i < k) (b : Vector α n) (x : α) :
    SameFrom k (b.set i x) b := by
  intro j hj hk
  exact Vector.getElem_set_ne hi hj (by omega)

theorem mapPrefix (f : α → α) (hk : k ≤ n) (b : Vector α n) :
    SameFrom k (mapPrefix f k hk b) b := by
  intro j hj hle
  rw [getElem_mapPrefix, if_neg (Nat.not_lt.mpr hle)]

/-- Buffers that agree from `k` on and below it are equal. -/
theorem eq_of_lt (h : SameFrom k b b') (hlt : ∀ j (hj : j < n), j < k → b[j] = b'[j]) : b = b' := by
  apply Vector.ext
  intro j hj
  rcases Nat.lt_or_ge j k with hjk | hjk
  · exact hlt j hj hjk
  · exact h j hj hjk

end SameFrom

end Buffers
