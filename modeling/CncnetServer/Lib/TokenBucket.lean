import Mathlib.Data.Nat.Basic
import Mathlib.Tactic.Common

/-!
A bucket of tokens that is filled up at intervals.

Once a `period` has gone by since it was filled last, the bucket holds its `limit` again, all at
once. `Refill` says what time alone may make of a bucket, and `Take` what it may be after tokens
were taken out of it. The number of tokens does not grow with the clock, but their `credit` does,
where the lot that comes next counts in proportion to the time that has gone by:

* `Refill.credit_le`: the credit grows by at most `limit` a tick;
* `Take.credit_le`: a token costs `period` of it;
* `credit_le`: it is never worth more than two lots.
-/

namespace TokenBucket

structure Bucket where
  tokens : Nat
  /-- When it was filled up last. -/
  refilled : Nat
  deriving DecidableEq, Repr

/-- From `now` to `now'` a bucket is left alone, or filled up: because a period is over, or
because it was full anyway. -/
inductive Refill (limit period now now' : Nat) : Bucket → Bucket → Prop
  | keep (b : Bucket) : Refill limit period now now' b b
  | fill (b : Bucket) (refilled : Nat) : b.refilled ≤ refilled → refilled ≤ now' →
      (b.tokens = limit ∨ now < refilled ∧ b.refilled + period ≤ refilled) →
      Refill limit period now now' b ⟨limit, refilled⟩

/-- The bucket after `n` tokens were taken; a period may begin anew with a full bucket. -/
structure Take (limit now n : Nat) (b b' : Bucket) : Prop where
  tokens : b'.tokens + n = b.tokens
  refilled : b'.refilled = b.refilled ∨
    b.tokens = limit ∧ b.refilled ≤ b'.refilled ∧ b'.refilled ≤ now

/-- A token is worth a period, and the lot that is due the time since the last one. -/
def credit (limit period now : Nat) (b : Bucket) : Nat :=
  b.tokens * period + limit * min (now - b.refilled) period

variable {limit period now now' n : Nat} {b b' : Bucket}

theorem credit_le (h : b.tokens ≤ limit) : credit limit period now b ≤ 2 * (limit * period) := by
  have htokens := Nat.mul_le_mul_right period h
  have hdue := Nat.mul_le_mul_left limit (Nat.min_le_right (now - b.refilled) period)
  unfold credit
  omega

theorem credit_full (limit period now : Nat) :
    credit limit period now ⟨limit, now⟩ = limit * period := by
  simp [credit]

theorem Refill.credit_le (h : Refill limit period now now' b b') (hle : now ≤ now') :
    credit limit period now' b' ≤ credit limit period now b + limit * (now' - now) := by
  unfold credit
  cases h with
  | keep =>
    have hdue : min (now' - b.refilled) period ≤ min (now - b.refilled) period + (now' - now) := by
      omega
    have hmul := Nat.mul_le_mul_left limit hdue
    rw [Nat.mul_add] at hmul
    omega
  | fill refilled hback hnow hdue =>
    rcases hdue with rfl | ⟨hlate, hperiod⟩
    · have hdue : min (now' - refilled) period ≤ min (now - b.refilled) period + (now' - now) := by
        omega
      have hmul := Nat.mul_le_mul_left b.tokens hdue
      rw [Nat.mul_add] at hmul
      dsimp only
      omega
    · -- the lot that has come was due before, or the time in between makes up for it
      have hdue : period + min (now' - refilled) period ≤
          min (now - b.refilled) period + (now' - now) := by
        omega
      have hmul := Nat.mul_le_mul_left limit hdue
      rw [Nat.mul_add, Nat.mul_add] at hmul
      dsimp only
      omega

theorem Take.credit_le (h : Take limit now n b b') (period : Nat) :
    n * period + credit limit period now b' ≤ credit limit period now b := by
  have htokens : b'.tokens * period + n * period = b.tokens * period := by
    rw [← Nat.add_mul, h.tokens]
  have hdue : min (now - b'.refilled) period ≤ min (now - b.refilled) period := by
    rcases h.refilled with heq | ⟨_, hle, _⟩
    · rw [heq]
    · omega
  have hmul := Nat.mul_le_mul_left limit hdue
  unfold credit
  omega

/-! ## A concrete bucket -/

/-- The bucket as it is found at `now`. -/
def refillTo (limit period now : Nat) (b : Bucket) : Bucket :=
  if b.refilled + period ≤ now then
    ⟨limit, b.refilled + (now - b.refilled) / period * period⟩
  else ⟨min limit b.tokens, b.refilled⟩

/-- Take a token out of the bucket, if there is one. -/
def take (limit period now : Nat) (b : Bucket) : Bool × Bucket :=
  let found := refillTo limit period now b
  if 0 < found.tokens then (true, { found with tokens := found.tokens - 1 }) else (false, found)

theorem refillTo_tokens_le (limit period now : Nat) (b : Bucket) :
    (refillTo limit period now b).tokens ≤ limit := by
  unfold refillTo
  split
  · exact Nat.le_refl _
  · exact Nat.min_le_left _ _

/-- A bucket is full, or its period is not over. -/
theorem refillTo_fresh (limit period now : Nat) (b : Bucket) :
    (refillTo limit period now b).tokens = limit ∨
      now < (refillTo limit period now b).refilled + period := by
  unfold refillTo
  split
  · exact Or.inl rfl
  · rename_i hlate
    exact Or.inr (Nat.not_le.mp hlate)

theorem refill_refillTo (limit period : Nat) (h : now ≤ now') (b : Bucket) :
    Refill limit period now now' (refillTo limit period now b) (refillTo limit period now' b) := by
  unfold refillTo
  by_cases hlate' : b.refilled + period ≤ now'
  · have hnow : b.refilled + (now' - b.refilled) / period * period ≤ now' := by
      have := Nat.div_mul_le_self (now' - b.refilled) period
      omega
    rw [if_pos hlate']
    by_cases hlate : b.refilled + period ≤ now
    · rw [if_pos hlate]
      refine .fill _ _ ?_ hnow (Or.inl rfl)
      exact Nat.add_le_add_left (Nat.mul_le_mul_right _ (Nat.div_le_div_right (by omega))) _
    · rw [if_neg hlate]
      have hone : period ≤ (now' - b.refilled) / period * period := by
        rcases Nat.eq_zero_or_pos period with rfl | hpos
        · exact Nat.zero_le _
        · exact Nat.le_mul_of_pos_left period (Nat.div_pos (by omega) hpos)
      refine .fill _ _ ?_ hnow (Or.inr ⟨?_, ?_⟩)
      · exact Nat.le_add_right _ _
      · omega
      · exact Nat.add_le_add_left hone _
  · have hlate : ¬ b.refilled + period ≤ now := fun hlate => hlate' (Nat.le_trans hlate h)
    rw [if_neg hlate', if_neg hlate]
    exact .keep _

/-- A bucket that has been found at `now` is found the same again. -/
theorem refillTo_found (hperiod : 0 < period) (b : Bucket) {tokens : Nat}
    (h : tokens ≤ (refillTo limit period now b).tokens) :
    refillTo limit period now ⟨tokens, (refillTo limit period now b).refilled⟩ =
      ⟨tokens, (refillTo limit period now b).refilled⟩ := by
  have hle := Nat.le_trans h (refillTo_tokens_le limit period now b)
  have hearly : ¬ (refillTo limit period now b).refilled + period ≤ now := by
    unfold refillTo
    split
    · have := Nat.lt_div_mul_add (a := now - b.refilled) hperiod
      dsimp only
      omega
    · rename_i hlate
      exact hlate
  rw [refillTo, if_neg hearly, Nat.min_eq_right hle]

theorem take_refillTo (hperiod : 0 < period) (limit now : Nat) (b : Bucket) :
    Take limit now (take limit period now b).1.toNat (refillTo limit period now b)
      (refillTo limit period now (take limit period now b).2) := by
  unfold take
  dsimp only
  split
  · rename_i htokens
    rw [refillTo_found hperiod b (Nat.sub_le _ 1)]
    exact ⟨Nat.sub_add_cancel htokens, Or.inl rfl⟩
  · rw [refillTo_found hperiod b (Nat.le_refl _)]
    exact ⟨rfl, Or.inl rfl⟩

end TokenBucket
