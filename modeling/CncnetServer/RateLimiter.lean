import CncnetServer.Net
import CncnetServer.Lib.DashMap
import CncnetServer.Lib.TokenBucket

/-!
`rate_limiter.rs`: two wrappers around the token buckets of the crate `rater`,
which is not part of the repository and enters as a parameter.
-/

namespace CncnetServer

/-- `rater::RateLimiterConfig::new(max_tokens, refill_tokens, refill_interval_ms)`. -/
structure RateLimiterConfig where
  maxTokens : UInt64
  refillTokens : UInt32
  refillIntervalMs : UInt64
  deriving DecidableEq, Repr

/-- `rater::IpRateLimiterManager` with state `R`; calls that read the clock take
the reading. -/
structure Rater (R : Type) where
  withCleanupSettings : RateLimiterConfig → UInt64 → UInt64 → R
  tryAcquire : R → IpAddr → Nat → Bool × R
  clear : R → R

/-- The answer for an address depends only on the earlier calls for that address
and the clock: there is a state for each address that only its own calls move. -/
structure Rater.PerAddress {R : Type} (rater : Rater R) where
  Bucket : Type
  bucket : R → IpAddr → Bucket
  answer : Bucket → Nat → Bool
  spend : Bucket → Nat → Bucket
  tryAcquire_answer : ∀ r ip t, (rater.tryAcquire r ip t).1 = answer (bucket r ip) t
  bucket_tryAcquire : ∀ r ip t ip', bucket (rater.tryAcquire r ip t).2 ip' =
    if ip' = ip then spend (bucket r ip') t else bucket r ip'

variable {R : Type} (rater : Rater R)

namespace ConnectionRateLimiter

def new (maxPerIp : UInt32) : R :=
  rater.withCleanupSettings ⟨maxPerIp.toUInt64, maxPerIp, 60000⟩ 60000 300000

/-- Consume one token for `ip`; `true` if under the limit. -/
def tryAcquire (limiter : R) (ip : IpAddr) (now : Nat) : Bool × R :=
  rater.tryAcquire limiter ip now

end ConnectionRateLimiter

namespace RateLimiter

def new (windowSeconds : UInt64) (maxPerIp : UInt32) : R :=
  rater.withCleanupSettings ⟨maxPerIp.toUInt64, maxPerIp, windowSeconds * 1000⟩
    (windowSeconds * 1000) (windowSeconds * 5000)

/-- `true` if the request is allowed. -/
def checkAndIncrement (limiter : R) (ip : IpAddr) (now : Nat) : Bool × R :=
  rater.tryAcquire limiter ip now

/-- Clear all tracked addresses. -/
def reset (limiter : R) : R := rater.clear limiter

end RateLimiter

/-- The addresses a manager keeps at most; it refuses the others. -/
def Rater.maxTracked : Nat := 10000

/-- `try_acquire` takes from a bucket for each address, which holds the limit at first, after
`clear`, and again whenever 60 seconds are over. -/
structure Rater.Bucketed {R : Type} (rater : Rater R) (second : Nat) where
  limit : R → Nat
  /-- The bucket of an address as it is found at a clock reading. -/
  bucket : R → IpAddr → Nat → TokenBucket.Bucket
  limit_new : ∀ n, limit (ConnectionRateLimiter.new rater n) = n.toNat
  limit_tryAcquire : ∀ r ip t, limit (rater.tryAcquire r ip t).2 = limit r
  limit_clear : ∀ r, limit (rater.clear r) = limit r
  bucket_new : ∀ n ip t, bucket (ConnectionRateLimiter.new rater n) ip t = ⟨n.toNat, t⟩
  bucket_clear : ∀ r ip t, bucket (rater.clear r) ip t = ⟨limit r, t⟩
  tokens_le : ∀ r ip t, (bucket r ip t).tokens ≤ limit r
  refill : ∀ r ip t t', t ≤ t' →
    TokenBucket.Refill (limit r) (60 * second) t t' (bucket r ip t) (bucket r ip t')
  take : ∀ r ip t ip', TokenBucket.Take (limit r) t
    (decide (ip' = ip) && (rater.tryAcquire r ip t).1).toNat (bucket r ip' t)
    (bucket (rater.tryAcquire r ip t).2 ip' t)

/-- Who is refused: an address whose bucket is empty, or one that is not tracked when as many
are as can be. -/
structure Rater.Bucketed.Tracks {R : Type} {rater : Rater R} {second : Nat}
    (law : rater.Bucketed second) where
  tracked : R → Finset IpAddr
  tracked_new : ∀ n, tracked (ConnectionRateLimiter.new rater n) = ∅
  tracked_clear : ∀ r, tracked (rater.clear r) = ∅
  tracked_tryAcquire : ∀ r ip t, tracked (rater.tryAcquire r ip t).2 ⊆ insert ip (tracked r)
  fresh : ∀ r ip t,
    (law.bucket r ip t).tokens = law.limit r ∨ t < (law.bucket r ip t).refilled + 60 * second
  grants : ∀ r ip t, 0 < (law.bucket r ip t).tokens →
    ip ∈ tracked r ∨ (tracked r).card < maxTracked → (rater.tryAcquire r ip t).1 = true

namespace Rater.Bucketed

variable {rater} {second : Nat} (law : rater.Bucketed second)

/-- The tokens of an address and those that are due to it. -/
def credit (r : R) (ip : IpAddr) (t : Nat) : Nat :=
  TokenBucket.credit (law.limit r) (60 * second) t (law.bucket r ip t)

theorem credit_le (r : R) (ip : IpAddr) (t : Nat) :
    law.credit r ip t ≤ 2 * (law.limit r * (60 * second)) :=
  TokenBucket.credit_le (law.tokens_le r ip t)

theorem credit_new (n : UInt32) (ip : IpAddr) (t : Nat) :
    law.credit (ConnectionRateLimiter.new rater n) ip t = n.toNat * (60 * second) := by
  rw [credit, law.limit_new, law.bucket_new]
  exact TokenBucket.credit_full _ _ _

theorem credit_clear (r : R) (ip : IpAddr) (t : Nat) :
    law.credit (rater.clear r) ip t = law.limit r * (60 * second) := by
  rw [credit, law.limit_clear, law.bucket_clear]
  exact TokenBucket.credit_full _ _ _

theorem credit_refill (r : R) (ip : IpAddr) {t t' : Nat} (h : t ≤ t') :
    law.credit r ip t' ≤ law.credit r ip t + law.limit r * (t' - t) :=
  (law.refill r ip t t' h).credit_le h

theorem credit_tryAcquire (r : R) (ip : IpAddr) (t : Nat) (ip' : IpAddr) :
    (decide (ip' = ip) && (rater.tryAcquire r ip t).1).toNat * (60 * second) +
        law.credit (rater.tryAcquire r ip t).2 ip' t ≤ law.credit r ip' t := by
  rw [credit, law.limit_tryAcquire]
  exact (law.take r ip t ip').credit_le (60 * second)

end Rater.Bucketed

/-! ## A concrete crate -/

/-- A manager that keeps the number of tokens each address has spent, grants
while some are left and never refills. -/
structure SpentTokens where
  limit : Nat
  spent : List IpAddr
  deriving DecidableEq, Repr

def Rater.reference : Rater SpentTokens where
  withCleanupSettings cfg _ _ := ⟨cfg.maxTokens.toNat, []⟩
  tryAcquire r ip _ :=
    if r.spent.count ip < r.limit then (true, { r with spent := ip :: r.spent }) else (false, r)
  clear r := { r with spent := [] }

/-- The bucket of an address is the limit and the number of tokens it has spent. -/
def Rater.reference_perAddress : Rater.reference.PerAddress where
  Bucket := Nat × Nat
  bucket r ip := (r.limit, r.spent.count ip)
  answer b _ := decide (b.2 < b.1)
  spend b _ := if b.2 < b.1 then (b.1, b.2 + 1) else b
  tryAcquire_answer r ip t := by
    by_cases h : r.spent.count ip < r.limit <;> simp [reference, h]
  bucket_tryAcquire r ip t ip' := by
    by_cases hip : ip' = ip
    · subst hip
      by_cases h : r.spent.count ip' < r.limit <;> simp [reference, h]
    · have hne : ip ≠ ip' := fun h => hip h.symm
      by_cases h : r.spent.count ip < r.limit <;> simp [reference, h, hip, hne]

/-- A limit, and the buckets of the addresses that have used theirs. -/
structure Buckets where
  limit : Nat
  used : DashMap IpAddr TokenBucket.Bucket

def Buckets.bucket (r : Buckets) (second : Nat) (ip : IpAddr) (t : Nat) : TokenBucket.Bucket :=
  match r.used.get ip with
  | some b => TokenBucket.refillTo r.limit (60 * second) t b
  | none => ⟨r.limit, t⟩

/-- A manager of buckets that are filled up every 60 seconds. -/
def Rater.refilling (second : Nat) : Rater Buckets where
  withCleanupSettings cfg _ _ := ⟨cfg.maxTokens.toNat, ∅⟩
  tryAcquire r ip t :=
    if r.used.containsKey ip || decide (r.used.len < maxTracked) then
      let (granted, bucket) :=
        TokenBucket.take r.limit (60 * second) t ((r.used.get ip).getD ⟨r.limit, t⟩)
      (granted, { r with used := r.used.insert ip bucket })
    else (false, r)
  clear r := { r with used := ∅ }

section Refilling

variable {second : Nat} (hsecond : 0 < second)
include hsecond

/-- A new bucket is found as it was made. -/
theorem Buckets.bucket_eq (r : Buckets) (ip : IpAddr) (t : Nat) :
    r.bucket second ip t =
      TokenBucket.refillTo r.limit (60 * second) t ((r.used.get ip).getD ⟨r.limit, t⟩) := by
  unfold Buckets.bucket
  cases r.used.get ip with
  | some b => rfl
  | none =>
    have hearly : ¬ t + 60 * second ≤ t := by omega
    rw [Option.getD_none, TokenBucket.refillTo, if_neg hearly, Nat.min_self]

theorem Buckets.take_bucket (r : Buckets) (ip : IpAddr) (t : Nat) (ip' : IpAddr) :
    TokenBucket.Take r.limit t
      (decide (ip' = ip) && ((Rater.refilling second).tryAcquire r ip t).1).toNat
      (r.bucket second ip' t)
      (Buckets.bucket ((Rater.refilling second).tryAcquire r ip t).2 second ip' t) := by
  have hkeep : ∀ b, TokenBucket.Take r.limit t 0 b b := fun b => ⟨rfl, Or.inl rfl⟩
  by_cases hroom : (r.used.containsKey ip || decide (r.used.len < Rater.maxTracked)) = true
  · have htry : (Rater.refilling second).tryAcquire r ip t =
        let taken := TokenBucket.take r.limit (60 * second) t
          ((r.used.get ip).getD ⟨r.limit, t⟩)
        (taken.1, { r with used := r.used.insert ip taken.2 }) := if_pos hroom
    rw [htry]
    by_cases hip : ip' = ip
    · subst hip
      have htake := TokenBucket.take_refillTo (show 0 < 60 * second by omega) r.limit t
        ((r.used.get ip').getD ⟨r.limit, t⟩)
      rw [← Buckets.bucket_eq hsecond] at htake
      simpa [Buckets.bucket] using htake
    · rw [decide_eq_false hip]
      simpa [Buckets.bucket, DashMap.get_insert, hip] using hkeep (r.bucket second ip' t)
  · have htry : (Rater.refilling second).tryAcquire r ip t = (false, r) := if_neg hroom
    rw [htry, Bool.and_false]
    exact hkeep _

def Rater.refilling_bucketed : (Rater.refilling second).Bucketed second where
  limit := Buckets.limit
  bucket r ip t := r.bucket second ip t
  limit_new n := by simp [ConnectionRateLimiter.new, refilling]
  limit_tryAcquire r ip t := by
    unfold refilling
    dsimp only
    split <;> rfl
  limit_clear _ := rfl
  bucket_new n ip t := by simp [ConnectionRateLimiter.new, refilling, Buckets.bucket]
  bucket_clear r ip t := by simp [refilling, Buckets.bucket]
  tokens_le r ip t := by
    rw [Buckets.bucket_eq hsecond]
    exact TokenBucket.refillTo_tokens_le _ _ _ _
  refill r ip t t' h := by
    unfold Buckets.bucket
    cases r.used.get ip with
    | some b => exact TokenBucket.refill_refillTo _ _ h b
    | none => exact .fill ⟨r.limit, t⟩ t' h (Nat.le_refl t') (Or.inl rfl)
  take r ip t ip' := Buckets.take_bucket hsecond r ip t ip'

def Rater.refilling_tracks : (Rater.refilling_bucketed hsecond).Tracks where
  tracked r := r.used.keySet
  tracked_new n := rfl
  tracked_clear r := rfl
  tracked_tryAcquire r ip t := by
    unfold refilling
    dsimp only
    intro j hj
    split at hj
    · simpa [DashMap.mem_insert] using hj
    · exact Finset.mem_insert_of_mem hj
  fresh r ip t := by
    have hfresh := TokenBucket.refillTo_fresh r.limit (60 * second) t
      ((r.used.get ip).getD ⟨r.limit, t⟩)
    rw [← Buckets.bucket_eq hsecond] at hfresh
    exact hfresh
  grants r ip t hpos hroom := by
    have hpos : 0 < (TokenBucket.refillTo r.limit (60 * second) t
        ((r.used.get ip).getD ⟨r.limit, t⟩)).tokens := by
      rw [← Buckets.bucket_eq hsecond]
      exact hpos
    have hasks : (r.used.containsKey ip || decide (r.used.len < maxTracked)) = true := by
      rw [DashMap.mem_keySet, DashMap.card_keySet] at hroom
      simpa [DashMap.containsKey] using hroom
    simp only [refilling, hasks, if_true]
    unfold TokenBucket.take
    rw [if_pos hpos]

end Refilling

/-- The manager that grants every attempt. -/
def Rater.granting : Rater Unit where
  withCleanupSettings _ _ _ := ()
  tryAcquire _ _ _ := (true, ())
  clear _ := ()

end CncnetServer
