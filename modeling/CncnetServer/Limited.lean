import CncnetServer.RateLimiter
import CncnetServer.Lib.Throttle

/-!
A limiter of the server inside a machine, by what each step asks of it.

* `Limited.granted_le`: what an address gets at most, over a run of any length;
* `Limited.all_granted`: an address that stays below the limit is never refused, unless more
  addresses ask than the limiter tracks.
-/

namespace CncnetServer

open Runs

/-- What a step asks of a limiter. -/
inductive LimiterUse
  | none
  | acquire (ip : IpAddr)
  | clear
  deriving DecidableEq

def LimiterUse.apply {R : Type} (rater : Rater R) (r : R) (now : Nat) : LimiterUse → R
  | .none => r
  | .acquire ip => (rater.tryAcquire r ip now).2
  | .clear => rater.clear r

/-- Who has asked after a step since the limiter was cleared last, `seen` before it. -/
def LimiterUse.seen (seen : Finset IpAddr) : LimiterUse → Finset IpAddr
  | .none => seen
  | .acquire ip => insert ip seen
  | .clear => ∅

/-- A limiter inside a machine. -/
structure Limited {R σ α ε : Type} (M : Machine σ α ε) (time : α → Nat) (rater : Rater R) where
  limiter : σ → R
  use : σ → α → LimiterUse
  step : ∀ s a, limiter (M.step s a) = (use s a).apply rater (limiter s) (time a)

namespace Limited

variable {R σ α ε : Type} {M : Machine σ α ε} {time : α → Nat} {rater : Rater R}
variable (l : Limited M time rater)

/-- The step asks for a token for the address. -/
def asks (ip : IpAddr) (s : σ) (a : α) : Bool := decide (l.use s a = .acquire ip)

/-- It asks, and gets one. -/
def granted (ip : IpAddr) (s : σ) (a : α) : Bool :=
  l.asks ip s a && (rater.tryAcquire (l.limiter s) ip (time a)).1

def clears (s : σ) (a : α) : Bool := decide (l.use s a = .clear)

/-- No more addresses ask between two clearings than the limiter can track; `seen` have asked
since the last one. -/
def Uncrowded (seen : Finset IpAddr) (s : σ) : List α → Prop
  | [] => True
  | a :: as => ((l.use s a).seen seen).card ≤ Rater.maxTracked ∧
      Uncrowded ((l.use s a).seen seen) (M.step s a) as

instance decidableUncrowded : ∀ seen s as, Decidable (l.Uncrowded seen s as)
  | _, _, [] => .isTrue trivial
  | seen, s, a :: as =>
    have := decidableUncrowded ((l.use s a).seen seen) (M.step s a) as
    inferInstanceAs (Decidable (_ ∧ _))

section Laws

variable {second : Nat} (law : rater.Bucketed second)

theorem limit_step (s : σ) (a : α) :
    law.limit (l.limiter (M.step s a)) = law.limit (l.limiter s) := by
  rw [l.step]
  cases l.use s a with
  | none => rfl
  | acquire ip => exact law.limit_tryAcquire _ _ _
  | clear => exact law.limit_clear _

theorem limit_run (s : σ) (as : List α) :
    law.limit (l.limiter (M.run s as)) = law.limit (l.limiter s) :=
  M.invariant (P := fun s' => law.limit (l.limiter s') = law.limit (l.limiter s)) rfl
    (fun s' a h => (l.limit_step law s' a).trans h) as

/-- A grant is paid for, and clearing makes up for at most a lot. -/
theorem granted_step (ip : IpAddr) (s : σ) (a : α) :
    (l.granted ip s a).toNat * (60 * second) + law.credit (l.limiter (M.step s a)) ip (time a) ≤
      law.credit (l.limiter s) ip (time a) +
        (l.clears s a).toNat * (law.limit (l.limiter s) * (60 * second)) := by
  rw [l.step]
  unfold granted asks clears
  cases huse : l.use s a with
  | none => simp [LimiterUse.apply]
  | clear =>
    simp only [LimiterUse.apply, law.credit_clear, reduceCtorEq, decide_false, Bool.false_and,
      Bool.toNat_false, decide_true, Bool.toNat_true]
    omega
  | acquire ip' =>
    have hpaid := law.credit_tryAcquire (l.limiter s) ip' (time a) ip
    by_cases hip : ip = ip'
    · subst hip
      simpa [LimiterUse.apply] using hpaid
    · simpa [LimiterUse.apply, hip, Ne.symm hip] using hpaid

/-- **What an address gets**: two lots at first, one after every clearing, and one for every
period. -/
theorem granted_le (ip : IpAddr) {s : σ} {as : List α} {start finish : Nat}
    (hclock : M.Clocked (fun _ => time) finish start s as) :
    M.total (fun s a => (l.granted ip s a).toNat) s as * (60 * second) ≤
      law.limit (l.limiter s) * (60 * second) *
          (2 + M.total (fun s a => (l.clears s a).toNat) s as) +
        law.limit (l.limiter s) * (finish - start) := by
  have hspent := Machine.total_le
    (P := fun s' => law.limit (l.limiter s') = law.limit (l.limiter s))
    (fun s t => law.credit (l.limiter s) ip t)
    (fun s a => (l.granted ip s a).toNat * (60 * second))
    (fun s' a => (l.clears s' a).toNat * (law.limit (l.limiter s) * (60 * second)))
    (law.limit (l.limiter s))
    (fun s' t t' h hle => h ▸ law.credit_refill (l.limiter s') ip hle)
    (fun s' a h => h ▸ l.granted_step law ip s' a)
    (fun s' a h => (l.limit_step law s' a).trans h) rfl hclock
  have hfull := law.credit_le (l.limiter s) ip start
  rw [Machine.total_mul, Machine.total_mul] at hspent
  have hmul : law.limit (l.limiter s) * (60 * second) *
      (2 + M.total (fun s a => (l.clears s a).toNat) s as) =
        2 * (law.limit (l.limiter s) * (60 * second)) +
          M.total (fun s a => (l.clears s a).toNat) s as *
            (law.limit (l.limiter s) * (60 * second)) := by
    rw [Nat.mul_add, Nat.mul_comm _ 2, Nat.mul_comm (M.total _ s as)]
  omega

/-! ### Who asks seldom -/

/-- The bucket of an address is filled up, or left as it is but for what the step asks for. -/
theorem bucket_step (ip : IpAddr) (s : σ) (a : α) :
    law.limit (l.limiter s) ≤
        (law.bucket (l.limiter (M.step s a)) ip (time a)).tokens + (l.asks ip s a).toNat ∨
      ((law.bucket (l.limiter s) ip (time a)).tokens ≤
          (law.bucket (l.limiter (M.step s a)) ip (time a)).tokens + (l.asks ip s a).toNat ∧
        (law.bucket (l.limiter (M.step s a)) ip (time a)).refilled =
          (law.bucket (l.limiter s) ip (time a)).refilled) := by
  rw [l.step]
  unfold asks
  cases l.use s a with
  | none => exact Or.inr ⟨Nat.le_add_right _ _, rfl⟩
  | clear =>
    rw [LimiterUse.apply, law.bucket_clear]
    exact Or.inl (Nat.le_add_right _ _)
  | acquire ip' =>
    have htake := law.take (l.limiter s) ip' (time a) ip
    have hle : (decide (ip = ip') && (rater.tryAcquire (l.limiter s) ip' (time a)).1).toNat ≤
        (decide (LimiterUse.acquire ip' = .acquire ip)).toNat := by
      by_cases hip : ip = ip'
      · subst hip
        simpa using Bool.toNat_le _
      · simp [hip]
    have htokens := htake.tokens
    rw [LimiterUse.apply]
    rcases htake.refilled with hsame | ⟨hfull, _⟩
    · exact Or.inr ⟨by omega, hsame⟩
    · exact Or.inl (by omega)

/-- The limit is `n`, and the bucket of the address was filled up before `t`. -/
def Sound (law : rater.Bucketed second) (n : Nat) (ip : IpAddr) (s : σ) (t : Nat) : Prop :=
  law.limit (l.limiter s) = n ∧ (law.bucket (l.limiter s) ip t).refilled ≤ t

variable {law} {l}

theorem Sound.later {n : Nat} {ip : IpAddr} {s : σ} {t t' : Nat} (h : l.Sound law n ip s t)
    (hle : t ≤ t') : l.Sound law n ip s t' := by
  refine ⟨h.1, ?_⟩
  have hrefill := law.refill (l.limiter s) ip t t' hle
  have hback := h.2
  generalize law.bucket (l.limiter s) ip t = b at hrefill hback
  generalize law.bucket (l.limiter s) ip t' = b' at hrefill
  cases hrefill with
  | keep => exact Nat.le_trans hback hle
  | fill refilled _ hnow _ => exact hnow

theorem Sound.step {n : Nat} {ip : IpAddr} {s : σ} {a : α} (h : l.Sound law n ip s (time a)) :
    l.Sound law n ip (M.step s a) (time a) := by
  refine ⟨(l.limit_step law s a).trans h.1, ?_⟩
  rw [l.step]
  cases l.use s a with
  | none => exact h.2
  | clear =>
    rw [LimiterUse.apply, law.bucket_clear]
  | acquire ip' =>
    rcases (law.take (l.limiter s) ip' (time a) ip).refilled with hsame | ⟨_, _, hnow⟩
    · exact Nat.le_trans (Nat.le_of_eq hsame) h.2
    · exact hnow

variable (l)
variable (tracks : law.Tracks)
include tracks

/-- An address that asks for no more than the limit in any 60 seconds finds a token every time. -/
theorem finds_token (hsecond : 0 < second) (ip : IpAddr) {s : σ} {n : UInt32}
    (hnew : l.limiter s = ConnectionRateLimiter.new rater n) {as : List α} {start finish : Nat}
    (hclock : M.Clocked (fun _ => time) finish start s as)
    (hrare : Machine.AtMostPer n.toNat (60 * second)
      (M.asked (fun _ => time) (l.asks ip) s as)) :
    M.Along (fun s a => l.asks ip s a = true →
      0 < (law.bucket (l.limiter s) ip (time a)).tokens) s as := by
  have hlimit : law.limit (l.limiter s) = n.toNat := by
    rw [hnew]
    exact law.limit_new n
  have hsound : l.Sound law n.toNat ip s start := by
    refine ⟨hlimit, ?_⟩
    rw [hnew, law.bucket_new]
  refine Machine.affords (P := l.Sound law n.toNat ip)
    (fun s t => (law.bucket (l.limiter s) ip t).tokens)
    (fun s t => (law.bucket (l.limiter s) ip t).refilled) (n := n.toNat)
    (Nat.mul_pos (by decide) hsecond) ?_ ?_ ?_ ?_ ?_ ?_ hsound ?_ hclock hrare
  · intro s' t t' h hle
    have hrefill := law.refill (l.limiter s') ip t t' hle
    rw [h.1] at hrefill
    generalize law.bucket (l.limiter s') ip t = b at hrefill
    generalize law.bucket (l.limiter s') ip t' = b' at hrefill
    cases hrefill with
    | keep => exact Or.inr ⟨Nat.le_refl _, rfl⟩
    | fill => exact Or.inl (Nat.le_refl _)
  · intro s' a h
    have hstep := l.bucket_step law ip s' a
    rw [h.1] at hstep
    exact hstep
  · exact fun s' t h => h.2
  · intro s' t h
    have hfresh := tracks.fresh (l.limiter s') ip t
    rw [h.1] at hfresh
    exact hfresh.imp_left fun hfull => Nat.le_of_eq hfull.symm
  · exact fun s' a h => h.step
  · exact fun s' t t' h hle => h.later hle
  · rw [hnew, law.bucket_new]

theorem tracked_step (s : σ) (a : α) {seen : Finset IpAddr}
    (h : tracks.tracked (l.limiter s) ⊆ seen) :
    tracks.tracked (l.limiter (M.step s a)) ⊆ (l.use s a).seen seen := by
  rw [l.step]
  cases l.use s a with
  | none => exact h
  | acquire ip =>
    exact (tracks.tracked_tryAcquire _ _ _).trans (Finset.insert_subset_insert ip h)
  | clear =>
    rw [LimiterUse.apply, tracks.tracked_clear]
    exact Finset.empty_subset _

/-- Who asks is tracked, or there is room for one more. -/
theorem Uncrowded.room (ip : IpAddr) {seen : Finset IpAddr} {s : σ} {as : List α}
    (h : l.Uncrowded seen s as) (hseen : tracks.tracked (l.limiter s) ⊆ seen) :
    M.Along (fun s a => l.asks ip s a = true → ip ∈ tracks.tracked (l.limiter s) ∨
      (tracks.tracked (l.limiter s)).card < Rater.maxTracked) s as := by
  induction as generalizing s seen with
  | nil => trivial
  | cons a as ih =>
    obtain ⟨hcard, hrest⟩ := h
    refine ⟨fun hasks => ?_, ih hrest (l.tracked_step tracks s a hseen)⟩
    unfold asks at hasks
    rw [of_decide_eq_true hasks, LimiterUse.seen] at hcard
    refine or_iff_not_imp_left.mpr fun hnew => ?_
    have hle := Finset.card_le_card (Finset.insert_subset_insert ip hseen)
    rw [Finset.card_insert_of_notMem hnew] at hle
    exact Nat.lt_of_lt_of_le (Nat.lt_succ_self _) (Nat.le_trans hle hcard)

/-- **Never refused.** A new limiter grants an address every token it asks for, as long as it
asks for no more than the limit in any 60 seconds, and no more addresses ask than the limiter
can track. -/
theorem all_granted (hsecond : 0 < second) (ip : IpAddr) {s : σ} {n : UInt32}
    (hnew : l.limiter s = ConnectionRateLimiter.new rater n) {as : List α} {start finish : Nat}
    (hclock : M.Clocked (fun _ => time) finish start s as) (hcrowd : l.Uncrowded ∅ s as)
    (hrare : Machine.AtMostPer n.toNat (60 * second)
      (M.asked (fun _ => time) (l.asks ip) s as)) :
    M.Along (fun s a => l.asks ip s a = true → l.granted ip s a = true) s as := by
  have hempty : tracks.tracked (l.limiter s) ⊆ ∅ := by
    rw [hnew, tracks.tracked_new]
  have hboth := (M.along_and s as).mpr
    ⟨l.finds_token tracks hsecond ip hnew hclock hrare, Uncrowded.room l tracks ip hcrowd hempty⟩
  refine M.along_mono ?_ hboth
  intro s' a ⟨htoken, hroom⟩ hasks
  unfold granted
  rw [hasks, Bool.true_and]
  exact tracks.grants _ _ _ (htoken hasks) (hroom hasks)

end Laws

end Limited

end CncnetServer
