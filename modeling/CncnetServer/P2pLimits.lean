import CncnetServer.P2pReplies
import CncnetServer.RateLimits

/-!
The limiter of a P2P service, with all workers and the resets of both services at work at once.

* `limited`: a run of the tasks as a machine with a limiter in it;
* `replies_le`: no more replies than grants, but for those a worker already owes;
* `p2p_limits`: what an address gets at most, and that one below the limit gets all.
-/

namespace CncnetServer.PeerToPeer

open Buffers Threads Runs

variable {C A R : Type} (core : RelayCore C A) (rater : Rater R)

/-- The clock that a check reads. -/
def Input.atTime (now : Nat) : Input → Input
  | .check _ => .check now
  | a => a

def atTime {ι : Type} : Nat × Action ι Input → Action ι Input
  | (now, .work i a) => .work i (a.atTime now)
  | (_, .tick d) => .tick d

/-- The interleavings of the tasks, each step at its time. -/
def clocked {ι : Type} [DecidableEq ι] :
    Machine (Pool ι (Shared R) Task) (Nat × Action ι Input) (ι × Shown) where
  step p a := (tasks core rater).machine.step p (atTime a)
  emit p a := (tasks core rater).machine.emit p (atTime a)

/-! ## The limiter -/

/-- What a step of a worker asks of the limiter of its service. -/
def Worker.limiterUse (w : Worker) (a : Input) : LimiterUse :=
  match w.point, a with
  | .received _ addr, .check _ => if core.validateAddress addr then .acquire addr.ip else .none
  | _, _ => .none

def Task.limiterUse (service : Service) : Task → Input → LimiterUse
  | .worker w, a => if w.service = service then w.limiterUse core a else .none
  | .resets service', .go => if service' = service then .clear else .none
  | .resets _, _ => .none

def limiterUse {ι : Type} (service : Service) (p : Pool ι (Shared R) Task) :
    Nat × Action ι Input → LimiterUse
  | (_, .work i a) => (p.thread i).limiterUse core service a
  | (_, .tick _) => .none

theorem Worker.exec_rateLimiter (s : Shared R) (w : Worker) (a : Input) (now : Nat) :
    (w.exec core rater s (a.atTime now)).1.rateLimiter = Function.update s.rateLimiter w.service
      ((w.limiterUse core a).apply rater (s.rateLimiter w.service) now) := by
  have hkeep := Function.update_eq_self w.service s.rateLimiter
  unfold Worker.exec Worker.limiterUse
  cases w.point with
  | received packet addr =>
    cases a with
    | check t =>
      cases hvalid : core.validateAddress addr with
      | false => simp [Input.atTime, hvalid, LimiterUse.apply]
      | true => simp [Input.atTime, hvalid, LimiterUse.apply, RateLimiter.checkAndIncrement]
    | _ => exact hkeep.symm
  | head =>
    cases a with
    | receive datagram addr =>
      simp only [Input.atTime, LimiterUse.apply, hkeep]
      split <;> rfl
    | _ => exact hkeep.symm
  | _ => cases a <;> exact hkeep.symm

theorem exec_rateLimiter (s : Shared R) (t : Task) (a : Input) (now : Nat) (service : Service) :
    (exec core rater s t (a.atTime now)).1.rateLimiter service =
      (t.limiterUse core service a).apply rater (s.rateLimiter service) now := by
  cases t with
  | worker w =>
    simp only [exec, Worker.exec_rateLimiter, Task.limiterUse]
    by_cases hservice : w.service = service
    · rw [hservice, Function.update_self, if_pos rfl]
    · rw [Function.update_of_ne (Ne.symm hservice), if_neg hservice]
      rfl
  | resets service' =>
    cases a with
    | go =>
      simp only [Input.atTime, exec, Task.limiterUse, RateLimiter.reset]
      by_cases hservice : service' = service
      · rw [hservice, Function.update_self, if_pos rfl]
        rfl
      · rw [Function.update_of_ne (Ne.symm hservice), if_neg hservice]
        rfl
    | _ => rfl

section Runs

variable {ι : Type} [DecidableEq ι]

theorem thread_step (p : Pool ι (Shared R) Task) (now : Nat) (i : ι) (a : Input) :
    ((clocked core rater).step p (now, .work i a)).thread i =
      (exec core rater p.shared (p.thread i) (a.atTime now)).2 := by
  simp only [clocked, atTime, System.step_work, Function.update_self, tasks]

/-- The limiter of a service in the runs of the tasks. -/
def limited (service : Service) : Limited (clocked (ι := ι) core rater) Prod.fst rater where
  limiter p := p.shared.rateLimiter service
  use := limiterUse core service
  step p a := by
    obtain ⟨now, a⟩ := a
    cases a with
    | tick d => rfl
    | work i a => exact exec_rateLimiter core rater p.shared (p.thread i) a now service

/-! ## Replies -/

def Task.service : Task → Service
  | .worker w => w.service
  | .resets service => service

def Shown.repliesTo (ip : IpAddr) : Shown → Nat
  | .replied d => if d.dest.ip = ip then 1 else 0
  | _ => 0

/-- The replies of a service to an address that the step sends. -/
def replies (service : Service) (ip : IpAddr) (p : Pool ι (Shared R) Task)
    (a : Nat × Action ι Input) : Nat :=
  (((clocked core rater).emit p a).map fun e =>
    if (p.thread e.1).service = service then e.2.repliesTo ip else 0).sum

/-- A worker that has been granted a request, and has not replied yet. -/
def Worker.owesTo (ip : IpAddr) (w : Worker) : Nat :=
  match w.point with
  | .granted _ addr | .sending addr => if addr.ip = ip then 1 else 0
  | _ => 0

def Task.owesTo (service : Service) (ip : IpAddr) : Task → Nat
  | .worker w => if w.service = service then w.owesTo ip else 0
  | .resets _ => 0

/-- How many workers of the service owe the address a reply. -/
def owed [Fintype ι] (service : Service) (ip : IpAddr) (p : Pool ι (Shared R) Task) : Nat :=
  ∑ i, (p.thread i).owesTo service ip

/-- A worker owes what it has been granted, until it replies. -/
theorem Worker.owesTo_exec (s : Shared R) (w : Worker) (a : Input) (now : Nat) (ip : IpAddr) :
    ((w.emit core rater s (a.atTime now)).map (Shown.repliesTo ip)).sum +
        (w.exec core rater s (a.atTime now)).2.owesTo ip ≤
      w.owesTo ip + (decide (w.limiterUse core a = .acquire ip) &&
        (rater.tryAcquire (s.rateLimiter w.service) ip now).1).toNat := by
  obtain ⟨service, buffer, point⟩ := w
  cases point with
  | received packet addr =>
    cases a with
    | check t =>
      cases hvalid : core.validateAddress addr with
      | false => simp [Worker.emit, Worker.exec, Worker.owesTo, Input.atTime, hvalid]
      | true =>
        by_cases hip : addr.ip = ip
        · subst hip
          cases hgrant : (rater.tryAcquire (s.rateLimiter service) addr.ip now).1 <;>
            simp [Worker.emit, Worker.exec, Worker.owesTo, Worker.limiterUse, Input.atTime,
              RateLimiter.checkAndIncrement, Shown.repliesTo, hvalid, hgrant]
        · cases hgrant : (rater.tryAcquire (s.rateLimiter service) addr.ip now).1 <;>
            simp [Worker.emit, Worker.exec, Worker.owesTo, Input.atTime,
              RateLimiter.checkAndIncrement, Shown.repliesTo, hvalid, hgrant, hip]
    | _ => simp [Worker.emit, Worker.exec, Worker.owesTo, Input.atTime]
  | granted packet addr =>
    cases a with
    | go =>
      by_cases hid : receivedId packet = stunId <;>
        simp [Worker.emit, Worker.exec, Worker.owesTo, Input.atTime, Shown.repliesTo, hid]
    | _ => simp [Worker.emit, Worker.exec, Worker.owesTo, Input.atTime]
  | sending addr =>
    cases a with
    | send ok =>
      cases ok <;> simp [Worker.emit, Worker.exec, Worker.owesTo, Input.atTime, Shown.repliesTo]
    | _ => simp [Worker.emit, Worker.exec, Worker.owesTo, Input.atTime]
  | head =>
    cases a with
    | receive datagram addr =>
      by_cases hlen : (recvFrom bufSize datagram).length = 48 <;>
        simp [Worker.emit, Worker.exec, Worker.owesTo, Input.atTime, Shown.repliesTo, hlen]
    | _ => simp [Worker.emit, Worker.exec, Worker.owesTo, Input.atTime]
  | refused =>
    cases a <;> simp [Worker.emit, Worker.exec, Worker.owesTo, Input.atTime, Shown.repliesTo]
  | sent =>
    cases a <;> simp [Worker.emit, Worker.exec, Worker.owesTo, Input.atTime, Shown.repliesTo]

theorem Task.owesTo_exec (s : Shared R) (t : Task) (a : Input) (now : Nat) (service : Service)
    (ip : IpAddr) :
    (if t.service = service then
        ((emit core rater s t (a.atTime now)).map (Shown.repliesTo ip)).sum else 0) +
        (exec core rater s t (a.atTime now)).2.owesTo service ip ≤
      t.owesTo service ip + (decide (t.limiterUse core service a = .acquire ip) &&
        (rater.tryAcquire (s.rateLimiter service) ip now).1).toNat := by
  cases t with
  | worker w =>
    have hworker := Worker.owesTo_exec core rater s w a now ip
    have hsame : (w.exec core rater s (a.atTime now)).2.service = w.service := by
      unfold Worker.exec
      dsimp only
      split <;> (try split) <;> rfl
    simp only [Task.service, emit, exec, Task.owesTo, Task.limiterUse, hsame]
    by_cases hservice : w.service = service
    · rw [hservice] at hworker
      simpa only [hservice, if_true] using hworker
    · simp [hservice]
  | resets service' => cases a <;> simp [emit, exec, Task.owesTo, Input.atTime]

theorem owed_step [Fintype ι] (p : Pool ι (Shared R) Task) (a : Nat × Action ι Input)
    (service : Service) (ip : IpAddr) :
    replies core rater service ip p a + owed service ip ((clocked core rater).step p a) ≤
      owed service ip p + ((limited core rater service).granted ip p a).toNat := by
  obtain ⟨now, a⟩ := a
  cases a with
  | tick d => simp [replies, clocked, atTime, owed, tasks]
  | work i a =>
    have htask := Task.owesTo_exec core rater p.shared (p.thread i) a now service ip
    have hreplies : replies core rater service ip p (now, .work i a) =
        if (p.thread i).service = service then
          ((emit core rater p.shared (p.thread i) (a.atTime now)).map (Shown.repliesTo ip)).sum
        else 0 := by
      simp only [replies, clocked, atTime, System.emit_work, List.map_map, tasks,
        Function.comp_def]
      by_cases hservice : (p.thread i).service = service <;> simp [hservice]
    have hsum := sum_update_local Finset.univ (Finset.mem_univ i) (Task.owesTo service ip) p.thread
      (exec core rater p.shared (p.thread i) (a.atTime now)).2
    have howed : owed service ip ((clocked core rater).step p (now, .work i a)) =
        ∑ j, (Function.update p.thread i
          (exec core rater p.shared (p.thread i) (a.atTime now)).2 j).owesTo service ip := rfl
    have hgranted : (limited core rater service).granted ip p (now, .work i a) =
        (decide ((p.thread i).limiterUse core service a = .acquire ip) &&
          (rater.tryAcquire (p.shared.rateLimiter service) ip now).1) := rfl
    rw [hreplies, howed, hgranted]
    unfold owed
    omega

/-- No more replies than grants, and those that were owed before. -/
theorem replies_le [Fintype ι] (service : Service) (ip : IpAddr) (p : Pool ι (Shared R) Task)
    (as : List (Nat × Action ι Input)) :
    (clocked core rater).total (replies core rater service ip) p as ≤ owed service ip p +
      (clocked core rater).total
        (fun q a => ((limited core rater service).granted ip q a).toNat) p as := by
  induction as generalizing p with
  | nil => exact Nat.zero_le _
  | cons a as ih =>
    have hstep := owed_step core rater p a service ip
    have hrest := ih ((clocked core rater).step p a)
    simp only [Machine.total]
    omega

/-! ## Grants -/

/-- Who is granted a request is at work on it. -/
theorem granted_worker {service : Service} {ip : IpAddr} {p : Pool ι (Shared R) Task}
    {a : Nat × Action ι Input} (h : (limited core rater service).granted ip p a = true) :
    ∃ i w packet addr, ((clocked core rater).step p a).thread i = .worker w ∧
      w.service = service ∧ w.point = .granted packet addr ∧ addr.ip = ip := by
  obtain ⟨now, a⟩ := a
  unfold Limited.granted Limited.asks at h
  rw [Bool.and_eq_true, decide_eq_true_eq] at h
  obtain ⟨huse, hgrant⟩ := h
  cases a with
  | tick d => cases huse
  | work i a =>
    simp only [limited, limiterUse] at huse hgrant
    cases ht : p.thread i with
    | resets service' =>
      rw [ht] at huse
      cases a with
      | go =>
        simp only [Task.limiterUse] at huse
        split at huse <;> cases huse
      | _ => cases huse
    | worker w =>
      obtain ⟨service', buffer, point⟩ := w
      rw [ht] at huse
      simp only [Task.limiterUse] at huse
      split at huse
      · rename_i hservice
        cases hservice
        unfold Worker.limiterUse at huse
        split at huse
        · rename_i packet addr t hpoint
          cases hpoint
          split at huse
          · rename_i hvalid
            cases huse
            refine ⟨i, ⟨service, buffer, .granted packet addr⟩, packet, addr, ?_, rfl, rfl, rfl⟩
            rw [thread_step, ht]
            simp [exec, Input.atTime, Worker.exec, RateLimiter.checkAndIncrement, hvalid, hgrant]
          · cases huse
        · cases huse
      · cases huse

/-- The steps of others leave a task where it is. -/
theorem thread_elsewhere {i : ι} {as : List (Nat × Action ι Input)}
    (h : ∀ a ∈ as, ∀ input, a.2 ≠ .work i input) (p : Pool ι (Shared R) Task) :
    ((clocked core rater).run p as).thread i = p.thread i := by
  induction as generalizing p with
  | nil => rfl
  | cons a as ih =>
    rw [Machine.run_cons, ih fun b hb => h b (List.mem_cons_of_mem a hb)]
    obtain ⟨now, a⟩ := a
    cases a with
    | tick d => rfl
    | work j input =>
      refine Function.update_of_ne (fun hij => ?_) _ _
      exact h _ List.mem_cons_self input (by rw [hij])

/-- A request with the STUN id that is granted gets its reply, whatever others do meanwhile. -/
theorem granted_replies {p : Pool ι (Shared R) Task} {i : ι} {w : Worker} {packet : Packet}
    {addr : SocketAddr} (hw : p.thread i = .worker w) (hpoint : w.point = .granted packet addr)
    (hid : receivedId packet = stunId) {as₁ as₂ : List (Nat × Action ι Input)}
    (h₁ : ∀ a ∈ as₁, ∀ input, a.2 ≠ .work i input)
    (h₂ : ∀ a ∈ as₂, ∀ input, a.2 ≠ .work i input) (t₁ t₂ : Nat) (ok : Bool) :
    (clocked core rater).emit
        ((clocked core rater).run p (as₁ ++ (t₁, .work i .go) :: as₂)) (t₂, .work i (.send ok)) =
      [(i, .replied ⟨(answer w.buffer addr).toList, addr⟩)] := by
  obtain ⟨service, buffer, point⟩ := w
  cases hpoint
  have hgo : ((clocked core rater).step ((clocked core rater).run p as₁)
      (t₁, .work i .go)).thread i = .worker ⟨service, answer buffer addr, .sending addr⟩ := by
    rw [thread_step, thread_elsewhere core rater h₁, hw]
    simp [exec, Input.atTime, Worker.exec, hid]
  have hsend := thread_elsewhere core rater h₂ ((clocked core rater).step
    ((clocked core rater).run p as₁) (t₁, .work i .go))
  rw [hgo] at hsend
  rw [Machine.run_append, Machine.run_cons]
  show ((tasks core rater).emit _ _ _).map _ = _
  rw [hsend]
  rfl

section Laws

variable {core rater} {law : rater.Bucketed core.second} (tracks : law.Tracks)
include tracks

/-- **The limits of P2P.** However many workers and resets interleave: a service sends an address
at most 20 replies, twice and again for each reset, as many for every 60 seconds, and what its
workers owed the address at the start. From the start of the server, while no more than 10000
addresses ask between two resets, an address that makes no more than 20 requests in any 60
seconds is granted them all, and each of them that has the STUN id gets its reply from the worker
that has it, as soon as this worker has gone on. -/
theorem p2p_limits [Fintype ι] (hsecond : 0 < core.second) (service : Service) (ip : IpAddr)
    {p : Pool ι (Shared R) Task}
    (hnew : p.shared.rateLimiter service = RateLimiter.new rater 60 maxRequestsPerIp) :
    let M := clocked (ι := ι) core rater
    let l := limited (ι := ι) core rater service
    (∀ before after start finish, M.Clocked (fun _ => Prod.fst) finish start (M.run p before) after →
      M.total (replies core rater service ip) (M.run p before) after * (60 * core.second) ≤
        owed service ip (M.run p before) * (60 * core.second) +
          (20 * (60 * core.second) *
            (2 + M.total (fun q a => (l.clears q a).toNat) (M.run p before) after) +
          20 * (finish - start))) ∧
    ∀ as start finish, M.Clocked (fun _ => Prod.fst) finish start p as → l.Uncrowded ∅ p as →
      Machine.AtMostPer 20 (60 * core.second) (M.asked (fun _ => Prod.fst) (l.asks ip) p as) →
      M.Along (fun q a => l.asks ip q a = true →
        ∃ i buffer packet addr, addr.ip = ip ∧
          (M.step q a).thread i = .worker ⟨service, buffer, .granted packet addr⟩ ∧
          (receivedId packet = stunId → ∀ as₁ as₂ t₁ t₂ ok,
            (∀ b ∈ as₁ ++ as₂, ∀ input, b.2 ≠ .work i input) →
            M.emit (M.run (M.step q a) (as₁ ++ (t₁, .work i .go) :: as₂)) (t₂, .work i (.send ok)) =
              [(i, .replied ⟨(answer buffer addr).toList, addr⟩)])) p as := by
  intro M l
  have hlimiter : l.limiter p = ConnectionRateLimiter.new rater 20 := hnew
  refine ⟨?_, ?_⟩
  · intro before after start finish hclock
    have hgrants := l.total_le_of_granted law ip (fun _ _ => Nat.le_refl _) hlimiter
      (show (20 : UInt32).toNat ≤ 20 by decide) before hclock
    have hreplies := replies_le core rater service ip (M.run p before) after
    calc M.total (replies core rater service ip) (M.run p before) after * (60 * core.second)
        ≤ (owed service ip (M.run p before) +
            M.total (fun q a => (l.granted ip q a).toNat) (M.run p before) after) *
              (60 * core.second) := Nat.mul_le_mul_right _ hreplies
      _ = owed service ip (M.run p before) * (60 * core.second) +
            M.total (fun q a => (l.granted ip q a).toNat) (M.run p before) after *
              (60 * core.second) := Nat.add_mul _ _ _
      _ ≤ _ := Nat.add_le_add_left hgrants _
  · intro as start finish hclock hcrowd hrare
    refine M.along_mono (fun q a h hasks => ?_)
      (l.all_granted tracks hsecond ip (n := 20) hlimiter hclock hcrowd hrare)
    obtain ⟨i, w, packet, addr, hthread, rfl, hpoint, hip⟩ :=
      granted_worker core rater (h hasks)
    obtain ⟨service, buffer, point⟩ := w
    cases hpoint
    refine ⟨i, buffer, packet, addr, hip, hthread, fun hid as₁ as₂ t₁ t₂ ok helse => ?_⟩
    exact granted_replies core rater hthread rfl hid
      (fun b hb => helse b (List.mem_append_left _ hb))
      (fun b hb => helse b (List.mem_append_right _ hb)) t₁ t₂ ok

omit tracks in
/-- Two workers of a service that serve 21 requests of one address by turns, and a request of
another address that one of them takes up while the other is at work. -/
theorem p2p_limits_flood :
    let core := RelayCore.reference 30
    let rater := Rater.refilling 1000
    let alice : SocketAddr := .v4 8 8 8 8 1234
    let bob : SocketAddr := .v4 9 9 9 9 4321
    let p : Pool Bool (Shared Buckets) Task :=
      ⟨⟨fun _ => RateLimiter.new rater 60 maxRequestsPerIp, .new⟩,
        fun _ => .worker ⟨.p8054, sendBuffer (Vector.replicate 40 7), .head⟩⟩
    let M := clocked (ι := Bool) core rater
    let request (i : Bool) : List (Nat × Action Bool Input) :=
      [(1000, .work i (.receive stunRequest alice)), (1000, .work i (.check 0)),
        (1000, .work i .go), (1000, .work i (.send true)), (1000, .work i .go)]
    let flood := (List.range 21).flatMap fun n => request (n % 2 == 0)
    (M.total (replies core rater .p8054 alice.ip) p flood = 20 ∧
      M.total (replies core rater .p8054 alice.ip) p flood * 60000 ≤
        owed .p8054 alice.ip p * 60000 + (20 * 60000 * (2 + M.total (fun q a =>
          ((limited core rater .p8054).clears q a).toNat) p flood) + 20 * (1000 - 1000))) ∧
    M.Along (fun q a => (limited core rater .p8054).asks bob.ip q a = true →
        ∃ i buffer packet addr, addr.ip = bob.ip ∧
          (M.step q a).thread i = .worker ⟨.p8054, buffer, .granted packet addr⟩ ∧
          (receivedId packet = stunId → ∀ as₁ as₂ t₁ t₂ ok,
            (∀ b ∈ as₁ ++ as₂, ∀ input, b.2 ≠ .work i input) →
            M.emit (M.run (M.step q a) (as₁ ++ (t₁, .work i .go) :: as₂)) (t₂, .work i (.send ok)) =
              [(i, .replied ⟨(answer buffer addr).toList, addr⟩)]))
      p [(1000, .work false (.receive stunRequest bob)),
        (1000, .work true (.receive stunRequest alice)), (1000, .work true (.check 0)),
        (1000, .work false (.check 0))] := by
  intro core rater alice bob p M request flood
  have hlimits := fun ip => p2p_limits
    (Rater.refilling_tracks (show 0 < core.second by decide)) (by decide) .p8054 ip (p := p) rfl
  refine ⟨⟨by decide +kernel, (hlimits alice.ip).1 [] flood 1000 1000 (by decide +kernel)⟩, ?_⟩
  refine (hlimits bob.ip).2 _ 1000 1000 (by decide +kernel) (by decide +kernel) ?_
  have hasked : M.asked (fun _ => Prod.fst) ((limited core rater .p8054).asks bob.ip) p
      [(1000, .work false (.receive stunRequest bob)),
        (1000, .work true (.receive stunRequest alice)), (1000, .work true (.check 0)),
        (1000, .work false (.check 0))] = [1000] := by
    decide +kernel
  intro u
  have hone : [1000].countP (fun x => decide (u ≤ x ∧ x < u + 60000)) ≤ 20 :=
    Nat.le_trans List.countP_le_length (by decide)
  exact hasked ▸ hone

end Laws

end Runs

end CncnetServer.PeerToPeer
