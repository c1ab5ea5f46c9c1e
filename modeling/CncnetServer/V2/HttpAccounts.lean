import CncnetServer.Listeners
import CncnetServer.RateLimits

/-!
The accounts of the V2 HTTP server: what its counters say of the connections and the requests
of a run.

* `Books`: the counters are what the run has shown, and no connection is answered twice;
* `http_accounts`: they are so after every run.
-/

namespace CncnetServer

open Runs

namespace TunnelV2

variable {C R A : Type} (core : RelayCore C A) (rater : Rater R)

/-! ## What a call counts -/

theorem count_handleRequest (t : TunnelV2 C R) (now : Nat) (draws : Nat → Int16)
    (query : Option (List Char)) :
    (handleRequest core t now draws query).2.metrics.count = t.metrics.count ∧
      (handleRequest core t now draws query).2.droppedConnections = t.droppedConnections := by
  unfold handleRequest
  split
  · exact ⟨rfl, rfl⟩
  dsimp only
  split
  · exact ⟨rfl, rfl⟩
  split
  · exact ⟨rfl, rfl⟩
  split <;> exact ⟨rfl, rfl⟩

theorem handleMaintenance_metrics (t : TunnelV2 C R) (path : List Char) :
    (handleMaintenance t path).2.metrics = t.metrics ∧
      (handleMaintenance t path).2.droppedConnections = t.droppedConnections := by
  unfold handleMaintenance
  split
  · exact ⟨rfl, rfl⟩
  split <;> exact ⟨rfl, rfl⟩

/-- A request is counted, and once more if the answer is 429. -/
theorem count_handleHttpRequest (t : TunnelV2 C R) (now : Nat) (draws : Nat → Int16)
    (req : Request) (addr : SocketAddr) :
    let out := handleHttpRequest core rater t now draws req addr
    let counted := t.metrics.fetchAdd .v2HttpRequests 1
    out.2.metrics.count =
        (if out.1.status = .tooManyRequests then counted.fetchAdd .rateLimitHits 1
          else counted).count ∧
      out.2.droppedConnections = t.droppedConnections := by
  intro out counted
  have hlimited := tooManyRequests_iff core rater t ⟨now, 0, true⟩ draws req addr
  have hgranted : (requestLimited core rater).granted addr.ip t
      (.http ⟨now, 0, true⟩ draws req addr) = (rater.tryAcquire t.requestLimiter addr.ip now).1 := by
    simp [Limited.granted, Limited.asks, requestLimited, requestUse, Event.time, Event.env]
  rw [hgranted] at hlimited
  simp only [out, if_congr hlimited rfl rfl]
  unfold handleHttpRequest RateLimiter.checkAndIncrement
  dsimp only
  cases hgrant : (rater.tryAcquire t.requestLimiter addr.ip now).1 with
  | false => exact ⟨rfl, rfl⟩
  | true =>
    simp only [Bool.not_true, Bool.false_eq_true, if_false, Bool.true_eq_false]
    split
    · exact ⟨rfl, rfl⟩
    split
    · exact count_handleRequest core _ now draws req.query
    split
    · have hsame := handleMaintenance_metrics { t with
        metrics := counted
        requestLimiter := (rater.tryAcquire t.requestLimiter addr.ip now).2 } req.path
      exact ⟨congrArg Metrics.count hsame.1, hsame.2⟩
    split <;> exact ⟨rfl, rfl⟩

/-- A packet counts nothing but pings. -/
theorem count_onUdpReceive (t : TunnelV2 C R) (env : Env) (packet : Packet) (addr : SocketAddr)
    (batch : LocalMetricsBatch) :
    (∀ c, c ≠ .v2PingRequests →
      (onUdpReceive core rater t env packet addr batch).1.metrics.count c = t.metrics.count c) ∧
    (onUdpReceive core rater t env packet addr batch).1.droppedConnections =
      t.droppedConnections := by
  have hstep := onUdpReceive_step core rater t env packet addr batch
  generalize onUdpReceive core rater t env packet addr batch = out at hstep ⊢
  cases hstep with
  | short _ => exact ⟨fun _ _ => rfl, rfl⟩
  | dropped _ => exact ⟨fun _ _ => rfl, rfl⟩
  | pingLimited _ => exact ⟨fun _ _ => rfl, rfl⟩
  | ping _ _ => exact ⟨fun c hc => Function.update_of_ne hc _ _, rfl⟩
  | forward s r _ =>
    unfold handleDataForward
    split
    · rename_i u hacc
      have hsame := acceptSender_eq core hacc
      have hrelay : ∀ b, (relay core u env r packet addr b).1.metrics = u.metrics ∧
          (relay core u env r packet addr b).1.droppedConnections = u.droppedConnections := by
        intro b
        unfold relay
        split
        · split <;> exact ⟨rfl, rfl⟩
        · exact ⟨rfl, rfl⟩
      rw [(hrelay _).1, (hrelay _).2, hsame]
      exact ⟨fun _ _ => rfl, rfl⟩
    · exact ⟨fun _ _ => rfl, rfl⟩

end TunnelV2

/-! ## The books -/

namespace Served

def isDropped : Served → Bool
  | .dropped _ => true
  | _ => false

def isAnswer : Served → Bool
  | .answered _ _ => true
  | _ => false

/-- An answer 429. -/
def isRefusal : Served → Bool
  | .answered _ response => decide (response.status = .tooManyRequests)
  | _ => false

/-- An answer on the connection. -/
def answers (c : Connection) : Served → Bool
  | .answered c' _ => decide (c' = c)
  | _ => false

end Served

namespace TunnelV2.HttpServer

variable {C R A : Type} (core : RelayCore C A) (rater : Rater R)

/-- The requests of a run come in on connections. -/
def OnConnections (e : HttpEvent) : Prop :=
  ∀ env draws req addr, e ≠ .call (.http env draws req addr)

def isHeartbeat : HttpEvent → Bool
  | .call (.heartbeat _) => true
  | _ => false

/-- What the server has counted is what it has shown. -/
structure Books (shown : List Served) (s : HttpServer C R) : Prop where
  requests : s.tunnel.metrics.count .v2HttpRequests = .ofNat (shown.countP Served.isAnswer)
  refusals : s.tunnel.metrics.count .rateLimitHits = .ofNat (shown.countP Served.isRefusal)
  dropped : s.tunnel.metrics.count .droppedConnections = .ofNat (shown.countP Served.isDropped)
  answered : ∀ c, shown.countP (Served.answers c) + s.tasks.count c ≤ shown.count (.spawned c)

theorem books_start (config : ServerConfig) :
    Books [] (start (TunnelV2.new rater config : TunnelV2 C R)) where
  requests := rfl
  refusals := rfl
  dropped := rfl
  answered _ := Nat.le_refl _

section Steps

variable {shown : List Served} {s : HttpServer C R}

/-- A call that shows nothing and counts nothing of the server's. -/
theorem Books.quiet (h : Books shown s) {t : TunnelV2 C R}
    (hsame : ∀ c, c ≠ .v2PingRequests → t.metrics.count c = s.tunnel.metrics.count c) :
    Books (shown ++ []) { s with tunnel := t } := by
  rw [List.append_nil]
  exact ⟨(hsame _ (by decide)).trans h.requests, (hsame _ (by decide)).trans h.refusals,
    (hsame _ (by decide)).trans h.dropped, h.answered⟩

theorem tasks_finish (s : HttpServer C R) (c : Connection) :
    (s.finish c).tasks = s.tasks.erase c := by
  unfold finish
  split
  · rfl
  · rename_i hc
    exact (List.erase_of_not_mem hc).symm

/-- A connection that ends without an answer. -/
theorem Books.close (h : Books shown s) (c : Connection) : Books (shown ++ []) (s.finish c) := by
  rw [List.append_nil]
  refine ⟨?_, ?_, ?_, fun d => ?_⟩
  · rw [tunnel_finish, h.requests]
  · rw [tunnel_finish, h.refusals]
  · rw [tunnel_finish, h.dropped]
  · rw [tasks_finish]
    exact (Nat.add_le_add_left (List.erase_sublist.count_le d) _).trans (h.answered d)

theorem Books.accept (h : Books shown s) (c : Connection) :
    Books (shown ++ [if s.permits = 0 then .dropped c else .spawned c]) (s.onAccept (.ok c)) := by
  simp only [onAccept]
  by_cases hfull : s.permits = 0
  · rw [if_pos hfull, dif_pos hfull]
    refine ⟨?_, ?_, ?_, fun d => ?_⟩
    · simpa [dropConnection, Metrics.fetchAdd, Served.isAnswer] using h.requests
    · simpa [dropConnection, Metrics.fetchAdd, Served.isRefusal] using h.refusals
    · simp [dropConnection, Metrics.fetchAdd, Served.isDropped, h.dropped]
    · simpa [dropConnection, Served.answers] using h.answered d
  · rw [if_neg hfull, dif_neg hfull]
    refine ⟨?_, ?_, ?_, fun d => ?_⟩
    · simpa [spawn, Served.isAnswer] using h.requests
    · simpa [spawn, Served.isRefusal] using h.refusals
    · simpa [spawn, Served.isDropped] using h.dropped
    · have hone := h.answered d
      simp only [spawn, List.countP_append, List.countP_singleton, Served.answers,
        List.count_append, List.count_cons, List.count_nil]
      by_cases hcd : c = d
      · subst hcd
        simp
        omega
      · simp [hcd]
        omega

/-- A request on an open connection is answered, and its connection ends. -/
theorem Books.answer (h : Books shown s) {c : Connection} (hc : c ∈ s.tasks) (env : Env)
    (draws : Nat → Int16) (req : Request) :
    let out := handleHttpRequest core rater s.tunnel env.timestamp draws req c.remoteAddr
    Books (shown ++ [.answered c out.1]) (finish { s with tunnel := out.2 } c) := by
  intro out
  obtain ⟨hcount, _⟩ :=
    count_handleHttpRequest core rater s.tunnel env.timestamp draws req c.remoteAddr
  refine ⟨?_, ?_, ?_, fun d => ?_⟩
  · rw [tunnel_finish, hcount]
    split <;> simp [Metrics.fetchAdd, Served.isAnswer, h.requests]
  · rw [tunnel_finish, hcount]
    split <;> simp [Metrics.fetchAdd, Served.isRefusal, h.refusals, out, *]
  · rw [tunnel_finish, hcount]
    split <;> simp [Metrics.fetchAdd, Served.isDropped, h.dropped]
  · rw [tasks_finish]
    have hone := h.answered d
    have hpos := List.count_pos_iff.mpr hc
    simp only [List.countP_append, List.countP_singleton, Served.answers, List.count_append,
      List.count_singleton, List.count_erase]
    by_cases hcd : c = d
    · subst hcd
      simp
      omega
    · simp [hcd]
      omega

end Steps

theorem books_step {shown : List Served} {s : HttpServer C R} (h : Books shown s) {e : HttpEvent}
    (he : OnConnections e) :
    Books (shown ++ (machine core rater).emit s e) ((machine core rater).step s e) := by
  cases e with
  | accept accepted =>
    cases accepted with
    | error =>
      simp only [machine]
      rw [List.append_nil]
      split
      · exact ⟨h.requests, h.refusals, h.dropped, h.answered⟩
      · exact h
    | ok c =>
      simp only [machine]
      split
      · exact h.accept c
      · exact (h.quiet fun _ _ => rfl : Books (shown ++ []) s)
  | request c env draws req =>
    simp only [machine]
    split
    · rename_i hc
      exact h.answer core rater hc env draws req
    · exact (h.quiet fun _ _ => rfl : Books (shown ++ []) s)
  | close c => exact h.close c
  | call call =>
    refine h.quiet fun c hc => ?_
    cases call with
    | receive env packet addr batch =>
      exact (count_onUdpReceive core rater s.tunnel env packet addr batch).1 c hc
    | http env draws req addr => exact absurd rfl (he env draws req addr)
    | heartbeat env => rfl
    | toggleMaintenance env => rfl

/-- Between two heartbeats the tunnel counts the connections that are dropped. -/
theorem droppedConnections_run {s : HttpServer C R} {events : List HttpEvent}
    (hconn : ∀ e ∈ events, OnConnections e) (hbeat : ∀ e ∈ events, isHeartbeat e = false) :
    ((machine core rater).run s events).tunnel.droppedConnections =
      s.tunnel.droppedConnections +
        .ofNat (((machine core rater).trace s events).countP Served.isDropped) := by
  let M := machine core rater
  refine M.run_trace_induction
    (C := fun _ e => OnConnections e ∧ isHeartbeat e = false)
    (P := fun shown u => u.tunnel.droppedConnections =
      s.tunnel.droppedConnections + .ofNat (shown.countP Served.isDropped))
    (by simp) ?_ events (M.along_of_mem (fun e he => ⟨hconn e he, hbeat e he⟩) s)
  rintro shown u e h ⟨he, hb⟩
  cases e with
  | accept accepted =>
    cases accepted with
    | error =>
      simp only [M, machine, List.append_nil]
      split <;> exact h
    | ok c =>
      simp only [M, machine]
      split
      · simp only [onAccept]
        split
        · simp [dropConnection, Served.isDropped, h, UInt32.add_assoc]
        · simpa [spawn, Served.isDropped] using h
      · simpa using h
  | request c env draws req =>
    obtain ⟨_, hsame⟩ :=
      count_handleHttpRequest core rater u.tunnel env.timestamp draws req c.remoteAddr
    simp only [M, machine]
    split
    · rw [tunnel_finish, hsame]
      simpa [Served.isDropped] using h
    · simpa using h
  | close c =>
    simp only [M, machine, List.append_nil]
    rw [tunnel_finish, h]
  | call call =>
    simp only [M, machine, List.append_nil]
    cases call with
    | receive env packet addr batch =>
      exact (count_onUdpReceive core rater u.tunnel env packet addr batch).2.trans h
    | http env draws req addr => exact absurd rfl (he env draws req addr)
    | heartbeat env => cases hb
    | toggleMaintenance env => exact h

/-- **The accounts.** After any run of a new server: it serves no more than 100 connections at
once and answers none more often than it has been accepted; the counters of requests, of answers
429 and of dropped connections are what has been shown, up to their wrap; and the tunnel's own
counter is what has been dropped since the last heartbeat. -/
theorem http_accounts (config : ServerConfig) (events : List HttpEvent)
    (hconn : ∀ e ∈ events, OnConnections e) :
    let M := machine core rater
    let s₀ : HttpServer C R := start (TunnelV2.new rater config)
    let s := M.run s₀ events
    s.tasks.length ≤ 100 ∧ Books (M.trace s₀ events) s ∧
    ∀ before env after, events = before ++ .call (.heartbeat env) :: after →
      (∀ e ∈ after, isHeartbeat e = false) →
      s.tunnel.droppedConnections = .ofNat
        ((M.trace (M.run s₀ (before ++ [.call (.heartbeat env)])) after).countP
          Served.isDropped) := by
  intro M s₀ s
  refine ⟨?_, ?_, ?_⟩
  · have htotal : s.permits + s.tasks.length = 100 := s.permits_add_tasks
    omega
  · exact M.run_trace_induction (C := fun _ e => OnConnections e) (books_start rater config)
      (fun _ _ _ h he => books_step core rater h he) events (M.along_of_mem hconn s₀)
  · intro before env after hsplit hbeat
    have hafter : ∀ e ∈ after, OnConnections e := by
      intro e he
      exact hconn e (hsplit ▸ List.mem_append_right _ (List.mem_cons_of_mem _ he))
    have hrun := droppedConnections_run core rater
      (s := M.run s₀ (before ++ [.call (.heartbeat env)])) hafter hbeat
    have hzero : (M.run s₀ (before ++ [.call (.heartbeat env)])).tunnel.droppedConnections = 0 := by
      rw [M.run_snoc]
      rfl
    have hlast : s = M.run (M.run s₀ (before ++ [.call (.heartbeat env)])) after := by
      rw [← M.run_append, List.append_assoc, List.singleton_append, ← hsplit]
    rw [hlast, hrun, hzero, UInt32.zero_add]

/-- A hundred connections, two more that are dropped, one before and one after a heartbeat, and
an answer. -/
theorem http_accounts_full :
    let M := machine (RelayCore.reference timeoutSeconds) Rater.granting
    let s₀ := start (TunnelV2.new Rater.granting ⟨50001, 50000, 200, "", 8, 4⟩)
    let alice : Connection := ⟨8, .v4 8 8 8 8 1234⟩
    let events := List.replicate 101 (.accept (.ok alice)) ++
      [.call (.heartbeat ⟨1000, 1, true⟩), .accept (.ok alice),
        .request alice ⟨1000, 1, true⟩ (fun _ => 0) ⟨true, "/status".toList, none⟩]
    (M.run s₀ events).tunnel.droppedConnections = 1 ∧
      (M.run s₀ events).tunnel.metrics.count .droppedConnections = 2 ∧
      Books (M.trace s₀ events) (M.run s₀ events) := by
  intro M s₀ alice events
  refine ⟨by decide +kernel, by decide +kernel, ?_⟩
  refine (http_accounts (RelayCore.reference timeoutSeconds) Rater.granting
    ⟨50001, 50000, 200, "", 8, 4⟩ events ?_).2.1
  intro e he env draws req addr heq
  subst heq
  simp [events] at he

end TunnelV2.HttpServer

end CncnetServer
