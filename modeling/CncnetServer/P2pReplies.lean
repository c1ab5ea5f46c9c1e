import CncnetServer.PeerToPeer
import CncnetServer.Lib.History
import CncnetServer.Lib.Threads
import Mathlib.Algebra.Order.BigOperators.Group.Finset

/-!
The workers of both P2P ports, one access to the limiter, to a counter or to the socket a
step, with the tasks that reset the limiters.

* `solo_receive`: a worker alone makes of a datagram what `receive_loop` makes of it;
* `Serving`: what a worker knows of the packet it is at, of its send buffer and of its answers;
* `p2p_replies`: every interleaving of any number of workers and resets.
-/

namespace CncnetServer.PeerToPeer

open Buffers Threads Runs History

variable {C A R : Type} (core : RelayCore C A) (rater : Rater R)

/-- The two services of `main`, by their ports. -/
inductive Service
  | p8054 | p3478
  deriving DecidableEq

/-- What the tasks share: a limiter for each service, and the metrics of the server. -/
structure Shared (R : Type) where
  rateLimiter : Service → R
  metrics : Metrics

/-- Where a worker is. -/
inductive Point
  | head
  /-- In `on_receive`, with a packet of 48 bytes. -/
  | received (packet : Packet) (addr : SocketAddr)
  | refused
  | granted (packet : Packet) (addr : SocketAddr)
  /-- Before `send_to`, with the answer in the send buffer. -/
  | sending (addr : SocketAddr)
  | sent

structure Worker where
  service : Service
  buffer : SendBuffer
  point : Point

inductive Task
  | worker (w : Worker)
  /-- The task that resets the limiter of the service every 60 s. -/
  | resets (service : Service)

/-- What a step does not determine: what `recv_from` returns, the clock of the limiter, and
whether `send_to` succeeds. -/
inductive Input
  | receive (datagram : Packet) (addr : SocketAddr)
  | receiveError
  | check (now : Nat)
  | send (ok : Bool)
  | go

inductive Shown
  | received (datagram : Packet) (addr : SocketAddr)
  | checked (granted : Bool)
  /-- `fetch_add(1)` on the counter. -/
  | counted (counter : Counter)
  /-- The datagram is handed to `send_to`. -/
  | replied (d : Datagram)
  deriving DecidableEq

namespace Worker

/-- One step of a worker. An input that does not fit leaves everything as it is. -/
def exec (s : Shared R) (w : Worker) (a : Input) : Shared R × Worker :=
  match w.point, a with
  | .head, .receive datagram addr =>
    let packet := recvFrom bufSize datagram
    if packet.length = 48 then (s, { w with point := .received packet addr }) else (s, w)
  | .received packet addr, .check now =>
    if !core.validateAddress addr then (s, { w with point := .head })
    else
      let (granted, limiter) :=
        RateLimiter.checkAndIncrement rater (s.rateLimiter w.service) addr.ip now
      ({ s with rateLimiter := Function.update s.rateLimiter w.service limiter },
        { w with point := if granted then .granted packet addr else .refused })
  | .refused, .go =>
    ({ s with metrics := s.metrics.fetchAdd .rateLimitHits 1 }, { w with point := .head })
  | .granted packet addr, .go =>
    ({ s with metrics := s.metrics.fetchAdd .p2pRequests 1 },
      if receivedId packet ≠ stunId then { w with point := .head }
      else { w with buffer := answer w.buffer addr, point := .sending addr })
  | .sending _, .send ok => (s, { w with point := if ok then .sent else .head })
  | .sent, .go =>
    ({ s with metrics := s.metrics.fetchAdd .p2pResponses 1 }, { w with point := .head })
  | _, _ => (s, w)

def emit (s : Shared R) (w : Worker) (a : Input) : List Shown :=
  match w.point, a with
  | .head, .receive datagram addr => [.received datagram addr]
  | .received _ addr, .check now =>
    if core.validateAddress addr then
      [.checked (rater.tryAcquire (s.rateLimiter w.service) addr.ip now).1]
    else []
  | .refused, .go => [.counted .rateLimitHits]
  | .granted _ _, .go => [.counted .p2pRequests]
  | .sending addr, .send _ => [.replied ⟨w.buffer.toList, addr⟩]
  | .sent, .go => [.counted .p2pResponses]
  | _, _ => []

end Worker

def exec (s : Shared R) : Task → Input → Shared R × Task
  | .worker w, a => ((w.exec core rater s a).1, .worker (w.exec core rater s a).2)
  | .resets service, .go =>
    let limiter := RateLimiter.reset rater (s.rateLimiter service)
    ({ s with rateLimiter := Function.update s.rateLimiter service limiter }, .resets service)
  | .resets service, _ => (s, .resets service)

def emit (s : Shared R) : Task → Input → List Shown
  | .worker w, a => w.emit core rater s a
  | .resets _, _ => []

def tasks : System (Shared R) Task Input Shown where
  exec := exec core rater
  emit := emit core rater
  tick s _ := s

/-! ## A worker alone -/

/-- **A worker alone** makes of a datagram what an iteration of `receive_loop` makes of it. -/
theorem solo_receive (s : Shared R) (service : Service) (buffer : SendBuffer) (env : Env)
    (datagram : Packet) (addr : SocketAddr) :
    let out := receive core rater ⟨s.rateLimiter service, s.metrics⟩ env buffer
      (.datagram (recvFrom bufSize datagram) addr)
    (tasks core rater).solo s (.worker ⟨service, buffer, .head⟩)
        [.receive datagram addr, .check env.timestamp, .go, .send env.sendOk, .go] =
      (⟨Function.update s.rateLimiter service out.1.rateLimiter, out.1.metrics⟩,
        .worker ⟨service, out.2.1, .head⟩) := by
  intro out
  -- after an early return the inputs that are left do not fit
  have hkeep : (⟨Function.update s.rateLimiter service (s.rateLimiter service), s.metrics⟩ :
      Shared R) = s := by
    rw [Function.update_eq_self]
  simp only [tasks, out, receive]
  by_cases hlen : (recvFrom bufSize datagram).length = 48
  · rw [if_pos hlen]
    unfold onReceive
    cases hvalid : core.validateAddress addr with
    | false => simp [exec, Worker.exec, hlen, hvalid]
    | true =>
      cases hgranted : (RateLimiter.checkAndIncrement rater (s.rateLimiter service) addr.ip
          env.timestamp).1 with
      | false => simp [exec, Worker.exec, hlen, hvalid, hgranted]
      | true =>
        by_cases hid : receivedId (recvFrom bufSize datagram) = stunId
        · cases hsend : env.sendOk with
          | false => simp [exec, Worker.exec, hlen, hvalid, hgranted, hid]
          | true => simp [exec, Worker.exec, hlen, hvalid, hgranted, hid]
        · simp [exec, Worker.exec, hlen, hvalid, hgranted, hid]
  · rw [if_neg hlen, hkeep]
    simp [exec, Worker.exec, hlen]

/-! ## What a worker knows -/

/-- A packet of 48 bytes is the whole datagram. -/
theorem recvFrom_eq {datagram : Packet} (h : (recvFrom bufSize datagram).length = 48) :
    recvFrom bufSize datagram = datagram := by
  by_cases hle : datagram.length ≤ bufSize
  · exact recvFrom_of_le hle
  · rw [length_recvFrom_of_lt (Nat.lt_of_not_le hle)] at h
    cases h

/-- What an event adds to a counter. -/
def Shown.adds (c : Counter) : Shown → Nat
  | .counted c' => if c' = c then 1 else 0
  | .received _ _ | .checked _ | .replied _ => 0

def counted (c : Counter) (shown : List Shown) : Nat := (shown.map (Shown.adds c)).sum

theorem counted_append (c : Counter) (shown es : List Shown) :
    counted c (shown ++ es) = counted c shown + counted c es := by
  unfold counted
  rw [List.map_append, List.sum_append]

theorem counted_singleton (c : Counter) (e : Shown) : counted c [e] = e.adds c := by
  unfold counted
  rw [List.map_singleton, List.sum_singleton]

/-- What is replied answers a request from `addr` that was received, checked and counted
just before. -/
structure Answers (noise : SendBuffer) (before : List Shown) (d : Datagram) (packet : Packet)
    (addr : SocketAddr) : Prop where
  request : [.received packet addr, .checked true, .counted .p2pRequests] <:+ before
  length : packet.length = 48
  stunId : receivedId packet = stunId
  valid : core.validateAddress addr = true
  reply : d = reply noise addr

def Answered (noise : SendBuffer) (before : List Shown) : Shown → Prop
  | .replied d => ∃ packet addr, Answers core noise before d packet addr
  | .received _ _ | .checked _ | .counted _ => True

namespace Worker

/-- The packet in work is the one received last, and has passed the checks before the point. -/
def At (noise : SendBuffer) (shown : List Shown) (w : Worker) : Prop :=
  match w.point with
  | .received packet addr => [.received packet addr] <:+ shown ∧ packet.length = 48
  | .granted packet addr =>
    [.received packet addr, .checked true] <:+ shown ∧ packet.length = 48 ∧
      core.validateAddress addr = true
  | .sending addr => ∃ packet, Answers core noise shown ⟨w.buffer.toList, addr⟩ packet addr
  | .head | .refused | .sent => True

/-- Requests that are counted and whose response is not. -/
def owes (w : Worker) : Nat :=
  match w.point with
  | .sending _ | .sent => 1
  | .head | .received _ _ | .refused | .granted _ _ => 0

end Worker

/-- A worker that has shown this, over its random bytes. -/
structure Serving (noise : SendBuffer) (shown : List Shown) (w : Worker) : Prop where
  buffer : SameFrom 6 w.buffer (sendBuffer noise)
  point : w.At core noise shown
  replies : Always (Answered core noise) shown
  owed : counted .p2pResponses shown + w.owes ≤ counted .p2pRequests shown

variable {core}

theorem Serving.quiet {noise : SendBuffer} {shown : List Shown} {w w' : Worker}
    (h : Serving core noise shown w) (hbuffer : w'.buffer = w.buffer)
    (hpoint : w'.At core noise shown) (howes : w'.owes ≤ w.owes) :
    Serving core noise (shown ++ []) w' := by
  rw [List.append_nil]
  refine ⟨?_, hpoint, h.replies, Nat.le_trans (Nat.add_le_add_left howes _) h.owed⟩
  rw [hbuffer]
  exact h.buffer

theorem Serving.snoc {noise : SendBuffer} {shown : List Shown} {w w' : Worker} {e : Shown}
    (h : Serving core noise shown w) (hanswered : Answered core noise shown e)
    (hbuffer : SameFrom 6 w'.buffer w.buffer) (hpoint : w'.At core noise (shown ++ [e]))
    (howes : e.adds .p2pResponses + w'.owes ≤ e.adds .p2pRequests + w.owes) :
    Serving core noise (shown ++ [e]) w' := by
  refine ⟨hbuffer.trans h.buffer, hpoint, (always_snoc shown e).mpr ⟨h.replies, hanswered⟩, ?_⟩
  have howed := h.owed
  rw [counted_append, counted_append, counted_singleton, counted_singleton]
  omega

theorem suffix_snoc {es shown : List Shown} (h : es <:+ shown) (e : Shown) :
    es ++ [e] <:+ shown ++ [e] := by
  obtain ⟨before, rfl⟩ := h
  exact ⟨before, (List.append_assoc before es [e]).symm⟩

/-! ### The steps -/

section Steps

variable {noise : SendBuffer} {shown : List Shown} {service : Service} {buffer : SendBuffer}

theorem receive_serving (s : Shared R) (h : Serving core noise shown ⟨service, buffer, .head⟩)
    (datagram : Packet) (addr : SocketAddr) :
    Serving core noise (shown ++ [.received datagram addr])
      (Worker.exec core rater s ⟨service, buffer, .head⟩ (.receive datagram addr)).2 := by
  simp only [Worker.exec]
  by_cases hlen : (recvFrom bufSize datagram).length = 48
  · rw [if_pos hlen, recvFrom_eq hlen]
    rw [recvFrom_eq hlen] at hlen
    exact h.snoc trivial (SameFrom.refl 6 _) ⟨List.suffix_append _ _, hlen⟩ (Nat.le_refl _)
  · rw [if_neg hlen]
    exact h.snoc trivial (SameFrom.refl 6 _) trivial (Nat.le_refl _)

theorem check_serving (s : Shared R) {packet : Packet} {addr : SocketAddr}
    (h : Serving core noise shown ⟨service, buffer, .received packet addr⟩) (now : Nat) :
    Serving core noise
      (shown ++ Worker.emit core rater s ⟨service, buffer, .received packet addr⟩ (.check now))
      (Worker.exec core rater s ⟨service, buffer, .received packet addr⟩ (.check now)).2 := by
  obtain ⟨hlast, hlen⟩ := h.point
  simp only [Worker.exec, Worker.emit, RateLimiter.checkAndIncrement]
  cases hvalid : core.validateAddress addr with
  | false => exact h.quiet rfl trivial (Nat.le_refl _)
  | true =>
    by_cases hgranted : (rater.tryAcquire (s.rateLimiter service) addr.ip now).1 = true
    · simp only [hgranted, if_true]
      exact h.snoc trivial (SameFrom.refl 6 _) ⟨suffix_snoc hlast _, hlen, hvalid⟩ (Nat.le_refl _)
    · simp only [hgranted, if_true]
      exact h.snoc trivial (SameFrom.refl 6 _) trivial (Nat.le_refl _)

theorem request_serving (s : Shared R) {packet : Packet} {addr : SocketAddr}
    (h : Serving core noise shown ⟨service, buffer, .granted packet addr⟩) :
    Serving core noise (shown ++ [.counted .p2pRequests])
      (Worker.exec core rater s ⟨service, buffer, .granted packet addr⟩ .go).2 := by
  obtain ⟨hlast, hlen, hvalid⟩ := h.point
  simp only [Worker.exec]
  by_cases hid : receivedId packet = stunId
  · rw [if_neg (not_not.mpr hid)]
    refine h.snoc trivial (answer_sameFrom buffer addr) ⟨packet, ?_⟩ (Nat.le_refl _)
    refine ⟨suffix_snoc hlast _, hlen, hid, hvalid, ?_⟩
    -- whoever was answered before, the buffer is the one of a first answer
    rw [answer_eq h.buffer addr]
    rfl
  · rw [if_pos hid]
    exact h.snoc trivial (SameFrom.refl 6 _) trivial (Nat.zero_le _)

/-- **One step** of a worker. -/
theorem exec_serving (s : Shared R) {w : Worker} (h : Serving core noise shown w) (a : Input) :
    Serving core noise (shown ++ w.emit core rater s a) (w.exec core rater s a).2 := by
  have hsame : Serving core noise (shown ++ []) w := h.quiet rfl h.point (Nat.le_refl _)
  obtain ⟨service, buffer, point⟩ := w
  cases point with
  | head =>
    cases a with
    | receive datagram addr => exact receive_serving rater s h datagram addr
    | _ => exact hsame
  | received packet addr =>
    cases a with
    | check now => exact check_serving rater s h now
    | _ => exact hsame
  | refused =>
    cases a with
    | go => exact h.snoc trivial (SameFrom.refl 6 _) trivial (Nat.le_refl _)
    | _ => exact hsame
  | granted packet addr =>
    cases a with
    | go => exact request_serving rater s h
    | _ => exact hsame
  | sending addr =>
    cases a with
    | send ok =>
      obtain ⟨packet, hanswers⟩ := h.point
      cases ok with
      | false => exact h.snoc ⟨packet, addr, hanswers⟩ (SameFrom.refl 6 _) trivial (Nat.zero_le _)
      | true => exact h.snoc ⟨packet, addr, hanswers⟩ (SameFrom.refl 6 _) trivial (Nat.le_refl _)
    | _ => exact hsame
  | sent =>
    cases a with
    | go => exact h.snoc trivial (SameFrom.refl 6 _) trivial (Nat.le_refl _)
    | _ => exact hsame

end Steps

/-! ### The counters -/

variable (core)

theorem count_fetchAdd (m : Metrics) (c c' : Counter) :
    (m.fetchAdd c 1).count c' = m.count c' + UInt64.ofNat (counted c' [.counted c]) := by
  rw [counted_singleton]
  unfold Metrics.fetchAdd Shown.adds
  dsimp only
  by_cases hc : c = c'
  · rw [hc, Function.update_self, if_pos rfl]
    rfl
  · rw [Function.update_of_ne (Ne.symm hc), if_neg hc]
    exact (UInt64.add_zero _).symm

/-- A step counts what it shows. -/
theorem exec_counts (s : Shared R) (w : Worker) (a : Input) (c : Counter) :
    (w.exec core rater s a).1.metrics.count c =
      s.metrics.count c + UInt64.ofNat (counted c (w.emit core rater s a)) := by
  have hsame : s.metrics.count c = s.metrics.count c + UInt64.ofNat 0 :=
    (UInt64.add_zero _).symm
  obtain ⟨service, buffer, point⟩ := w
  cases point with
  | head =>
    cases a with
    | receive datagram addr =>
      simp only [Worker.exec, Worker.emit]
      split <;> exact hsame
    | _ => exact hsame
  | received packet addr =>
    cases a with
    | check now =>
      simp only [Worker.exec, Worker.emit]
      cases core.validateAddress addr with
      | false => exact hsame
      | true => exact hsame
    | _ => exact hsame
  | refused =>
    cases a with
    | go => exact count_fetchAdd s.metrics .rateLimitHits c
    | _ => exact hsame
  | granted packet addr =>
    cases a with
    | go => exact count_fetchAdd s.metrics .p2pRequests c
    | _ => exact hsame
  | sending addr =>
    cases a with
    | send ok => exact hsame
    | _ => exact hsame
  | sent =>
    cases a with
    | go => exact count_fetchAdd s.metrics .p2pResponses c
    | _ => exact hsame

/-! ## Runs -/

section Run

variable {ι : Type} [DecidableEq ι]

/-- All counters at 0, and every worker before its first datagram. -/
structure Started (noise : ι → SendBuffer) (p : Pool ι (Shared R) Task) : Prop where
  metrics : p.shared.metrics = Metrics.new
  tasks : ∀ i, (∃ service, p.thread i = .worker ⟨service, sendBuffer (noise i), .head⟩) ∨
    ∃ service, p.thread i = .resets service

/-- What a task has shown, as its invariant. -/
def Task.Serves (noise : SendBuffer) (shown : List Shown) : Task → Prop
  | .worker w => Serving core noise shown w
  | .resets _ => shown = []

structure Served (noise : ι → SendBuffer) (tr : List (ι × Shown)) (p : Pool ι (Shared R) Task) :
    Prop where
  task : ∀ i, (p.thread i).Serves core (noise i) (shownBy i tr)
  counts : ∀ c, p.shared.metrics.count c = UInt64.ofNat (counted c (tr.map Prod.snd))

theorem exec_serves {noise : SendBuffer} {shown : List Shown} (s : Shared R) {t : Task}
    (h : t.Serves core noise shown) (a : Input) :
    (exec core rater s t a).2.Serves core noise (shown ++ emit core rater s t a) := by
  cases t with
  | worker w => exact exec_serving rater s h a
  | resets service => cases a <;> exact (List.append_nil shown).trans h

theorem exec_task_counts (s : Shared R) (t : Task) (a : Input) (c : Counter) :
    (exec core rater s t a).1.metrics.count c =
      s.metrics.count c + UInt64.ofNat (counted c (emit core rater s t a)) := by
  cases t with
  | worker w => exact exec_counts core rater s w a c
  | resets service => cases a <;> exact (UInt64.add_zero _).symm

theorem served_step {noise : ι → SendBuffer} {tr : List (ι × Shown)}
    {p : Pool ι (Shared R) Task} (h : Served core noise tr p) (a : Action ι Input) :
    Served core noise (tr ++ (tasks core rater).machine.emit p a)
      ((tasks core rater).machine.step p a) := by
  cases a with
  | tick d =>
    rw [System.emit_tick, List.append_nil]
    exact ⟨h.task, h.counts⟩
  | work i a =>
    have hserves := exec_serves core rater p.shared (h.task i) a
    have hcounts := exec_task_counts core rater p.shared (p.thread i) a
    refine ⟨shownBy_work (tasks core rater) (L := fun j shown t => t.Serves core (noise j) shown)
      h.task hserves, fun c => ?_⟩
    rw [List.map_append, counted_append, map_snd_emit, UInt64.ofNat_add, ← h.counts c]
    exact hcounts c

theorem served_run {noise : ι → SendBuffer} {p : Pool ι (Shared R) Task}
    (hstart : Started noise p) (as : List (Action ι Input)) :
    Served core noise ((tasks core rater).machine.trace p as)
      ((tasks core rater).machine.run p as) := by
  have hfirst : Served core noise [] p := by
    refine ⟨fun i => ?_, fun c => ?_⟩
    · rcases hstart.tasks i with ⟨service, hworker⟩ | ⟨service, hresets⟩
      · rw [hworker]
        exact ⟨SameFrom.refl 6 _, trivial, always_nil, Nat.le_refl _⟩
      · rw [hresets]
        rfl
    · rw [hstart.metrics]
      rfl
  exact (tasks core rater).machine.trace_invariant (P := Served core noise) hfirst
    (fun tr q a h => served_step core rater h a) as

theorem Served.responses_le [Fintype ι] {noise : ι → SendBuffer} {tr : List (ι × Shown)}
    {p : Pool ι (Shared R) Task} (h : Served core noise tr p) :
    counted .p2pResponses (tr.map Prod.snd) ≤ counted .p2pRequests (tr.map Prod.snd) := by
  have hone : ∀ i, counted .p2pResponses (shownBy i tr) ≤ counted .p2pRequests (shownBy i tr) := by
    intro i
    have htask := h.task i
    generalize p.thread i = t at htask
    cases t with
    | worker w => exact Nat.le_of_add_right_le htask.owed
    | resets service =>
      rw [show shownBy i tr = [] from htask]
      exact Nat.le_refl _
  have hsum := Finset.sum_le_sum fun i (_ : i ∈ Finset.univ) => hone i
  unfold counted at hsum ⊢
  rw [sum_shownBy, sum_shownBy] at hsum
  exact hsum

/-- **P2P replies**, in every run of any number of workers and resets of both services. A
worker replies only to a datagram of 48 bytes with the STUN id, from a valid address and
granted by the limiter; the reply tells its source the source's own address and is the one it
would get as the first client. Unless the requests pass 2^64, no more responses than requests
are counted. -/
theorem p2p_replies [Fintype ι] {noise : ι → SendBuffer} {p : Pool ι (Shared R) Task}
    (hstart : Started noise p) (as : List (Action ι Input)) :
    let M := (tasks core rater).machine (ι := ι)
    (∀ i before d after, shownBy i (M.trace p as) = before ++ .replied d :: after →
      ∃ packet addr, [.received packet addr, .checked true, .counted .p2pRequests] <:+ before ∧
        packet.length = 48 ∧ receivedId packet = stunId ∧ core.validateAddress addr = true ∧
        RepliesTo (noise i) addr d ∧ d = reply (noise i) addr) ∧
    (counted .p2pRequests ((M.trace p as).map Prod.snd) < 2 ^ 64 →
      (M.run p as).shared.metrics.count .p2pResponses ≤
        (M.run p as).shared.metrics.count .p2pRequests) := by
  intro M
  have hserved := served_run core rater hstart as
  refine ⟨fun i before d after hshown => ?_, fun hwrap => ?_⟩
  · have htask := hserved.task i
    generalize ((tasks core rater).machine.run p as).thread i = t at htask
    cases t with
    | worker w =>
      obtain ⟨packet, addr, hanswers⟩ := htask.replies before (.replied d) after hshown
      refine ⟨packet, addr, hanswers.request, hanswers.length, hanswers.stunId, hanswers.valid, ?_,
        hanswers.reply⟩
      rw [hanswers.reply]
      exact reply_repliesTo (noise i) addr
    | resets service =>
      have hnone : shownBy i (M.trace p as) = [] := htask
      rw [hnone] at hshown
      exact absurd hshown (List.append_ne_nil_of_right_ne_nil _ (List.cons_ne_nil _ _)).symm
  · have hle := hserved.responses_le
    have hresponses := hserved.counts .p2pResponses
    have hrequests := hserved.counts .p2pRequests
    show ((tasks core rater).machine.run p as).shared.metrics.count _ ≤
      ((tasks core rater).machine.run p as).shared.metrics.count _
    rw [hresponses, hrequests, UInt64.le_iff_toNat_le, UInt64.toNat_ofNat_of_lt' hwrap,
      UInt64.toNat_ofNat_of_lt' (Nat.lt_of_le_of_lt hle hwrap)]
    exact hle

end Run

/-! ## A concrete run -/

/-- A worker of each service, over random bytes that are all 7. -/
def freshWorkers : Pool Bool (Shared SpentTokens) Task :=
  ⟨⟨fun _ => (new Rater.reference .new).rateLimiter, .new⟩, fun i =>
    .worker ⟨if i then .p3478 else .p8054, sendBuffer (Vector.replicate 40 7), .head⟩⟩

def stunRequest : Packet := [0x66, 0x96] ++ List.replicate 46 0

/-- The first worker answers `8.8.8.8:1234` and `9.9.9.9:4321`, with the second one answering
in between. -/
def twoClients : List (Action Bool Input) :=
  let first : SocketAddr := .v4 8 8 8 8 1234
  let second : SocketAddr := .v4 9 9 9 9 4321
  [.work false (.receive stunRequest first), .work true (.receive stunRequest second),
    .work false (.check 0), .work false .go, .work true (.check 0), .work false (.send true),
    .work true .go, .work true (.send true), .work false .go,
    .work false (.receive stunRequest second), .work false (.check 0), .work false .go,
    .work false (.send true)]

/-- The second answer of the first worker. -/
def secondReply : Datagram :=
  ⟨[41, 41, 41, 41, 48, 193, 0x66, 0x96] ++ List.replicate 32 7, .v4 9 9 9 9 4321⟩

theorem p2p_replies_second :
    let M := (tasks (RelayCore.reference 30) Rater.reference).machine (ι := Bool)
    (shownBy false (M.trace freshWorkers twoClients)).getLast? = some (.replied secondReply) ∧
      RepliesTo (Vector.replicate 40 7) (.v4 9 9 9 9 4321) secondReply ∧
      (M.run freshWorkers twoClients).shared.metrics.count .p2pResponses = 1 ∧
      (M.run freshWorkers twoClients).shared.metrics.count .p2pResponses ≤
        (M.run freshWorkers twoClients).shared.metrics.count .p2pRequests := by
  have hstart : Started (fun _ => Vector.replicate 40 7) freshWorkers :=
    ⟨rfl, fun i => Or.inl ⟨if i then .p3478 else .p8054, rfl⟩⟩
  obtain ⟨hreplies, hcounted⟩ :=
    p2p_replies (RelayCore.reference 30) Rater.reference hstart twoClients
  dsimp only at hreplies hcounted ⊢
  have hlast : (shownBy false ((tasks (RelayCore.reference 30) Rater.reference).machine.trace
      freshWorkers twoClients)).getLast? = some (.replied secondReply) := by
    decide +kernel
  obtain ⟨_, addr, _, _, _, _, hreply, _⟩ := hreplies false _ secondReply []
    (List.dropLast_append_getLast? _ hlast).symm
  obtain rfl : .v4 9 9 9 9 4321 = addr := hreply.dest
  exact ⟨hlast, hreply, by decide +kernel, hcounted (by decide +kernel)⟩

end CncnetServer.PeerToPeer
