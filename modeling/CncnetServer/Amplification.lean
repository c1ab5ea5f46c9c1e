import CncnetServer.BatchedMetrics
import Mathlib.Algebra.Order.BigOperators.Group.Finset
import Mathlib.Data.List.Infix

/-!
The receive workers of both tunnels once more, one record of the batch, one `send_to`
and one `fetch_add` of `flush` a step.

A handler answers a packet at most once and with no more bytes than the packet has, and
`flush` visits what was received before what was sent. So at every point a worker has sent
no more than it has received, and published no more of what it sent.

* `solo_respond`: a worker alone does what it does in coarser steps;
* `Balanced`: what a worker has received, sent and published;
* `no_amplification`: every interleaving of any number of workers.
-/

namespace CncnetServer

open Threads Runs

/-! ## What a handler sends -/

/-- Nothing, or one datagram that is no longer than the packet. -/
def AnswersOnce (packet : Packet) (sent : List Datagram) : Prop :=
  sent = [] ∨ ∃ datagram, sent = [datagram] ∧ datagram.payload.length ≤ packet.length

theorem answersOnce_toList (packet : Packet) (dest : Option SocketAddr) :
    AnswersOnce packet (dest.map fun b => (⟨packet, b⟩ : Datagram)).toList := by
  cases dest with
  | none => exact Or.inl rfl
  | some b => exact Or.inr ⟨_, rfl, Nat.le_refl _⟩

theorem answersOnce_echo (packet : Packet) (addr : SocketAddr) :
    AnswersOnce packet [⟨packet.take (min 12 packet.length), addr⟩] := by
  refine Or.inr ⟨_, rfl, ?_⟩
  rw [List.length_take]
  omega

section Handlers

variable {C A R : Type} (core : RelayCore C A) (rater : Rater R)

theorem TunnelV3.onReceive_answersOnce (t : TunnelV3 C A R) (env : Env) (packet : Packet)
    (addr : SocketAddr) (batch : LocalMetricsBatch) :
    AnswersOnce packet (onReceive core rater t env packet addr batch).2.2 := by
  have hstep := onReceive_step core rater t env packet addr batch
  generalize onReceive core rater t env packet addr batch = out at hstep
  cases hstep with
  | short _ => exact Or.inl rfl
  | command _ _ _ _ => exact Or.inl rfl
  | dropped _ => exact Or.inl rfl
  | pingLimited _ => exact Or.inl rfl
  | ping _ _ => exact answersOnce_echo packet addr
  | forward s r _ =>
    unfold handleDataForward
    dsimp only
    split
    · exact Or.inl rfl
    · rw [relay_sent]
      exact answersOnce_toList packet _

theorem TunnelV2.onUdpReceive_answersOnce (t : TunnelV2 C R) (env : Env) (packet : Packet)
    (addr : SocketAddr) (batch : LocalMetricsBatch) :
    AnswersOnce packet (onUdpReceive core rater t env packet addr batch).2.2 := by
  have hstep := onUdpReceive_step core rater t env packet addr batch
  generalize onUdpReceive core rater t env packet addr batch = out at hstep
  cases hstep with
  | short _ => exact Or.inl rfl
  | dropped _ => exact Or.inl rfl
  | pingLimited _ => exact Or.inl rfl
  | ping _ _ => exact answersOnce_echo packet addr
  | forward s r _ =>
    unfold handleDataForward
    split
    · rw [relay_sent]
      exact answersOnce_toList packet _
    · exact Or.inl rfl

theorem Worker.handle_answersOnce (m : Metrics) (w : Worker) (packet : Packet) (addr : SocketAddr)
    (v3 : TunnelV3 C A R) (v2 : TunnelV2 C R) (env : Env) :
    AnswersOnce packet (handle core rater m w packet addr v3 v2 env).2.2 := by
  obtain ⟨tunnel, batch, stage⟩ := w
  cases tunnel with
  | v3 => exact TunnelV3.onReceive_answersOnce core rater _ env packet addr batch
  | v2 => exact TunnelV2.onUdpReceive_answersOnce core rater _ env packet addr batch

/-- The batch decides nothing. -/
theorem TunnelV3.onReceive_batch (t : TunnelV3 C A R) (env : Env) (packet : Packet)
    (addr : SocketAddr) (b b' : LocalMetricsBatch) :
    (onReceive core rater t env packet addr b).1 = (onReceive core rater t env packet addr b').1 ∧
      (onReceive core rater t env packet addr b).2.2 =
        (onReceive core rater t env packet addr b').2.2 := by
  have hrelay : ∀ (u : TunnelV3 C A R) r (b b' : LocalMetricsBatch),
      (relay core u env r packet addr b).1 = (relay core u env r packet addr b').1 ∧
        (relay core u env r packet addr b).2.2 = (relay core u env r packet addr b').2.2 := by
    intro u r b b'
    unfold relay
    split
    · split <;> exact ⟨rfl, rfl⟩
    · exact ⟨rfl, rfl⟩
  unfold onReceive
  split
  · exact ⟨rfl, rfl⟩
  · dsimp only
    split
    · exact ⟨rfl, rfl⟩
    · split
      · exact ⟨rfl, rfl⟩
      · split
        · split
          · split <;> exact ⟨rfl, rfl⟩
          · exact ⟨rfl, rfl⟩
        · split
          · exact ⟨rfl, rfl⟩
          · unfold handleDataForward
            dsimp only
            split
            · exact ⟨rfl, rfl⟩
            · exact hrelay _ _ _ _

theorem TunnelV2.onUdpReceive_batch (t : TunnelV2 C R) (env : Env) (packet : Packet)
    (addr : SocketAddr) (b b' : LocalMetricsBatch) :
    (onUdpReceive core rater t env packet addr b).1 =
        (onUdpReceive core rater t env packet addr b').1 ∧
      (onUdpReceive core rater t env packet addr b).2.2 =
        (onUdpReceive core rater t env packet addr b').2.2 := by
  have hrelay : ∀ (u : TunnelV2 C R) r (b b' : LocalMetricsBatch),
      (relay core u env r packet addr b).1 = (relay core u env r packet addr b').1 ∧
        (relay core u env r packet addr b).2.2 = (relay core u env r packet addr b').2.2 := by
    intro u r b b'
    unfold relay
    split
    · split <;> exact ⟨rfl, rfl⟩
    · exact ⟨rfl, rfl⟩
  unfold onUdpReceive handleDataForward
  split
  · exact ⟨rfl, rfl⟩
  · dsimp only
    split
    · exact ⟨rfl, rfl⟩
    · split
      · split
        · split <;> exact ⟨rfl, rfl⟩
        · exact ⟨rfl, rfl⟩
      · split
        · exact ⟨rfl, rfl⟩
        · split
          · exact hrelay _ _ _ _
          · exact ⟨rfl, rfl⟩

theorem Worker.handle_batch (m : Metrics) (tunnel : Tunnel) (b b' : LocalMetricsBatch)
    (stage stage' : Stage) (packet : Packet) (addr : SocketAddr) (v3 : TunnelV3 C A R)
    (v2 : TunnelV2 C R) (env : Env) :
    (handle core rater m ⟨tunnel, b, stage⟩ packet addr v3 v2 env).1 =
        (handle core rater m ⟨tunnel, b', stage'⟩ packet addr v3 v2 env).1 ∧
      (handle core rater m ⟨tunnel, b, stage⟩ packet addr v3 v2 env).2.2 =
        (handle core rater m ⟨tunnel, b', stage'⟩ packet addr v3 v2 env).2.2 := by
  cases tunnel with
  | v3 =>
    have hsame := TunnelV3.onReceive_batch core rater { v3 with metrics := m } env packet addr b b'
    exact ⟨congrArg TunnelV3.metrics hsame.1, hsame.2⟩
  | v2 =>
    have hsame := TunnelV2.onUdpReceive_batch core rater { v2 with metrics := m } env packet addr
      b b'
    exact ⟨congrArg TunnelV2.metrics hsame.1, hsame.2⟩

end Handlers

/-! ## The workers, one access a step -/

namespace ReceiveLoop

/-- Where `receive_loop` is. -/
inductive Point
  | head
  /-- `recv_from` has returned a packet of admitted size, which is not recorded yet. -/
  | received (packet : Packet) (addr : SocketAddr)
  /-- In the handler, with the packet recorded. -/
  | handling (packet : Packet) (addr : SocketAddr)
  /-- Before `send_to`, for datagrams of these sizes. -/
  | sending (sizes : List Nat)
  /-- A datagram is sent and not recorded yet. -/
  | sent (size : Nat) (rest : List Nat)
  | flushing (todo : List BatchField)

structure Loop where
  tunnel : Tunnel
  batch : LocalMetricsBatch
  point : Point

/-- A worker of the coarser steps, outside the handler. -/
def ofWorker (w : Worker) : Loop :=
  ⟨w.tunnel, w.batch, match w.stage with
    | .head => .head
    | .handling packet addr => .handling packet addr
    | .flushing todo => .flushing todo⟩

/-- The datagrams that `send_to` can send, by their sizes. -/
def answered (env : Env) (sent : List Datagram) : List Nat :=
  if env.sendOk then sent.map fun datagram => datagram.payload.length else []

theorem answered_once {packet : Packet} {sent : List Datagram} (h : AnswersOnce packet sent)
    (env : Env) : answered env sent = [] ∨
      ∃ size, answered env sent = [size] ∧ size ≤ packet.length := by
  unfold answered
  cases env.sendOk with
  | false => exact Or.inl rfl
  | true =>
    rcases h with rfl | ⟨datagram, rfl, hle⟩
    · exact Or.inl rfl
    · exact Or.inr ⟨_, rfl, hle⟩

/-- The rest of the handler, and `maybe_flush` after it. -/
def sendingAt (tunnel : Tunnel) (batch : LocalMetricsBatch) : List Nat → Loop
  | [] => ofWorker (Worker.counted tunnel batch)
  | sizes => ⟨tunnel, batch, .sending sizes⟩

variable {C A R : Type} (core : RelayCore C A) (rater : Rater R)

/-- One step of a worker. An input that does not fit leaves everything as it is. -/
def exec (m : Metrics) (w : Loop) (a : Worker.Input C A R) : Metrics × Loop :=
  match w.point, a with
  | .head, .receive packet addr =>
    if w.tunnel.Admits packet.length then (m, { w with point := .received packet addr })
    else match w.tunnel with
      | .v3 => (m.fetchAdd .invalidPackets 1, w)
      | .v2 => (m, w)
  | .head, .receiveError => (m, { w with point := .flushing BatchField.flushOrder })
  | .received packet addr, .go =>
    (m, ⟨w.tunnel, w.batch.record w.tunnel.rx (UInt64.ofNat packet.length), .handling packet addr⟩)
  | .handling packet addr, .respond v3 v2 env =>
    -- the handler's own copy of the batch is not looked at, its records are steps of their own
    let (m, _, sent) :=
      Worker.handle core rater m ⟨w.tunnel, w.batch, .head⟩ packet addr v3 v2 env
    (m, sendingAt w.tunnel w.batch (answered env sent))
  | .sending (size :: rest), .go => (m, { w with point := .sent size rest })
  | .sent size rest, .go =>
    (m, sendingAt w.tunnel (w.batch.record w.tunnel.tx (UInt64.ofNat size)) rest)
  | .flushing (field :: todo), .go =>
    let (batch, m) := w.batch.flushField m field
    (m, ofWorker ⟨w.tunnel, batch, Worker.flushingAt todo⟩)
  | _, _ => (m, w)

def emit (w : Loop) (a : Worker.Input C A R) : List Worker.Shown :=
  match w.point, a with
  | .head, .receive packet _ => [.received w.tunnel packet.length]
  | .sending (size :: _), .go => [.sent w.tunnel size]
  | _, _ => []

def loops : System Metrics Loop (Worker.Input C A R) Worker.Shown where
  exec := exec core rater
  emit _ := emit
  tick m _ := m

/-! ## A worker alone -/

/-- The records of a handler, in its order. -/
def recorded (tunnel : Tunnel) (batch : LocalMetricsBatch) (sizes : List Nat) :
    LocalMetricsBatch :=
  sizes.foldl (fun b size => b.record tunnel.tx (UInt64.ofNat size)) batch

theorem solo_sending (m : Metrics) (tunnel : Tunnel) (b : LocalMetricsBatch) (sizes : List Nat) :
    (loops core rater).solo m (sendingAt tunnel b sizes)
        (List.replicate (2 * sizes.length) .go) =
      (m, ofWorker (Worker.counted tunnel (recorded tunnel b sizes))) := by
  induction sizes generalizing b with
  | nil => rfl
  | cons size rest ih =>
    have htwo : 2 * (size :: rest).length = 2 * rest.length + 1 + 1 := by
      rw [List.length_cons]
      omega
    rw [htwo, List.replicate_succ, List.replicate_succ]
    exact ih (b.record tunnel.tx (UInt64.ofNat size))

/-- What a handler records is what it sends. -/
theorem handled_recorded {tunnel : Tunnel} {batch out : LocalMetricsBatch} {env : Env}
    {sent : List Datagram} (h : Handled tunnel batch out (Worker.answers tunnel env sent)) :
    out = recorded tunnel batch (answered env sent) := by
  have hsame : Worker.answers tunnel env sent = (answered env sent).map (.sent tunnel) := by
    unfold Worker.answers answered
    cases env.sendOk with
    | true => rw [if_pos rfl, if_pos rfl, List.map_map]; rfl
    | false => rfl
  rw [hsame] at h
  generalize answered env sent = sizes at h
  match sizes, h with
  | [], .silent => rfl
  | [_], .answered _ _ => rfl

/-- **A worker alone** takes a packet from `recv_from` to `maybe_flush` as in one step. -/
theorem solo_respond (m : Metrics) (tunnel : Tunnel) (b : LocalMetricsBatch) (packet : Packet)
    (addr : SocketAddr) (v3 : TunnelV3 C A R) (v2 : TunnelV2 C R) (env : Env)
    (hsize : tunnel.Admits packet.length) :
    let w : Worker := ⟨tunnel, b, .handling packet addr⟩
    let sent := (Worker.handle core rater m w packet addr v3 v2 env).2.2
    (loops core rater).solo m ⟨tunnel, b, .received packet addr⟩
        ([.go, .respond v3 v2 env] ++ List.replicate (2 * (answered env sent).length) .go) =
      ((Worker.exec core rater m w (.respond v3 v2 env)).1,
        ofWorker (Worker.exec core rater m w (.respond v3 v2 env)).2) := by
  intro w sent
  have hbatch := handled_recorded (Worker.handle_handled core rater m w addr v3 v2 env hsize).2
  obtain ⟨hshared, hsent⟩ := Worker.handle_batch core rater m tunnel
    (b.record tunnel.rx (UInt64.ofNat packet.length)) b .head (.handling packet addr) packet addr
    v3 v2 env
  rw [System.solo_append, System.solo_cons, System.solo_cons, System.solo_nil]
  simp only [loops, exec, Worker.exec, w, sent] at hbatch ⊢
  rw [hshared, hsent, hbatch]
  exact solo_sending core rater _ tunnel _ _

/-! ## What a worker holds back and owes -/

inductive Quantity
  | packets | bytes

def Quantity.field : Quantity → Lane → BatchField
  | .packets => .packets
  | .bytes => .bytes

/-- What a datagram of a size counts for. -/
def Quantity.worth : Quantity → Nat → Nat
  | .packets, _ => 1
  | .bytes, size => size

theorem Quantity.amount_field (q : Quantity) (l l' : Lane) (size : Nat) :
    (q.field l).amount l' size = if l = l' then q.worth size else 0 := by
  cases q <;> rfl

theorem Quantity.worth_mono (q : Quantity) {size size' : Nat} (h : size ≤ size') :
    q.worth size ≤ q.worth size' := by
  cases q with
  | packets => exact Nat.le_refl _
  | bytes => exact h

theorem lane_ne (tunnel tunnel' : Tunnel) : tunnel.tx ≠ tunnel'.rx := by
  cases tunnel <;> cases tunnel' <;> decide

theorem tx_eq_iff {tunnel tunnel' : Tunnel} : tunnel.tx = tunnel'.tx ↔ tunnel = tunnel' := by
  cases tunnel <;> cases tunnel' <;> decide

theorem rx_eq_iff {tunnel tunnel' : Tunnel} : tunnel.rx = tunnel'.rx ↔ tunnel = tunnel' := by
  cases tunnel <;> cases tunnel' <;> decide

/-- `flush` comes to what was sent after what was received. -/
theorem rx_not_mem {q : Quantity} {tunnel : Tunnel} {todo : List BatchField}
    (h : (q.field tunnel.tx :: todo) <:+ BatchField.flushOrder) :
    q.field tunnel.rx ∉ q.field tunnel.tx :: todo := by
  have hall : ∀ fs ∈ BatchField.flushOrder.tails,
      fs.head? = some (q.field tunnel.tx) → q.field tunnel.rx ∉ fs := by
    cases q <;> cases tunnel <;> decide
  exact hall _ ((List.mem_tails _ _).mpr h) rfl

namespace Loop

/-- The batch with what was received or sent last. -/
def current (w : Loop) : LocalMetricsBatch :=
  match w.point with
  | .received packet _ => w.batch.record w.tunnel.rx (UInt64.ofNat packet.length)
  | .sent size _ => w.batch.record w.tunnel.tx (UInt64.ofNat size)
  | _ => w.batch

/-- What the packet in work still allows the worker to send. -/
def owes (w : Loop) (q : Quantity) (tunnel : Tunnel) : Nat :=
  if tunnel = w.tunnel then
    match w.point with
    | .received packet _ => q.worth packet.length
    | .handling packet _ => q.worth packet.length
    | .sending sizes => (sizes.map q.worth).sum
    | .sent _ rest => (rest.map q.worth).sum
    | _ => 0
  else 0

/-- Two records a lane and packet since the last 64th at most, and in a flush nothing in
the fields that are done. -/
def Bounded (w : Loop) : Prop :=
  let k := 2 * (w.batch.counter.toNat % 64)
  match w.point with
  | .head => w.batch.AtMost k
  | .received packet _ => w.batch.AtMost k ∧ w.tunnel.Admits packet.length
  | .handling packet _ => w.batch.AtMost (k + 1) ∧ w.tunnel.Admits packet.length
  | .sending sizes => w.batch.AtMost (k + 1) ∧ ∃ size, sizes = [size] ∧ size ≤ 1472
  | .sent size rest => w.batch.AtMost (k + 1) ∧ rest = [] ∧ size ≤ 1472
  | .flushing todo => todo <:+ BatchField.flushOrder ∧ ∀ f, f ∉ todo → w.batch.get f = 0

end Loop

/-- A step outside a flush: what it shows is recorded, and sent by a packet in work. -/
structure Recorded (m m' : Metrics) (w w' : Loop) (shown : List Worker.Shown) : Prop where
  keeps : m.KeepsBatched m'
  bounded : w'.Bounded
  current : ∀ f, (w'.current.get f).toNat = (w.current.get f).toNat + tally f shown
  owes : ∀ q tunnel, tally (q.field tunnel.tx) shown + w'.owes q tunnel ≤
    tally (q.field tunnel.rx) shown + w.owes q tunnel

theorem recorded_same {m m' : Metrics} {w : Loop} (h : w.Bounded) (hkeeps : m.KeepsBatched m') :
    Recorded m m' w w [] where
  keeps := hkeeps
  bounded := h
  current _ := rfl
  owes _ _ := Nat.le_refl _

/-! ### The rest of the handler -/

/-- After the handler the worker flushes or waits. -/
theorem sendingAt_nil (tunnel : Tunnel) (b : LocalMetricsBatch) :
    (sendingAt tunnel b [] = ⟨tunnel, b.count, .flushing BatchField.flushOrder⟩ ∧
      b.count.counter.toNat % 64 = 0) ∨
    (sendingAt tunnel b [] = ⟨tunnel, b.count, .head⟩ ∧
      b.count.counter.toNat % 64 = b.counter.toNat % 64 + 1) := by
  unfold sendingAt ofWorker Worker.counted
  rcases Worker.count_mod b.counter with ⟨hmod, hzero⟩ | ⟨hmod, hnext⟩
  · left
    rw [LocalMetricsBatch.counter_count, if_pos hmod]
    exact ⟨rfl, hzero⟩
  · right
    rw [LocalMetricsBatch.counter_count, if_neg hmod]
    exact ⟨rfl, hnext⟩

theorem current_sendingAt (tunnel : Tunnel) (b : LocalMetricsBatch) (sizes : List Nat)
    (f : BatchField) : (sendingAt tunnel b sizes).current.get f = b.get f := by
  cases sizes with
  | cons size rest => rfl
  | nil =>
    rcases sendingAt_nil tunnel b with ⟨heq, _⟩ | ⟨heq, _⟩
    · rw [heq]
      exact b.get_count f
    · rw [heq]
      exact b.get_count f

theorem owes_sendingAt (tunnel tunnel' : Tunnel) (b : LocalMetricsBatch) (sizes : List Nat)
    (q : Quantity) : (sendingAt tunnel b sizes).owes q tunnel' =
      if tunnel' = tunnel then (sizes.map q.worth).sum else 0 := by
  cases sizes with
  | cons size rest => rfl
  | nil =>
    rcases sendingAt_nil tunnel b with ⟨heq, _⟩ | ⟨heq, _⟩
    · rw [heq]
      rfl
    · rw [heq]
      rfl

theorem bounded_sendingAt_nil {tunnel : Tunnel} {b : LocalMetricsBatch}
    (hb : b.AtMost (2 * (b.counter.toNat % 64) + 2)) : (sendingAt tunnel b []).Bounded := by
  rcases sendingAt_nil tunnel b with ⟨heq, _⟩ | ⟨heq, hnext⟩
  · rw [heq]
    exact ⟨List.suffix_refl _, fun f hf => absurd f.mem_flushOrder hf⟩
  · rw [heq]
    intro f
    rw [hnext, LocalMetricsBatch.get_count]
    exact hb f

/-! ### The steps outside a flush -/

theorem tally_received (q : Quantity) (tunnel tunnel' : Tunnel) (size : Nat) :
    tally (q.field tunnel'.tx) [.received tunnel size] = 0 ∧
      tally (q.field tunnel'.rx) [.received tunnel size] =
        if tunnel' = tunnel ∧ tunnel.Admits size then q.worth size else 0 := by
  simp only [tally_singleton, Worker.Shown.amount, q.amount_field, if_neg (lane_ne tunnel' tunnel),
    rx_eq_iff, ite_self, true_and]
  by_cases hsize : tunnel.Admits size <;> simp [hsize]

theorem tally_sent (q : Quantity) (tunnel tunnel' : Tunnel) (size : Nat) :
    tally (q.field tunnel'.tx) [.sent tunnel size] =
        (if tunnel' = tunnel then q.worth size else 0) ∧
      tally (q.field tunnel'.rx) [.sent tunnel size] = 0 := by
  simp only [tally_singleton, Worker.Shown.amount, q.amount_field,
    if_neg (lane_ne tunnel tunnel').symm, tx_eq_iff, and_self]

theorem receive_recorded (m : Metrics) (tunnel : Tunnel) {b : LocalMetricsBatch}
    (h : Loop.Bounded ⟨tunnel, b, .head⟩) (packet : Packet) (addr : SocketAddr) :
    Recorded m (exec core rater m ⟨tunnel, b, .head⟩ (.receive packet addr)).1 ⟨tunnel, b, .head⟩
      (exec core rater m ⟨tunnel, b, .head⟩ (.receive packet addr)).2
      [.received tunnel packet.length] := by
  by_cases hsize : tunnel.Admits packet.length
  · simp only [exec, if_pos hsize]
    refine ⟨fun f => rfl, ⟨h, hsize⟩, fun f => ?_, fun q tunnel' => ?_⟩
    · rw [tally_singleton, Worker.Shown.amount, if_pos hsize]
      exact LocalMetricsBatch.get_record (LocalMetricsBatch.AtMost.mono h (by omega)) hsize.le
        tunnel.rx f
    · obtain ⟨htx, hrx⟩ := tally_received q tunnel tunnel' packet.length
      rw [htx, hrx]
      simp [Loop.owes, hsize]
  · have hnone : ∀ f, tally f [.received tunnel packet.length] = 0 := by
      intro f
      rw [tally_singleton, Worker.Shown.amount, if_neg hsize]
    have hdropped : ∀ m', m.KeepsBatched m' → Recorded m m' ⟨tunnel, b, .head⟩ ⟨tunnel, b, .head⟩
        [.received tunnel packet.length] := by
      intro m' hkeeps
      refine ⟨hkeeps, h, fun f => ?_, fun q tunnel' => ?_⟩
      · rw [hnone f, Nat.add_zero]
      · rw [hnone, hnone]
    simp only [exec, if_neg hsize]
    cases tunnel with
    | v3 => exact hdropped _ (m.keepsBatched_fetchAdd 1 fun f => f.counter_ne.2.2.2.2)
    | v2 => exact hdropped _ fun f => rfl

theorem record_recorded (m : Metrics) (tunnel : Tunnel) {b : LocalMetricsBatch} {packet : Packet}
    {addr : SocketAddr} (h : Loop.Bounded ⟨tunnel, b, .received packet addr⟩) :
    Recorded m m ⟨tunnel, b, .received packet addr⟩
      ⟨tunnel, b.record tunnel.rx (UInt64.ofNat packet.length), .handling packet addr⟩ [] where
  keeps _ := rfl
  bounded := ⟨h.1.record (by omega) h.2.le tunnel.rx, h.2⟩
  current _ := rfl
  owes _ _ := Nat.le_refl _

theorem respond_recorded (m : Metrics) (tunnel : Tunnel) {b : LocalMetricsBatch} {packet : Packet}
    {addr : SocketAddr} (h : Loop.Bounded ⟨tunnel, b, .handling packet addr⟩) (v3 : TunnelV3 C A R)
    (v2 : TunnelV2 C R) (env : Env) :
    let w : Loop := ⟨tunnel, b, .handling packet addr⟩
    Recorded m (exec core rater m w (.respond v3 v2 env)).1 w
      (exec core rater m w (.respond v3 v2 env)).2 [] := by
  intro w
  obtain ⟨hb, hsize⟩ : b.AtMost (2 * (b.counter.toNat % 64) + 1) ∧ tunnel.Admits packet.length := h
  have hkeeps := (Worker.handle_handled core rater m ⟨tunnel, b, .head⟩ addr v3 v2 env hsize).1
  have hsizes := answered_once
    (Worker.handle_answersOnce core rater m ⟨tunnel, b, .head⟩ packet addr v3 v2 env) env
  simp only [exec, w]
  generalize Worker.handle core rater m ⟨tunnel, b, .head⟩ packet addr v3 v2 env = out
    at hkeeps hsizes
  refine ⟨hkeeps, ?_, fun f => (by rw [current_sendingAt]; rfl), fun q tunnel' => ?_⟩
  · rcases hsizes with hnone | ⟨size, hone, hle⟩
    · rw [hnone]
      exact bounded_sendingAt_nil (hb.mono (by omega))
    · rw [hone]
      exact ⟨hb, size, rfl, Nat.le_trans hle hsize.le⟩
  · show 0 + _ ≤ 0 + _
    rw [owes_sendingAt, Nat.zero_add, Nat.zero_add]
    unfold Loop.owes
    by_cases htunnel : tunnel' = tunnel
    · rw [if_pos htunnel, if_pos htunnel]
      rcases hsizes with hnone | ⟨size, hone, hle⟩
      · rw [hnone]
        exact Nat.zero_le _
      · rw [hone]
        exact q.worth_mono hle
    · rw [if_neg htunnel]
      exact Nat.zero_le _

theorem send_recorded (m : Metrics) (tunnel : Tunnel) {b : LocalMetricsBatch} {size : Nat}
    {rest : List Nat} (h : Loop.Bounded ⟨tunnel, b, .sending (size :: rest)⟩) :
    Recorded m m ⟨tunnel, b, .sending (size :: rest)⟩ ⟨tunnel, b, .sent size rest⟩
      [.sent tunnel size] := by
  obtain ⟨hb, size', hone, hsize⟩ := h
  obtain ⟨rfl, rfl⟩ := List.cons.inj hone
  refine ⟨fun f => rfl, ⟨hb, rfl, hsize⟩, fun f => ?_, fun q tunnel' => ?_⟩
  · rw [tally_singleton]
    exact LocalMetricsBatch.get_record (hb.mono (by omega)) hsize tunnel.tx f
  · obtain ⟨htx, hrx⟩ := tally_sent q tunnel tunnel' size
    rw [htx, hrx]
    unfold Loop.owes
    by_cases htunnel : tunnel' = tunnel <;> simp [htunnel]

theorem sent_recorded (m : Metrics) (tunnel : Tunnel) {b : LocalMetricsBatch} {size : Nat}
    {rest : List Nat} (h : Loop.Bounded ⟨tunnel, b, .sent size rest⟩) :
    Recorded m m ⟨tunnel, b, .sent size rest⟩
      (sendingAt tunnel (b.record tunnel.tx (UInt64.ofNat size)) rest) [] := by
  obtain ⟨hb, rfl, hsize⟩ := h
  refine ⟨fun f => rfl, ?_, fun f => (by rw [current_sendingAt]; rfl), fun q tunnel' => ?_⟩
  · apply bounded_sendingAt_nil
    rw [LocalMetricsBatch.counter_record]
    exact hb.record (by omega) hsize tunnel.tx
  · rw [owes_sendingAt]
    exact Nat.le_refl _

theorem exec_recorded (m : Metrics) {w : Loop} (h : w.Bounded) (a : Worker.Input C A R)
    (hpoint : ∀ todo, w.point ≠ .flushing todo) :
    Recorded m (exec core rater m w a).1 w (exec core rater m w a).2 (emit w a) := by
  have hsame : Recorded m m w w [] := recorded_same h fun f => rfl
  obtain ⟨tunnel, b, point⟩ := w
  cases point with
  | head =>
    cases a with
    | receive packet addr => exact receive_recorded core rater m tunnel h packet addr
    | receiveError =>
      refine ⟨fun f => rfl, ?_, fun f => rfl, fun q tunnel' => Nat.le_refl _⟩
      exact ⟨List.suffix_refl _, fun f hf => absurd f.mem_flushOrder hf⟩
    | respond v3 v2 env => exact hsame
    | go => exact hsame
  | received packet addr =>
    cases a with
    | go => exact record_recorded m tunnel h
    | _ => exact hsame
  | handling packet addr =>
    cases a with
    | respond v3 v2 env => exact respond_recorded core rater m tunnel h v3 v2 env
    | _ => exact hsame
  | sending sizes =>
    cases sizes with
    | nil => cases a <;> exact hsame
    | cons size rest =>
      cases a with
      | go => exact send_recorded m tunnel h
      | _ => exact hsame
  | sent size rest =>
    cases a with
    | go => exact sent_recorded m tunnel h
    | _ => exact hsame
  | flushing todo => exact absurd rfl (hpoint todo)

/-! ## What a worker has received, sent and published -/

/-- A worker that has shown this: it has sent no more than it has received, and published
no more of what it sent. -/
structure Balanced (shown : List Worker.Shown) (w : Loop) : Prop where
  bounded : w.Bounded
  held : ∀ f, (w.current.get f).toNat ≤ tally f shown
  owed : ∀ (q : Quantity) (tunnel : Tunnel),
    tally (q.field tunnel.tx) shown + w.owes q tunnel ≤ tally (q.field tunnel.rx) shown
  published : ∀ (q : Quantity) (tunnel : Tunnel),
    tally (q.field tunnel.tx) shown + (w.current.get (q.field tunnel.rx)).toNat ≤
      tally (q.field tunnel.rx) shown + (w.current.get (q.field tunnel.tx)).toNat

theorem Balanced.record {shown es : List Worker.Shown} {m m' : Metrics} {w w' : Loop}
    (h : Balanced shown w) (hstep : Recorded m m' w w' es) : Balanced (shown ++ es) w' where
  bounded := hstep.bounded
  held f := by
    rw [hstep.current, tally_append]
    exact Nat.add_le_add_right (h.held f) _
  owed q tunnel := by
    have howed := h.owed q tunnel
    have hes := hstep.owes q tunnel
    rw [tally_append, tally_append]
    omega
  published q tunnel := by
    have hpublished := h.published q tunnel
    rw [hstep.current, hstep.current, tally_append, tally_append]
    omega

/-- A field that was sent is flushed when nothing received is held back any more. -/
theorem Balanced.flush {shown : List Worker.Shown} {tunnel : Tunnel} {b : LocalMetricsBatch}
    {field : BatchField} {todo : List BatchField}
    (h : Balanced shown ⟨tunnel, b, .flushing (field :: todo)⟩) (m : Metrics) :
    Balanced shown (ofWorker ⟨tunnel, (b.flushField m field).1, Worker.flushingAt todo⟩) := by
  obtain ⟨hsuffix, hdone⟩ := h.bounded
  have hcurrent : ∀ f, (ofWorker ⟨tunnel, (b.flushField m field).1,
      Worker.flushingAt todo⟩).current.get f = if f = field then 0 else b.get f := by
    intro f
    rw [← b.get_flushField m field f]
    cases todo <;> rfl
  have hle : ∀ f, (if f = field then 0 else b.get f).toNat ≤ (b.get f).toNat := by
    intro f
    split
    · exact Nat.zero_le _
    · exact Nat.le_refl _
  refine ⟨?_, fun f => ?_, fun q tunnel' => ?_, fun q tunnel' => ?_⟩
  · have hzero : ∀ f, f ∉ todo → (b.flushField m field).1.get f = 0 := by
      intro f hf
      rw [b.get_flushField]
      split
      · rfl
      · rename_i hne
        exact hdone f fun hmem => (List.mem_cons.mp hmem).elim hne hf
    cases todo with
    | nil =>
      intro f
      show ((b.flushField m field).1.get f).toNat ≤ _
      rw [hzero f List.not_mem_nil]
      exact Nat.zero_le _
    | cons f todo => exact ⟨(List.suffix_cons field _).trans hsuffix, hzero⟩
  · rw [hcurrent]
    exact Nat.le_trans (hle f) (h.held f)
  · have howes : (ofWorker ⟨tunnel, (b.flushField m field).1, Worker.flushingAt todo⟩).owes q
        tunnel' = Loop.owes ⟨tunnel, b, .flushing (field :: todo)⟩ q tunnel' := by
      cases todo <;> rfl
    rw [howes]
    exact h.owed q tunnel'
  · rw [hcurrent, hcurrent]
    have hrx := hle (q.field tunnel'.rx)
    by_cases hfield : q.field tunnel'.tx = field
    · subst hfield
      have hnone : (b.get (q.field tunnel'.rx)).toNat = 0 :=
        congrArg UInt64.toNat (hdone _ (rx_not_mem hsuffix))
      have howed := h.owed q tunnel'
      omega
    · have hpublished := h.published q tunnel'
      rw [if_neg hfield]
      exact Nat.le_trans (Nat.add_le_add_left hrx _) hpublished

/-- **One step** of a worker. -/
theorem exec_balanced {shown : List Worker.Shown} (m : Metrics) {w : Loop} (h : Balanced shown w)
    (a : Worker.Input C A R) :
    Balanced (shown ++ emit w a) (exec core rater m w a).2 ∧
      ∀ f : BatchField, ((exec core rater m w a).1.count f.counter).toNat +
          ((exec core rater m w a).2.current.get f).toNat ≡
        (m.count f.counter).toNat + (w.current.get f).toNat + tally f (emit w a)
          [MOD 2 ^ 64] := by
  by_cases hpoint : ∀ todo, w.point ≠ .flushing todo
  · have hstep := exec_recorded core rater m h.bounded a hpoint
    refine ⟨h.record hstep, fun f => ?_⟩
    rw [hstep.keeps f, hstep.current f, Nat.add_assoc]
  · simp only [not_forall, not_not] at hpoint
    obtain ⟨todo, hpoint⟩ := hpoint
    obtain ⟨tunnel, b, point⟩ := w
    obtain rfl : point = .flushing todo := hpoint
    have hsame : Balanced (shown ++ []) ⟨tunnel, b, .flushing todo⟩ ∧
        ∀ f : BatchField, (m.count f.counter).toNat + (b.get f).toNat ≡
          (m.count f.counter).toNat + (b.get f).toNat + 0 [MOD 2 ^ 64] :=
      ⟨by rw [List.append_nil]; exact h, fun f => Nat.ModEq.refl _⟩
    cases todo with
    | nil => cases a <;> exact hsame
    | cons field todo =>
      cases a with
      | go =>
        have hemit : emit (C := C) (A := A) (R := R) ⟨tunnel, b, .flushing (field :: todo)⟩ .go =
            [] := rfl
        rw [hemit, List.append_nil]
        refine ⟨h.flush m, fun f => ?_⟩
        have htotal := b.flushField_total m field f
        cases todo <;> exact htotal
      | _ => exact hsame

/-! ## Sizes -/

/-- The sizes of the datagrams that `recv_from` of the tunnel has returned. -/
def receivedSizes (tunnel : Tunnel) (shown : List Worker.Shown) : List Nat :=
  shown.filterMap fun
    | .received tunnel' size => if tunnel' = tunnel then some size else none
    | .sent _ _ => none

/-- The sizes of the datagrams that `send_to` of the tunnel has sent. -/
def sentSizes (tunnel : Tunnel) (shown : List Worker.Shown) : List Nat :=
  shown.filterMap fun
    | .received _ _ => none
    | .sent tunnel' size => if tunnel' = tunnel then some size else none

/-- No more datagrams and no more bytes sent than received. -/
def NotAmplified (shown : List Worker.Shown) : Prop :=
  ∀ tunnel, (sentSizes tunnel shown).length ≤ (receivedSizes tunnel shown).length ∧
    (sentSizes tunnel shown).sum ≤ (receivedSizes tunnel shown).sum

theorem tally_tx (q : Quantity) (tunnel : Tunnel) (shown : List Worker.Shown) :
    tally (q.field tunnel.tx) shown = ((sentSizes tunnel shown).map q.worth).sum := by
  induction shown with
  | nil => rfl
  | cons e shown ih =>
    rw [← List.singleton_append, tally_append, ih]
    cases e with
    | received tunnel' size =>
      rw [(tally_received q tunnel' tunnel size).1, Nat.zero_add]
      rfl
    | sent tunnel' size =>
      rw [(tally_sent q tunnel' tunnel size).1]
      by_cases h : tunnel' = tunnel
      · simp [sentSizes, h]
      · simp [sentSizes, h, Ne.symm h]

theorem tally_rx_le (q : Quantity) (tunnel : Tunnel) (shown : List Worker.Shown) :
    tally (q.field tunnel.rx) shown ≤ ((receivedSizes tunnel shown).map q.worth).sum := by
  induction shown with
  | nil => exact Nat.le_refl _
  | cons e shown ih =>
    rw [← List.singleton_append, tally_append]
    cases e with
    | received tunnel' size =>
      rw [(tally_received q tunnel' tunnel size).2]
      by_cases h : tunnel' = tunnel
      · have hcons : receivedSizes tunnel ([.received tunnel' size] ++ shown) =
            size :: receivedSizes tunnel shown := by
          simp [receivedSizes, h]
        rw [hcons, List.map_cons, List.sum_cons]
        split
        · exact Nat.add_le_add_left ih _
        · omega
      · have hcons : receivedSizes tunnel ([.received tunnel' size] ++ shown) =
            receivedSizes tunnel shown := by
          simp [receivedSizes, h]
        rw [hcons, if_neg fun hboth => h hboth.1.symm, Nat.zero_add]
        exact ih
    | sent tunnel' size =>
      rw [(tally_sent q tunnel' tunnel size).2, Nat.zero_add]
      exact ih

theorem notAmplified_of_tally {shown : List Worker.Shown}
    (h : ∀ (q : Quantity) (tunnel : Tunnel),
      tally (q.field tunnel.tx) shown ≤ tally (q.field tunnel.rx) shown) : NotAmplified shown := by
  intro tunnel
  have hcount : ∀ sizes : List Nat, (sizes.map Quantity.packets.worth).sum = sizes.length := by
    intro sizes
    induction sizes with
    | nil => rfl
    | cons size sizes ih =>
      rw [List.map_cons, List.sum_cons, ih, List.length_cons, Nat.add_comm]
      rfl
  have hbytes : ∀ sizes : List Nat, (sizes.map Quantity.bytes.worth).sum = sizes.sum :=
    fun sizes => congrArg List.sum (List.map_id sizes)
  have hsizes : ∀ q : Quantity, ((sentSizes tunnel shown).map q.worth).sum ≤
      ((receivedSizes tunnel shown).map q.worth).sum := by
    intro q
    rw [← tally_tx]
    exact Nat.le_trans (h q tunnel) (tally_rx_le q tunnel shown)
  have hpackets := hsizes .packets
  have hsum := hsizes .bytes
  rw [hcount, hcount] at hpackets
  rw [hbytes, hbytes] at hsum
  exact ⟨hpackets, hsum⟩

/-! ## Runs -/

section Run

variable {ι : Type} [Fintype ι] [DecidableEq ι]

/-- All counters at 0, every worker of either tunnel before its first packet. -/
structure LoopsStarted (p : Pool ι Metrics Loop) : Prop where
  metrics : p.shared = Metrics.new
  fresh : ∀ i, ∃ tunnel, p.thread i = ⟨tunnel, .new, .head⟩

/-- The books of all workers: every packet is in its counter or in one batch. -/
structure Books (tr : List (ι × Worker.Shown)) (p : Pool ι Metrics Loop) : Prop where
  balanced : ∀ i, Balanced (shownBy i tr) (p.thread i)
  total : ∀ f, (p.shared.count f.counter).toNat + ∑ i, ((p.thread i).current.get f).toNat ≡
    tally f (tr.map Prod.snd) [MOD 2 ^ 64]

theorem books_step {tr : List (ι × Worker.Shown)} {p : Pool ι Metrics Loop} (h : Books tr p)
    (a : Action ι (Worker.Input C A R)) :
    Books (tr ++ (loops core rater).machine.emit p a) ((loops core rater).machine.step p a) := by
  cases a with
  | tick d =>
    rw [System.emit_tick, List.append_nil]
    exact ⟨h.balanced, h.total⟩
  | work i a =>
    obtain ⟨hbalanced, htotal⟩ := exec_balanced core rater p.shared (h.balanced i) a
    refine ⟨shownBy_work (loops core rater) (L := fun _ => Balanced) h.balanced hbalanced,
      fun f => ?_⟩
    · have hsum := sum_update_local Finset.univ (Finset.mem_univ i)
        (fun w : Loop => (w.current.get f).toNat) p.thread
        (exec core rater p.shared (p.thread i) a).2
      rw [List.map_append, tally_append, map_snd_emit]
      exact modEq_transfer (htotal f) hsum (h.total f)

theorem books_run {p : Pool ι Metrics Loop} (hstart : LoopsStarted p)
    (as : List (Action ι (Worker.Input C A R))) :
    Books ((loops core rater).machine.trace p as) ((loops core rater).machine.run p as) := by
  have hempty : ∀ i f, (p.thread i).current.get f = 0 := by
    intro i f
    obtain ⟨tunnel, hfresh⟩ := hstart.fresh i
    rw [hfresh]
    exact LocalMetricsBatch.get_new f
  refine (loops core rater).machine.trace_invariant (P := Books) ⟨fun i => ?_, fun f => ?_⟩
    (fun tr q a h => books_step core rater h a) as
  · have hzero : ∀ f, ((p.thread i).current.get f).toNat = 0 :=
      fun f => congrArg UInt64.toNat (hempty i f)
    obtain ⟨tunnel, hfresh⟩ := hstart.fresh i
    refine ⟨?_, fun f => Nat.le_of_eq (hzero f), fun q tunnel' => ?_, fun q tunnel' => ?_⟩
    · rw [hfresh]
      intro f
      rw [LocalMetricsBatch.get_new]
      exact Nat.zero_le _
    · rw [hfresh]
      simp [Loop.owes, shownBy]
    · rw [hzero, hzero]
      exact Nat.le_refl _
  · have hzero : ∑ i, ((p.thread i).current.get f).toNat = 0 :=
      Finset.sum_eq_zero fun i _ => congrArg UInt64.toNat (hempty i f)
    rw [hzero, hstart.metrics]
    rfl

/-- Without a wrap the published value is what the workers no longer hold. -/
theorem Books.count_eq {tr : List (ι × Worker.Shown)} {p : Pool ι Metrics Loop} (h : Books tr p)
    {f : BatchField} (hwrap : tally f (tr.map Prod.snd) < 2 ^ 64) :
    (p.shared.count f.counter).toNat + ∑ i, ((p.thread i).current.get f).toNat =
      ∑ i, tally f (shownBy i tr) := by
  have hsplit : ∑ i, tally f (shownBy i tr) = tally f (tr.map Prod.snd) := sum_shownBy _ tr
  have hheld : ∑ i, ((p.thread i).current.get f).toNat ≤ ∑ i, tally f (shownBy i tr) :=
    Finset.sum_le_sum fun i _ => (h.balanced i).held f
  have htotal := h.total f
  have hlt := UInt64.toNat_lt (p.shared.count f.counter)
  rw [hsplit] at hheld ⊢
  generalize ∑ i, ((p.thread i).current.get f).toNat = held at hheld htotal ⊢
  generalize tally f (tr.map Prod.snd) = total at hheld htotal hwrap ⊢
  -- both sides of the congruence are below the modulus once `held` is taken away
  have hrest : (p.shared.count f.counter).toNat ≡ total - held [MOD 2 ^ 64] := by
    refine Nat.ModEq.add_right_cancel' held ?_
    rw [Nat.sub_add_cancel hheld]
    exact htotal
  have heq := Nat.ModEq.eq_of_lt_of_lt hrest hlt (by omega)
  omega

/-- **No amplification**, in every run of any number of workers of both tunnels: no worker,
and not all of them together, sends more datagrams or bytes than it receives; and unless a
total passes 2^64, at every point what is published as sent is no more than what is published
as received. -/
theorem no_amplification {p : Pool ι Metrics Loop} (hstart : LoopsStarted p)
    (as : List (Action ι (Worker.Input C A R))) :
    let M := (loops core rater).machine (ι := ι)
    (∀ i, NotAmplified (shownBy i (M.trace p as))) ∧
    NotAmplified ((M.trace p as).map Prod.snd) ∧
    ((∀ f, tally f ((M.trace p as).map Prod.snd) < 2 ^ 64) →
      ∀ (q : Quantity) (tunnel : Tunnel),
        (M.run p as).shared.count (q.field tunnel.tx).counter ≤
          (M.run p as).shared.count (q.field tunnel.rx).counter) := by
  intro M
  have hbooks := books_run core rater hstart as
  have howed : ∀ i (q : Quantity) (tunnel : Tunnel),
      tally (q.field tunnel.tx) (shownBy i (M.trace p as)) ≤
        tally (q.field tunnel.rx) (shownBy i (M.trace p as)) :=
    fun i q tunnel => Nat.le_of_add_right_le ((hbooks.balanced i).owed q tunnel)
  refine ⟨fun i => notAmplified_of_tally (howed i), notAmplified_of_tally fun q tunnel => ?_,
    fun hwrap q tunnel => ?_⟩
  · have hsum := Finset.sum_le_sum fun i (_ : i ∈ Finset.univ) => howed i q tunnel
    unfold tally at hsum ⊢
    rw [sum_shownBy, sum_shownBy] at hsum
    exact hsum
  · have htx := hbooks.count_eq (hwrap (q.field tunnel.tx))
    have hrx := hbooks.count_eq (hwrap (q.field tunnel.rx))
    have hpublished := Finset.sum_le_sum fun i (_ : i ∈ Finset.univ) =>
      (hbooks.balanced i).published q tunnel
    rw [Finset.sum_add_distrib, Finset.sum_add_distrib] at hpublished
    rw [UInt64.le_iff_toNat_le]
    show (((loops core rater).machine.run p as).shared.count _).toNat ≤
      (((loops core rater).machine.run p as).shared.count _).toNat
    omega

end Run

/-! ## A concrete run -/

/-- A V3 worker and a V2 worker. -/
def freshLoops : Pool Bool Metrics Loop := ⟨.new, fun i => ⟨if i then .v2 else .v3, .new, .head⟩⟩

theorem freshLoops_started : LoopsStarted freshLoops := ⟨rfl, fun _ => ⟨_, rfl⟩⟩

/-- The V3 worker receives a ping of 50 bytes, answers it, and is in the middle of a flush. -/
def pingAndFlush : List (Action Bool (Worker.Input RelayCore.ReferenceClient (List Bool) Unit)) :=
  [.work false (.receive (List.replicate 50 0) (.v4 9 9 9 9 1234)), .work false .go,
    .work false (.respond (TunnelV3.new Rater.granting id ⟨50001, 50000, 200, "", 8, 4⟩)
      (TunnelV2.new Rater.granting ⟨50001, 50000, 200, "", 8, 4⟩) ⟨1000, 0, true⟩),
    .work false .go, .work false .go, .work false .receiveError, .work false .go, .work false .go,
    .work false .go]

theorem no_amplification_ping :
    let M := (loops (RelayCore.reference 30) Rater.granting).machine
    M.trace freshLoops pingAndFlush = [(false, .received .v3 50), (false, .sent .v3 12)] ∧
      (M.run freshLoops pingAndFlush).shared.count .v3PacketsSent = 1 ∧
      (M.run freshLoops pingAndFlush).shared.count .v3BytesSent = 0 ∧
      NotAmplified ((M.trace freshLoops pingAndFlush).map Prod.snd) ∧
      ∀ (q : Quantity) (tunnel : Tunnel),
        (M.run freshLoops pingAndFlush).shared.count (q.field tunnel.tx).counter ≤
          (M.run freshLoops pingAndFlush).shared.count (q.field tunnel.rx).counter := by
  have htrace : (loops (RelayCore.reference 30) Rater.granting).machine.trace freshLoops
      pingAndFlush = [(false, .received .v3 50), (false, .sent .v3 12)] := by decide +kernel
  have hwrap : ∀ f, tally f (((loops (RelayCore.reference 30) Rater.granting).machine.trace
      freshLoops pingAndFlush).map Prod.snd) < 2 ^ 64 := by
    intro f
    rw [htrace]
    cases f with
    | packets l => cases l <;> decide
    | bytes l => cases l <;> decide
  have h := no_amplification (RelayCore.reference 30) Rater.granting freshLoops_started pingAndFlush
  dsimp only at h ⊢
  exact ⟨htrace, by decide +kernel, by decide +kernel, h.2.1, h.2.2 hwrap⟩

end ReceiveLoop

end CncnetServer
