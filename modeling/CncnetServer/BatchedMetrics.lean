import CncnetServer.V3.Step
import CncnetServer.V2.Step
import CncnetServer.Lib.Threads
import Mathlib.Data.Nat.ModEq

/-!
The receive workers of both tunnels, each with its `LocalMetricsBatch`, and their
flushes into the shared counters, one field a step.

A worker records a packet when it receives it, answers it (`on_receive` on a tunnel
that other workers have left in any state), counts it, and on every 64th count
flushes; on a receive error it flushes as well, without touching the count.

* `batched_metrics`: at every point the published value of a counter and what the
  workers hold back add up to what was received and sent; a worker holds back at most
  63 packets a lane when it waits for the next one, and no local addition overflows;
* `short_datagram_not_counted`: a datagram too short to be looked at is not counted.
-/

namespace CncnetServer

open Threads Runs

inductive Tunnel
  | v3 | v2
  deriving DecidableEq

namespace Tunnel

def rx : Tunnel → Lane
  | .v3 => .v3Rx
  | .v2 => .v2Rx

def tx : Tunnel → Lane
  | .v3 => .v3Tx
  | .v2 => .v2Tx

/-- The size test of `receive_loop`. -/
def Admits : Tunnel → Nat → Prop
  | .v3, size => 8 ≤ size ∧ size ≤ TunnelV3.maxPacketSize
  | .v2, size => 4 ≤ size ∧ size ≤ TunnelV2.maxPacketSize

instance (tunnel : Tunnel) (size : Nat) : Decidable (tunnel.Admits size) := by
  cases tunnel <;> unfold Admits <;> infer_instance

theorem Admits.le {tunnel : Tunnel} {size : Nat} (h : tunnel.Admits size) : size ≤ 1472 := by
  cases tunnel <;> exact h.2

end Tunnel

/-! ## The workers -/

/-- Where `receive_loop` is. -/
inductive Stage
  | head
  /-- In the handler, which was called with the worker's batch and has recorded the packet. -/
  | handling (packet : Packet) (addr : SocketAddr)
  /-- In `flush`, with these fields to go. -/
  | flushing (todo : List BatchField)

structure Worker where
  tunnel : Tunnel
  batch : LocalMetricsBatch
  stage : Stage

namespace Worker

/-- What a step does not determine: what `recv_from` returns, and the tunnel and the
world as the handler finds them. -/
inductive Input (C A R : Type)
  | receive (packet : Packet) (addr : SocketAddr)
  | receiveError
  | respond (v3 : TunnelV3 C A R) (v2 : TunnelV2 C R) (env : Env)
  | go

/-- A datagram that `recv_from` returned or `send_to` sent. -/
inductive Shown
  | received (tunnel : Tunnel) (size : Nat)
  | sent (tunnel : Tunnel) (size : Nat)
  deriving DecidableEq

/-- The datagrams of `sent` that `send_to` has sent. -/
def answers (tunnel : Tunnel) (env : Env) (sent : List Datagram) : List Shown :=
  if env.sendOk then sent.map fun datagram => .sent tunnel datagram.payload.length else []

/-- The batch of the worker at this point. -/
def current (w : Worker) : LocalMetricsBatch :=
  match w.stage with
  | .handling packet _ => w.batch.record w.tunnel.rx (UInt64.ofNat packet.length)
  | _ => w.batch

def flushingAt : List BatchField → Stage
  | [] => .head
  | todo => .flushing todo

/-- `maybe_flush` up to its first access. -/
def counted (tunnel : Tunnel) (batch : LocalMetricsBatch) : Worker :=
  ⟨tunnel, batch.count,
    if batch.count.counter % LocalMetricsBatch.flushInterval = 0
    then .flushing BatchField.flushOrder else .head⟩

variable {C A R : Type} (core : RelayCore C A) (rater : Rater R)

/-- The handler of the worker's tunnel. -/
def handle (m : Metrics) (w : Worker) (packet : Packet) (addr : SocketAddr)
    (v3 : TunnelV3 C A R) (v2 : TunnelV2 C R) (env : Env) :
    Metrics × LocalMetricsBatch × List Datagram :=
  match w.tunnel with
  | .v3 =>
    let (t, batch, sent) :=
      TunnelV3.onReceive core rater { v3 with metrics := m } env packet addr w.batch
    (t.metrics, batch, sent)
  | .v2 =>
    let (t, batch, sent) :=
      TunnelV2.onUdpReceive core rater { v2 with metrics := m } env packet addr w.batch
    (t.metrics, batch, sent)

/-- One step of a worker. An input that does not fit leaves everything as it is. -/
def exec (m : Metrics) (w : Worker) (a : Input C A R) : Metrics × Worker :=
  match w.stage, a with
  | .head, .receive packet addr =>
    if w.tunnel.Admits packet.length then (m, { w with stage := .handling packet addr })
    else match w.tunnel with
      | .v3 => (m.fetchAdd .invalidPackets 1, w)
      | .v2 => (m, w)
  | .head, .receiveError => (m, { w with stage := .flushing BatchField.flushOrder })
  | .handling packet addr, .respond v3 v2 env =>
    let (m, batch, _) := handle core rater m w packet addr v3 v2 env
    (m, counted w.tunnel batch)
  | .flushing (field :: todo), .go =>
    let (batch, m) := w.batch.flushField m field
    (m, ⟨w.tunnel, batch, flushingAt todo⟩)
  | _, _ => (m, w)

def emit (m : Metrics) (w : Worker) (a : Input C A R) : List Shown :=
  match w.stage, a with
  | .head, .receive packet _ => [.received w.tunnel packet.length]
  | .handling packet addr, .respond v3 v2 env =>
    answers w.tunnel env (handle core rater m w packet addr v3 v2 env).2.2
  | _, _ => []

end Worker

section Workers

variable {C A R : Type} (core : RelayCore C A) (rater : Rater R)

def workers : System Metrics Worker (Worker.Input C A R) Worker.Shown where
  exec := Worker.exec core rater
  emit := Worker.emit core rater
  tick m _ := m

end Workers

/-- What an event adds to the count of a field: packets of admitted size that were
received, and packets that were sent. -/
def Worker.Shown.amount (f : BatchField) : Worker.Shown → Nat
  | .received tunnel size => if tunnel.Admits size then f.amount tunnel.rx size else 0
  | .sent tunnel size => f.amount tunnel.tx size

/-- The number of packets or bytes that a field has to account for. -/
def tally (f : BatchField) (shown : List Worker.Shown) : Nat :=
  (shown.map (Worker.Shown.amount f)).sum

/-! ## What a handler records -/

/-- The counters that the batches are flushed into have not changed. -/
def Metrics.KeepsBatched (m m' : Metrics) : Prop :=
  ∀ f : BatchField, m'.count f.counter = m.count f.counter

theorem Metrics.keepsBatched_fetchAdd (m : Metrics) {c : Counter} (n : UInt64)
    (hc : ∀ f : BatchField, f.counter ≠ c) : m.KeepsBatched (m.fetchAdd c n) :=
  fun f => Function.update_of_ne (hc f) _ _

theorem BatchField.counter_ne (f : BatchField) :
    f.counter ≠ .v3PingRequests ∧ f.counter ≠ .v2PingRequests ∧ f.counter ≠ .rateLimitHits ∧
      f.counter ≠ .droppedPackets ∧ f.counter ≠ .invalidPackets := by
  cases f with
  | packets l => cases l <;> decide
  | bytes l => cases l <;> decide

/-- A handler sends at most one datagram, and records it if it was sent. -/
inductive Handled (tunnel : Tunnel) (batch : LocalMetricsBatch) :
    LocalMetricsBatch → List Worker.Shown → Prop
  | silent : Handled tunnel batch batch []
  | answered (size : Nat) : size ≤ 1472 →
      Handled tunnel batch (batch.record tunnel.tx (UInt64.ofNat size)) [.sent tunnel size]

namespace TunnelV3

variable {C A R : Type} (core : RelayCore C A) (rater : Rater R)

theorem relay_handled (t : TunnelV3 C A R) (env : Env) (receiverId : UInt32) (packet : Packet)
    (addr : SocketAddr) (batch : LocalMetricsBatch) (hsize : packet.length ≤ 1472) :
    (relay core t env receiverId packet addr batch).1.metrics = t.metrics ∧
      Handled .v3 batch (relay core t env receiverId packet addr batch).2.1
        (Worker.answers .v3 env (relay core t env receiverId packet addr batch).2.2) := by
  unfold relay Worker.answers
  cases forwardInfo core t receiverId addr with
  | none => exact ⟨rfl, by cases env.sendOk <;> exact .silent⟩
  | some ep =>
    cases hok : env.sendOk with
    | true => exact ⟨rfl, .answered packet.length hsize⟩
    | false => exact ⟨rfl, .silent⟩

theorem handlePing_handled (t : TunnelV3 C A R) (env : Env) (packet : Packet) (addr : SocketAddr)
    (batch : LocalMetricsBatch) :
    t.metrics.KeepsBatched (handlePing t env packet addr batch).1.metrics ∧
      Handled .v3 batch (handlePing t env packet addr batch).2.1
        (Worker.answers .v3 env (handlePing t env packet addr batch).2.2) := by
  refine ⟨t.metrics.keepsBatched_fetchAdd 1 fun f => f.counter_ne.1, ?_⟩
  unfold handlePing Worker.answers
  cases hok : env.sendOk with
  | true =>
    refine .answered (packet.take (min 12 packet.length)).length ?_
    rw [List.length_take]
    omega
  | false => exact .silent

theorem senderValid_keepsBatched (t : TunnelV3 C A R) (env : Env) (id : UInt32) (packet : Packet)
    (addr : SocketAddr) :
    t.metrics.KeepsBatched (senderValid core rater t env id packet addr).2.metrics := by
  have hstep := senderValid_step core rater t env id packet addr
  generalize senderValid core rater t env id packet addr = out at hstep
  cases hstep with
  | registerLimited =>
    exact t.metrics.keepsBatched_fetchAdd 1 fun f => f.counter_ne.2.2.1
  | full => exact t.metrics.keepsBatched_fetchAdd 1 fun f => f.counter_ne.2.2.2.1
  | _ => exact fun f => rfl

theorem executeCommand_keepsBatched (t : TunnelV3 C A R) (env : Env) (packet : Packet) :
    t.metrics.KeepsBatched (executeCommand core rater t env packet).metrics := by
  have hstep := executeCommand_step core rater t env packet
  generalize executeCommand core rater t env packet = t' at hstep
  cases hstep <;> exact fun f => rfl

/-- `on_receive` records the packet and what it sends, and flushes nothing. -/
theorem onReceive_handled (t : TunnelV3 C A R) (env : Env) (packet : Packet) (addr : SocketAddr)
    (batch : LocalMetricsBatch) (hsize : Tunnel.v3.Admits packet.length) :
    t.metrics.KeepsBatched (onReceive core rater t env packet addr batch).1.metrics ∧
      Handled .v3 (batch.recordV3Rx (UInt64.ofNat packet.length))
        (onReceive core rater t env packet addr batch).2.1
        (Worker.answers .v3 env (onReceive core rater t env packet addr batch).2.2) := by
  have hnone : Worker.answers .v3 env [] = [] := by
    unfold Worker.answers
    cases env.sendOk <;> rfl
  have hstep := onReceive_step core rater t env packet addr batch
  generalize onReceive core rater t env packet addr batch = out at hstep
  cases hstep with
  | short hheader =>
    -- eight bytes are a header
    obtain ⟨hlong, _⟩ := hsize
    match packet, hlong, hheader with
    | _ :: _ :: _ :: _ :: _ :: _ :: _ :: _ :: _, _, hheader => cases hheader
  | command s r _ _ =>
    rw [hnone]
    exact ⟨executeCommand_keepsBatched core rater t env packet, .silent⟩
  | dropped _ =>
    rw [hnone]
    exact ⟨fun f => rfl, .silent⟩
  | pingLimited _ =>
    rw [hnone]
    exact ⟨fun f => rfl, .silent⟩
  | ping _ _ => exact handlePing_handled _ env packet addr _
  | forward s r _ =>
    have hkeeps := senderValid_keepsBatched core rater t env s packet addr
    unfold handleDataForward
    cases hvalid : (senderValid core rater t env s packet addr).1 with
    | false =>
      simp only [hvalid, Bool.not_false, if_true, hnone]
      exact ⟨hkeeps, .silent⟩
    | true =>
      have hrelay := relay_handled core (senderValid core rater t env s packet addr).2 env r packet
        addr (batch.recordV3Rx (UInt64.ofNat packet.length)) hsize.le
      simp only [hvalid, Bool.not_true, Bool.false_eq_true, if_false]
      exact ⟨by rw [hrelay.1]; exact hkeeps, hrelay.2⟩

end TunnelV3

namespace TunnelV2

variable {C A R : Type} (core : RelayCore C A) (rater : Rater R)

theorem relay_handled (t : TunnelV2 C R) (env : Env) (receiverId : Int16) (packet : Packet)
    (addr : SocketAddr) (batch : LocalMetricsBatch) (hsize : packet.length ≤ 1472) :
    (relay core t env receiverId packet addr batch).1.metrics = t.metrics ∧
      Handled .v2 batch (relay core t env receiverId packet addr batch).2.1
        (Worker.answers .v2 env (relay core t env receiverId packet addr batch).2.2) := by
  unfold relay Worker.answers
  cases forwardInfo core t receiverId addr with
  | none => exact ⟨rfl, by cases env.sendOk <;> exact .silent⟩
  | some ep =>
    cases hok : env.sendOk with
    | true => exact ⟨rfl, .answered packet.length hsize⟩
    | false => exact ⟨rfl, .silent⟩

theorem handlePing_handled (t : TunnelV2 C R) (env : Env) (packet : Packet) (addr : SocketAddr)
    (batch : LocalMetricsBatch) :
    t.metrics.KeepsBatched (handlePing t env packet addr batch).1.metrics ∧
      Handled .v2 batch (handlePing t env packet addr batch).2.1
        (Worker.answers .v2 env (handlePing t env packet addr batch).2.2) := by
  refine ⟨t.metrics.keepsBatched_fetchAdd 1 fun f => f.counter_ne.2.1, ?_⟩
  unfold handlePing Worker.answers
  cases hok : env.sendOk with
  | true =>
    refine .answered (packet.take (min 12 packet.length)).length ?_
    rw [List.length_take]
    omega
  | false => exact .silent

/-- `on_udp_receive` records the packet and what it sends, and flushes nothing. -/
theorem onUdpReceive_handled (t : TunnelV2 C R) (env : Env) (packet : Packet) (addr : SocketAddr)
    (batch : LocalMetricsBatch) (hsize : Tunnel.v2.Admits packet.length) :
    t.metrics.KeepsBatched (onUdpReceive core rater t env packet addr batch).1.metrics ∧
      Handled .v2 (batch.recordV2Rx (UInt64.ofNat packet.length))
        (onUdpReceive core rater t env packet addr batch).2.1
        (Worker.answers .v2 env (onUdpReceive core rater t env packet addr batch).2.2) := by
  have hnone : Worker.answers .v2 env [] = [] := by
    unfold Worker.answers
    cases env.sendOk <;> rfl
  have hstep := onUdpReceive_step core rater t env packet addr batch
  generalize onUdpReceive core rater t env packet addr batch = out at hstep
  cases hstep with
  | short hheader =>
    -- four bytes are a header
    obtain ⟨hlong, _⟩ := hsize
    match packet, hlong, hheader with
    | _ :: _ :: _ :: _ :: _, _, hheader => cases hheader
  | dropped _ =>
    rw [hnone]
    exact ⟨fun f => rfl, .silent⟩
  | pingLimited _ =>
    rw [hnone]
    exact ⟨fun f => rfl, .silent⟩
  | ping _ _ => exact handlePing_handled _ env packet addr _
  | forward s r _ =>
    unfold handleDataForward
    cases hsender : acceptSender core t env s packet addr with
    | none =>
      rw [hnone]
      exact ⟨fun f => rfl, .silent⟩
    | some t' =>
      have hmetrics : t'.metrics = t.metrics := by
        rw [acceptSender_eq core hsender]
      have hrelay := relay_handled core t' env r packet addr
        (batch.recordV2Rx (UInt64.ofNat packet.length)) hsize.le
      exact ⟨fun f => by rw [hrelay.1, hmetrics], hrelay.2⟩

end TunnelV2

/-! ## The accounts of one worker -/

/-- What one packet of full size adds to a field. -/
def BatchField.limit : BatchField → Nat
  | .packets _ => 1
  | .bytes _ => 1472

theorem BatchField.amount_le (f : BatchField) (l : Lane) {n : Nat} (hn : n ≤ 1472) :
    f.amount l n ≤ f.limit := by
  cases f <;> simp only [amount, limit] <;> split <;> omega

theorem BatchField.amount_add_le (f : BatchField) {l l' : Lane} (hl : l ≠ l') {n n' : Nat}
    (hn : n ≤ 1472) (hn' : n' ≤ 1472) : f.amount l n + f.amount l' n' ≤ f.limit := by
  cases f with
  | packets lane =>
    simp only [amount, limit]
    split
    · rename_i h
      rw [if_neg fun h' => hl (h.symm.trans h')]
    · split <;> omega
  | bytes lane =>
    simp only [amount, limit]
    split
    · rename_i h
      rw [if_neg fun h' => hl (h.symm.trans h')]
      exact hn
    · split <;> omega

theorem Tunnel.rx_ne_tx (tunnel : Tunnel) : tunnel.rx ≠ tunnel.tx := by
  cases tunnel <;> decide

@[simp] theorem tally_nil (f : BatchField) : tally f [] = 0 := rfl

@[simp] theorem tally_singleton (f : BatchField) (e : Worker.Shown) :
    tally f [e] = e.amount f := by
  simp [tally]

theorem tally_append (f : BatchField) (es es' : List Worker.Shown) :
    tally f (es ++ es') = tally f es + tally f es' := by
  simp [tally]

theorem toNat_ofNat_size {size : Nat} (h : size ≤ 1472) : (UInt64.ofNat size).toNat = size := by
  rw [UInt64.toNat_ofNat']
  omega

namespace LocalMetricsBatch

/-- At most `k` packets of full size in every lane. -/
def AtMost (k : Nat) (b : LocalMetricsBatch) : Prop := ∀ f, (b.get f).toNat ≤ k * f.limit

/-- Recording a packet is exact as long as the batch is far from full. -/
theorem get_record {b : LocalMetricsBatch} (hb : b.AtMost 128) {size : Nat} (hsize : size ≤ 1472)
    (l : Lane) (f : BatchField) :
    ((b.record l (UInt64.ofNat size)).get f).toNat = (b.get f).toNat + f.amount l size := by
  have hpackets : (b.get (.packets l)).toNat ≤ 128 * 1 := hb (.packets l)
  have hbytes : (b.get (.bytes l)).toNat ≤ 128 * 1472 := hb (.bytes l)
  have hlen := toNat_ofNat_size hsize
  rw [b.toNat_get_record (by omega) (by omega), hlen]

theorem AtMost.mono {b : LocalMetricsBatch} {k k' : Nat} (h : b.AtMost k) (hk : k ≤ k') :
    b.AtMost k' := fun f => Nat.le_trans (h f) (Nat.mul_le_mul_right f.limit hk)

theorem AtMost.record {b : LocalMetricsBatch} {k : Nat} (h : b.AtMost k) (hk : k ≤ 127)
    {size : Nat} (hsize : size ≤ 1472) (l : Lane) :
    (b.record l (UInt64.ofNat size)).AtMost (k + 1) := by
  intro f
  have hf := h f
  have hamount := f.amount_le l hsize
  rw [get_record (h.mono (by omega)) hsize, Nat.succ_mul]
  omega

/-- Flushing moves a field into its counter. -/
theorem flushField_total (b : LocalMetricsBatch) (m : Metrics) (field f : BatchField) :
    ((b.flushField m field).2.count f.counter).toNat + ((b.flushField m field).1.get f).toNat ≡
      (m.count f.counter).toNat + (b.get f).toNat [MOD 2 ^ 64] := by
  rw [b.get_flushField, b.count_flushField]
  by_cases hf : f = field
  · have hzero : (0 : UInt64).toNat = 0 := rfl
    rw [if_pos hf, if_pos hf, UInt64.toNat_add, hzero, Nat.add_zero]
    exact Nat.mod_modEq _ _
  · rw [if_neg hf, if_neg hf]

end LocalMetricsBatch

namespace Handled

variable {tunnel : Tunnel} {batch out : LocalMetricsBatch} {shown : List Worker.Shown}

theorem counter_eq (h : Handled tunnel batch out shown) : out.counter = batch.counter := by
  cases h <;> rfl

theorem get_eq (h : Handled tunnel batch out shown) (hb : batch.AtMost 128) (f : BatchField) :
    (out.get f).toNat = (batch.get f).toNat + tally f shown := by
  cases h with
  | silent => rfl
  | answered size hsize =>
    rw [LocalMetricsBatch.get_record hb hsize, tally_singleton]
    rfl

/-- One received packet and its answer add at most one packet to every lane. -/
theorem atMost {b : LocalMetricsBatch} {k size : Nat} (hb : b.AtMost k) (hk : k ≤ 127)
    (hsize : size ≤ 1472)
    (h : Handled tunnel (b.record tunnel.rx (UInt64.ofNat size)) out shown) :
    out.AtMost (k + 1) := by
  have hreceived := hb.record hk hsize tunnel.rx
  cases h with
  | silent => exact hreceived
  | answered size' hsize' =>
    intro f
    have hf := hb f
    have hadd := f.amount_add_le tunnel.rx_ne_tx hsize hsize'
    rw [LocalMetricsBatch.get_record (hreceived.mono (by omega)) hsize',
      LocalMetricsBatch.get_record (hb.mono (by omega)) hsize, Nat.succ_mul]
    omega

end Handled

namespace Worker

/-- What a worker holds back: outside a flush no more than it has counted since the
last 64th packet, in a flush nothing in the fields that are done. -/
def Bounded (w : Worker) : Prop :=
  match w.stage with
  | .head => w.batch.AtMost (w.batch.counter.toNat % 64)
  | .handling packet _ =>
    w.batch.AtMost (w.batch.counter.toNat % 64) ∧ w.tunnel.Admits packet.length
  | .flushing todo => ∀ f, f ∉ todo → w.batch.get f = 0

/-- The count runs modulo 64, also where the `u16` wraps. -/
theorem count_mod (c : UInt16) :
    ((c + 1) % LocalMetricsBatch.flushInterval = 0 ∧ (c + 1).toNat % 64 = 0) ∨
      ((c + 1) % LocalMetricsBatch.flushInterval ≠ 0 ∧
        (c + 1).toNat % 64 = c.toNat % 64 + 1) := by
  have hone : (1 : UInt16).toNat = 1 := rfl
  have hzero : (0 : UInt16).toNat = 0 := rfl
  have hinterval : LocalMetricsBatch.flushInterval.toNat = 64 := rfl
  have hadd : (c + 1).toNat = (c.toNat + 1) % 2 ^ 16 := by rw [UInt16.toNat_add, hone]
  rw [← UInt16.toNat_inj, Ne, ← UInt16.toNat_inj, UInt16.toNat_mod, hinterval, hzero, hadd]
  omega

theorem counted_bounded (tunnel : Tunnel) {b : LocalMetricsBatch}
    (hb : b.AtMost (b.counter.toNat % 64 + 1)) : (counted tunnel b).Bounded := by
  have hget : ∀ k, b.AtMost k → b.count.AtMost k := by
    intro k hk f
    rw [LocalMetricsBatch.get_count]
    exact hk f
  unfold counted Bounded
  rcases count_mod b.counter with ⟨hmod, _⟩ | ⟨hmod, hnext⟩
  · rw [LocalMetricsBatch.counter_count, if_pos hmod]
    exact fun f hf => absurd f.mem_flushOrder hf
  · rw [LocalMetricsBatch.counter_count, if_neg hmod]
    show b.count.AtMost ((b.counter + 1).toNat % 64)
    rw [hnext]
    exact hget _ hb

/-- A worker that is done flushing holds back nothing. -/
theorem flushingAt_bounded {tunnel : Tunnel} {b : LocalMetricsBatch} {todo : List BatchField}
    (h : ∀ f, f ∉ todo → b.get f = 0) : Bounded ⟨tunnel, b, flushingAt todo⟩ := by
  cases todo with
  | nil =>
    intro f
    rw [h f List.not_mem_nil]
    exact Nat.zero_le _
  | cons f todo => exact h

@[simp] theorem current_counted (tunnel : Tunnel) (b : LocalMetricsBatch) :
    (counted tunnel b).current = b.count := by
  unfold counted current
  dsimp only
  split
  · rename_i h
    split at h <;> cases h
  · rfl

@[simp] theorem current_flushingAt (tunnel : Tunnel) (b : LocalMetricsBatch)
    (todo : List BatchField) : current ⟨tunnel, b, flushingAt todo⟩ = b := by
  cases todo <;> rfl

/-- A step accounts for what it shows: outside a flush exactly, in the worker's own batch. -/
structure Accounted (m m' : Metrics) (w w' : Worker) (shown : List Shown) : Prop where
  bounded : w'.Bounded
  exact : (∀ todo, w.stage ≠ .flushing todo) → m.KeepsBatched m' ∧
    ∀ f, (w'.current.get f).toNat = (w.current.get f).toNat + tally f shown
  flush : ∀ todo, w.stage = .flushing todo → ∀ f,
    tally f shown = 0 ∧ (m'.count f.counter).toNat + (w'.current.get f).toNat ≡
      (m.count f.counter).toNat + (w.current.get f).toNat [MOD 2 ^ 64]

section Step

variable {C A R : Type} (core : RelayCore C A) (rater : Rater R)

theorem handle_handled (m : Metrics) (w : Worker) {packet : Packet} (addr : SocketAddr)
    (v3 : TunnelV3 C A R) (v2 : TunnelV2 C R) (env : Env)
    (hsize : w.tunnel.Admits packet.length) :
    m.KeepsBatched (handle core rater m w packet addr v3 v2 env).1 ∧
      Handled w.tunnel (w.batch.record w.tunnel.rx (UInt64.ofNat packet.length))
        (handle core rater m w packet addr v3 v2 env).2.1
        (answers w.tunnel env (handle core rater m w packet addr v3 v2 env).2.2) := by
  obtain ⟨tunnel, batch, stage⟩ := w
  cases tunnel with
  | v3 =>
    exact TunnelV3.onReceive_handled core rater { v3 with metrics := m } env packet addr batch hsize
  | v2 =>
    exact TunnelV2.onUdpReceive_handled core rater { v2 with metrics := m } env packet addr batch
      hsize

/-- A step that shows nothing and leaves its worker as it is. -/
theorem accounted_same {m m' : Metrics} {w : Worker} (h : w.Bounded)
    (hkeeps : m.KeepsBatched m') : Accounted m m' w w [] where
  bounded := h
  exact _ := ⟨hkeeps, fun f => rfl⟩
  flush _ _ f := ⟨rfl, by rw [hkeeps f]⟩

theorem receive_accounted (m : Metrics) (tunnel : Tunnel) {b : LocalMetricsBatch}
    (h : Bounded ⟨tunnel, b, .head⟩) (packet : Packet) (addr : SocketAddr) :
    Accounted m (exec core rater m ⟨tunnel, b, .head⟩ (.receive packet addr)).1 ⟨tunnel, b, .head⟩
      (exec core rater m ⟨tunnel, b, .head⟩ (.receive packet addr)).2
      [.received tunnel packet.length] := by
  by_cases hsize : tunnel.Admits packet.length
  · simp only [exec, if_pos hsize]
    refine ⟨⟨h, hsize⟩, fun _ => ⟨fun f => rfl, fun f => ?_⟩, fun todo heq => (by cases heq)⟩
    have hle : b.counter.toNat % 64 ≤ 128 := by omega
    rw [tally_singleton, Shown.amount, if_pos hsize]
    exact LocalMetricsBatch.get_record (LocalMetricsBatch.AtMost.mono h hle) hsize.le tunnel.rx f
  · have hnone : ∀ f, tally f [.received tunnel packet.length] = 0 := by
      intro f
      rw [tally_singleton, Shown.amount, if_neg hsize]
    have hdropped : ∀ m', m.KeepsBatched m' → Accounted m m' ⟨tunnel, b, .head⟩ ⟨tunnel, b, .head⟩
        [.received tunnel packet.length] := by
      intro m' hkeeps
      refine ⟨h, fun _ => ⟨hkeeps, fun f => ?_⟩, fun todo heq => (by cases heq)⟩
      rw [hnone f, Nat.add_zero]
    simp only [exec, if_neg hsize]
    cases tunnel with
    | v3 => exact hdropped _ (m.keepsBatched_fetchAdd 1 fun f => f.counter_ne.2.2.2.2)
    | v2 => exact hdropped _ fun f => rfl

theorem respond_accounted (m : Metrics) (tunnel : Tunnel) {b : LocalMetricsBatch} {packet : Packet}
    {addr : SocketAddr} (h : Bounded ⟨tunnel, b, .handling packet addr⟩) (v3 : TunnelV3 C A R)
    (v2 : TunnelV2 C R) (env : Env) :
    let w : Worker := ⟨tunnel, b, .handling packet addr⟩
    Accounted m (exec core rater m w (.respond v3 v2 env)).1 w
      (exec core rater m w (.respond v3 v2 env)).2 (emit core rater m w (.respond v3 v2 env)) := by
  intro w
  obtain ⟨hb, hsize⟩ := h
  obtain ⟨hkeeps, hhandled⟩ := handle_handled core rater m w addr v3 v2 env hsize
  have hlt : b.counter.toNat % 64 ≤ 127 := by omega
  have hreceived := hb.record hlt hsize.le tunnel.rx
  have hbounded : (counted tunnel (handle core rater m w packet addr v3 v2 env).2.1).Bounded := by
    apply counted_bounded
    rw [hhandled.counter_eq]
    exact Handled.atMost hb hlt hsize.le hhandled
  refine ⟨hbounded, fun _ => ⟨hkeeps, fun f => ?_⟩, fun todo heq => (by cases heq)⟩
  · show ((counted tunnel (handle core rater m w packet addr v3 v2 env).2.1).current.get f).toNat =
      (w.current.get f).toNat + tally f (answers tunnel env _)
    rw [current_counted, LocalMetricsBatch.get_count]
    exact hhandled.get_eq (hreceived.mono (by omega)) f

theorem flush_accounted (m : Metrics) (tunnel : Tunnel) {b : LocalMetricsBatch} {field : BatchField}
    {todo : List BatchField} (h : Bounded ⟨tunnel, b, .flushing (field :: todo)⟩) :
    Accounted m (b.flushField m field).2 ⟨tunnel, b, .flushing (field :: todo)⟩
      ⟨tunnel, (b.flushField m field).1, flushingAt todo⟩ [] := by
  refine ⟨flushingAt_bounded fun f hf => ?_, fun hnot => absurd rfl (hnot _), fun _ _ f => ⟨rfl, ?_⟩⟩
  · rw [b.get_flushField]
    split
    · rfl
    · rename_i hne
      exact h f fun hmem => (List.mem_cons.mp hmem).elim hne hf
  · rw [current_flushingAt]
    exact b.flushField_total m field f

theorem exec_accounted (m : Metrics) {w : Worker} (h : w.Bounded) (a : Input C A R) :
    Accounted m (exec core rater m w a).1 w (exec core rater m w a).2
      (emit core rater m w a) := by
  have hsame : Accounted m m w w [] := accounted_same h fun f => rfl
  obtain ⟨tunnel, b, stage⟩ := w
  cases stage with
  | head =>
    cases a with
    | receive packet addr => exact receive_accounted core rater m tunnel h packet addr
    | receiveError =>
      refine ⟨fun f hf => absurd f.mem_flushOrder hf, fun _ => ⟨fun f => rfl, fun f => rfl⟩, ?_⟩
      exact fun todo heq => (by cases heq)
    | respond v3 v2 env => exact hsame
    | go => exact hsame
  | handling packet addr =>
    cases a with
    | respond v3 v2 env => exact respond_accounted core rater m tunnel h v3 v2 env
    | _ => exact hsame
  | flushing todo =>
    cases todo with
    | nil => cases a <;> exact hsame
    | cons field todo =>
      cases a with
      | go => exact flush_accounted m tunnel h
      | _ => exact hsame

end Step

/-- A step moves what it shows into the counter or the worker's own batch. -/
theorem Accounted.total {m m' : Metrics} {w w' : Worker} {shown : List Shown}
    (h : Accounted m m' w w' shown) (f : BatchField) :
    (m'.count f.counter).toNat + (w'.current.get f).toNat ≡
      (m.count f.counter).toNat + (w.current.get f).toNat + tally f shown [MOD 2 ^ 64] := by
  by_cases hflush : ∀ todo, w.stage ≠ .flushing todo
  · obtain ⟨hkeeps, hget⟩ := h.exact hflush
    rw [hkeeps f, hget f, Nat.add_assoc]
  · simp only [not_forall, not_not] at hflush
    obtain ⟨todo, hstage⟩ := hflush
    obtain ⟨hnone, htotal⟩ := h.flush todo hstage f
    rw [hnone, Nat.add_zero]
    exact htotal

/-! ## A worker alone is `receive_loop` -/

section Alone

variable {C A R : Type} (core : RelayCore C A) (rater : Rater R)

theorem solo_flush (m : Metrics) (tunnel : Tunnel) (b : LocalMetricsBatch) (todo : List BatchField) :
    (workers core rater).solo m ⟨tunnel, b, flushingAt todo⟩ (List.replicate todo.length .go) =
      let flushed := todo.foldl (fun p f => p.1.flushField p.2 f) (b, m)
      (flushed.2, ⟨tunnel, flushed.1, .head⟩) := by
  induction todo generalizing m b with
  | nil => rfl
  | cons field todo ih => exact ih _ _

theorem solo_flush_all (m : Metrics) (tunnel : Tunnel) (b : LocalMetricsBatch) :
    (workers core rater).solo m ⟨tunnel, b, .flushing BatchField.flushOrder⟩
        (List.replicate 8 .go) = ((b.flush m).2, ⟨tunnel, (b.flush m).1, .head⟩) :=
  solo_flush core rater m tunnel b BatchField.flushOrder

theorem solo_head (m : Metrics) (tunnel : Tunnel) (b : LocalMetricsBatch) (n : Nat) :
    (workers core rater).solo m ⟨tunnel, b, .head⟩ (List.replicate n .go) =
      (m, ⟨tunnel, b, .head⟩) := by
  induction n with
  | zero => rfl
  | succ n ih => exact ih

/-- After the handler a worker alone runs `maybe_flush`. -/
theorem solo_maybeFlush (m : Metrics) (tunnel : Tunnel) (b : LocalMetricsBatch) :
    (workers core rater).solo m (counted tunnel b) (List.replicate 8 .go) =
      ((b.maybeFlush m).2, ⟨tunnel, (b.maybeFlush m).1, .head⟩) := by
  unfold counted LocalMetricsBatch.maybeFlush
  split
  · exact solo_flush_all core rater m tunnel b.count
  · exact solo_head core rater m tunnel b.count 8

/-- The steps of one iteration of a worker. -/
def iteration (v3 : TunnelV3 C A R) (v2 : TunnelV2 C R) (env : Env) :
    Received → List (Input C A R)
  | .datagram packet addr =>
    [.receive packet addr, .respond v3 v2 env] ++ List.replicate 8 .go
  | .error => .receiveError :: List.replicate 8 .go

theorem solo_receive_v3 (v3 : TunnelV3 C A R) (v2 : TunnelV2 C R) (env : Env)
    (b : LocalMetricsBatch) (received : Received) :
    (workers core rater).solo v3.metrics ⟨.v3, b, .head⟩ (iteration v3 v2 env received) =
      ((TunnelV3.receive core rater v3 env b received).1.metrics,
        ⟨.v3, (TunnelV3.receive core rater v3 env b received).2.1, .head⟩) := by
  cases received with
  | error =>
    simp only [iteration, System.solo_cons, workers, exec, TunnelV3.receive]
    exact solo_flush_all core rater v3.metrics .v3 b
  | datagram packet addr =>
    by_cases hsize : Tunnel.v3.Admits packet.length
    · have hsize' : 8 ≤ packet.length ∧ packet.length ≤ TunnelV3.maxPacketSize := hsize
      simp only [iteration, List.cons_append, List.nil_append, System.solo_cons, workers, exec,
        if_pos hsize, TunnelV3.receive, if_pos hsize']
      exact solo_maybeFlush core rater _ .v3 _
    · have hsize' : ¬ (8 ≤ packet.length ∧ packet.length ≤ TunnelV3.maxPacketSize) := hsize
      simp only [iteration, List.cons_append, List.nil_append, System.solo_cons, workers, exec,
        if_neg hsize, TunnelV3.receive, if_neg hsize']
      exact solo_head core rater _ .v3 b 8

theorem solo_receive_v2 (v3 : TunnelV3 C A R) (v2 : TunnelV2 C R) (env : Env)
    (b : LocalMetricsBatch) (received : Received) :
    (workers core rater).solo v2.metrics ⟨.v2, b, .head⟩ (iteration v3 v2 env received) =
      ((TunnelV2.receive core rater v2 env b received).1.metrics,
        ⟨.v2, (TunnelV2.receive core rater v2 env b received).2.1, .head⟩) := by
  cases received with
  | error =>
    simp only [iteration, System.solo_cons, workers, exec, TunnelV2.receive]
    exact solo_flush_all core rater v2.metrics .v2 b
  | datagram packet addr =>
    by_cases hsize : Tunnel.v2.Admits packet.length
    · have hsize' : 4 ≤ packet.length ∧ packet.length ≤ TunnelV2.maxPacketSize := hsize
      simp only [iteration, List.cons_append, List.nil_append, System.solo_cons, workers, exec,
        if_pos hsize, TunnelV2.receive, if_pos hsize']
      exact solo_maybeFlush core rater _ .v2 _
    · have hsize' : ¬ (4 ≤ packet.length ∧ packet.length ≤ TunnelV2.maxPacketSize) := hsize
      simp only [iteration, List.cons_append, List.nil_append, System.solo_cons, workers, exec,
        if_neg hsize, TunnelV2.receive, if_neg hsize']
      exact solo_head core rater _ .v2 b 8

end Alone

end Worker

/-! ## Runs -/

section Run

variable {ι : Type} [Fintype ι] [DecidableEq ι]
variable {C A R : Type} (core : RelayCore C A) (rater : Rater R)

/-- All counters at 0, every worker of either tunnel before its first packet. -/
structure WorkersStarted (p : Pool ι Metrics Worker) : Prop where
  metrics : p.shared = Metrics.new
  fresh : ∀ i, ∃ tunnel, p.thread i = ⟨tunnel, .new, .head⟩

/-- The accounts of all workers: every packet is in its counter or in one batch. -/
structure Accounts (tr : List (ι × Worker.Shown)) (p : Pool ι Metrics Worker) : Prop where
  bounded : ∀ i, (p.thread i).Bounded
  total : ∀ f, (p.shared.count f.counter).toNat + ∑ i, ((p.thread i).current.get f).toNat ≡
    tally f (tr.map Prod.snd) [MOD 2 ^ 64]

/-- What one worker moves into its counter leaves the total, whatever the others hold. -/
theorem modEq_transfer {n pub pub' own own' all all' total shown : Nat}
    (hstep : pub' + own' ≡ pub + own + shown [MOD n]) (hsum : all' + own = all + own')
    (h : pub + all ≡ total [MOD n]) : pub' + all' ≡ total + shown [MOD n] := by
  refine Nat.ModEq.add_right_cancel' own ?_
  calc pub' + all' + own = pub' + own' + all := by omega
    _ ≡ pub + own + shown + all [MOD n] := hstep.add_right all
    _ = pub + all + (shown + own) := by omega
    _ ≡ total + (shown + own) [MOD n] := h.add_right (shown + own)
    _ = total + shown + own := by omega

theorem accounts_step {tr : List (ι × Worker.Shown)} {p : Pool ι Metrics Worker}
    (h : Accounts tr p) (a : Action ι (Worker.Input C A R)) :
    Accounts (tr ++ (workers core rater).machine.emit p a)
      ((workers core rater).machine.step p a) := by
  cases a with
  | tick d =>
    rw [System.emit_tick, List.append_nil]
    exact ⟨h.bounded, h.total⟩
  | work i a =>
    have hstep := Worker.exec_accounted core rater p.shared (h.bounded i) a
    refine ⟨fun j => ?_, fun f => ?_⟩
    · show (Function.update p.thread i (Worker.exec core rater p.shared (p.thread i) a).2 j).Bounded
      by_cases hj : j = i
      · subst hj
        rw [Function.update_self]
        exact hstep.bounded
      · rw [Function.update_of_ne hj]
        exact h.bounded j
    · have hsum := sum_update_local Finset.univ (Finset.mem_univ i)
        (fun w : Worker => (w.current.get f).toNat) p.thread
        (Worker.exec core rater p.shared (p.thread i) a).2
      have htotal := h.total f
      have hlocal := hstep.total f
      have htally : tally f ((tr ++ (workers core rater).machine.emit p (.work i a)).map Prod.snd) =
          tally f (tr.map Prod.snd) + tally f (Worker.emit core rater p.shared (p.thread i) a) := by
        rw [List.map_append, tally_append, map_snd_emit]
        rfl
      rw [htally]
      show ((Worker.exec core rater p.shared (p.thread i) a).1.count f.counter).toNat +
        ∑ j, ((Function.update p.thread i (Worker.exec core rater p.shared (p.thread i) a).2
          j).current.get f).toNat ≡ _ [MOD 2 ^ 64]
      exact modEq_transfer hlocal hsum htotal

theorem accounts_run {p : Pool ι Metrics Worker} (hstart : WorkersStarted p)
    (as : List (Action ι (Worker.Input C A R))) :
    Accounts ((workers core rater).machine.trace p as) ((workers core rater).machine.run p as) := by
  refine (workers core rater).machine.trace_invariant (P := Accounts) ?_
    (fun tr q a h => accounts_step core rater h a) as
  refine ⟨fun i => ?_, fun f => ?_⟩
  · obtain ⟨tunnel, hfresh⟩ := hstart.fresh i
    rw [hfresh]
    intro f
    rw [LocalMetricsBatch.get_new]
    exact Nat.zero_le _
  · have hzero : ∑ i, ((p.thread i).current.get f).toNat = 0 := by
      refine Finset.sum_eq_zero fun i _ => ?_
      obtain ⟨tunnel, hfresh⟩ := hstart.fresh i
      rw [hfresh]
      exact congrArg UInt64.toNat (LocalMetricsBatch.get_new f)
    rw [hzero, hstart.metrics]
    rfl

/-- **Batched metrics lose and duplicate nothing**, in every run of any number of
workers of both tunnels: a published counter and what the workers hold back add up to
what was received (in packets of admitted size) and sent; a worker at the head of its
loop holds back at most 63 packets of full size a lane; and outside a flush a step adds
what it shows to the worker's batch, with no overflow. -/
theorem batched_metrics {p : Pool ι Metrics Worker} (hstart : WorkersStarted p)
    (as : List (Action ι (Worker.Input C A R))) :
    let M := (workers core rater).machine (ι := ι)
    (∀ f, ((M.run p as).shared.count f.counter).toNat +
        ∑ i, (((M.run p as).thread i).current.get f).toNat ≡
      tally f ((M.trace p as).map Prod.snd) [MOD 2 ^ 64]) ∧
    (∀ i, ((M.run p as).thread i).stage = .head → ∀ l,
      (((M.run p as).thread i).batch.packets l).toNat ≤ 63 ∧
      (((M.run p as).thread i).batch.bytes l).toNat ≤ 63 * 1472) ∧
    (∀ i a, (∀ todo, ((M.run p as).thread i).stage ≠ .flushing todo) → ∀ f,
      (((M.run p (as ++ [.work i a])).thread i).current.get f).toNat =
        (((M.run p as).thread i).current.get f).toNat +
          tally f ((M.emit (M.run p as) (.work i a)).map Prod.snd)) := by
  intro M
  have haccounts := accounts_run core rater hstart as
  refine ⟨haccounts.total, fun i hstage l => ?_, fun i a hstage f => ?_⟩
  · have hbounded := haccounts.bounded i
    have hatMost : ((M.run p as).thread i).batch.AtMost 63 := by
      unfold Worker.Bounded at hbounded
      rw [hstage] at hbounded
      exact LocalMetricsBatch.AtMost.mono hbounded (by omega)
    have hpackets := hatMost (.packets l)
    have hbytes := hatMost (.bytes l)
    rw [LocalMetricsBatch.get, UInt32.toNat_toUInt64] at hpackets
    exact ⟨hpackets, hbytes⟩
  · have hstep := Worker.exec_accounted core rater (M.run p as).shared (haccounts.bounded i) a
    have hself : (M.run p (as ++ [.work i a])).thread i =
        (Worker.exec core rater (M.run p as).shared ((M.run p as).thread i) a).2 := by
      rw [Machine.run_snoc]
      exact Function.update_self _ _ _
    have hemit : (M.emit (M.run p as) (.work i a)).map Prod.snd =
        Worker.emit core rater (M.run p as).shared ((M.run p as).thread i) a := by
      show ((Worker.emit core rater (M.run p as).shared ((M.run p as).thread i) a).map
        (Prod.mk i)).map Prod.snd = _
      simp
    rw [hself, hemit]
    exact (hstep.exact hstage).2 f

end Run

/-! ## Concrete runs -/

/-- A V3 worker and a V2 worker. -/
def freshWorkers : Pool Bool Metrics Worker :=
  ⟨.new, fun i => ⟨if i then .v2 else .v3, .new, .head⟩⟩

theorem freshWorkers_started : WorkersStarted freshWorkers := ⟨rfl, fun _ => ⟨_, rfl⟩⟩

/-- The V3 worker receives a ping of 50 bytes and answers it. -/
def ping : List (Action Bool (Worker.Input RelayCore.ReferenceClient (List Bool) Unit)) :=
  [.work false (.receive (List.replicate 50 0) (.v4 9 9 9 9 1234)),
    .work false (.respond (TunnelV3.new Rater.granting id ⟨50001, 50000, 200, "", 8, 4⟩)
      (TunnelV2.new Rater.granting ⟨50001, 50000, 200, "", 8, 4⟩) ⟨1000, 0, true⟩)]

theorem batched_metrics_ping :
    let M := (workers (RelayCore.reference 30) Rater.granting).machine
    M.trace freshWorkers ping = [(false, .received .v3 50), (false, .sent .v3 12)] ∧
      ∀ f, ((M.run freshWorkers ping).shared.count f.counter).toNat +
          ∑ i, (((M.run freshWorkers ping).thread i).current.get f).toNat ≡
        tally f ((M.trace freshWorkers ping).map Prod.snd) [MOD 2 ^ 64] := by
  have h := batched_metrics (RelayCore.reference 30) Rater.granting freshWorkers_started ping
  exact ⟨by decide +kernel, h.1⟩

/-- A datagram of five bytes is received by the V3 worker and counted nowhere in
`v3_packets_received`. -/
theorem short_datagram_not_counted :
    let M := (workers (RelayCore.reference 30) Rater.granting).machine (ι := Bool)
    let as := [.work false (.receive [1, 2, 3, 4, 5] (.v4 9 9 9 9 1234))]
    M.trace freshWorkers as = [(false, .received .v3 5)] ∧
      ((M.run freshWorkers as).shared.count .v3PacketsReceived).toNat +
        ∑ i, (((M.run freshWorkers as).thread i).current.get (.packets .v3Rx)).toNat = 0 := by
  decide +kernel

end CncnetServer
