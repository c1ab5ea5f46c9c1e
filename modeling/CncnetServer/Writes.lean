import CncnetServer.Lib.Sharing
import CncnetServer.Listeners
import CncnetServer.PeerToPeer
import CncnetServer.V3.Heartbeat
import Mathlib.Algebra.Group.Submonoid.Operations
import Mathlib.Data.UInt

/-!
The one `Metrics` that all services of the server write: which writes they make, and that no
service reads it, but for the log.

* `Metrics.counts`, `Metrics.writesV3`, `Metrics.writesV2`: the writes of the services;
* `TunnelV3.receive_blind`, `TunnelV2.receive_blind`, `PeerToPeer.receive_blind` and the like: a
  call does the same whatever the metrics are.
-/

namespace CncnetServer

open Runs

/-! ## Writes -/

namespace Metrics

variable {γ : Type}

/-- The counters go up by what does not depend on the metrics. -/
def adds : Submonoid (Function.End Metrics) where
  carrier := {g | ∃ d : Counter → UInt64, ∀ m c, (g m).count c = m.count c + d c}
  one_mem' := ⟨fun _ => 0, fun _ _ => (add_zero _).symm⟩
  mul_mem' := by
    rintro g g' ⟨d, hd⟩ ⟨d', hd'⟩
    refine ⟨fun c => d' c + d c, fun m c => ?_⟩
    rw [← add_assoc, ← hd', ← hd]
    rfl

def leaves (w : Metrics → γ) : Submonoid (Function.End Metrics) where
  carrier := {g | ∀ m, w (g m) = w m}
  one_mem' _ := rfl
  mul_mem' hg hg' m := (hg _).trans (hg' m)

/-- What `w` is afterwards depends on what it was before, and on nothing else. -/
def keeps (w : Metrics → γ) : Submonoid (Function.End Metrics) where
  carrier := {g | ∀ m m', w m = w m' → w (g m) = w (g m')}
  one_mem' _ _ h := h
  mul_mem' hg hg' m m' h := hg _ _ (hg' m m' h)

theorem leaves_le_keeps (w : Metrics → γ) : leaves w ≤ keeps w := by
  intro g hg m m' h
  exact (hg m).trans (h.trans (hg m').symm)

/-- Counters only. -/
def counts : Submonoid (Function.End Metrics) :=
  adds ⊓ leaves v3ActiveClients ⊓ leaves v2ActiveClients

def writesV3 : Submonoid (Function.End Metrics) :=
  adds ⊓ keeps v3ActiveClients ⊓ leaves v2ActiveClients

def writesV2 : Submonoid (Function.End Metrics) :=
  adds ⊓ leaves v3ActiveClients ⊓ keeps v2ActiveClients

theorem counts_le_writesV3 : counts ≤ writesV3 :=
  inf_le_inf (inf_le_inf le_rfl (leaves_le_keeps _)) le_rfl

theorem counts_le_writesV2 : counts ≤ writesV2 := inf_le_inf le_rfl (leaves_le_keeps _)

/-- `fetch_add`, as a write. -/
def adding (c : Counter) (n : UInt64) : Function.End Metrics := fun m => m.fetchAdd c n

theorem adding_mem_counts (c : Counter) (n : UInt64) : adding c n ∈ counts := by
  refine ⟨⟨⟨fun c' => if c' = c then n else 0, fun m c' => ?_⟩, fun _ => rfl⟩, fun _ => rfl⟩
  by_cases hc : c' = c
  · subst hc
    simp [adding, fetchAdd]
  · simp [adding, fetchAdd, hc]

theorem adding_mem_writesV3 (c : Counter) (n : UInt64) : adding c n ∈ writesV3 :=
  counts_le_writesV3 (adding_mem_counts c n)

theorem adding_mem_writesV2 (c : Counter) (n : UInt64) : adding c n ∈ writesV2 :=
  counts_le_writesV2 (adding_mem_counts c n)

theorem setV3_mem_writesV3 (n : Nat) :
    (fun m => { m with v3ActiveClients := n } : Function.End Metrics) ∈ writesV3 :=
  ⟨⟨⟨fun _ => 0, fun _ _ => (add_zero _).symm⟩, fun _ _ _ => rfl⟩, fun _ => rfl⟩

theorem setV2_mem_writesV2 (n : Nat) :
    (fun m => { m with v2ActiveClients := n } : Function.End Metrics) ∈ writesV2 :=
  ⟨⟨⟨fun _ => 0, fun _ _ => (add_zero _).symm⟩, fun _ => rfl⟩, fun _ _ _ => rfl⟩

end Metrics

namespace LocalMetricsBatch

/-- A flush in the order of any fields: the batch is reset alike, and the counters go up. -/
theorem flushFields_writes (fs : List BatchField) (b : LocalMetricsBatch) :
    ∃ b', ∃ g ∈ Metrics.counts,
      ∀ m, fs.foldl (fun p f => flushField p.1 p.2 f) (b, m) = (b', g m) := by
  induction fs generalizing b with
  | nil => exact ⟨b, 1, Metrics.counts.one_mem, fun _ => rfl⟩
  | cons f fs ih =>
    by_cases hpos : b.get f > 0
    · obtain ⟨b', g, hg, hfold⟩ := ih (b.reset f)
      refine ⟨b', g * Metrics.adding f.counter (b.get f),
        Metrics.counts.mul_mem hg (Metrics.adding_mem_counts _ _), fun m => ?_⟩
      rw [List.foldl_cons, flushField, if_pos hpos]
      exact hfold _
    · obtain ⟨b', g, hg, hfold⟩ := ih b
      refine ⟨b', g, hg, fun m => ?_⟩
      rw [List.foldl_cons, flushField, if_neg hpos]
      exact hfold m

theorem flush_writes (b : LocalMetricsBatch) :
    ∃ b', ∃ g ∈ Metrics.counts, ∀ m, b.flush m = (b', g m) :=
  flushFields_writes BatchField.flushOrder b

theorem maybeFlush_writes (b : LocalMetricsBatch) :
    ∃ b', ∃ g ∈ Metrics.counts, ∀ m, b.maybeFlush m = (b', g m) := by
  unfold maybeFlush
  split
  · exact flush_writes b.count
  · exact ⟨b.count, 1, Metrics.counts.one_mem, fun _ => rfl⟩

end LocalMetricsBatch

/-! ## The V3 tunnel -/

namespace TunnelV3

variable {C A R : Type} (core : RelayCore C A) (rater : Rater R)

/-- The metrics of the tunnel. -/
def metricsPart : Part (TunnelV3 C A R) Metrics where
  get := metrics
  put m t := { t with metrics := m }
  get_put _ _ := rfl
  put_put _ _ _ := rfl
  put_get _ := rfl

theorem senderValid_blind (t : TunnelV3 C A R) (env : Env) (id : UInt32) (packet : Packet)
    (addr : SocketAddr) :
    Blind metricsPart Metrics.writesV3
      (fun t => (senderValid core rater t env id packet addr).swap) t := by
  unfold senderValid
  cases hget : t.mappings.get id with
  | none =>
    by_cases hlen : t.mappings.len < t.maxClients
    · cases hacq : (ConnectionRateLimiter.tryAcquire rater t.connectionLimiter addr.ip
          env.timestamp).1 with
      | true =>
        exact ⟨_, Metrics.setV3_mem_writesV3
          (t.mappings.insert id (core.newWithEndpoint addr env.timestamp)).len,
          fun m => by simp [metricsPart, hget, hlen, hacq]⟩
      | false =>
        exact ⟨_, Metrics.adding_mem_writesV3 .rateLimitHits 1,
          fun m => by simp [metricsPart, Metrics.adding, hget, hlen, hacq]⟩
    · exact ⟨_, Metrics.adding_mem_writesV3 .droppedPackets 1,
        fun m => by simp [metricsPart, Metrics.adding, hget, hlen]⟩
  | some client =>
    refine .of_eq fun m => ?_
    cases hep : core.remoteEp client with
    | none => simp [metricsPart, hget, hep]
    | some ep =>
      by_cases heq : ep = addr
      · simp [metricsPart, hget, hep, heq]
      · cases hto : core.isTimedOut client env.timestamp with
        | false => simp [metricsPart, hget, hep, heq, hto]
        | true =>
          cases hacq : (ConnectionRateLimiter.tryAcquire rater t.connectionLimiter addr.ip
              env.timestamp).1 <;>
            simp [metricsPart, hget, hep, heq, hto, hacq]

theorem relay_blind (t : TunnelV3 C A R) (env : Env) (r : UInt32) (packet : Packet)
    (addr : SocketAddr) (batch : LocalMetricsBatch) :
    Blind metricsPart Metrics.writesV3 (fun t => relay core t env r packet addr batch) t := by
  refine .of_eq fun m => ?_
  unfold relay forwardInfo
  cases hinfo : core.forwardInfo t.mappings r addr with
  | none => simp [metricsPart, hinfo]
  | some ep => cases hsend : env.sendOk <;> simp [metricsPart, hinfo]

theorem handleDataForward_blind (t : TunnelV3 C A R) (env : Env) (s r : UInt32) (packet : Packet)
    (addr : SocketAddr) (batch : LocalMetricsBatch) :
    Blind metricsPart Metrics.writesV3
      (fun t => handleDataForward core rater t env s r packet addr batch) t := by
  refine (senderValid_blind core rater t env s packet addr).bind
    (k := fun valid t => if !valid then (t, batch, []) else
      relay core t env r packet addr batch) ?_
  split
  · exact .id _ _
  · exact relay_blind core _ env r packet addr batch

theorem handlePing_blind (t : TunnelV3 C A R) (env : Env) (packet : Packet) (addr : SocketAddr)
    (batch : LocalMetricsBatch) :
    Blind metricsPart Metrics.writesV3 (fun t => handlePing t env packet addr batch) t :=
  ⟨_, Metrics.adding_mem_writesV3 .v3PingRequests 1, fun _ => rfl⟩

theorem cleanupExpiredMappings_blind {β : Type} (t : TunnelV3 C A R) (env : Env) (b : β) :
    Blind metricsPart Metrics.writesV3
      (fun t => (cleanupExpiredMappings core rater t env, b)) t :=
  ⟨_, Metrics.setV3_mem_writesV3
    (t.mappings.retain fun _ client => !core.isTimedOut client env.timestamp).len, fun _ => rfl⟩

theorem executeCommand_blind {β : Type} (t : TunnelV3 C A R) (env : Env) (packet : Packet)
    (b : β) :
    Blind metricsPart Metrics.writesV3 (fun t => (executeCommand core rater t env packet, b)) t := by
  unfold executeCommand
  by_cases hwait : env.elapsedSecs - t.lastCommandTick < commandRateLimitSecs
      ∨ t.maintenancePasswordSha1.isNone
  · exact (Blind.id b t).congr fun m => congrArg (·, b) (if_pos hwait)
  by_cases hpw : t.maintenancePasswordSha1 = some ((packet.take 29).drop 9)
  · rw [hpw] at hwait
    generalize packet.getD 8 0 = command
    by_cases hclean : command = 1
    · refine (Blind.bind (f := fun (t : TunnelV3 C A R) =>
          ({ t with lastCommandTick := env.elapsedSecs }, b))
        (k := fun b t => (cleanupExpiredMappings core rater t env, b)) (.of_eq fun _ => rfl)
        (cleanupExpiredMappings_blind core rater _ env b)).congr fun m => ?_
      simp only [metricsPart, hwait, hpw, hclean, if_false, if_true]
    · refine .of_eq fun m => ?_
      simp only [metricsPart, hwait, hpw, if_false, if_true]
      split
      · rfl
      · exact absurd rfl hclean
      · rfl
  · refine .of_eq fun m => ?_
    simp only [metricsPart, hwait, hpw, if_false]

theorem onReceive_blind (t : TunnelV3 C A R) (env : Env) (packet : Packet) (addr : SocketAddr)
    (batch : LocalMetricsBatch) :
    Blind metricsPart Metrics.writesV3
      (fun t => onReceive core rater t env packet addr batch) t := by
  unfold onReceive
  cases hheader : parsePacketHeader packet with
  | none => exact .id _ t
  | some ids =>
    obtain ⟨s, r⟩ := ids
    dsimp only
    generalize batch.recordV3Rx (UInt64.ofNat packet.length) = batch
    by_cases hcmd : isCommand s r packet
    · simp only [if_pos hcmd]
      exact executeCommand_blind core rater t env packet _
    simp only [if_neg hcmd]
    cases hval : validatePacket core s r addr with
    | false => exact .id _ t
    | true =>
      simp only [Bool.not_true, Bool.false_eq_true, if_false]
      by_cases hping : s = 0 ∧ r = 0
      · simp only [if_pos hping]
        by_cases hlen : packet.length = 50
        · simp only [if_pos hlen]
          refine Blind.bind (f := fun (t : TunnelV3 C A R) =>
              ({ t with pingLimiter := (RateLimiter.checkAndIncrement rater t.pingLimiter addr.ip
                  env.timestamp).2 },
                (RateLimiter.checkAndIncrement rater t.pingLimiter addr.ip env.timestamp).1))
            (k := fun granted t => if granted then handlePing t env packet addr batch else
              (t, batch, [])) (.of_eq fun _ => rfl) ?_
          split
          · exact handlePing_blind _ env packet addr batch
          · exact .id _ _
        · simp only [if_neg hlen]
          exact .id _ t
      · simp only [if_neg hping]
        cases hm : t.maintenanceMode with
        | true => exact (Blind.id _ t).congr fun m => if_pos hm
        | false =>
          refine (handleDataForward_blind core rater t env s r packet addr batch).congr fun m => ?_
          exact if_neg (Bool.eq_false_iff.mp hm)

theorem receive_blind (t : TunnelV3 C A R) (env : Env) (batch : LocalMetricsBatch)
    (received : Received) :
    Blind metricsPart Metrics.writesV3 (fun t => receive core rater t env batch received) t := by
  cases received with
  | error =>
    obtain ⟨b', g, hg, hflush⟩ := batch.flush_writes
    exact ⟨g, Metrics.counts_le_writesV3 hg, fun m => by simp only [receive, metricsPart, hflush]⟩
  | datagram packet addr =>
    by_cases hlen : 8 ≤ packet.length ∧ packet.length ≤ maxPacketSize
    · obtain ⟨b', g, hg, hflush⟩ :=
        (onReceive core rater t env packet addr batch).2.1.maybeFlush_writes
      obtain ⟨g', hg', hreceive⟩ := onReceive_blind core rater t env packet addr batch
      refine ⟨g * g', Metrics.writesV3.mul_mem (Metrics.counts_le_writesV3 hg) hg', fun m => ?_⟩
      simp only [receive, if_pos hlen, hreceive, hflush]
      rfl
    · refine ⟨Metrics.adding .invalidPackets 1,
        Metrics.adding_mem_writesV3 _ _, fun m => ?_⟩
      simp only [receive, if_neg hlen]
      rfl

namespace Heartbeat

def tunnelPart : Part (Heartbeat C A R) (TunnelV3 C A R) where
  get := tunnel
  put t h := { h with tunnel := t }
  get_put _ _ := rfl
  put_put _ _ _ := rfl
  put_get _ := rfl

theorem tick_blind {β : Type} (h : Heartbeat C A R) (env : Env) (b : β) :
    Blind (tunnelPart.comp metricsPart) Metrics.writesV3 (fun h => (tick core rater h env, b)) h := by
  unfold tick
  by_cases hcleans : (h.cleanupCounter + 1) % 3 = 0
  · refine ((cleanupExpiredMappings_blind core rater h.tunnel env b).zoom tunnelPart).bind
      (k := fun b h => ({ h with cleanupCounter := h.cleanupCounter + 1 }, b)) (.of_eq fun _ => rfl)
      |>.congr fun m => ?_
    simp only [Part.comp, tunnelPart, metricsPart, hcleans, if_true]
  · refine .of_eq fun m => ?_
    simp only [Part.comp, tunnelPart, metricsPart, hcleans, if_false]

end Heartbeat

end TunnelV3

/-! ## The V2 tunnel -/

namespace TunnelV2

variable {C A R : Type} (core : RelayCore C A) (rater : Rater R)

/-- The metrics of the tunnel. -/
def metricsPart : Part (TunnelV2 C R) Metrics where
  get := metrics
  put m t := { t with metrics := m }
  get_put _ _ := rfl
  put_put _ _ _ := rfl
  put_get _ := rfl

theorem handleRequest_blind (t : TunnelV2 C R) (now : Nat) (draws : Nat → Int16)
    (query : Option (List Char)) :
    Blind metricsPart Metrics.writesV2 (fun t => (handleRequest core t now draws query).swap) t := by
  unfold handleRequest
  generalize parseClients query = clients
  by_cases hm : t.maintenanceMode = true
  · exact (Blind.id _ t).congr fun m => congrArg Prod.swap (if_pos hm)
  by_cases hbad : clients < 2 ∨ clients > 8
  · exact (Blind.id _ t).congr fun m => congrArg Prod.swap ((if_neg hm).trans (if_pos hbad))
  by_cases hfull : t.mappings.len + clients > t.maxClients
  · exact (Blind.id _ t).congr fun m =>
      congrArg Prod.swap ((if_neg hm).trans ((if_neg hbad).trans (if_pos hfull)))
  by_cases hdraws : (allocateIds core now clients maxAttempts draws t.mappings []).2.length <
      clients
  · refine .of_eq fun m => ?_
    simp only [metricsPart, hm, hbad, hfull, hdraws, if_false, if_true]
    rfl
  · refine ⟨_, Metrics.setV2_mem_writesV2
      (allocateIds core now clients maxAttempts draws t.mappings []).1.len, fun m => ?_⟩
    simp only [metricsPart, hm, hbad, hfull, hdraws, if_false]
    rfl

theorem handleMaintenance_blind (t : TunnelV2 C R) (path : List Char) :
    Blind metricsPart Metrics.writesV2 (fun t => (handleMaintenance t path).swap) t := by
  refine .of_eq fun m => ?_
  unfold handleMaintenance
  by_cases hnone : t.maintenancePassword.isEmpty = true
  · simp [metricsPart, hnone]
  · by_cases hpw : (path.splitOn '/')[2]? = some t.maintenancePassword.toList <;>
      simp [metricsPart, hnone, hpw]

theorem handleHttpRequest_blind (t : TunnelV2 C R) (now : Nat) (draws : Nat → Int16)
    (req : Request) (addr : SocketAddr) :
    Blind metricsPart Metrics.writesV2
      (fun t => (handleHttpRequest core rater t now draws req addr).swap) t := by
  have hcheck : Blind metricsPart Metrics.writesV2 (fun (t : TunnelV2 C R) =>
      ({ t with
          metrics := t.metrics.fetchAdd .v2HttpRequests 1
          requestLimiter :=
            (RateLimiter.checkAndIncrement rater t.requestLimiter addr.ip now).2 },
        (RateLimiter.checkAndIncrement rater t.requestLimiter addr.ip now).1)) t :=
    ⟨Metrics.adding .v2HttpRequests 1,
      Metrics.adding_mem_writesV2 _ _, fun _ => rfl⟩
  refine hcheck.bind (k := fun granted t => (if !granted then
        (⟨.tooManyRequests, [("Retry-After", "60")], "Rate limit exceeded".toList⟩,
          { t with metrics := t.metrics.fetchAdd .rateLimitHits 1 })
      else if req.isGet ∧ req.path = "/status".toList then (handleStatus t, t)
      else if req.isGet ∧ req.path = "/request".toList then handleRequest core t now draws req.query
      else if req.isGet ∧ "/maintenance/".toList.isPrefixOf req.path then
        handleMaintenance t req.path
      else if req.isGet ∧ req.path = "/health".toList then (⟨.ok, [], "OK".toList⟩, t)
      else (⟨.notFound, [], "Not Found".toList⟩, t)).swap) ?_
  split
  · exact ⟨Metrics.adding .rateLimitHits 1,
      Metrics.adding_mem_writesV2 _ _, fun _ => rfl⟩
  split
  · exact .of_eq fun _ => rfl
  split
  · exact handleRequest_blind core _ now draws req.query
  split
  · exact handleMaintenance_blind _ req.path
  split
  · exact .id _ _
  · exact .id _ _

theorem relay_blind (t : TunnelV2 C R) (env : Env) (r : Int16) (packet : Packet)
    (addr : SocketAddr) (batch : LocalMetricsBatch) :
    Blind metricsPart Metrics.writesV2 (fun t => relay core t env r packet addr batch) t := by
  refine .of_eq fun m => ?_
  unfold relay forwardInfo
  cases hinfo : core.forwardInfo t.mappings r addr with
  | none => simp [metricsPart, hinfo]
  | some ep => cases hsend : env.sendOk <;> simp [metricsPart, hinfo]

theorem acceptSender_put (t : TunnelV2 C R) (env : Env) (s : Int16) (packet : Packet)
    (addr : SocketAddr) (m : Metrics) :
    acceptSender core (metricsPart.put m t) env s packet addr =
      (acceptSender core t env s packet addr).map (metricsPart.put m) := by
  unfold acceptSender
  cases hget : t.mappings.get s with
  | none => simp [metricsPart, hget]
  | some sender =>
    cases hep : core.remoteEp sender with
    | none => simp [metricsPart, hget, hep]
    | some ep =>
      by_cases heq : ep = addr
      · simp [metricsPart, hget, hep, heq]
      · cases hto : core.isTimedOut sender env.timestamp <;>
          simp [metricsPart, hget, hep, heq, hto]

theorem handleDataForward_blind (t : TunnelV2 C R) (env : Env) (s r : Int16) (packet : Packet)
    (addr : SocketAddr) (batch : LocalMetricsBatch) :
    Blind metricsPart Metrics.writesV2
      (fun t => handleDataForward core t env s r packet addr batch) t := by
  unfold handleDataForward
  cases haccept : acceptSender core t env s packet addr with
  | none =>
    refine .of_eq fun m => ?_
    simp only [acceptSender_put, haccept, Option.map_none]
  | some t' =>
    obtain ⟨g, hg, hrelay⟩ := relay_blind core t' env r packet addr batch
    refine ⟨g, hg, fun m => ?_⟩
    simp only [acceptSender_put, haccept, Option.map_some, hrelay]

theorem onUdpReceive_blind (t : TunnelV2 C R) (env : Env) (packet : Packet) (addr : SocketAddr)
    (batch : LocalMetricsBatch) :
    Blind metricsPart Metrics.writesV2
      (fun t => onUdpReceive core rater t env packet addr batch) t := by
  unfold onUdpReceive
  cases hheader : parsePacketHeader packet with
  | none => exact .id _ t
  | some ids =>
    obtain ⟨s, r⟩ := ids
    dsimp only
    generalize batch.recordV2Rx (UInt64.ofNat packet.length) = batch
    cases hval : validatePacket core s r addr with
    | false => exact .id _ t
    | true =>
      simp only [Bool.not_true, Bool.false_eq_true, if_false]
      by_cases hping : s = 0 ∧ r = 0
      · simp only [if_pos hping]
        by_cases hlen : packet.length = 50
        · simp only [if_pos hlen]
          refine Blind.bind (f := fun (t : TunnelV2 C R) =>
              ({ t with pingLimiter := (RateLimiter.checkAndIncrement rater t.pingLimiter addr.ip
                  env.timestamp).2 },
                (RateLimiter.checkAndIncrement rater t.pingLimiter addr.ip env.timestamp).1))
            (k := fun granted t => if granted then handlePing t env packet addr batch else
              (t, batch, [])) (.of_eq fun _ => rfl) ?_
          split
          · exact ⟨Metrics.adding .v2PingRequests 1,
              Metrics.adding_mem_writesV2 _ _, fun _ => rfl⟩
          · exact .id _ _
        · simp only [if_neg hlen]
          exact .id _ t
      · simp only [if_neg hping]
        cases hm : t.maintenanceMode with
        | true => exact (Blind.id _ t).congr fun m => if_pos hm
        | false =>
          refine (handleDataForward_blind core t env s r packet addr batch).congr fun m => ?_
          exact if_neg (Bool.eq_false_iff.mp hm)

theorem receive_blind (t : TunnelV2 C R) (env : Env) (batch : LocalMetricsBatch)
    (received : Received) :
    Blind metricsPart Metrics.writesV2 (fun t => receive core rater t env batch received) t := by
  cases received with
  | error =>
    obtain ⟨b', g, hg, hflush⟩ := batch.flush_writes
    exact ⟨g, Metrics.counts_le_writesV2 hg, fun m => by simp only [receive, metricsPart, hflush]⟩
  | datagram packet addr =>
    by_cases hlen : 4 ≤ packet.length ∧ packet.length ≤ maxPacketSize
    · obtain ⟨b', g, hg, hflush⟩ :=
        (onUdpReceive core rater t env packet addr batch).2.1.maybeFlush_writes
      obtain ⟨g', hg', hreceive⟩ := onUdpReceive_blind core rater t env packet addr batch
      refine ⟨g * g', Metrics.writesV2.mul_mem (Metrics.counts_le_writesV2 hg) hg', fun m => ?_⟩
      simp only [receive, if_pos hlen, hreceive, hflush]
      rfl
    · refine .of_eq fun m => ?_
      simp only [receive, if_neg hlen]

theorem heartbeat_blind {β : Type} (t : TunnelV2 C R) (env : Env) (b : β) :
    Blind metricsPart Metrics.writesV2 (fun t => (heartbeat core rater t env, b)) t :=
  ⟨_, Metrics.setV2_mem_writesV2
    (t.mappings.retain fun _ client => !core.isTimedOut client env.timestamp).len, fun _ => rfl⟩

theorem machine_writeOnly :
    (machine (C := C) core rater).WriteOnly metricsPart Metrics.writesV2 := by
  intro t e
  cases e with
  | receive env packet addr batch =>
    exact (onUdpReceive_blind core rater t env packet addr batch).map fun out => out.2
  | http env draws req addr =>
    exact (handleHttpRequest_blind core rater t env.timestamp draws req addr).map fun _ => []
  | heartbeat env => exact heartbeat_blind core rater t env []
  | toggleMaintenance env => exact .of_eq fun _ => rfl

namespace HttpServer

def tunnelPart : Part (HttpServer C R) (TunnelV2 C R) where
  get := tunnel
  put t s := { s with tunnel := t }
  get_put _ _ := rfl
  put_put _ _ _ := rfl
  put_get _ := rfl

theorem finish_put (s : HttpServer C R) (c : Connection) (t : TunnelV2 C R) :
    (tunnelPart.put t s).finish c = tunnelPart.put t (s.finish c) := by
  unfold finish
  by_cases hc : c ∈ s.tasks <;> simp [tunnelPart, hc]

theorem finish_blind {β : Type} (s : HttpServer C R) (c : Connection) (b : β) :
    Blind (tunnelPart.comp metricsPart) Metrics.writesV2 (fun s => (s.finish c, b)) s := by
  refine .of_eq fun m => ?_
  simp only [Part.comp, finish_put]
  simp only [tunnelPart, tunnel_finish]

theorem onAccept_blind {β : Type} (s : HttpServer C R) (accepted : Accepted) (b : β) :
    Blind (tunnelPart.comp metricsPart) Metrics.writesV2 (fun s => (s.onAccept accepted, b)) s := by
  cases accepted with
  | error => exact .of_eq fun _ => rfl
  | ok c =>
    unfold onAccept
    by_cases hfull : s.permits = 0
    · refine ⟨Metrics.adding .droppedConnections 1,
        Metrics.adding_mem_writesV2 _ _, fun m => ?_⟩
      simp [Part.comp, tunnelPart, metricsPart, hfull, dropConnection, Metrics.adding]
    · refine .of_eq fun m => ?_
      simp [Part.comp, tunnelPart, metricsPart, hfull, spawn]

theorem machine_writeOnly :
    (machine (C := C) core rater).WriteOnly (tunnelPart.comp metricsPart) Metrics.writesV2 := by
  intro s e
  cases e with
  | accept accepted =>
    by_cases hl : s.listening = true
    · refine (onAccept_blind s accepted ((machine core rater).emit s (.accept accepted))).congr
        fun m => ?_
      cases accepted <;> simp only [machine, Part.comp, tunnelPart, hl, if_true]
    · refine .of_eq fun m => ?_
      cases accepted <;>
        simp only [machine, Part.comp, tunnelPart, hl, Bool.false_eq_true, if_false]
  | request c env draws req =>
    by_cases hc : c ∈ s.tasks
    · have hanswer := (handleHttpRequest_blind core rater s.tunnel env.timestamp draws req
        c.remoteAddr).zoom tunnelPart
      refine (hanswer.bind (k := fun response s => (s.finish c, [Served.answered c response]))
        (finish_blind _ c _)).congr fun m => ?_
      simp only [machine, Part.comp, tunnelPart, hc, if_true, Prod.fst_swap, Prod.snd_swap]
    · refine .of_eq fun m => ?_
      simp only [machine, Part.comp, tunnelPart, hc, if_false]
  | close c => exact finish_blind s c []
  | call e =>
    exact ((TunnelV2.machine_writeOnly core rater s.tunnel e).zoom tunnelPart).map fun _ => []

end HttpServer

end TunnelV2

/-! ## P2P -/

namespace PeerToPeer

variable {C A R : Type} (core : RelayCore C A) (rater : Rater R)

def metricsPart : Part (PeerToPeer R) Metrics where
  get := metrics
  put m p := { p with metrics := m }
  get_put _ _ := rfl
  put_put _ _ _ := rfl
  put_get _ := rfl

theorem receive_blind (p : PeerToPeer R) (env : Env) (buffer : SendBuffer) (received : Received) :
    Blind metricsPart Metrics.counts (fun p => receive core rater p env buffer received) p := by
  cases received with
  | error => exact .id _ p
  | datagram packet addr =>
    unfold receive
    by_cases hlen : packet.length = 48
    · simp only [if_pos hlen]
      unfold onReceive
      cases hvalid : core.validateAddress addr with
      | false => exact .id _ p
      | true =>
        have hcheck : Blind metricsPart Metrics.counts (fun (p : PeerToPeer R) =>
            ({ p with rateLimiter := (RateLimiter.checkAndIncrement rater p.rateLimiter addr.ip
                env.timestamp).2 },
              (RateLimiter.checkAndIncrement rater p.rateLimiter addr.ip env.timestamp).1)) p :=
          .of_eq fun _ => rfl
        refine hcheck.bind (k := fun granted p =>
          if !granted then ({ p with metrics := p.metrics.fetchAdd .rateLimitHits 1 }, buffer, [])
          else
            let p := { p with metrics := p.metrics.fetchAdd .p2pRequests 1 }
            if receivedId packet ≠ stunId then (p, buffer, [])
            else
              (if env.sendOk then { p with metrics := p.metrics.fetchAdd .p2pResponses 1 } else p,
                answer buffer addr, [(⟨(answer buffer addr).toList, addr⟩ : Datagram)])) ?_
        split
        · exact ⟨_, Metrics.adding_mem_counts .rateLimitHits 1, fun _ => rfl⟩
        by_cases hid : receivedId packet = stunId
        · have hrequest := Metrics.adding_mem_counts .p2pRequests 1
          cases hsend : env.sendOk with
          | true =>
            refine ⟨Metrics.adding .p2pResponses 1 * Metrics.adding .p2pRequests 1,
              Metrics.counts.mul_mem (Metrics.adding_mem_counts _ _) hrequest, fun m => ?_⟩
            simp only [hid, ne_eq, not_true, if_false, if_true]
            rfl
          | false =>
            refine ⟨_, hrequest, fun m => ?_⟩
            simp only [hid, ne_eq, not_true, Bool.false_eq_true, if_false]
            rfl
        · refine ⟨_, Metrics.adding_mem_counts .p2pRequests 1, fun m => ?_⟩
          simp only [ne_eq, hid, not_false_eq_true, if_true]
          rfl
    · simp only [if_neg hlen]
      exact .id _ p

end PeerToPeer

end CncnetServer
