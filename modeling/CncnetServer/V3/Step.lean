import CncnetServer.TunnelV3
import CncnetServer.Bindings
import Mathlib.Tactic.Common

/-!
What one call of the V3 packet handler can do, said once: `SenderStep` for the
sender validation, `ReceiveStep` for `on_receive`, and from them the row step
that a call makes on every slot of the binding table.
-/

namespace CncnetServer.TunnelV3

variable {C A R : Type} (core : RelayCore C A) (rater : Rater R)

/-! ## Sender validation -/

/-- The outcomes of `sender_valid`, with the state each of them leaves. -/
inductive SenderStep (t : TunnelV3 C A R) (env : Env) (id : UInt32) (packet : Packet)
    (addr : SocketAddr) : Bool × TunnelV3 C A R → Prop
  | refreshed (client : C) :
      t.mappings.get id = some client → core.remoteEp client = some addr →
      SenderStep t env id packet addr (true, { t with
        mappings := t.mappings.modify id fun client =>
          core.updateStats (core.setLastReceiveTickAt client env.timestamp)
            packet.length 0 env.timestamp
        qualityAnalyzers := t.qualityAnalyzers.modify id (core.recordPacket · false) })
  | reconnected (client : C) (ep : SocketAddr) :
      t.mappings.get id = some client → core.remoteEp client = some ep → ep ≠ addr →
      core.isTimedOut client env.timestamp = true →
      (rater.tryAcquire t.connectionLimiter addr.ip env.timestamp).1 = true →
      SenderStep t env id packet addr (true, { t with
        connectionLimiter := (rater.tryAcquire t.connectionLimiter addr.ip env.timestamp).2
        mappings := t.mappings.insert id (core.newWithEndpoint addr env.timestamp)
        qualityAnalyzers := t.qualityAnalyzers.insert id core.newAnalyzer })
  | reconnectLimited (client : C) (ep : SocketAddr) :
      t.mappings.get id = some client → core.remoteEp client = some ep → ep ≠ addr →
      core.isTimedOut client env.timestamp = true →
      (rater.tryAcquire t.connectionLimiter addr.ip env.timestamp).1 = false →
      SenderStep t env id packet addr (false, { t with
        connectionLimiter := (rater.tryAcquire t.connectionLimiter addr.ip env.timestamp).2 })
  | refused (client : C) :
      t.mappings.get id = some client → core.remoteEp client ≠ some addr →
      (core.remoteEp client = none ∨ core.isTimedOut client env.timestamp = false) →
      SenderStep t env id packet addr (false, t)
  | registered :
      t.mappings.get id = none → t.mappings.len < t.maxClients →
      (rater.tryAcquire t.connectionLimiter addr.ip env.timestamp).1 = true →
      SenderStep t env id packet addr (true, { t with
        connectionLimiter := (rater.tryAcquire t.connectionLimiter addr.ip env.timestamp).2
        mappings := t.mappings.insert id (core.newWithEndpoint addr env.timestamp)
        qualityAnalyzers := t.qualityAnalyzers.insert id core.newAnalyzer
        metrics := { t.metrics with
          v3ActiveClients := (t.mappings.insert id (core.newWithEndpoint addr env.timestamp)).len } })
  | registerLimited :
      t.mappings.get id = none → t.mappings.len < t.maxClients →
      (rater.tryAcquire t.connectionLimiter addr.ip env.timestamp).1 = false →
      SenderStep t env id packet addr (false, { t with
        connectionLimiter := (rater.tryAcquire t.connectionLimiter addr.ip env.timestamp).2
        metrics := t.metrics.fetchAdd .rateLimitHits 1 })
  | full :
      t.mappings.get id = none → ¬ t.mappings.len < t.maxClients →
      SenderStep t env id packet addr
        (false, { t with metrics := t.metrics.fetchAdd .droppedPackets 1 })

theorem senderValid_step (t : TunnelV3 C A R) (env : Env) (id : UInt32) (packet : Packet)
    (addr : SocketAddr) :
    SenderStep core rater t env id packet addr (senderValid core rater t env id packet addr) := by
  unfold senderValid ConnectionRateLimiter.tryAcquire
  cases hget : t.mappings.get id with
  | none =>
    by_cases hlen : t.mappings.len < t.maxClients
    · cases hacq : (rater.tryAcquire t.connectionLimiter addr.ip env.timestamp).1 with
      | true => simpa [hlen, hacq] using SenderStep.registered hget hlen hacq
      | false => simpa [hlen, hacq] using SenderStep.registerLimited hget hlen hacq
    · simpa [hlen] using SenderStep.full hget hlen
  | some client =>
    cases hep : core.remoteEp client with
    | none => simpa [hep] using SenderStep.refused client hget (by simp [hep]) (Or.inl hep)
    | some ep =>
      by_cases heq : ep = addr
      · subst heq
        simpa [hep] using SenderStep.refreshed client hget hep
      · cases hto : core.isTimedOut client env.timestamp with
        | false =>
          simpa [hep, heq, hto] using
            SenderStep.refused client hget (by simp [hep, heq]) (Or.inr hto)
        | true =>
          cases hacq : (rater.tryAcquire t.connectionLimiter addr.ip env.timestamp).1 with
          | true =>
            simpa [hep, heq, hto, hacq] using
              SenderStep.reconnected client ep hget hep heq hto hacq
          | false =>
            simpa [hep, heq, hto, hacq] using
              SenderStep.reconnectLimited client ep hget hep heq hto hacq

/-- An accepted sender is bound to the source of the packet. -/
theorem senderValid_bound (hcore : core.FixedEndpoint) (t : TunnelV3 C A R) (env : Env)
    (id : UInt32) (packet : Packet) (addr : SocketAddr)
    (h : (senderValid core rater t env id packet addr).1 = true) :
    core.endpointOf (senderValid core rater t env id packet addr).2.mappings id
      = some addr := by
  have hstep := senderValid_step core rater t env id packet addr
  generalize senderValid core rater t env id packet addr = out at h hstep
  cases hstep with
  | refreshed client hget hep =>
    exact core.endpointOf_refresh hcore hget hep packet.length env.timestamp
  | reconnected client ep _ _ _ _ _ => exact core.endpointOf_insert_self hcore _ _ _ _
  | reconnectLimited => cases h
  | refused => cases h
  | registered => exact core.endpointOf_insert_self hcore _ _ _ _
  | registerLimited => cases h
  | full => cases h

/-- Only the sender's own row changes. -/
theorem senderValid_get_ne (t : TunnelV3 C A R) (env : Env) (id : UInt32) {j : UInt32}
    (packet : Packet) (addr : SocketAddr) (hj : j ≠ id) :
    (senderValid core rater t env id packet addr).2.mappings.get j = t.mappings.get j := by
  have hstep := senderValid_step core rater t env id packet addr
  generalize senderValid core rater t env id packet addr = out at hstep
  cases hstep with
  | refreshed => simp [DashMap.get_modify, hj]
  | reconnected => simp [DashMap.get_insert, hj]
  | reconnectLimited => rfl
  | refused => rfl
  | registered => simp [DashMap.get_insert, hj]
  | registerLimited => rfl
  | full => rfl

/-! ## The relay -/

/-- The relay sends the packet as it is, once, or nothing. -/
theorem relay_sent (t : TunnelV3 C A R) (env : Env) (r : UInt32) (packet : Packet)
    (addr : SocketAddr) (batch : LocalMetricsBatch) :
    (relay core t env r packet addr batch).2.2 =
      ((core.forwardInfo t.mappings r addr).map fun b => (⟨packet, b⟩ : Datagram)).toList := by
  unfold relay forwardInfo
  cases core.forwardInfo t.mappings r addr with
  | none => rfl
  | some b => cases env.sendOk <;> rfl

/-! ## Commands -/

/-- The outcomes of `execute_command`, with the state each of them leaves. -/
inductive CommandStep (t : TunnelV3 C A R) (env : Env) (packet : Packet) :
    TunnelV3 C A R → Prop
  | ignored : CommandStep t env packet t
  | noEffect : CommandStep t env packet { t with lastCommandTick := env.elapsedSecs }
  | toggled : t.maintenancePasswordSha1 = some ((packet.take 29).drop 9) →
      CommandStep t env packet
        { t with lastCommandTick := env.elapsedSecs, maintenanceMode := !t.maintenanceMode }
  | cleaned : t.maintenancePasswordSha1 = some ((packet.take 29).drop 9) →
      CommandStep t env packet
        (cleanupExpiredMappings core rater { t with lastCommandTick := env.elapsedSecs } env)

theorem executeCommand_step (t : TunnelV3 C A R) (env : Env) (packet : Packet) :
    CommandStep core rater t env packet (executeCommand core rater t env packet) := by
  unfold executeCommand
  split
  · exact .ignored
  dsimp only
  split
  · rename_i hpw
    split
    · exact .toggled hpw
    · exact .cleaned hpw
    · exact .noEffect
  · exact .noEffect

/-! ## The receive path -/

/-- The packet passes every test of `on_receive` before `handle_data_forward`. -/
structure ReachesForward (t : TunnelV3 C A R) (packet : Packet) (addr : SocketAddr)
    (senderId receiverId : UInt32) : Prop where
  header : parsePacketHeader packet = some (senderId, receiverId)
  notCommand : ¬ isCommand senderId receiverId packet
  valid : validatePacket core senderId receiverId addr = true
  notPing : ¬ (senderId = 0 ∧ receiverId = 0)
  notMaintenance : t.maintenanceMode = false

theorem ReachesForward.ids_ne {t : TunnelV3 C A R} {packet : Packet} {addr : SocketAddr}
    {s r : UInt32} (h : ReachesForward core t packet addr s r) : s ≠ r := by
  rintro rfl
  have hs := (core.validatePacket_eq_true.mp h.valid).1 rfl
  exact h.notPing ⟨hs, hs⟩

theorem ReachesForward.addr_valid {t : TunnelV3 C A R} {packet : Packet} {addr : SocketAddr}
    {s r : UInt32} (h : ReachesForward core t packet addr s r) :
    core.validateAddress addr = true :=
  (core.validatePacket_eq_true.mp h.valid).2

/-- The packet is accepted with `id` as its sender id. -/
def Accepts (t : TunnelV3 C A R) (env : Env) (packet : Packet) (addr : SocketAddr)
    (id : UInt32) : Prop :=
  (∃ receiverId, ReachesForward core t packet addr id receiverId) ∧
    (senderValid core rater t env id packet addr).1 = true

/-- The gate: what happens to a packet that is neither a command nor a ping. -/
theorem onReceive_data {t : TunnelV3 C A R} {env : Env} {packet : Packet} {addr : SocketAddr}
    {batch : LocalMetricsBatch} {s r : UInt32} (hh : parsePacketHeader packet = some (s, r))
    (hcmd : ¬ isCommand s r packet) (hping : ¬ (s = 0 ∧ r = 0)) :
    onReceive core rater t env packet addr batch =
      if validatePacket core s r addr = false ∨ t.maintenanceMode = true then
        (t, batch.recordV3Rx (UInt64.ofNat packet.length), [])
      else handleDataForward core rater t env s r packet addr
        (batch.recordV3Rx (UInt64.ofNat packet.length)) := by
  unfold onReceive
  simp only [hh, hcmd, hping, if_false]
  cases hval : validatePacket core s r addr with
  | false => simp
  | true =>
    cases hm : t.maintenanceMode with
    | true => simp
    | false => simp

theorem ReachesForward.onReceive_eq {t : TunnelV3 C A R} {packet : Packet} {addr : SocketAddr}
    {s r : UInt32} (h : ReachesForward core t packet addr s r) (env : Env)
    (batch : LocalMetricsBatch) :
    onReceive core rater t env packet addr batch = handleDataForward core rater t env s r packet addr
      (batch.recordV3Rx (UInt64.ofNat packet.length)) := by
  rw [onReceive_data core rater h.header h.notCommand h.notPing,
    if_neg (by simp [h.valid, h.notMaintenance])]

/-- The outcomes of `on_receive` before the data path. -/
inductive ReceiveStep (t : TunnelV3 C A R) (env : Env) (packet : Packet) (addr : SocketAddr)
    (batch : LocalMetricsBatch) : TunnelV3 C A R × LocalMetricsBatch × List Datagram → Prop
  | short : parsePacketHeader packet = none → ReceiveStep t env packet addr batch (t, batch, [])
  | command (s r : UInt32) : parsePacketHeader packet = some (s, r) → isCommand s r packet →
      ReceiveStep t env packet addr batch (executeCommand core rater t env packet,
        batch.recordV3Rx (UInt64.ofNat packet.length), [])
  | dropped : (∀ s r, ¬ ReachesForward core t packet addr s r) →
      ReceiveStep t env packet addr batch
        (t, batch.recordV3Rx (UInt64.ofNat packet.length), [])
  | pingLimited : parsePacketHeader packet = some (0, 0) →
      ReceiveStep t env packet addr batch
        ({ t with pingLimiter := (rater.tryAcquire t.pingLimiter addr.ip env.timestamp).2 },
          batch.recordV3Rx (UInt64.ofNat packet.length), [])
  | ping : parsePacketHeader packet = some (0, 0) → packet.length = 50 →
      ReceiveStep t env packet addr batch
        (handlePing { t with
            pingLimiter := (rater.tryAcquire t.pingLimiter addr.ip env.timestamp).2 }
          env packet addr (batch.recordV3Rx (UInt64.ofNat packet.length)))
  | forward (s r : UInt32) : ReachesForward core t packet addr s r →
      ReceiveStep t env packet addr batch
        (handleDataForward core rater t env s r packet addr
          (batch.recordV3Rx (UInt64.ofNat packet.length)))

theorem onReceive_step (t : TunnelV3 C A R) (env : Env) (packet : Packet) (addr : SocketAddr)
    (batch : LocalMetricsBatch) :
    ReceiveStep core rater t env packet addr batch
      (onReceive core rater t env packet addr batch) := by
  unfold onReceive RateLimiter.checkAndIncrement
  cases hh : parsePacketHeader packet with
  | none => exact .short hh
  | some ids =>
    obtain ⟨s, r⟩ := ids
    -- every early return contradicts a field of `ReachesForward`
    have hids : ∀ {s' r'}, ReachesForward core t packet addr s' r' → s' = s ∧ r' = r := by
      intro s' r' h
      have := h.header
      rw [hh] at this
      cases this
      exact ⟨rfl, rfl⟩
    by_cases hcmd : isCommand s r packet
    · simpa [hcmd] using ReceiveStep.command s r hh hcmd
    cases hval : validatePacket core s r addr with
    | false =>
      simpa [hcmd, hval] using ReceiveStep.dropped fun s' r' h => by
        obtain ⟨rfl, rfl⟩ := hids h
        exact absurd h.valid (by simp [hval])
    | true =>
      by_cases hping : s = 0 ∧ r = 0
      · obtain ⟨rfl, rfl⟩ := hping
        by_cases hlen : packet.length = 50
        · have hping : ReceiveStep core rater t env packet addr batch _ := .ping hh hlen
          have hlimited : ReceiveStep core rater t env packet addr batch _ := .pingLimited hh
          cases hacq : (rater.tryAcquire t.pingLimiter addr.ip env.timestamp).1 with
          | true => simpa [hcmd, hval, hlen, hacq] using hping
          | false => simpa [hcmd, hval, hlen, hacq] using hlimited
        · simpa [hcmd, hval, hlen] using ReceiveStep.dropped fun s' r' h => by
            obtain ⟨rfl, rfl⟩ := hids h
            exact h.notPing ⟨rfl, rfl⟩
      · cases hm : t.maintenanceMode with
        | true =>
          simpa [hcmd, hval, hping, hm] using ReceiveStep.dropped fun s' r' h => by
            obtain ⟨rfl, rfl⟩ := hids h
            exact absurd h.notMaintenance (by simp [hm])
        | false =>
          simpa [hcmd, hval, hping, hm] using
            ReceiveStep.forward s r ⟨hh, hcmd, hval, hping, hm⟩

end CncnetServer.TunnelV3
