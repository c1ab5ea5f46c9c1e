import CncnetServer.Limited
import CncnetServer.MaintenanceMode

/-!
What the limiters of both tunnels let through, over runs of any length.

The heartbeat and the forced cleanup clear the limiters of the pings and of the HTTP requests,
so an address has its limit again after each of them, besides what comes back every minute.

* `limits_hold`: what an address gets at most;
* `rare_never_refused`: an address that asks for no more than its limit in any 60 seconds gets
  everything it asks for, unless more addresses ask than a limiter tracks.
-/

namespace CncnetServer

open Runs

variable {C A R : Type} (core : RelayCore C A) (rater : Rater R)

/-! ## V3 -/

namespace TunnelV3

/-- The command is carried out, and is a cleanup. -/
def CommandCleans (t : TunnelV3 C A R) (env : Env) (packet : Packet) : Prop :=
  ¬ (env.elapsedSecs - t.lastCommandTick < commandRateLimitSecs
      ∨ t.maintenancePasswordSha1.isNone) ∧
    t.maintenancePasswordSha1 = some ((packet.take 29).drop 9) ∧ packet.getD 8 0 = 1

instance (t : TunnelV3 C A R) (env : Env) (packet : Packet) :
    Decidable (CommandCleans t env packet) := inferInstanceAs (Decidable (_ ∧ _))

/-- What a call asks of `ping_limiter`. -/
def pingUse (t : TunnelV3 C A R) : Event → LimiterUse
  | .cleanup _ => .clear
  | .toggleMaintenance _ => .none
  | .receive env packet addr _ =>
    match parsePacketHeader packet with
    | none => .none
    | some (s, r) =>
      if isCommand s r packet then if CommandCleans t env packet then .clear else .none
      else if validatePacket core s r addr && decide ((s = 0 ∧ r = 0) ∧ packet.length = 50) then
        .acquire addr.ip
      else .none

/-- What the sender validation asks of `connection_limiter`. -/
def senderUse (t : TunnelV3 C A R) (env : Env) (senderId : UInt32) (addr : SocketAddr) :
    LimiterUse :=
  match t.mappings.get senderId with
  | some client =>
    if (core.remoteEp client).any (fun ep => decide (ep ≠ addr)) &&
        core.isTimedOut client env.timestamp then .acquire addr.ip
    else .none
  | none => if t.mappings.len < t.maxClients then .acquire addr.ip else .none

/-- What a call asks of `connection_limiter`. -/
def connectionUse (t : TunnelV3 C A R) : Event → LimiterUse
  | .receive env packet addr _ =>
    match dataIds core packet addr with
    | some (s, _) => if t.maintenanceMode then .none else senderUse core t env s addr
    | none => .none
  | _ => .none

theorem executeCommand_pingLimiter (t : TunnelV3 C A R) (env : Env) (packet : Packet) :
    (executeCommand core rater t env packet).pingLimiter =
      if CommandCleans t env packet then rater.clear t.pingLimiter else t.pingLimiter := by
  unfold executeCommand
  split
  · rename_i hbusy
    rw [if_neg fun h => h.1 hbusy]
  · rename_i hfree
    dsimp only
    split
    · rename_i hpw
      split
      · rename_i hcommand
        rw [if_neg fun h => absurd (hcommand.symm.trans h.2.2) (by decide)]
      · rename_i hcommand
        rw [if_pos ⟨hfree, hpw, hcommand⟩]
        rfl
      · rename_i hcommand
        rw [if_neg fun h => hcommand h.2.2]
    · rename_i hpw
      rw [if_neg fun h => hpw h.2.1]

theorem relay_limiters (t : TunnelV3 C A R) (env : Env) (r : UInt32) (packet : Packet)
    (addr : SocketAddr) (batch : LocalMetricsBatch) :
    (relay core t env r packet addr batch).1.pingLimiter = t.pingLimiter ∧
      (relay core t env r packet addr batch).1.connectionLimiter = t.connectionLimiter := by
  unfold relay
  split
  · split <;> exact ⟨rfl, rfl⟩
  · exact ⟨rfl, rfl⟩

theorem senderValid_limiters (t : TunnelV3 C A R) (env : Env) (s : UInt32) (packet : Packet)
    (addr : SocketAddr) :
    (senderValid core rater t env s packet addr).2.pingLimiter = t.pingLimiter ∧
      (senderValid core rater t env s packet addr).2.connectionLimiter =
        (senderUse core t env s addr).apply rater t.connectionLimiter env.timestamp := by
  have hstep := senderValid_step core rater t env s packet addr
  unfold senderUse
  generalize senderValid core rater t env s packet addr = out at hstep
  cases hstep with
  | refreshed client hget hep => simp [hget, hep, LimiterUse.apply]
  | refused client hget hne hto =>
    rcases hto with hnone | hlive
    · simp [hget, hnone, LimiterUse.apply]
    · simp [hget, hlive, LimiterUse.apply]
  | reconnected client ep hget hep hne hto _ => simp [hget, hep, hne, hto, LimiterUse.apply]
  | reconnectLimited client ep hget hep hne hto _ => simp [hget, hep, hne, hto, LimiterUse.apply]
  | registered hget hroom _ => simp [hget, hroom, LimiterUse.apply]
  | registerLimited hget hroom _ => simp [hget, hroom, LimiterUse.apply]
  | full hget hfull => simp [hget, hfull, LimiterUse.apply]

theorem handleDataForward_limiters (t : TunnelV3 C A R) (env : Env) (s r : UInt32)
    (packet : Packet) (addr : SocketAddr) (batch : LocalMetricsBatch) :
    (handleDataForward core rater t env s r packet addr batch).1.pingLimiter = t.pingLimiter ∧
      (handleDataForward core rater t env s r packet addr batch).1.connectionLimiter =
        (senderUse core t env s addr).apply rater t.connectionLimiter env.timestamp := by
  have hsender := senderValid_limiters core rater t env s packet addr
  unfold handleDataForward
  generalize senderValid core rater t env s packet addr = out at hsender
  obtain ⟨valid, t'⟩ := out
  cases valid with
  | false => exact hsender
  | true =>
    have hrelay := relay_limiters core t' env r packet addr batch
    exact ⟨hrelay.1.trans hsender.1, hrelay.2.trans hsender.2⟩

theorem onReceive_pingLimiter (t : TunnelV3 C A R) (env : Env) (packet : Packet)
    (addr : SocketAddr) (batch : LocalMetricsBatch) :
    (onReceive core rater t env packet addr batch).1.pingLimiter =
      (pingUse core t (.receive env packet addr batch)).apply rater t.pingLimiter env.timestamp := by
  unfold onReceive pingUse
  cases hh : parsePacketHeader packet with
  | none => simp only [hh, LimiterUse.apply]
  | some ids =>
    obtain ⟨s, r⟩ := ids
    simp only [hh]
    by_cases hcmd : isCommand s r packet
    · simp only [hcmd, if_true, executeCommand_pingLimiter]
      split <;> rfl
    simp only [hcmd, if_false]
    cases hval : validatePacket core s r addr with
    | false => simp [LimiterUse.apply]
    | true =>
      by_cases hping : s = 0 ∧ r = 0
      · by_cases hlen : packet.length = 50
        · simp only [hping, hlen, Bool.not_true, Bool.false_eq_true, if_false, and_self, if_true,
            decide_true, Bool.and_self, RateLimiter.checkAndIncrement]
          cases (rater.tryAcquire t.pingLimiter addr.ip env.timestamp).1 <;> rfl
        · simp [hping, hlen, LimiterUse.apply]
      · cases hm : t.maintenanceMode with
        | true => simp [hping, LimiterUse.apply]
        | false => simp [hping, LimiterUse.apply, handleDataForward_limiters]

theorem onReceive_connectionLimiter (t : TunnelV3 C A R) (env : Env) (packet : Packet)
    (addr : SocketAddr) (batch : LocalMetricsBatch) :
    (onReceive core rater t env packet addr batch).1.connectionLimiter =
      (connectionUse core t (.receive env packet addr batch)).apply rater t.connectionLimiter
        env.timestamp := by
  by_cases hreaches : ∃ s r, ReachesForward core t packet addr s r
  · obtain ⟨s, r, hf⟩ := hreaches
    obtain ⟨hdata, hoff⟩ := (reachesForward_iff core).mp hf
    rw [hf.onReceive_eq]
    simp only [connectionUse, hdata, hoff, Bool.false_eq_true, if_false]
    exact (handleDataForward_limiters core rater t env s r packet addr _).2
  · have hnone : connectionUse core t (.receive env packet addr batch) = .none := by
      simp only [connectionUse]
      cases hdata : dataIds core packet addr with
      | none => rfl
      | some ids =>
        cases hm : t.maintenanceMode with
        | true => simp
        | false => exact absurd ⟨ids.1, ids.2, (reachesForward_iff core).mpr ⟨hdata, hm⟩⟩ hreaches
    rw [hnone]
    have hstep := onReceive_step core rater t env packet addr batch
    generalize onReceive core rater t env packet addr batch = out at hstep
    cases hstep with
    | forward s r hf => exact absurd ⟨s, r, hf⟩ hreaches
    | command s r _ _ =>
      have hcommand := executeCommand_step core rater t env packet
      generalize executeCommand core rater t env packet = t' at hcommand
      cases hcommand <;> rfl
    | _ => rfl

/-- `ping_limiter` in the runs of the tunnel. -/
def pingLimited : Limited (machine (C := C) (A := A) core rater) Event.time rater where
  limiter := pingLimiter
  use := pingUse core
  step t e := by
    cases e with
    | receive env packet addr batch => exact onReceive_pingLimiter core rater t env packet addr batch
    | cleanup env => rfl
    | toggleMaintenance env => rfl

/-- `connection_limiter` in the runs of the tunnel. -/
def connectionLimited : Limited (machine (C := C) (A := A) core rater) Event.time rater where
  limiter := connectionLimiter
  use := connectionUse core
  step t e := by
    cases e with
    | receive env packet addr batch =>
      exact onReceive_connectionLimiter core rater t env packet addr batch
    | cleanup env => rfl
    | toggleMaintenance env => rfl

/-- A ping is answered exactly if it is granted. -/
theorem ping_answered (t : TunnelV3 C A R) (env : Env) {packet : Packet} {addr : SocketAddr}
    (batch : LocalMetricsBatch) (hheader : parsePacketHeader packet = some (0, 0)) :
    (machine core rater).emit t (.receive env packet addr batch) =
      if (pingLimited core rater).granted addr.ip t (.receive env packet addr batch) then
        [⟨packet.take 12, addr⟩] else [] := by
  have hcmd : ¬ isCommand 0 0 packet := fun h => absurd h.2.1 (by decide)
  unfold Limited.granted Limited.asks
  simp only [machine, onReceive, pingLimited, pingUse, hheader, hcmd, if_false, and_self,
    RateLimiter.checkAndIncrement]
  cases hval : validatePacket core 0 0 addr with
  | false => simp
  | true =>
    by_cases hlen : packet.length = 50
    · by_cases hgrant : (rater.tryAcquire t.pingLimiter addr.ip env.timestamp).1 = true
      · simp [hlen, Event.time, Event.env, hgrant, handlePing]
      · simp [hlen, Event.time, Event.env, hgrant]
    · simp [hlen]

/-- The replies to the pings of an address that the call sends. -/
def pingReplies (ip : IpAddr) (t : TunnelV3 C A R) : Event → Nat
  | .receive env packet addr batch =>
    if parsePacketHeader packet = some (0, 0) ∧ addr.ip = ip then
      ((machine core rater).emit t (.receive env packet addr batch)).length
    else 0
  | _ => 0

theorem pingReplies_le (ip : IpAddr) (t : TunnelV3 C A R) (e : Event) :
    pingReplies core rater ip t e ≤ ((pingLimited core rater).granted ip t e).toNat := by
  cases e with
  | cleanup env => exact Nat.zero_le _
  | toggleMaintenance env => exact Nat.zero_le _
  | receive env packet addr batch =>
    simp only [pingReplies]
    split
    · rename_i h
      obtain ⟨hheader, rfl⟩ := h
      rw [ping_answered core rater t env batch hheader]
      split
      · rename_i hgrant
        rw [hgrant]
        exact Nat.le_refl _
      · exact Nat.zero_le _
    · exact Nat.zero_le _

/-- A ping that is granted is answered. -/
theorem pingReplies_granted {ip : IpAddr} {t : TunnelV3 C A R} {e : Event}
    (h : (pingLimited core rater).granted ip t e = true) : pingReplies core rater ip t e = 1 := by
  have hasks := h
  unfold Limited.granted Limited.asks at hasks
  rw [Bool.and_eq_true, decide_eq_true_eq] at hasks
  obtain ⟨huse, -⟩ := hasks
  cases e with
  | cleanup env => cases huse
  | toggleMaintenance env => cases huse
  | receive env packet addr batch =>
    simp only [pingLimited, pingUse] at huse
    split at huse
    · cases huse
    · rename_i s r hheader
      split at huse
      · split at huse <;> cases huse
      · split at huse
        · rename_i hping
          cases huse
          rw [Bool.and_eq_true, decide_eq_true_eq] at hping
          obtain ⟨-, ⟨rfl, rfl⟩, -⟩ := hping
          simp only [pingReplies, hheader, and_self, if_true]
          rw [ping_answered core rater t env batch hheader, if_pos h]
          rfl
        · cases huse

/-- Where a token is asked for, it decides. -/
theorem senderValid_asked {t : TunnelV3 C A R} {env : Env} {s : UInt32} {packet : Packet}
    {addr : SocketAddr} (h : senderUse core t env s addr ≠ .none) :
    (senderValid core rater t env s packet addr).1 =
      (rater.tryAcquire t.connectionLimiter addr.ip env.timestamp).1 := by
  unfold senderUse at h
  have hstep := senderValid_step core rater t env s packet addr
  generalize senderValid core rater t env s packet addr = out at hstep
  cases hstep with
  | refreshed client hget hep => simp [hget, hep] at h
  | refused client hget hne hto =>
    rcases hto with hnone | hlive
    · simp [hget, hnone] at h
    · simp [hget, hlive] at h
  | reconnected client ep _ _ _ _ hgrant => exact hgrant.symm
  | reconnectLimited client ep _ _ _ _ hgrant => exact hgrant.symm
  | registered _ _ hgrant => exact hgrant.symm
  | registerLimited _ _ hgrant => exact hgrant.symm
  | full hget hfull => simp [hget, hfull] at h

/-- A connection attempt is accepted if it is granted. -/
theorem connection_accepted {t : TunnelV3 C A R} {e : Event} {ip : IpAddr}
    (h : (connectionLimited core rater).granted ip t e = true) :
    ∃ id addr, addr.ip = ip ∧ EventAccepts core rater t e id addr := by
  unfold Limited.granted Limited.asks at h
  rw [Bool.and_eq_true, decide_eq_true_eq] at h
  obtain ⟨huse, hgrant⟩ := h
  cases e with
  | cleanup env => cases huse
  | toggleMaintenance env => cases huse
  | receive env packet addr batch =>
    simp only [connectionLimited, connectionUse] at huse
    split at huse
    · rename_i s r hdata
      split at huse
      · cases huse
      · rename_i hoff
        have hasked : senderUse core t env s addr ≠ .none := by
          rw [huse]
          exact LimiterUse.noConfusion
        have hip : addr.ip = ip := by
          unfold senderUse at huse
          split at huse <;> split at huse <;> cases huse <;> rfl
        subst hip
        refine ⟨s, addr, rfl, env, packet, batch, rfl, ⟨r, ?_⟩, ?_⟩
        · exact (reachesForward_iff core).mpr ⟨hdata, Bool.eq_false_iff.mpr hoff⟩
        · rw [senderValid_asked core rater hasked]
          exact hgrant
    · cases huse

end TunnelV3

/-! ## V2 -/

namespace TunnelV2

/-- What a call asks of `ping_limiter`. -/
def pingUse : Event → LimiterUse
  | .heartbeat _ => .clear
  | .receive _ packet addr _ =>
    if parsePacketHeader packet = some (0, 0) ∧ packet.length = 50 ∧
        validatePacket core 0 0 addr = true then .acquire addr.ip
    else .none
  | _ => .none

/-- What a call asks of `request_limiter`. -/
def requestUse : Event → LimiterUse
  | .heartbeat _ => .clear
  | .http _ _ _ addr => .acquire addr.ip
  | _ => .none

theorem handleDataForward_limiters (t : TunnelV2 C R) (env : Env) (s r : Int16) (packet : Packet)
    (addr : SocketAddr) (batch : LocalMetricsBatch) :
    (handleDataForward core t env s r packet addr batch).1.pingLimiter = t.pingLimiter ∧
      (handleDataForward core t env s r packet addr batch).1.requestLimiter = t.requestLimiter := by
  unfold handleDataForward
  cases hacc : acceptSender core t env s packet addr with
  | none => exact ⟨rfl, rfl⟩
  | some t' =>
    have hsame := acceptSender_eq core hacc
    have hrelay : (relay core t' env r packet addr batch).1.pingLimiter = t'.pingLimiter ∧
        (relay core t' env r packet addr batch).1.requestLimiter = t'.requestLimiter := by
      unfold relay
      split
      · split <;> exact ⟨rfl, rfl⟩
      · exact ⟨rfl, rfl⟩
    refine ⟨hrelay.1.trans ?_, hrelay.2.trans ?_⟩
    · rw [hsame]
    · rw [hsame]

theorem handleHttpRequest_limiters (t : TunnelV2 C R) (now : Nat) (draws : Nat → Int16)
    (req : Request) (addr : SocketAddr) :
    (handleHttpRequest core rater t now draws req addr).2.pingLimiter = t.pingLimiter ∧
      (handleHttpRequest core rater t now draws req addr).2.requestLimiter =
        (rater.tryAcquire t.requestLimiter addr.ip now).2 := by
  have hrequest : ∀ (t : TunnelV2 C R), (handleRequest core t now draws req.query).2.pingLimiter =
      t.pingLimiter ∧ (handleRequest core t now draws req.query).2.requestLimiter =
        t.requestLimiter := by
    intro t
    unfold handleRequest
    split
    · exact ⟨rfl, rfl⟩
    dsimp only
    split
    · exact ⟨rfl, rfl⟩
    split
    · exact ⟨rfl, rfl⟩
    split <;> exact ⟨rfl, rfl⟩
  unfold handleHttpRequest handleMaintenance
  dsimp only
  split
  · exact ⟨rfl, rfl⟩
  split
  · exact ⟨rfl, rfl⟩
  split
  · exact hrequest _
  split
  · split
    · exact ⟨rfl, rfl⟩
    · split <;> exact ⟨rfl, rfl⟩
  split <;> exact ⟨rfl, rfl⟩

/-- What one packet asks of both limiters. -/
theorem onUdpReceive_limiters (t : TunnelV2 C R) (env : Env) (packet : Packet) (addr : SocketAddr)
    (batch : LocalMetricsBatch) :
    (onUdpReceive core rater t env packet addr batch).1.pingLimiter =
        (pingUse core (.receive env packet addr batch)).apply rater t.pingLimiter env.timestamp ∧
      (onUdpReceive core rater t env packet addr batch).1.requestLimiter = t.requestLimiter := by
  unfold onUdpReceive
  simp only [pingUse]
  cases hh : parsePacketHeader packet with
  | none => simp [LimiterUse.apply]
  | some ids =>
    obtain ⟨s, r⟩ := ids
    simp only [Option.some.injEq, Prod.mk.injEq]
    by_cases hping : s = 0 ∧ r = 0
    · obtain ⟨rfl, rfl⟩ := hping
      cases hval : validatePacket core 0 0 addr with
      | false => simp [LimiterUse.apply]
      | true =>
        by_cases hlen : packet.length = 50
        · simp only [hlen, Bool.not_true, Bool.false_eq_true, if_false, and_self, if_true,
            RateLimiter.checkAndIncrement]
          by_cases hgrant : (rater.tryAcquire t.pingLimiter addr.ip env.timestamp).1 = true
          · simp [hgrant, handlePing, LimiterUse.apply]
          · simp [hgrant, LimiterUse.apply]
        · simp [hlen, LimiterUse.apply]
    · cases hval : validatePacket core s r addr with
      | false => simp [hping, LimiterUse.apply]
      | true =>
        cases hm : t.maintenanceMode with
        | true => simp [hping, LimiterUse.apply]
        | false => simp [hping, LimiterUse.apply, handleDataForward_limiters]

/-- `ping_limiter` in the runs of the tunnel. -/
def pingLimited : Limited (machine (C := C) core rater) Event.time rater where
  limiter := pingLimiter
  use _ := pingUse core
  step t e := by
    cases e with
    | receive env packet addr batch =>
      exact (onUdpReceive_limiters core rater t env packet addr batch).1
    | http env draws req addr =>
      exact (handleHttpRequest_limiters core rater t env.timestamp draws req addr).1
    | heartbeat env => rfl
    | toggleMaintenance env => rfl

/-- `request_limiter` in the runs of the tunnel. -/
def requestLimited : Limited (machine (C := C) core rater) Event.time rater where
  limiter := requestLimiter
  use _ := requestUse
  step t e := by
    cases e with
    | receive env packet addr batch =>
      exact (onUdpReceive_limiters core rater t env packet addr batch).2
    | http env draws req addr =>
      exact (handleHttpRequest_limiters core rater t env.timestamp draws req addr).2
    | heartbeat env => rfl
    | toggleMaintenance env => rfl

/-- A ping is answered exactly if it is granted. -/
theorem ping_answered (t : TunnelV2 C R) (env : Env) {packet : Packet} {addr : SocketAddr}
    (batch : LocalMetricsBatch) (hheader : parsePacketHeader packet = some (0, 0)) :
    (machine core rater).emit t (.receive env packet addr batch) =
      if (pingLimited core rater).granted addr.ip t (.receive env packet addr batch) then
        [⟨packet.take 12, addr⟩] else [] := by
  unfold Limited.granted Limited.asks
  simp only [machine, onUdpReceive, pingLimited, pingUse, hheader, and_self, true_and,
    RateLimiter.checkAndIncrement]
  cases hval : validatePacket core 0 0 addr with
  | false => simp
  | true =>
    by_cases hlen : packet.length = 50
    · by_cases hgrant : (rater.tryAcquire t.pingLimiter addr.ip env.timestamp).1 = true
      · simp [hlen, Event.time, Event.env, hgrant, handlePing]
      · simp [hlen, Event.time, Event.env, hgrant]
    · simp [hlen]

/-- The replies to the pings of an address that the call sends. -/
def pingReplies (ip : IpAddr) (t : TunnelV2 C R) : Event → Nat
  | .receive env packet addr batch =>
    if parsePacketHeader packet = some (0, 0) ∧ addr.ip = ip then
      ((machine core rater).emit t (.receive env packet addr batch)).length
    else 0
  | _ => 0

theorem pingReplies_le (ip : IpAddr) (t : TunnelV2 C R) (e : Event) :
    pingReplies core rater ip t e ≤ ((pingLimited core rater).granted ip t e).toNat := by
  cases e with
  | http env draws req addr => exact Nat.zero_le _
  | heartbeat env => exact Nat.zero_le _
  | toggleMaintenance env => exact Nat.zero_le _
  | receive env packet addr batch =>
    simp only [pingReplies]
    split
    · rename_i h
      obtain ⟨hheader, rfl⟩ := h
      rw [ping_answered core rater t env batch hheader]
      split
      · rename_i hgrant
        rw [hgrant]
        exact Nat.le_refl _
      · exact Nat.zero_le _
    · exact Nat.zero_le _

/-- A ping that is granted is answered. -/
theorem pingReplies_granted {ip : IpAddr} {t : TunnelV2 C R} {e : Event}
    (h : (pingLimited core rater).granted ip t e = true) : pingReplies core rater ip t e = 1 := by
  have hasks := h
  unfold Limited.granted Limited.asks at hasks
  rw [Bool.and_eq_true, decide_eq_true_eq] at hasks
  obtain ⟨huse, -⟩ := hasks
  cases e with
  | http env draws req addr => cases huse
  | heartbeat env => cases huse
  | toggleMaintenance env => cases huse
  | receive env packet addr batch =>
    simp only [pingLimited, pingUse] at huse
    split at huse
    · rename_i hping
      cases huse
      simp only [pingReplies, hping.1, and_self, if_true]
      rw [ping_answered core rater t env batch hping.1, if_pos h]
      rfl
    · cases huse

/-- The answers other than 429 to the requests of an address. -/
def requestsServed (ip : IpAddr) (t : TunnelV2 C R) : Event → Nat
  | .http env draws req addr =>
    if addr.ip = ip ∧ (handleHttpRequest core rater t env.timestamp draws req addr).1.status ≠
      .tooManyRequests then 1 else 0
  | _ => 0

/-- A request is answered with 429 exactly if it is not granted. -/
theorem tooManyRequests_iff (t : TunnelV2 C R) (env : Env) (draws : Nat → Int16) (req : Request)
    (addr : SocketAddr) :
    (handleHttpRequest core rater t env.timestamp draws req addr).1.status = .tooManyRequests ↔
      (requestLimited core rater).granted addr.ip t (.http env draws req addr) = false := by
  have hgranted : (requestLimited core rater).granted addr.ip t (.http env draws req addr) =
      (rater.tryAcquire t.requestLimiter addr.ip env.timestamp).1 := by
    simp [Limited.granted, Limited.asks, requestLimited, requestUse, Event.time, Event.env]
  rw [hgranted]
  unfold handleHttpRequest handleMaintenance handleRequest handleStatus RateLimiter.checkAndIncrement
  dsimp only
  cases hgrant : (rater.tryAcquire t.requestLimiter addr.ip env.timestamp).1 with
  | false => simp
  | true =>
    simp only [Bool.not_true, Bool.false_eq_true, if_false, Bool.true_eq_false, iff_false]
    repeat' split
    all_goals simp

theorem requestsServed_le (ip : IpAddr) (t : TunnelV2 C R) (e : Event) :
    requestsServed core rater ip t e ≤ ((requestLimited core rater).granted ip t e).toNat := by
  cases e with
  | receive env packet addr batch => exact Nat.zero_le _
  | heartbeat env => exact Nat.zero_le _
  | toggleMaintenance env => exact Nat.zero_le _
  | http env draws req addr =>
    simp only [requestsServed]
    split
    · rename_i h
      obtain ⟨rfl, hserved⟩ := h
      rw [ne_eq, tooManyRequests_iff, Bool.not_eq_false] at hserved
      rw [hserved]
      exact Nat.le_refl _
    · exact Nat.zero_le _

/-- A request that is granted is not answered with 429. -/
theorem requestsServed_granted {ip : IpAddr} {t : TunnelV2 C R} {e : Event}
    (h : (requestLimited core rater).granted ip t e = true) :
    requestsServed core rater ip t e = 1 := by
  have hasks := h
  unfold Limited.granted Limited.asks at hasks
  rw [Bool.and_eq_true, decide_eq_true_eq] at hasks
  obtain ⟨huse, -⟩ := hasks
  cases e with
  | receive env packet addr batch =>
    simp only [requestLimited, requestUse] at huse
    cases huse
  | heartbeat env => cases huse
  | toggleMaintenance env => cases huse
  | http env draws req addr =>
    cases huse
    refine if_pos ⟨rfl, ?_⟩
    rw [ne_eq, tooManyRequests_iff, h]
    exact Bool.noConfusion

end TunnelV2

/-! ## Both tunnels -/

section Laws

variable {core rater}

section Bounds

variable (law : rater.Bucketed core.second)
include law

/-- What an address gets that is granted it. -/
theorem Limited.total_le_of_granted {σ α ε : Type} {M : Machine σ α ε} {time : α → Nat}
    (l : Limited M time rater) (ip : IpAddr) {served : σ → α → Nat}
    (hserved : ∀ s a, served s a ≤ (l.granted ip s a).toNat) {s₀ : σ} {n : UInt32} {limit : Nat}
    (hnew : l.limiter s₀ = ConnectionRateLimiter.new rater n) (hn : n.toNat ≤ limit)
    (before : List α) {after : List α} {start finish : Nat}
    (hclock : M.Clocked (fun _ => time) finish start (M.run s₀ before) after) :
    M.total served (M.run s₀ before) after * (60 * core.second) ≤
      limit * (60 * core.second) *
          (2 + M.total (fun s a => (l.clears s a).toNat) (M.run s₀ before) after) +
        limit * (finish - start) := by
  have hlimit : law.limit (l.limiter (M.run s₀ before)) ≤ limit := by
    rw [l.limit_run law, hnew, law.limit_new]
    exact hn
  calc M.total served (M.run s₀ before) after * (60 * core.second)
      ≤ M.total (fun s a => (l.granted ip s a).toNat) (M.run s₀ before) after *
          (60 * core.second) := Nat.mul_le_mul_right _ (Machine.total_mono hserved _ _)
    _ ≤ _ := l.granted_le law ip hclock
    _ ≤ _ := by
        refine Nat.add_le_add (Nat.mul_le_mul_right _ (Nat.mul_le_mul_right _ hlimit)) ?_
        exact Nat.mul_le_mul_right _ hlimit

/-- **Limits.** After any run of a tunnel, and however long it goes on: an address gets replies
to at most 20 pings, and answers other than 429 to at most `ip_limit_v2` requests, twice and again
for each clearing of the limiter, and as many for every 60 seconds. -/
theorem limits_hold (config : ServerConfig) (ip : IpAddr) :
    (∀ sha1 before after start finish,
      let M := TunnelV3.machine core rater
      let t : TunnelV3 C A R := M.run (TunnelV3.new rater sha1 config) before
      M.Clocked (fun _ => TunnelV3.Event.time) finish start t after →
      M.total (TunnelV3.pingReplies core rater ip) t after * (60 * core.second) ≤
        20 * (60 * core.second) * (2 + M.total (fun t e =>
          ((TunnelV3.pingLimited core rater).clears t e).toNat) t after) + 20 * (finish - start)) ∧
    ∀ before after start finish,
      let M := TunnelV2.machine core rater
      let t : TunnelV2 C R := M.run (TunnelV2.new rater config) before
      M.Clocked (fun _ => TunnelV2.Event.time) finish start t after →
      M.total (TunnelV2.pingReplies core rater ip) t after * (60 * core.second) ≤
        20 * (60 * core.second) * (2 + M.total (fun t e =>
          ((TunnelV2.pingLimited core rater).clears t e).toNat) t after) + 20 * (finish - start) ∧
      M.total (TunnelV2.requestsServed core rater ip) t after * (60 * core.second) ≤
        config.ipLimitV2 * (60 * core.second) * (2 + M.total (fun t e =>
          ((TunnelV2.requestLimited core rater).clears t e).toNat) t after) +
          config.ipLimitV2 * (finish - start) := by
  have hwrap : (UInt32.ofNat config.ipLimitV2).toNat ≤ config.ipLimitV2 := by
    rw [UInt32.toNat_ofNat']
    exact Nat.mod_le _ _
  refine ⟨?_, ?_⟩
  · intro sha1 before after start finish M t hclock
    exact (TunnelV3.pingLimited core rater).total_le_of_granted law ip
      (TunnelV3.pingReplies_le core rater ip) rfl (by decide) before hclock
  · intro before after start finish M t hclock
    refine ⟨?_, ?_⟩
    · exact (TunnelV2.pingLimited core rater).total_le_of_granted law ip
        (TunnelV2.pingReplies_le core rater ip) rfl (by decide) before hclock
    · exact (TunnelV2.requestLimited core rater).total_le_of_granted law ip
        (TunnelV2.requestsServed_le core rater ip) rfl hwrap before hclock

end Bounds

/-- An address that sends 20 pings shortly before its minute is over and 21 right after it, and
one that sends six requests with a heartbeat before the last. -/
theorem limits_hold_reached :
    let core := RelayCore.reference TunnelV3.timeoutSeconds
    let rater := Rater.refilling 1000
    let alice : SocketAddr := .v4 8 8 8 8 1234
    let config : ServerConfig := ⟨50001, 50000, 200, "", 8, 4⟩
    let env (ms : Nat) : Env := ⟨ms, ms / 1000, true⟩
    (let M := TunnelV3.machine core rater
      let ping (ms : Nat) : TunnelV3.Event := .receive (env ms) (List.replicate 50 0) alice .new
      let t := M.run (TunnelV3.new rater id config) [ping 1000]
      let pings := List.replicate 20 (ping 60700) ++ List.replicate 21 (ping 61200)
      M.total (TunnelV3.pingReplies core rater alice.ip) t pings = 39 ∧
      M.total (TunnelV3.pingReplies core rater alice.ip) t pings * 60000 ≤
        20 * 60000 * (2 + M.total (fun t e =>
          ((TunnelV3.pingLimited core rater).clears t e).toNat) t pings) + 20 * (61200 - 60700)) ∧
    (let M := TunnelV2.machine core rater
      let t := TunnelV2.new rater config
      let request : TunnelV2.Event :=
        .http (env 1000) (fun _ => 0) ⟨true, "/status".toList, none⟩ alice
      let requests := List.replicate 5 request ++ [.heartbeat (env 1000), request]
      M.total (TunnelV2.requestsServed core rater alice.ip) t requests = 5 ∧
      M.total (TunnelV2.requestsServed core rater alice.ip) t requests * 60000 ≤
        4 * 60000 * (2 + M.total (fun t e =>
          ((TunnelV2.requestLimited core rater).clears t e).toNat) t requests) +
          4 * (1000 - 1000)) := by
  intro core rater alice config env
  have hboth := limits_hold
    (Rater.refilling_bucketed (show 0 < core.second by decide)) config alice.ip
  refine ⟨?_, ?_⟩
  · intro M ping t pings
    exact ⟨by decide +kernel, hboth.1 id [ping 1000] pings 60700 61200 (by decide +kernel)⟩
  · intro M t request requests
    exact ⟨by decide +kernel, (hboth.2 [] requests 1000 1000 (by decide +kernel)).2⟩

/-- **Never blocked.** In any run of a new tunnel at times that do not go back, in which no more
than 10000 addresses ask a limiter before it is cleared: an address that asks for no more than
the limit in any 60 seconds gets a reply to every ping, an answer other than 429 to every request,
and every connection it asks for. -/
theorem rare_never_refused {law : rater.Bucketed core.second} (tracks : law.Tracks)
    (hsecond : 0 < core.second) (config : ServerConfig) (ip : IpAddr) :
    (∀ sha1 events start finish,
      let M := TunnelV3.machine core rater
      let t : TunnelV3 C A R := TunnelV3.new rater sha1 config
      let connections := TunnelV3.connectionLimited core rater
      let pings := TunnelV3.pingLimited core rater
      M.Clocked (fun _ => TunnelV3.Event.time) finish start t events →
      (connections.Uncrowded ∅ t events →
        Machine.AtMostPer (UInt32.ofNat config.ipLimit).toNat (60 * core.second)
          (M.asked (fun _ => TunnelV3.Event.time) (connections.asks ip) t events) →
        M.Along (fun t e => connections.asks ip t e = true →
          ∃ id addr, addr.ip = ip ∧ TunnelV3.EventAccepts core rater t e id addr) t events) ∧
      (pings.Uncrowded ∅ t events →
        Machine.AtMostPer 20 (60 * core.second)
          (M.asked (fun _ => TunnelV3.Event.time) (pings.asks ip) t events) →
        M.Along (fun t e => pings.asks ip t e = true →
          TunnelV3.pingReplies core rater ip t e = 1) t events)) ∧
    ∀ events start finish,
      let M := TunnelV2.machine core rater
      let t : TunnelV2 C R := TunnelV2.new rater config
      let pings := TunnelV2.pingLimited core rater
      let requests := TunnelV2.requestLimited core rater
      M.Clocked (fun _ => TunnelV2.Event.time) finish start t events →
      (pings.Uncrowded ∅ t events →
        Machine.AtMostPer 20 (60 * core.second)
          (M.asked (fun _ => TunnelV2.Event.time) (pings.asks ip) t events) →
        M.Along (fun t e => pings.asks ip t e = true →
          TunnelV2.pingReplies core rater ip t e = 1) t events) ∧
      (requests.Uncrowded ∅ t events →
        Machine.AtMostPer (UInt32.ofNat config.ipLimitV2).toNat (60 * core.second)
          (M.asked (fun _ => TunnelV2.Event.time) (requests.asks ip) t events) →
        M.Along (fun t e => requests.asks ip t e = true →
          TunnelV2.requestsServed core rater ip t e = 1) t events) := by
  refine ⟨?_, ?_⟩
  · intro sha1 events start finish M t connections pings hclock
    refine ⟨fun hcrowd hrare => ?_, fun hcrowd hrare => ?_⟩
    · exact M.along_mono (fun t e h hasks => TunnelV3.connection_accepted core rater (h hasks))
        (connections.all_granted tracks hsecond ip rfl hclock hcrowd hrare)
    · exact M.along_mono (fun t e h hasks => TunnelV3.pingReplies_granted core rater (h hasks))
        (pings.all_granted tracks hsecond ip (n := 20) rfl hclock hcrowd hrare)
  · intro events start finish M t pings requests hclock
    refine ⟨fun hcrowd hrare => ?_, fun hcrowd hrare => ?_⟩
    · exact M.along_mono (fun t e h hasks => TunnelV2.pingReplies_granted core rater (h hasks))
        (pings.all_granted tracks hsecond ip (n := 20) rfl hclock hcrowd hrare)
    · exact M.along_mono (fun t e h hasks => TunnelV2.requestsServed_granted core rater (h hasks))
        (requests.all_granted tracks hsecond ip rfl hclock hcrowd hrare)

/-- Alice connects once a minute, and Bob asks for more than he gets meanwhile. -/
theorem rare_never_refused_patient :
    let core := RelayCore.reference TunnelV3.timeoutSeconds
    let rater := Rater.refilling 1000
    let alice : SocketAddr := .v4 8 8 8 8 1234
    let bob : SocketAddr := .v4 9 9 9 9 1234
    let hello (id : UInt8) (ms : Nat) (addr : SocketAddr) : TunnelV3.Event :=
      .receive ⟨ms, ms / 1000, true⟩ [id, 0, 0, 0, 9, 0, 0, 0] addr .new
    let events := [hello 1 1000 alice, hello 3 2000 bob, hello 4 3000 bob, hello 1 30000 alice,
      hello 2 62000 alice]
    let M := TunnelV3.machine core rater
    let t := TunnelV3.new rater id ⟨50001, 50000, 200, "", 1, 4⟩
    let connections := TunnelV3.connectionLimited core rater
    M.asked (fun _ => TunnelV3.Event.time) (connections.asks alice.ip) t events = [1000, 62000] ∧
      M.Along (fun t e => connections.asks alice.ip t e = true →
        ∃ id addr, addr.ip = alice.ip ∧ TunnelV3.EventAccepts core rater t e id addr) t events := by
  intro core rater alice bob hello events M t connections
  have hasked : M.asked (fun _ => TunnelV3.Event.time) (connections.asks alice.ip) t events =
      [1000, 62000] := by
    decide +kernel
  refine ⟨hasked, ?_⟩
  refine ((rare_never_refused
    (Rater.refilling_tracks (show 0 < core.second by decide)) (by decide)
    ⟨50001, 50000, 200, "", 1, 4⟩ alice.ip).1 id events 1000 62000 (by decide +kernel)).1
    (by decide +kernel) ?_
  intro u
  have hwindow : [1000, 62000].countP (fun x => decide (u ≤ x ∧ x < u + 60000)) ≤ 1 := by
    simp only [List.countP_cons, List.countP_nil, decide_eq_true_eq]
    split <;> split <;> omega
  exact hasked ▸ hwindow

end Laws

end CncnetServer
