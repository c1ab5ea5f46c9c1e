import CncnetServer.V3.Step
import CncnetServer.Bindings

/-!
The V3 tunnel as a machine whose calls run one after another, and its view as a
binding table: every call makes a row step on every slot (`refines`), where the
accepted packets are those `on_receive` accepts.
-/

namespace CncnetServer.TunnelV3

open Slots Runs

variable {C A R : Type} (core : RelayCore C A) (rater : Rater R)

/-- One call: a packet for `on_receive`, a cleanup of the heartbeat, or a switch
of the maintenance mode from outside the packet path. -/
inductive Event
  | receive (env : Env) (packet : Packet) (addr : SocketAddr) (batch : LocalMetricsBatch)
  | cleanup (env : Env)
  | toggleMaintenance (env : Env)

def Event.env : Event → Env
  | .receive env _ _ _ => env
  | .cleanup env => env
  | .toggleMaintenance env => env

def Event.time (e : Event) : Nat := e.env.timestamp

/-- The tunnel as a machine; it emits the datagrams it hands to `send_to`. -/
def machine : Machine (TunnelV3 C A R) Event Datagram where
  step t
    | .receive env packet addr batch => (onReceive core rater t env packet addr batch).1
    | .cleanup env => cleanupExpiredMappings core rater t env
    | .toggleMaintenance _ => { t with maintenanceMode := !t.maintenanceMode }
  emit t
    | .receive env packet addr batch => (onReceive core rater t env packet addr batch).2.2
    | _ => []

/-- The event accepts a packet of `addr` with sender id `id`. -/
def EventAccepts (t : TunnelV3 C A R) (e : Event) (id : UInt32) (addr : SocketAddr) : Prop :=
  ∃ env packet batch, e = .receive env packet addr batch ∧ Accepts core rater t env packet addr id

/-! ## The binding table -/

section Refinement

variable (hcore : core.FixedEndpoint) (last : C → Nat)
variable (hlast : ∀ c r s now, last (core.updateStats c r s now) = last c)
include hcore hlast

/-- The relay changes no binding and no last-receive time. -/
theorem view_relay (t : TunnelV3 C A R) (env : Env) (r : UInt32) (packet : Packet)
    (addr : SocketAddr) (batch : LocalMetricsBatch) :
    core.view last (relay core t env r packet addr batch).1.mappings =
      core.view last t.mappings := by
  unfold relay
  split
  · split
    · exact core.view_updateStats hcore hlast t.mappings r 0 packet.length env.timestamp
    · rfl
  · rfl

omit hlast in
theorem senderValid_row {dead : Slot SocketAddr → Prop} (t : TunnelV3 C A R) {env : Env}
    (id : UInt32) (packet : Packet) (addr : SocketAddr)
    (hdead : ∀ c, core.isTimedOut c env.timestamp = true → dead (core.slotOf last c))
    (j : UInt32) :
    RowStep dead
      (fun e => (senderValid core rater t env id packet addr).1 = true ∧ j = id ∧ e = addr)
      (core.view last t.mappings j)
      (core.view last (senderValid core rater t env id packet addr).2.mappings j) := by
  have hstep := senderValid_step core rater t env id packet addr
  generalize senderValid core rater t env id packet addr = out at hstep
  cases hstep with
  | refreshed client hget hep =>
    have hrow : RowStep dead (fun e => j = id ∧ e = addr) (core.view last t.mappings j) _ :=
      core.row_refresh hcore hget hep packet.length env.timestamp j
    exact hrow.mono fun e he => ⟨rfl, he⟩
  | reconnected client ep hget _ _ hto _ =>
    have hfree : Free dead (core.view last t.mappings id) := by
      simp only [RelayCore.view, hget]
      exact Or.inr (hdead client hto)
    have hrow := core.row_insert hcore t.mappings id addr env.timestamp hfree j
    exact hrow.mono fun e he => ⟨rfl, he⟩
  | reconnectLimited => exact .keep _
  | refused => exact .keep _
  | registered hget _ _ =>
    have hfree : Free dead (core.view last t.mappings id) := by
      simp only [RelayCore.view, hget]
      trivial
    have hrow := core.row_insert hcore t.mappings id addr env.timestamp hfree j
    exact hrow.mono fun e he => ⟨rfl, he⟩
  | registerLimited => exact .keep _
  | full => exact .keep _

omit hcore hlast in
theorem executeCommand_row {dead : Slot SocketAddr → Prop} {acc : SocketAddr → Prop}
    {t : TunnelV3 C A R} {env : Env} {packet : Packet}
    (hdead : ∀ c, core.isTimedOut c env.timestamp = true → dead (core.slotOf last c))
    (j : UInt32) :
    RowStep dead acc (core.view last t.mappings j)
      (core.view last (executeCommand core rater t env packet).mappings j) := by
  have hstep := executeCommand_step core rater t env packet
  generalize executeCommand core rater t env packet = out at hstep ⊢
  cases hstep with
  | ignored => exact .keep _
  | noEffect => exact .keep _
  | toggled _ => exact .keep _
  | cleaned _ => exact core.row_retain t.mappings env.timestamp hdead j

theorem handleDataForward_row {dead : Slot SocketAddr → Prop} (t : TunnelV3 C A R) {env : Env}
    (s r : UInt32) (packet : Packet) (addr : SocketAddr) (batch : LocalMetricsBatch)
    (hdead : ∀ c, core.isTimedOut c env.timestamp = true → dead (core.slotOf last c))
    (j : UInt32) :
    RowStep dead
      (fun e => (senderValid core rater t env s packet addr).1 = true ∧ j = s ∧ e = addr)
      (core.view last t.mappings j)
      (core.view last (handleDataForward core rater t env s r packet addr batch).1.mappings j) := by
  have hrow := senderValid_row core rater hcore last t s packet addr hdead j
  unfold handleDataForward
  generalize senderValid core rater t env s packet addr = out at hrow ⊢
  obtain ⟨valid, t'⟩ := out
  cases valid with
  | false => exact hrow
  | true =>
    simp only [Bool.not_true, Bool.false_eq_true, if_false]
    rw [view_relay core hcore last hlast]
    simpa using hrow

/-- **Every call is a row step on every slot.** -/
theorem refines (dead : Event → Slot SocketAddr → Prop)
    (hdead : ∀ (e : Event) c, core.isTimedOut c e.time = true → dead e (core.slotOf last c)) :
    Refines (machine core rater) (fun t => core.view last t.mappings) dead
      (EventAccepts core rater) := by
  intro t e j
  cases e with
  | cleanup env => exact core.row_retain t.mappings env.timestamp (hdead (.cleanup env)) j
  | toggleMaintenance env => exact .keep _
  | receive env packet addr batch =>
    have hd := hdead (.receive env packet addr batch)
    have hstep := onReceive_step core rater t env packet addr batch
    simp only [machine]
    generalize onReceive core rater t env packet addr batch = out at hstep ⊢
    cases hstep with
    | short _ => exact .keep _
    | command s r _ _ => exact executeCommand_row core rater last hd j
    | dropped _ => exact .keep _
    | pingLimited _ => exact .keep _
    | ping _ _ => exact .keep _
    | forward s r hf =>
      have hrow := handleDataForward_row core rater hcore last hlast t s r packet addr
        (batch.recordV3Rx (UInt64.ofNat packet.length)) hd j
      apply hrow.mono
      rintro e ⟨hv, rfl, rfl⟩
      exact ⟨env, packet, batch, rfl, ⟨r, hf⟩, hv⟩

end Refinement

/-- An accepted sender's slot gets the source and the time of the packet, and a rejected
one leaves every slot as it is. -/
theorem view_senderValid (hcore : core.FixedEndpoint) {expired : Nat → Nat → Bool}
    (htime : core.TimesOutBy expired) (t : TunnelV3 C A R) (env : Env) (s : UInt32)
    (packet : Packet) (addr : SocketAddr) :
    core.view core.lastReceive (senderValid core rater t env s packet addr).2.mappings =
      if (senderValid core rater t env s packet addr).1 then
        Function.update (core.view core.lastReceive t.mappings) s
          (some ⟨some addr, env.timestamp⟩)
      else core.view core.lastReceive t.mappings := by
  have hstep := senderValid_step core rater t env s packet addr
  generalize senderValid core rater t env s packet addr = out at hstep
  cases hstep with
  | refreshed client hget hep =>
    exact core.view_refresh hcore htime hget hep packet.length env.timestamp
  | reconnected => exact core.view_insert hcore htime t.mappings s addr env.timestamp
  | reconnectLimited => rfl
  | refused => rfl
  | registered => exact core.view_insert hcore htime t.mappings s addr env.timestamp
  | registerLimited => rfl
  | full => rfl

/-- A sender whose slot is owned is accepted if it is the owner, or if the owner is silent
and the limiter grants the source a token. -/
theorem senderValid_iff {expired : Nat → Nat → Bool} (htime : core.TimesOutBy expired)
    {t : TunnelV3 C A R}
    (env : Env) {s : UInt32} (packet : Packet) (addr : SocketAddr) {ep : SocketAddr} {l : Nat}
    (hb : core.view core.lastReceive t.mappings s = some ⟨some ep, l⟩) :
    (senderValid core rater t env s packet addr).1 = true ↔
      ep = addr ∨ (expired l env.timestamp = true ∧
        (rater.tryAcquire t.connectionLimiter addr.ip env.timestamp).1 = true) := by
  obtain ⟨client, hget, hslot⟩ := Option.map_eq_some_iff.mp hb
  have hep : core.remoteEp client = some ep := congrArg Slot.endpoint hslot
  have hl : core.lastReceive client = l := congrArg Slot.last hslot
  have hto := htime.isTimedOut_eq client env.timestamp
  rw [hl] at hto
  rw [← hto]
  unfold senderValid ConnectionRateLimiter.tryAcquire
  by_cases heq : ep = addr
  · simp [hget, hep, heq]
  · cases hdead : core.isTimedOut client env.timestamp with
    | false => simp [hget, hep, heq, hdead]
    | true =>
      cases hgrant : (rater.tryAcquire t.connectionLimiter addr.ip env.timestamp).1 with
      | true => simp [hget, hep, heq, hdead, hgrant]
      | false => simp [hget, hep, heq, hdead, hgrant]

/-- A packet of the bound endpoint refreshes its slot and is forwarded as the table says. -/
theorem handleDataForward_bound (hcore : core.FixedEndpoint) {expired : Nat → Nat → Bool}
    (htime : core.TimesOutBy expired) (t : TunnelV3 C A R) (env : Env) {s r : UInt32}
    (packet : Packet) {addr : SocketAddr} (batch : LocalMetricsBatch) {l : Nat}
    (hb : core.view core.lastReceive t.mappings s = some ⟨some addr, l⟩) (hne : s ≠ r) :
    core.view core.lastReceive
        (handleDataForward core rater t env s r packet addr batch).1.mappings s =
      some ⟨some addr, env.timestamp⟩ ∧
    (handleDataForward core rater t env s r packet addr batch).2.2 =
      ((core.forwardInfo t.mappings r addr).map fun b => (⟨packet, b⟩ : Datagram)).toList := by
  obtain ⟨client, hget, hslot⟩ := Option.map_eq_some_iff.mp hb
  have hep : core.remoteEp client = some addr := congrArg Slot.endpoint hslot
  have hvalid : senderValid core rater t env s packet addr = (true, { t with
      mappings := t.mappings.modify s (core.refresh packet.length env.timestamp)
      qualityAnalyzers := t.qualityAnalyzers.modify s (core.recordPacket · false) }) := by
    unfold senderValid
    simp only [hget, hep, ne_eq, not_true, if_false]
    rfl
  unfold handleDataForward
  simp only [hvalid, Bool.not_true, Bool.false_eq_true, if_false]
  rw [view_relay core hcore core.lastReceive htime.lastReceive_updateStats, relay_sent]
  constructor
  · show core.view core.lastReceive
      (t.mappings.modify s (core.refresh packet.length env.timestamp)) s = _
    rw [core.view_refresh hcore htime hget hep, Function.update_self]
  · have hother : core.forwardInfo (t.mappings.modify s
        (core.refresh packet.length env.timestamp)) r addr =
        core.forwardInfo t.mappings r addr := by
      unfold RelayCore.forwardInfo
      rw [DashMap.get_modify, if_neg (Ne.symm hne)]
    rw [hother]

end CncnetServer.TunnelV3
