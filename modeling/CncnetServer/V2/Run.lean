import CncnetServer.V2.Step
import CncnetServer.Bindings

/-!
The V2 tunnel as a machine whose calls run one after another, and its view as a
binding table: every call makes a row step on every slot (`refines`).
-/

namespace CncnetServer.TunnelV2

open Slots Runs

variable {C R A : Type} (core : RelayCore C A) (rater : Rater R)

/-- One call: a packet for `on_udp_receive`, an HTTP request with the random
draws it would see, a tick of the heartbeat, or a switch of the maintenance mode
by other means. -/
inductive Event
  | receive (env : Env) (packet : Packet) (addr : SocketAddr) (batch : LocalMetricsBatch)
  | http (env : Env) (draws : Nat → Int16) (req : Request) (addr : SocketAddr)
  | heartbeat (env : Env)
  | toggleMaintenance (env : Env)

def Event.env : Event → Env
  | .receive env _ _ _ => env
  | .http env _ _ _ => env
  | .heartbeat env => env
  | .toggleMaintenance env => env

def Event.time (e : Event) : Nat := e.env.timestamp

/-- The tunnel as a machine; it emits the datagrams it hands to `send_to`. -/
def machine : Machine (TunnelV2 C R) Event Datagram where
  step t
    | .receive env packet addr batch => (onUdpReceive core rater t env packet addr batch).1
    | .http env draws req addr => (handleHttpRequest core rater t env.timestamp draws req addr).2
    | .heartbeat env => heartbeat core rater t env
    | .toggleMaintenance _ => { t with maintenanceMode := !t.maintenanceMode }
  emit t
    | .receive env packet addr batch => (onUdpReceive core rater t env packet addr batch).2.2
    | _ => []

/-- The event accepts a packet of `addr` with sender id `id`. -/
def EventAccepts (t : TunnelV2 C R) (e : Event) (id : Int16) (addr : SocketAddr) : Prop :=
  ∃ env packet batch, e = .receive env packet addr batch ∧ Accepts core t env packet addr id

/-! ## The binding table -/

section Refinement

variable (hcore : core.FixedEndpoint) (last : C → Nat)
variable (hlast : ∀ c r s now, last (core.updateStats c r s now) = last c)
include hcore hlast

/-- The relay changes no binding and no last-receive time. -/
theorem view_relay (t : TunnelV2 C R) (env : Env) (r : Int16) (packet : Packet)
    (addr : SocketAddr) (batch : LocalMetricsBatch) :
    core.view last (relay core t env r packet addr batch).1.mappings =
      core.view last t.mappings := by
  unfold relay
  split
  · split
    · exact core.view_updateStats hcore hlast t.mappings r 0 packet.length env.timestamp
    · rfl
  · rfl

omit hlast in
theorem acceptSender_row {dead : Slot SocketAddr → Prop} {t t' : TunnelV2 C R} {env : Env}
    {id : Int16} {packet : Packet} {addr : SocketAddr}
    (hdead : ∀ c, core.isTimedOut c env.timestamp = true → dead (core.slotOf last c))
    (hacc : acceptSender core t env id packet addr = some t') (j : Int16) :
    RowStep dead (fun e => j = id ∧ e = addr) (core.view last t.mappings j)
      (core.view last t'.mappings j) := by
  have hstep := acceptSender_step core t env id packet addr
  rw [hacc] at hstep
  cases hstep with
  | claimed client hget hep =>
    apply core.row_insert hcore t.mappings id addr env.timestamp
    simp only [RelayCore.view, hget]
    exact Or.inl hep
  | reconnected client ep hget _ _ hto =>
    apply core.row_insert hcore t.mappings id addr env.timestamp
    simp only [RelayCore.view, hget]
    exact Or.inr (hdead client hto)
  | refreshed client hget hep =>
    exact core.row_refresh hcore hget hep packet.length env.timestamp j

theorem handleDataForward_row {dead : Slot SocketAddr → Prop} (t : TunnelV2 C R) {env : Env}
    (s r : Int16) (packet : Packet) (addr : SocketAddr) (batch : LocalMetricsBatch)
    (hdead : ∀ c, core.isTimedOut c env.timestamp = true → dead (core.slotOf last c))
    (j : Int16) :
    RowStep dead
      (fun e => (acceptSender core t env s packet addr).isSome ∧ j = s ∧ e = addr)
      (core.view last t.mappings j)
      (core.view last (handleDataForward core t env s r packet addr batch).1.mappings j) := by
  unfold handleDataForward
  cases hacc : acceptSender core t env s packet addr with
  | none => exact .keep _
  | some t' =>
    rw [view_relay core hcore last hlast]
    have hrow := acceptSender_row core hcore last hdead hacc j
    exact hrow.mono fun e he => ⟨by simp, he⟩

omit hlast in
theorem handleHttpRequest_row {dead : Slot SocketAddr → Prop} {acc : SocketAddr → Prop}
    {t : TunnelV2 C R} {now : Nat} {draws : Nat → Int16} {req : Request} {addr : SocketAddr}
    (j : Int16) :
    RowStep dead acc (core.view last t.mappings j)
      (core.view last (handleHttpRequest core rater t now draws req addr).2.mappings j) := by
  unfold RelayCore.view
  rcases handleHttpRequest_get core rater t now draws req addr j with h | ⟨_, hnone, hsome⟩
  · rw [h]
    exact .keep _
  · rw [hnone, hsome]
    simp only [Option.map_none, Option.map_some, RelayCore.slotOf, hcore.remoteEp_new]
    exact .allocate _

/-- **Every call is a row step on every slot.** -/
theorem refines (dead : Event → Slot SocketAddr → Prop)
    (hdead : ∀ (e : Event) c, core.isTimedOut c e.time = true → dead e (core.slotOf last c)) :
    Refines (machine core rater) (fun t => core.view last t.mappings) dead (EventAccepts core) := by
  intro t e j
  cases e with
  | heartbeat env => exact core.row_retain t.mappings env.timestamp (hdead (.heartbeat env)) j
  | toggleMaintenance env => exact .keep _
  | http env draws req addr => exact handleHttpRequest_row core rater hcore last j
  | receive env packet addr batch =>
    have hd := hdead (.receive env packet addr batch)
    have hstep := onUdpReceive_step core rater t env packet addr batch
    simp only [machine]
    generalize onUdpReceive core rater t env packet addr batch = out at hstep ⊢
    cases hstep with
    | short _ => exact .keep _
    | dropped _ => exact .keep _
    | pingLimited _ => exact .keep _
    | ping _ _ => exact .keep _
    | forward s r hf =>
      have hrow := handleDataForward_row core hcore last hlast t s r packet addr
        (batch.recordV2Rx (UInt64.ofNat packet.length)) hd j
      apply hrow.mono
      rintro e ⟨hv, rfl, rfl⟩
      exact ⟨env, packet, batch, rfl, ⟨r, hf⟩, hv⟩

end Refinement

/-- Accepting a sender gives its slot the source and the time of the packet. -/
theorem view_acceptSender (hcore : core.FixedEndpoint) {expired : Nat → Nat → Bool}
    (htime : core.TimesOutBy expired) {t t' : TunnelV2 C R} {env : Env} {s : Int16}
    {packet : Packet} {addr : SocketAddr} (hacc : acceptSender core t env s packet addr = some t') :
    core.view core.lastReceive t'.mappings = Function.update
      (core.view core.lastReceive t.mappings) s (some ⟨some addr, env.timestamp⟩) := by
  have hstep := acceptSender_step core t env s packet addr
  rw [hacc] at hstep
  cases hstep with
  | claimed client _ _ => exact core.view_insert hcore htime t.mappings s addr env.timestamp
  | reconnected client ep _ _ _ _ =>
    exact core.view_insert hcore htime t.mappings s addr env.timestamp
  | refreshed client hget hep =>
    exact core.view_refresh hcore htime hget hep packet.length env.timestamp

/-- A sender whose slot is owned is accepted if it is the owner or the owner is silent. -/
theorem isSome_acceptSender_iff {expired : Nat → Nat → Bool} (htime : core.TimesOutBy expired)
    {t : TunnelV2 C R}
    (env : Env) {s : Int16} (packet : Packet) (addr : SocketAddr) {ep : SocketAddr} {l : Nat}
    (hb : core.view core.lastReceive t.mappings s = some ⟨some ep, l⟩) :
    (acceptSender core t env s packet addr).isSome ↔
      ep = addr ∨ expired l env.timestamp = true := by
  obtain ⟨client, hget, hslot⟩ := Option.map_eq_some_iff.mp hb
  have hep : core.remoteEp client = some ep := congrArg Slot.endpoint hslot
  have hl : core.lastReceive client = l := congrArg Slot.last hslot
  have hto := htime.isTimedOut_eq client env.timestamp
  rw [hl] at hto
  rw [← hto]
  unfold acceptSender
  by_cases heq : ep = addr
  · simp [hget, hep, heq]
  · cases hdead : core.isTimedOut client env.timestamp with
    | true => simp [hget, hep, heq, hdead]
    | false => simp [hget, hep, heq, hdead]

/-- A packet of the bound endpoint refreshes its slot and is forwarded as the table says. -/
theorem handleDataForward_bound (hcore : core.FixedEndpoint) {expired : Nat → Nat → Bool}
    (htime : core.TimesOutBy expired) (t : TunnelV2 C R) (env : Env) {s r : Int16}
    (packet : Packet) {addr : SocketAddr} (batch : LocalMetricsBatch) {l : Nat}
    (hb : core.view core.lastReceive t.mappings s = some ⟨some addr, l⟩) (hne : s ≠ r) :
    core.view core.lastReceive
        (handleDataForward core t env s r packet addr batch).1.mappings s =
      some ⟨some addr, env.timestamp⟩ ∧
    (handleDataForward core t env s r packet addr batch).2.2 =
      ((core.forwardInfo t.mappings r addr).map fun b => (⟨packet, b⟩ : Datagram)).toList := by
  obtain ⟨client, hget, hslot⟩ := Option.map_eq_some_iff.mp hb
  have hep : core.remoteEp client = some addr := congrArg Slot.endpoint hslot
  have hacc : acceptSender core t env s packet addr = some { t with
      mappings := t.mappings.modify s (core.refresh packet.length env.timestamp) } := by
    unfold acceptSender
    simp only [hget, hep, ne_eq, not_true, if_false]
    rfl
  unfold handleDataForward
  simp only [hacc]
  rw [view_relay core hcore core.lastReceive htime.lastReceive_updateStats, relay_sent]
  constructor
  · show core.view core.lastReceive
      (t.mappings.modify s (core.refresh packet.length env.timestamp)) s = _
    rw [core.view_refresh hcore htime hget hep, Function.update_self]
  · have hother : core.forwardInfo (t.mappings.modify s
        (core.refresh packet.length env.timestamp)) r addr =
        core.forwardInfo t.mappings r addr := by
      unfold RelayCore.forwardInfo
      rw [DashMap.get_modify, if_neg (Ne.symm hne)]
    rw [hother]

end CncnetServer.TunnelV2
