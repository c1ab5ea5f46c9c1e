import CncnetServer.V2.Run
import CncnetServer.V3.Run

/-!
Relay authorisation: what either tunnel may send while it handles a packet.

A datagram is the head of a ping, echoed to its source, or the packet itself,
sent to the endpoint that an earlier accepted packet bound to the receiver id.
The provenance of that endpoint is `Slots.provenance` on the binding table; that
an accepted packet came from a valid address is a field of `ReachesForward`.
-/

namespace CncnetServer

open Runs Slots

variable {C A R : Type} (core : RelayCore C A) (rater : Rater R)

/-- The datagram echoes the first twelve bytes of a ping to its source. -/
structure PingReply {K : Type} [OfNat K 0] (header : Packet → Option (K × K))
    (packet : Packet) (addr : SocketAddr) (d : Datagram) : Prop where
  ids : header packet = some (0, 0)
  length : packet.length = 50
  datagram : d = ⟨packet.take 12, addr⟩

/-- The datagram is the packet itself, sent on the strength of the bindings:
`now` before the packet is handled and `next` after it; `accepted id b` says that
an earlier packet of `b` was accepted with sender id `id`. -/
structure AuthorisedRelay {K : Type} [DecidableEq K] (header : Packet → Option (K × K))
    (now next : DashMap K C) (accepted : K → SocketAddr → Prop) (maintenanceMode : Bool)
    (packet : Packet) (addr : SocketAddr) (d : Datagram) (s r : K) : Prop where
  ids : header packet = some (s, r)
  payload : d.payload = packet
  ids_ne : s ≠ r
  dest_ne : d.dest ≠ addr
  receiver : core.endpointOf now r = some d.dest
  receiver_next : core.endpointOf next r = some d.dest
  provenance : accepted r d.dest
  sender : core.endpointOf next s = some addr
  addr_valid : core.validateAddress addr = true
  dest_valid : core.validateAddress d.dest = true
  maintenance : maintenanceMode = false

/-- What a handler may send for a packet. -/
def SentLawfully {K : Type} [DecidableEq K] [OfNat K 0] (header : Packet → Option (K × K))
    (now next : DashMap K C) (accepted : K → SocketAddr → Prop) (maintenanceMode : Bool)
    (packet : Packet) (addr : SocketAddr) (sent : List Datagram) : Prop :=
  sent = [] ∨ ∃ d, sent = [d] ∧ (PingReply header packet addr d ∨
    ∃ s r, AuthorisedRelay core header now next accepted maintenanceMode packet addr d s r)

/-! ## V3 -/

namespace TunnelV3

/-- Some event of the run accepted a packet of `b` with sender id `id`. -/
def AcceptedIn (t : TunnelV3 C A R) (before : List Event) (id : UInt32) (b : SocketAddr) : Prop :=
  ∃ before₁ e before₂, before = before₁ ++ e :: before₂ ∧
    EventAccepts core rater ((machine core rater).run t before₁) e id b

theorem acceptedIn_of_endpointOf (hcore : core.FixedEndpoint) {t : TunnelV3 C A R}
    (hempty : t.mappings = ∅) {before : List Event} {id : UInt32} {b : SocketAddr}
    (h : core.endpointOf ((machine core rater).run t before).mappings id = some b) :
    AcceptedIn core rater t before id b := by
  have href := refines core rater hcore (fun _ => 0) (fun _ _ _ _ => rfl)
    (fun _ _ => True) (fun _ _ _ => trivial)
  have hb := (core.boundTo_view fun _ => 0).mpr h
  rcases Slots.provenance href hb with h0 | hacc
  · simp [RelayCore.view, BoundTo, hempty] at h0
  · exact hacc

/-- A packet that was accepted came from a valid address. -/
theorem validateAddress_of_acceptedIn {t : TunnelV3 C A R} {before : List Event} {id : UInt32}
    {b : SocketAddr} (h : AcceptedIn core rater t before id b) :
    core.validateAddress b = true := by
  obtain ⟨_, _, _, _, env, packet, batch, _, ⟨r, hf⟩, _⟩ := h
  exact hf.addr_valid

theorem handleDataForward_lawful (hcore : core.FixedEndpoint) {t : TunnelV3 C A R} {env : Env}
    {s r : UInt32} {packet : Packet} {addr : SocketAddr} {batch : LocalMetricsBatch}
    {accepted : UInt32 → SocketAddr → Prop}
    (hacc : ∀ id b, core.endpointOf t.mappings id = some b →
      accepted id b ∧ core.validateAddress b = true)
    (hf : ReachesForward core t packet addr s r) :
    SentLawfully core parsePacketHeader t.mappings
      (handleDataForward core rater t env s r packet addr batch).1.mappings accepted
      t.maintenanceMode packet addr
      (handleDataForward core rater t env s r packet addr batch).2.2 := by
  have hbound := senderValid_bound core rater hcore t env s packet addr
  have hother := senderValid_get_ne core rater t env s packet addr (Ne.symm hf.ids_ne)
  unfold handleDataForward
  generalize senderValid core rater t env s packet addr = out at hbound hother ⊢
  obtain ⟨valid, t'⟩ := out
  cases valid with
  | false => exact Or.inl rfl
  | true =>
    simp only [Bool.not_true, Bool.false_eq_true, if_false]
    have hrelay := core.endpointOf_congr
      (view_relay core hcore (fun _ => 0) (fun _ _ _ _ => rfl) t' env r packet addr batch)
    have hsame : core.endpointOf t'.mappings r = core.endpointOf t.mappings r := by
      unfold RelayCore.endpointOf
      rw [hother]
    rw [relay_sent]
    cases hinfo : core.forwardInfo t'.mappings r addr with
    | none => exact Or.inl rfl
    | some b =>
      obtain ⟨hr, hne⟩ := core.forwardInfo_eq_some.mp hinfo
      refine Or.inr ⟨⟨packet, b⟩, rfl, Or.inr ⟨s, r, ?_⟩⟩
      exact {
        ids := hf.header
        payload := rfl
        ids_ne := hf.ids_ne
        dest_ne := hne
        receiver := hsame ▸ hr
        receiver_next := by rw [hrelay]; exact hr
        provenance := (hacc r b (hsame ▸ hr)).1
        sender := by rw [hrelay]; exact hbound rfl
        addr_valid := hf.addr_valid
        dest_valid := (hacc r b (hsame ▸ hr)).2
        maintenance := hf.notMaintenance }

theorem onReceive_lawful (hcore : core.FixedEndpoint) {t : TunnelV3 C A R} {env : Env}
    {packet : Packet} {addr : SocketAddr} {batch : LocalMetricsBatch}
    {accepted : UInt32 → SocketAddr → Prop}
    (hacc : ∀ id b, core.endpointOf t.mappings id = some b →
      accepted id b ∧ core.validateAddress b = true) :
    SentLawfully core parsePacketHeader t.mappings
      (onReceive core rater t env packet addr batch).1.mappings accepted t.maintenanceMode
      packet addr (onReceive core rater t env packet addr batch).2.2 := by
  have hstep := onReceive_step core rater t env packet addr batch
  generalize onReceive core rater t env packet addr batch = out at hstep ⊢
  cases hstep with
  | short _ => exact Or.inl rfl
  | command s r _ _ => exact Or.inl rfl
  | dropped _ => exact Or.inl rfl
  | pingLimited _ => exact Or.inl rfl
  | ping hh hlen =>
    refine Or.inr ⟨_, rfl, Or.inl ⟨hh, hlen, ?_⟩⟩
    rw [hlen]
    rfl
  | forward s r hf => exact handleDataForward_lawful core rater hcore hacc hf

end TunnelV3

/-! ## V2 -/

namespace TunnelV2

/-- Some event of the run accepted a packet of `b` with sender id `id`. -/
def AcceptedIn (t : TunnelV2 C R) (before : List Event) (id : Int16) (b : SocketAddr) : Prop :=
  ∃ before₁ e before₂, before = before₁ ++ e :: before₂ ∧
    EventAccepts core ((machine core rater).run t before₁) e id b

theorem acceptedIn_of_endpointOf (hcore : core.FixedEndpoint) {t : TunnelV2 C R}
    (hempty : t.mappings = ∅) {before : List Event} {id : Int16} {b : SocketAddr}
    (h : core.endpointOf ((machine core rater).run t before).mappings id = some b) :
    AcceptedIn core rater t before id b := by
  have href := refines core rater hcore (fun _ => 0) (fun _ _ _ _ => rfl)
    (fun _ _ => True) (fun _ _ _ => trivial)
  have hb := (core.boundTo_view fun _ => 0).mpr h
  rcases Slots.provenance href hb with h0 | hacc
  · simp [RelayCore.view, BoundTo, hempty] at h0
  · exact hacc

/-- A packet that was accepted came from a valid address. -/
theorem validateAddress_of_acceptedIn {t : TunnelV2 C R} {before : List Event} {id : Int16}
    {b : SocketAddr} (h : AcceptedIn core rater t before id b) :
    core.validateAddress b = true := by
  obtain ⟨_, _, _, _, env, packet, batch, _, ⟨r, hf⟩, _⟩ := h
  exact hf.addr_valid

theorem handleDataForward_lawful (hcore : core.FixedEndpoint) {t : TunnelV2 C R} {env : Env}
    {s r : Int16} {packet : Packet} {addr : SocketAddr} {batch : LocalMetricsBatch}
    {accepted : Int16 → SocketAddr → Prop}
    (hacc : ∀ id b, core.endpointOf t.mappings id = some b →
      accepted id b ∧ core.validateAddress b = true)
    (hf : ReachesForward core t packet addr s r) :
    SentLawfully core parsePacketHeader t.mappings
      (handleDataForward core t env s r packet addr batch).1.mappings accepted
      t.maintenanceMode packet addr
      (handleDataForward core t env s r packet addr batch).2.2 := by
  unfold handleDataForward
  cases hsend : acceptSender core t env s packet addr with
  | none => exact Or.inl rfl
  | some t' =>
    have hbound := acceptSender_bound core hcore hsend
    have hother := acceptSender_get_ne core hsend (Ne.symm hf.ids_ne)
    dsimp only
    have hrelay := core.endpointOf_congr
      (view_relay core hcore (fun _ => 0) (fun _ _ _ _ => rfl) t' env r packet addr batch)
    have hsame : core.endpointOf t'.mappings r = core.endpointOf t.mappings r := by
      unfold RelayCore.endpointOf
      rw [hother]
    rw [relay_sent]
    cases hinfo : core.forwardInfo t'.mappings r addr with
    | none => exact Or.inl rfl
    | some b =>
      obtain ⟨hr, hne⟩ := core.forwardInfo_eq_some.mp hinfo
      refine Or.inr ⟨⟨packet, b⟩, rfl, Or.inr ⟨s, r, ?_⟩⟩
      exact {
        ids := hf.header
        payload := rfl
        ids_ne := hf.ids_ne
        dest_ne := hne
        receiver := hsame ▸ hr
        receiver_next := by rw [hrelay]; exact hr
        provenance := (hacc r b (hsame ▸ hr)).1
        sender := by rw [hrelay]; exact hbound
        addr_valid := hf.addr_valid
        dest_valid := (hacc r b (hsame ▸ hr)).2
        maintenance := hf.notMaintenance }

theorem onUdpReceive_lawful (hcore : core.FixedEndpoint) {t : TunnelV2 C R} {env : Env}
    {packet : Packet} {addr : SocketAddr} {batch : LocalMetricsBatch}
    {accepted : Int16 → SocketAddr → Prop}
    (hacc : ∀ id b, core.endpointOf t.mappings id = some b →
      accepted id b ∧ core.validateAddress b = true) :
    SentLawfully core parsePacketHeader t.mappings
      (onUdpReceive core rater t env packet addr batch).1.mappings accepted t.maintenanceMode
      packet addr (onUdpReceive core rater t env packet addr batch).2.2 := by
  have hstep := onUdpReceive_step core rater t env packet addr batch
  generalize onUdpReceive core rater t env packet addr batch = out at hstep ⊢
  cases hstep with
  | short _ => exact Or.inl rfl
  | dropped _ => exact Or.inl rfl
  | pingLimited _ => exact Or.inl rfl
  | ping hh hlen =>
    refine Or.inr ⟨_, rfl, Or.inl ⟨hh, hlen, ?_⟩⟩
    rw [hlen]
    rfl
  | forward s r hf => exact handleDataForward_lawful core hcore hacc hf

end TunnelV2

/-! ## Both tunnels -/

/-- **Relay authorisation.** From a tunnel with no clients, after any run of
packets, commands, cleanups, requests and maintenance switches, a packet handler
sends only what it may, and at most one datagram. -/
theorem relay_authorisation (hcore : core.FixedEndpoint) :
    (∀ (t₀ : TunnelV3 C A R), t₀.mappings = ∅ →
      ∀ (before : List TunnelV3.Event) (env : Env) (packet : Packet) (addr : SocketAddr)
        (batch : LocalMetricsBatch),
      let t := (TunnelV3.machine core rater).run t₀ before
      let out := TunnelV3.onReceive core rater t env packet addr batch
      SentLawfully core TunnelV3.parsePacketHeader t.mappings out.1.mappings
        (TunnelV3.AcceptedIn core rater t₀ before) t.maintenanceMode packet addr out.2.2) ∧
    (∀ (t₀ : TunnelV2 C R), t₀.mappings = ∅ →
      ∀ (before : List TunnelV2.Event) (env : Env) (packet : Packet) (addr : SocketAddr)
        (batch : LocalMetricsBatch),
      let t := (TunnelV2.machine core rater).run t₀ before
      let out := TunnelV2.onUdpReceive core rater t env packet addr batch
      SentLawfully core TunnelV2.parsePacketHeader t.mappings out.1.mappings
        (TunnelV2.AcceptedIn core rater t₀ before) t.maintenanceMode packet addr out.2.2) := by
  constructor
  · intro t₀ hempty before env packet addr batch
    apply TunnelV3.onReceive_lawful core rater hcore
    intro id b hb
    have hacc := TunnelV3.acceptedIn_of_endpointOf core rater hcore hempty hb
    exact ⟨hacc, TunnelV3.validateAddress_of_acceptedIn core rater hacc⟩
  · intro t₀ hempty before env packet addr batch
    apply TunnelV2.onUdpReceive_lawful core rater hcore
    intro id b hb
    have hacc := TunnelV2.acceptedIn_of_endpointOf core rater hcore hempty hb
    exact ⟨hacc, TunnelV2.validateAddress_of_acceptedIn core rater hacc⟩

/-- Two players of one game: the second packet is relayed to the sender of the first. -/
theorem relay_authorisation_two_players :
    let core := RelayCore.reference TunnelV3.timeoutSeconds
    let t₀ := TunnelV3.new (C := RelayCore.ReferenceClient) (A := List Bool) Rater.reference id
      ⟨50001, 50000, 200, "", 8, 4⟩
    let alice : SocketAddr := .v4 8 8 8 8 1234
    let bob : SocketAddr := .v4 9 9 9 9 1234
    let before := [TunnelV3.Event.receive ⟨1000, 1, true⟩ [2, 0, 0, 0, 1, 0, 0, 0] bob .new]
    let t := (TunnelV3.machine core Rater.reference).run t₀ before
    let packet : Packet := [1, 0, 0, 0, 2, 0, 0, 0, 42]
    let out := TunnelV3.onReceive core Rater.reference t ⟨2000, 2, true⟩ packet alice .new
    out.2.2 = [⟨packet, bob⟩] ∧
      SentLawfully core TunnelV3.parsePacketHeader t.mappings out.1.mappings
        (TunnelV3.AcceptedIn core Rater.reference t₀ before) t.maintenanceMode packet alice
        out.2.2 :=
  ⟨by decide +kernel,
    (relay_authorisation (RelayCore.reference TunnelV3.timeoutSeconds) Rater.reference
      (RelayCore.reference_fixedEndpoint _)).1 _ rfl _ _ _ _ _⟩

end CncnetServer
