import CncnetServer.V2.Run
import CncnetServer.V3.Run

/-!
What maintenance mode does to the clients that are already connected.

The gate stands before the whole data path of both tunnels, so with the mode on a
packet of a connected client is neither forwarded nor counted as a sign of life.

* `SameEffect`: a packet is handled alike with the mode on and off;
* `MaintenanceGate`: when that is so, what the mode does keep out, and which
  clients keep their binding over a run.
-/

namespace CncnetServer

open Runs Slots

variable {C A R : Type} (core : RelayCore C A) (rater : Rater R) (expired : Nat → Nat → Bool)

/-- Two handlings of a packet forward the same datagrams and leave the same slot
to its sender. -/
def SameEffect {K : Type} [DecidableEq K] (sender : K) (on off : DashMap K C × List Datagram) :
    Prop :=
  on.2 = off.2 ∧ core.view core.lastReceive on.1 sender = core.view core.lastReceive off.1 sender

/-- A dropped packet has the effect of a refresh at `now` and the forward to `dest`
only if there is nothing to refresh and nothing to forward. -/
theorem sameEffect_dropped {K : Type} [DecidableEq K] {s : K} {m m' : DashMap K C} {l now : Nat}
    {addr : SocketAddr} {packet : Packet} {dest : Option SocketAddr}
    (hm : core.view core.lastReceive m s = some ⟨some addr, l⟩)
    (hm' : core.view core.lastReceive m' s = some ⟨some addr, now⟩) :
    SameEffect core s (m, []) (m', (dest.map fun b => (⟨packet, b⟩ : Datagram)).toList) ↔
      l = now ∧ dest = none := by
  unfold SameEffect
  rw [hm, hm']
  cases dest with
  | none => simp
  | some b => simp

/-! ## V3 -/

namespace TunnelV3

/-- The ids of a packet that `on_receive` treats as data and that is valid. -/
def dataIds (packet : Packet) (addr : SocketAddr) : Option (UInt32 × UInt32) :=
  (parsePacketHeader packet).filter fun ids =>
    !decide (isCommand ids.1 ids.2 packet) && validatePacket core ids.1 ids.2 addr &&
      !decide (ids.1 = 0 ∧ ids.2 = 0)

theorem reachesForward_iff {t : TunnelV3 C A R} {packet : Packet} {addr : SocketAddr}
    {s r : UInt32} :
    ReachesForward core t packet addr s r ↔
      dataIds core packet addr = some (s, r) ∧ t.maintenanceMode = false := by
  unfold dataIds
  rw [Option.filter_eq_some_iff]
  constructor
  · intro h
    refine ⟨⟨h.header, ?_⟩, h.notMaintenance⟩
    simp only [Bool.and_eq_true, Bool.not_eq_true', decide_eq_false_iff_not]
    exact ⟨⟨h.notCommand, h.valid⟩, h.notPing⟩
  · rintro ⟨⟨hh, hd⟩, hm⟩
    simp only [Bool.and_eq_true, Bool.not_eq_true', decide_eq_false_iff_not] at hd
    exact ⟨hh, hd.1.1, hd.1.2, hd.2, hm⟩

/-- The event brings a valid data packet of `addr` with sender id `id`. -/
def SendsData (id : UInt32) (addr : SocketAddr) : Event → Prop
  | .receive _ packet source _ => source = addr ∧ (dataIds core packet source).map Prod.fst = some id
  | _ => False

instance (id : UInt32) (addr : SocketAddr) : DecidablePred (SendsData core id addr)
  | .receive _ _ _ _ => inferInstanceAs (Decidable (_ ∧ _))
  | .cleanup _ => inferInstanceAs (Decidable False)
  | .toggleMaintenance _ => inferInstanceAs (Decidable False)

/-- With the mode on, a step leaves a row as it is or drops it. -/
theorem step_maintenance_get {t : TunnelV3 C A R} (hm : t.maintenanceMode = true) (e : Event)
    (id : UInt32) :
    ((machine core rater).step t e).mappings.get id = t.mappings.get id ∨
      ((machine core rater).step t e).mappings.get id = none := by
  have hretain : ∀ (t : TunnelV3 C A R) (env : Env),
      (cleanupExpiredMappings core rater t env).mappings.get id = t.mappings.get id ∨
        (cleanupExpiredMappings core rater t env).mappings.get id = none := by
    intro t env
    simp only [cleanupExpiredMappings, DashMap.get_retain]
    cases t.mappings.get id with
    | none => exact Or.inl rfl
    | some c => cases hto : core.isTimedOut c env.timestamp <;> simp [hto]
  cases e with
  | cleanup env => exact hretain t env
  | toggleMaintenance env => exact Or.inl rfl
  | receive env packet addr batch =>
    have hstep := onReceive_step core rater t env packet addr batch
    simp only [machine]
    generalize onReceive core rater t env packet addr batch = out at hstep ⊢
    cases hstep with
    | short _ => exact Or.inl rfl
    | dropped _ => exact Or.inl rfl
    | pingLimited _ => exact Or.inl rfl
    | ping _ _ => exact Or.inl rfl
    | forward s r hf => exact absurd hf.notMaintenance (by simp [hm])
    | command s r _ _ =>
      have hcmd := executeCommand_step core rater t env packet
      generalize executeCommand core rater t env packet = out at hcmd ⊢
      cases hcmd with
      | ignored => exact Or.inl rfl
      | noEffect => exact Or.inl rfl
      | toggled _ => exact Or.inl rfl
      | cleaned _ => exact hretain { t with lastCommandTick := env.elapsedSecs } env

variable {expired} in
/-- A client that keeps sending while the mode is off keeps its binding. -/
theorem keeps_binding (hcore : core.FixedEndpoint) (htime : core.TimesOutBy expired)
    {t : TunnelV3 C A R} {id : UInt32} {addr : SocketAddr} {l : Nat} {events : List Event}
    (hb : core.view core.lastReceive t.mappings id = some ⟨some addr, l⟩)
    (hoff : (machine core rater).Along
      (fun t e => SendsData core id addr e → t.maintenanceMode = false) t events)
    (hk : KeepsSending expired (SendsData core id addr) Event.time l events) :
    core.endpointOf ((machine core rater).run t events).mappings id = some addr := by
  have href := refines core rater hcore core.lastReceive htime.lastReceive_updateStats
    (fun e s => expired s.last e.time = true)
    (fun e c h => (htime.isTimedOut_eq c e.time).symm.trans h)
  apply (core.boundTo_view core.lastReceive).mp
  refine Slots.stays_bound href ?_ ?_ hb hoff hk
  · -- what is accepted for the id is one of the client's packets
    rintro t _ ⟨env, packet, batch, rfl, ⟨r, hf⟩, _⟩
    exact ⟨rfl, by rw [((reachesForward_iff core).mp hf).1]; rfl⟩
  · intro t e l' hC hs hview
    have hopen := hC hs
    cases e with
    | cleanup env => exact hs.elim
    | toggleMaintenance env => exact hs.elim
    | receive env packet source batch =>
      obtain ⟨rfl, hids⟩ := hs
      obtain ⟨⟨s, r⟩, hd, hs⟩ := Option.map_eq_some_iff.mp hids
      obtain rfl : s = id := hs
      have hf := (reachesForward_iff core).mpr ⟨hd, hopen⟩
      simp only [machine]
      rw [hf.onReceive_eq]
      exact (handleDataForward_bound core rater hcore htime t env packet _ hview hf.ids_ne).1

/-- What maintenance mode does to a V3 tunnel. -/
structure MaintenanceGate : Prop where
  /-- A packet of a connected client fares alike with the mode on and off exactly
  when it is invalid, or there is nothing to refresh and nobody to forward it to. -/
  same_effect_iff : ∀ (t : TunnelV3 C A R) (env : Env) (packet : Packet) (addr : SocketAddr)
    (batch : LocalMetricsBatch) (s r : UInt32) (l : Nat),
    parsePacketHeader packet = some (s, r) → ¬ isCommand s r packet → ¬ (s = 0 ∧ r = 0) →
    core.view core.lastReceive t.mappings s = some ⟨some addr, l⟩ →
    let on := onReceive core rater { t with maintenanceMode := true } env packet addr batch
    let off := onReceive core rater { t with maintenanceMode := false } env packet addr batch
    SameEffect core s (on.1.mappings, on.2.2) (off.1.mappings, off.2.2) ↔
      validatePacket core s r addr = false ∨
        (l = env.timestamp ∧ core.forwardInfo t.mappings r addr = none)
  /-- While the mode is on, no step adds an id or binds one to another endpoint. -/
  rejects_new : ∀ (t : TunnelV3 C A R) (e : Event) (id : UInt32), t.maintenanceMode = true →
    id ∈ ((machine core rater).step t e).mappings → id ∈ t.mappings ∧
      core.endpointOf ((machine core rater).step t e).mappings id = core.endpointOf t.mappings id
  /-- A client that sends before its time runs out, with the mode off whenever it sends,
  stays bound. -/
  keeps_binding : ∀ (t : TunnelV3 C A R) (id : UInt32) (addr : SocketAddr) (l : Nat)
    (events : List Event), core.view core.lastReceive t.mappings id = some ⟨some addr, l⟩ →
    (machine core rater).Along
      (fun t e => SendsData core id addr e → t.maintenanceMode = false) t events →
    KeepsSending expired (SendsData core id addr) Event.time l events →
    core.endpointOf ((machine core rater).run t events).mappings id = some addr

theorem maintenanceGate (hcore : core.FixedEndpoint) (htime : core.TimesOutBy expired) :
    MaintenanceGate core rater expired where
  same_effect_iff := by
    intro t env packet addr batch s r l hh hcmd hping hb on off
    have hon : on = ({ t with maintenanceMode := true },
        batch.recordV3Rx (UInt64.ofNat packet.length), []) := by
      simp only [on, onReceive_data core rater hh hcmd hping, or_true, if_true]
    cases hval : validatePacket core s r addr with
    | false =>
      have hoff : off = ({ t with maintenanceMode := false },
          batch.recordV3Rx (UInt64.ofNat packet.length), []) := by
        simp only [off, onReceive_data core rater hh hcmd hping, hval, true_or, if_true]
      rw [hon, hoff]
      exact iff_of_true ⟨rfl, rfl⟩ (Or.inl rfl)
    | true =>
      have hne : s ≠ r := by
        rintro rfl
        have hs := (core.validatePacket_eq_true.mp hval).1 rfl
        exact hping ⟨hs, hs⟩
      have hoff : off = handleDataForward core rater { t with maintenanceMode := false } env s r
          packet addr (batch.recordV3Rx (UInt64.ofNat packet.length)) := by
        simp only [off, onReceive_data core rater hh hcmd hping, hval, Bool.true_eq_false,
          Bool.false_eq_true, or_self, if_false]
      have hfwd := handleDataForward_bound core rater hcore htime
        { t with maintenanceMode := false } env packet
        (batch.recordV3Rx (UInt64.ofNat packet.length)) hb hne
      rw [hon, hoff, hfwd.2]
      simp only [Bool.true_eq_false, false_or]
      exact sameEffect_dropped core hb hfwd.1
  rejects_new := by
    intro t e id hm hmem
    unfold RelayCore.endpointOf
    rcases step_maintenance_get core rater hm e id with h | h
    · rw [DashMap.mem_iff_get, h, ← DashMap.mem_iff_get] at hmem
      exact ⟨hmem, by rw [h]⟩
    · exact absurd hmem (DashMap.get_eq_none.mp h)
  keeps_binding := fun _ _ _ _ _ => keeps_binding core rater hcore htime

end TunnelV3

/-! ## V2 -/

namespace TunnelV2

/-- The ids of a packet that `on_udp_receive` treats as data and that is valid. -/
def dataIds (packet : Packet) (addr : SocketAddr) : Option (Int16 × Int16) :=
  (parsePacketHeader packet).filter fun ids =>
    validatePacket core ids.1 ids.2 addr && !decide (ids.1 = 0 ∧ ids.2 = 0)

theorem reachesForward_iff {t : TunnelV2 C R} {packet : Packet} {addr : SocketAddr}
    {s r : Int16} :
    ReachesForward core t packet addr s r ↔
      dataIds core packet addr = some (s, r) ∧ t.maintenanceMode = false := by
  unfold dataIds
  rw [Option.filter_eq_some_iff]
  constructor
  · intro h
    refine ⟨⟨h.header, ?_⟩, h.notMaintenance⟩
    simp only [Bool.and_eq_true, Bool.not_eq_true', decide_eq_false_iff_not]
    exact ⟨h.valid, h.notPing⟩
  · rintro ⟨⟨hh, hd⟩, hm⟩
    simp only [Bool.and_eq_true, Bool.not_eq_true', decide_eq_false_iff_not] at hd
    exact ⟨hh, hd.1, hd.2, hm⟩

/-- The event brings a valid data packet of `addr` with sender id `id`. -/
def SendsData (id : Int16) (addr : SocketAddr) : Event → Prop
  | .receive _ packet source _ => source = addr ∧ (dataIds core packet source).map Prod.fst = some id
  | _ => False

instance (id : Int16) (addr : SocketAddr) : DecidablePred (SendsData core id addr)
  | .receive _ _ _ _ => inferInstanceAs (Decidable (_ ∧ _))
  | .http _ _ _ _ => inferInstanceAs (Decidable False)
  | .heartbeat _ => inferInstanceAs (Decidable False)
  | .toggleMaintenance _ => inferInstanceAs (Decidable False)

/-- With the mode on, a step leaves a row as it is or drops it. -/
theorem step_maintenance_get {t : TunnelV2 C R} (hm : t.maintenanceMode = true) (e : Event)
    (id : Int16) :
    ((machine core rater).step t e).mappings.get id = t.mappings.get id ∨
      ((machine core rater).step t e).mappings.get id = none := by
  cases e with
  | heartbeat env =>
    simp only [machine, heartbeat, cleanupExpiredMappings, DashMap.get_retain]
    cases t.mappings.get id with
    | none => exact Or.inl rfl
    | some c => cases hto : core.isTimedOut c env.timestamp <;> simp [hto]
  | toggleMaintenance env => exact Or.inl rfl
  | http env draws req addr =>
    rcases handleHttpRequest_get core rater t env.timestamp draws req addr id with h | h
    · exact Or.inl h
    · exact absurd h.1 (by simp [hm])
  | receive env packet addr batch =>
    have hstep := onUdpReceive_step core rater t env packet addr batch
    simp only [machine]
    generalize onUdpReceive core rater t env packet addr batch = out at hstep ⊢
    cases hstep with
    | short _ => exact Or.inl rfl
    | dropped _ => exact Or.inl rfl
    | pingLimited _ => exact Or.inl rfl
    | ping _ _ => exact Or.inl rfl
    | forward s r hf => exact absurd hf.notMaintenance (by simp [hm])

variable {expired} in
/-- A client that keeps sending while the mode is off keeps its binding. -/
theorem keeps_binding (hcore : core.FixedEndpoint) (htime : core.TimesOutBy expired)
    {t : TunnelV2 C R} {id : Int16} {addr : SocketAddr} {l : Nat} {events : List Event}
    (hb : core.view core.lastReceive t.mappings id = some ⟨some addr, l⟩)
    (hoff : (machine core rater).Along
      (fun t e => SendsData core id addr e → t.maintenanceMode = false) t events)
    (hk : KeepsSending expired (SendsData core id addr) Event.time l events) :
    core.endpointOf ((machine core rater).run t events).mappings id = some addr := by
  have href := refines core rater hcore core.lastReceive htime.lastReceive_updateStats
    (fun e s => expired s.last e.time = true)
    (fun e c h => (htime.isTimedOut_eq c e.time).symm.trans h)
  apply (core.boundTo_view core.lastReceive).mp
  refine Slots.stays_bound href ?_ ?_ hb hoff hk
  · -- what is accepted for the id is one of the client's packets
    rintro t _ ⟨env, packet, batch, rfl, ⟨r, hf⟩, _⟩
    exact ⟨rfl, by rw [((reachesForward_iff core).mp hf).1]; rfl⟩
  · intro t e l' hC hs hview
    have hopen := hC hs
    cases e with
    | http env draws req addr => exact hs.elim
    | heartbeat env => exact hs.elim
    | toggleMaintenance env => exact hs.elim
    | receive env packet source batch =>
      obtain ⟨rfl, hids⟩ := hs
      obtain ⟨⟨s, r⟩, hd, hs⟩ := Option.map_eq_some_iff.mp hids
      obtain rfl : s = id := hs
      have hf := (reachesForward_iff core).mpr ⟨hd, hopen⟩
      simp only [machine]
      rw [hf.onUdpReceive_eq]
      exact (handleDataForward_bound core hcore htime t env packet _ hview hf.ids_ne).1

/-- What maintenance mode does to a V2 tunnel. -/
structure MaintenanceGate : Prop where
  /-- A packet of a connected client fares alike with the mode on and off exactly
  when it is invalid, or there is nothing to refresh and nobody to forward it to. -/
  same_effect_iff : ∀ (t : TunnelV2 C R) (env : Env) (packet : Packet) (addr : SocketAddr)
    (batch : LocalMetricsBatch) (s r : Int16) (l : Nat),
    parsePacketHeader packet = some (s, r) → ¬ (s = 0 ∧ r = 0) →
    core.view core.lastReceive t.mappings s = some ⟨some addr, l⟩ →
    let on := onUdpReceive core rater { t with maintenanceMode := true } env packet addr batch
    let off := onUdpReceive core rater { t with maintenanceMode := false } env packet addr batch
    SameEffect core s (on.1.mappings, on.2.2) (off.1.mappings, off.2.2) ↔
      validatePacket core s r addr = false ∨
        (l = env.timestamp ∧ core.forwardInfo t.mappings r addr = none)
  /-- While the mode is on, no step adds an id or binds one to another endpoint. -/
  rejects_new : ∀ (t : TunnelV2 C R) (e : Event) (id : Int16), t.maintenanceMode = true →
    id ∈ ((machine core rater).step t e).mappings → id ∈ t.mappings ∧
      core.endpointOf ((machine core rater).step t e).mappings id = core.endpointOf t.mappings id
  /-- A client that sends before its time runs out, with the mode off whenever it sends,
  stays bound. -/
  keeps_binding : ∀ (t : TunnelV2 C R) (id : Int16) (addr : SocketAddr) (l : Nat)
    (events : List Event), core.view core.lastReceive t.mappings id = some ⟨some addr, l⟩ →
    (machine core rater).Along
      (fun t e => SendsData core id addr e → t.maintenanceMode = false) t events →
    KeepsSending expired (SendsData core id addr) Event.time l events →
    core.endpointOf ((machine core rater).run t events).mappings id = some addr

theorem maintenanceGate (hcore : core.FixedEndpoint) (htime : core.TimesOutBy expired) :
    MaintenanceGate core rater expired where
  same_effect_iff := by
    intro t env packet addr batch s r l hh hping hb on off
    have hon : on = ({ t with maintenanceMode := true },
        batch.recordV2Rx (UInt64.ofNat packet.length), []) := by
      simp only [on, onUdpReceive_data core rater hh hping, or_true, if_true]
    cases hval : validatePacket core s r addr with
    | false =>
      have hoff : off = ({ t with maintenanceMode := false },
          batch.recordV2Rx (UInt64.ofNat packet.length), []) := by
        simp only [off, onUdpReceive_data core rater hh hping, hval, true_or, if_true]
      rw [hon, hoff]
      exact iff_of_true ⟨rfl, rfl⟩ (Or.inl rfl)
    | true =>
      have hne : s ≠ r := by
        rintro rfl
        have hs := (core.validatePacket_eq_true.mp hval).1 rfl
        exact hping ⟨hs, hs⟩
      have hoff : off = handleDataForward core { t with maintenanceMode := false } env s r
          packet addr (batch.recordV2Rx (UInt64.ofNat packet.length)) := by
        simp only [off, onUdpReceive_data core rater hh hping, hval, Bool.true_eq_false,
          Bool.false_eq_true, or_self, if_false]
      have hfwd := handleDataForward_bound core hcore htime
        { t with maintenanceMode := false } env packet
        (batch.recordV2Rx (UInt64.ofNat packet.length)) hb hne
      rw [hon, hoff, hfwd.2]
      simp only [Bool.true_eq_false, false_or]
      exact sameEffect_dropped core hb hfwd.1
  rejects_new := by
    intro t e id hm hmem
    unfold RelayCore.endpointOf
    rcases step_maintenance_get core rater hm e id with h | h
    · rw [DashMap.mem_iff_get, h, ← DashMap.mem_iff_get] at hmem
      exact ⟨hmem, by rw [h]⟩
    · exact absurd hmem (DashMap.get_eq_none.mp h)
  keeps_binding := fun _ _ _ _ _ => keeps_binding core rater hcore htime

end TunnelV2

/-! ## Both tunnels -/

/-- **Maintenance mode.** In both tunnels the mode keeps new clients out, and it
silences the connected ones: their packets have no effect unless they had none
anyway, so a client stays bound as long as it keeps sending while the mode is off. -/
theorem maintenance_mode_gates_all (hcore : core.FixedEndpoint) (htime : core.TimesOutBy expired) :
    TunnelV3.MaintenanceGate core rater expired ∧ TunnelV2.MaintenanceGate core rater expired :=
  ⟨TunnelV3.maintenanceGate core rater expired hcore htime,
    TunnelV2.maintenanceGate core rater expired hcore htime⟩

/-- Alice is connected and Bob is, and while the mode is on a packet of Alice for Bob fares
otherwise, or alike when it repeats what she sent just now to nobody, and Carol does not get
in; the mode is on between the packets of Alice only, and she outlives the cleanup. -/
theorem maintenance_mode_gates_all_run :
    let core := RelayCore.reference 30
    let alice : SocketAddr := .v4 8 8 8 8 1234
    let bob : SocketAddr := .v4 9 9 9 9 1234
    let carol : SocketAddr := .v4 7 7 7 7 1234
    let config : ServerConfig := ⟨50001, 50000, 200, "", 8, 4⟩
    let env (ms : Nat) : Env := ⟨ms, ms / 1000, true⟩
    (let M := TunnelV3.machine core Rater.reference
      let receive (ms : Nat) (p : Packet) (a : SocketAddr) : TunnelV3.Event :=
        .receive (env ms) p a .new
      let t := M.run (TunnelV3.new (A := List Bool) Rater.reference id config)
        [receive 1000 [2, 0, 0, 0, 1, 0, 0, 0] bob, receive 2000 [1, 0, 0, 0, 2, 0, 0, 0] alice]
      let handled (mode : Bool) (ms : Nat) (p : Packet) :=
        TunnelV3.onReceive core Rater.reference { t with maintenanceMode := mode } (env ms) p alice
          .new
      let events := [receive 20000 [1, 0, 0, 0, 2, 0, 0, 0] alice,
        .toggleMaintenance (env 21000), .toggleMaintenance (env 39000),
        receive 40000 [1, 0, 0, 0, 2, 0, 0, 0] alice, .cleanup (env 65000)]
      ¬ SameEffect core 1 ((handled true 4000 [1, 0, 0, 0, 2, 0, 0, 0]).1.mappings,
          (handled true 4000 [1, 0, 0, 0, 2, 0, 0, 0]).2.2)
        ((handled false 4000 [1, 0, 0, 0, 2, 0, 0, 0]).1.mappings,
          (handled false 4000 [1, 0, 0, 0, 2, 0, 0, 0]).2.2) ∧
      SameEffect core 1 ((handled true 2000 [1, 0, 0, 0, 5, 0, 0, 0]).1.mappings,
          (handled true 2000 [1, 0, 0, 0, 5, 0, 0, 0]).2.2)
        ((handled false 2000 [1, 0, 0, 0, 5, 0, 0, 0]).1.mappings,
          (handled false 2000 [1, 0, 0, 0, 5, 0, 0, 0]).2.2) ∧
      3 ∉ (M.step { t with maintenanceMode := true }
        (receive 4000 [3, 0, 0, 0, 1, 0, 0, 0] carol)).mappings ∧
      core.endpointOf (M.run t events).mappings 1 = some alice) ∧
    (let M := TunnelV2.machine core Rater.reference
      let receive (ms : Nat) (p : Packet) (a : SocketAddr) : TunnelV2.Event :=
        .receive (env ms) p a .new
      let t := M.run (TunnelV2.new Rater.reference config)
        [.http (env 500) (fun n => [1, 2].getD n 3) ⟨true, "/request".toList,
          some "clients=2".toList⟩ alice, receive 1000 [0, 2, 0, 1] bob,
          receive 2000 [0, 1, 0, 2] alice]
      let handled (mode : Bool) :=
        TunnelV2.onUdpReceive core Rater.reference { t with maintenanceMode := mode } (env 4000)
          [0, 1, 0, 2] alice .new
      let events := [receive 20000 [0, 1, 0, 2] alice, .toggleMaintenance (env 21000),
        .toggleMaintenance (env 39000), receive 40000 [0, 1, 0, 2] alice, .heartbeat (env 65000)]
      ¬ SameEffect core 1 ((handled true).1.mappings, (handled true).2.2)
        ((handled false).1.mappings, (handled false).2.2) ∧
      core.endpointOf (M.run t events).mappings 1 = some alice) := by
  intro core alice bob carol config env
  obtain ⟨v3, v2⟩ := maintenance_mode_gates_all (C := RelayCore.ReferenceClient) (A := List Bool)
    core Rater.reference _ (RelayCore.reference_fixedEndpoint _)
    (RelayCore.reference_timesOutInSeconds 30)
  refine ⟨?_, ?_⟩
  · intro M receive t handled events
    have hview : core.view core.lastReceive t.mappings 1 = some ⟨some alice, 2000⟩ := by
      decide +kernel
    refine ⟨?_, ?_, ?_, ?_⟩
    · refine fun hsame => absurd ((v3.same_effect_iff t (env 4000) [1, 0, 0, 0, 2, 0, 0, 0] alice
        .new 1 2 2000 (by decide) (by decide) (by decide) hview).mp hsame) ?_
      decide +kernel
    · exact (v3.same_effect_iff t (env 2000) [1, 0, 0, 0, 5, 0, 0, 0] alice .new 1 5 2000
        (by decide) (by decide) (by decide) hview).mpr (by decide +kernel)
    · intro hmem
      have hold := (v3.rejects_new { t with maintenanceMode := true }
        (receive 4000 [3, 0, 0, 0, 1, 0, 0, 0] carol) 3 rfl hmem).1
      exact absurd hold (by decide +kernel)
    · exact v3.keeps_binding t 1 alice 2000 events hview (by decide +kernel) (by decide +kernel)
  · intro M receive t handled events
    have hview : core.view core.lastReceive t.mappings 1 = some ⟨some alice, 2000⟩ := by
      decide +kernel
    refine ⟨?_, ?_⟩
    · have hother : ¬ (TunnelV2.validatePacket core 1 2 alice = false ∨
          2000 = 4000 ∧ core.forwardInfo t.mappings 2 alice = none) := by
        decide +kernel
      clear_value t
      exact fun hsame => hother ((v2.same_effect_iff t (env 4000) [0, 1, 0, 2] alice .new 1 2 2000
        (by decide) (by decide) hview).mp hsame)
    · exact v2.keeps_binding t 1 alice 2000 events hview (by decide +kernel) (by decide +kernel)

/-- Bob connects at 1 s and Alice at 2 s. With the mode on, a packet of Alice for
Bob has another effect than with the mode off; and if the mode is switched on at
3 s, Alice is dropped by the cleanup at 45 s although she sent at 20 s and at 40 s. -/
theorem maintenance_mode_drops_connected :
    let core := RelayCore.reference TunnelV3.timeoutSeconds
    let machine := TunnelV3.machine core Rater.reference
    let alice : SocketAddr := .v4 8 8 8 8 1234
    let bob : SocketAddr := .v4 9 9 9 9 1234
    let packet : Packet := [1, 0, 0, 0, 2, 0, 0, 0, 42]
    let receive (ms : Nat) (p : Packet) (a : SocketAddr) : TunnelV3.Event :=
      .receive ⟨ms, 1, true⟩ p a .new
    let t := machine.run (TunnelV3.new (A := List Bool) Rater.reference id
      ⟨50001, 50000, 200, "", 8, 4⟩)
      [receive 1000 [2, 0, 0, 0, 1, 0, 0, 0] bob, receive 2000 packet alice]
    let on := TunnelV3.onReceive core Rater.reference { t with maintenanceMode := true }
      ⟨4000, 4, true⟩ packet alice .new
    let off := TunnelV3.onReceive core Rater.reference { t with maintenanceMode := false }
      ⟨4000, 4, true⟩ packet alice .new
    let events : List TunnelV3.Event := [.toggleMaintenance ⟨3000, 3, true⟩,
      receive 20000 packet alice, receive 40000 packet alice, .cleanup ⟨45000, 45, true⟩]
    core.endpointOf t.mappings 1 = some alice ∧
      ¬ SameEffect core 1 (on.1.mappings, on.2.2) (off.1.mappings, off.2.2) ∧
      KeepsSending (RelayCore.moreThan core.second 30) (TunnelV3.SendsData core 1 alice)
        TunnelV3.Event.time 2000 events ∧
      1 ∉ (machine.run t events).mappings := by
  refine ⟨by decide +kernel, ?_, by decide +kernel, by decide +kernel⟩
  intro h
  exact absurd h.1 (by decide +kernel)

end CncnetServer
