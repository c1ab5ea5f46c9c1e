import CncnetServer.V3.Run

/-!
The id 0 of the V3 tunnel, which its pings and commands carry.

The tests of `on_receive` pick out the commands and the pings of sender 0; any other
packet of sender 0 falls through to the data path, where an unknown sender is
registered.

* `step_known`: the only call that makes an id known is one that registers it;
* `reserved_id`: id 0 stays with the control traffic in exactly the runs without a
  call that registers it.
-/

namespace CncnetServer.TunnelV3

open Runs

variable {C A R : Type} (core : RelayCore C A) (rater : Rater R)

/-- The id has a client or an analyzer. -/
def Known (t : TunnelV3 C A R) (id : UInt32) : Prop :=
  id ∈ t.mappings ∨ id ∈ t.qualityAnalyzers

/-- The call is a data packet of an unknown sender that finds room, and the
connection limiter grants its source a token. -/
def Registers (t : TunnelV3 C A R) (e : Event) (id : UInt32) : Prop :=
  ∃ env packet addr batch r, e = .receive env packet addr batch ∧
    ReachesForward core t packet addr id r ∧ id ∉ t.mappings ∧ t.mappings.len < t.maxClients ∧
    (rater.tryAcquire t.connectionLimiter addr.ip env.timestamp).1 = true

/-! ## Which ids become known -/

theorem senderValid_known (t : TunnelV3 C A R) (env : Env) (id : UInt32) {j : UInt32}
    (packet : Packet) (addr : SocketAddr)
    (h : Known (senderValid core rater t env id packet addr).2 j) :
    Known t j ∨ (j = id ∧ id ∉ t.mappings ∧ t.mappings.len < t.maxClients ∧
      (rater.tryAcquire t.connectionLimiter addr.ip env.timestamp).1 = true) := by
  have hstep := senderValid_step core rater t env id packet addr
  generalize senderValid core rater t env id packet addr = out at h hstep
  cases hstep with
  | refreshed client _ _ => exact Or.inl (h.imp DashMap.mem_modify.mp DashMap.mem_modify.mp)
  | reconnected client ep hget _ _ _ _ =>
    have hid : id ∈ t.mappings := DashMap.mem_of_get hget
    rcases h with h | h
    · rcases DashMap.mem_insert.mp h with rfl | h
      · exact Or.inl (Or.inl hid)
      · exact Or.inl (Or.inl h)
    · rcases DashMap.mem_insert.mp h with rfl | h
      · exact Or.inl (Or.inl hid)
      · exact Or.inl (Or.inr h)
  | reconnectLimited => exact Or.inl h
  | refused => exact Or.inl h
  | registered hget hlen hgrant =>
    have hfresh : id ∉ t.mappings := DashMap.get_eq_none.mp hget
    rcases h with h | h
    · rcases DashMap.mem_insert.mp h with rfl | h
      · exact Or.inr ⟨rfl, hfresh, hlen, hgrant⟩
      · exact Or.inl (Or.inl h)
    · rcases DashMap.mem_insert.mp h with rfl | h
      · exact Or.inr ⟨rfl, hfresh, hlen, hgrant⟩
      · exact Or.inl (Or.inr h)
  | registerLimited => exact Or.inl h
  | full => exact Or.inl h

theorem relay_known (t : TunnelV3 C A R) (env : Env) (r : UInt32) (packet : Packet)
    (addr : SocketAddr) (batch : LocalMetricsBatch) (j : UInt32) :
    Known (relay core t env r packet addr batch).1 j ↔ Known t j := by
  unfold relay Known
  split
  · split
    · simp only [DashMap.mem_modify]
    · simp only [DashMap.mem_modify]
  · rfl

theorem cleanup_known (t : TunnelV3 C A R) (env : Env) {j : UInt32}
    (h : Known (cleanupExpiredMappings core rater t env) j) : Known t j := by
  rcases h with h | h
  · obtain ⟨v, hv, _⟩ := DashMap.mem_retain.mp h
    exact Or.inl (DashMap.mem_of_get hv)
  · obtain ⟨v, hv, _⟩ := DashMap.mem_retain.mp h
    exact Or.inr (DashMap.mem_of_get hv)

theorem executeCommand_known (t : TunnelV3 C A R) (env : Env) (packet : Packet) {j : UInt32}
    (h : Known (executeCommand core rater t env packet) j) : Known t j := by
  have hstep := executeCommand_step core rater t env packet
  generalize executeCommand core rater t env packet = out at h hstep
  cases hstep with
  | ignored => exact h
  | noEffect => exact h
  | toggled _ => exact h
  | cleaned _ => exact cleanup_known core rater _ env h

/-- The data path of an accepted or rejected sender, as far as keys are concerned. -/
theorem handleDataForward_known (t : TunnelV3 C A R) (env : Env) (s r : UInt32)
    (packet : Packet) (addr : SocketAddr) (batch : LocalMetricsBatch) (j : UInt32) :
    Known (handleDataForward core rater t env s r packet addr batch).1 j ↔
      Known (senderValid core rater t env s packet addr).2 j := by
  unfold handleDataForward
  dsimp only
  split
  · rfl
  · exact relay_known core _ env r packet addr batch j

/-- **An id becomes known only by a call that registers it.** -/
theorem step_known (t : TunnelV3 C A R) (e : Event) {j : UInt32}
    (h : Known ((machine core rater).step t e) j) : Known t j ∨ Registers core rater t e j := by
  cases e with
  | cleanup env => exact Or.inl (cleanup_known core rater t env h)
  | toggleMaintenance env => exact Or.inl h
  | receive env packet addr batch =>
    have hstep := onReceive_step core rater t env packet addr batch
    simp only [machine] at h
    generalize onReceive core rater t env packet addr batch = out at h hstep
    cases hstep with
    | short _ => exact Or.inl h
    | command _ _ _ _ => exact Or.inl (executeCommand_known core rater t env packet h)
    | dropped _ => exact Or.inl h
    | pingLimited _ => exact Or.inl h
    | ping _ _ => exact Or.inl h
    | forward s r hf =>
      rw [handleDataForward_known] at h
      rcases senderValid_known core rater t env s packet addr h with h | ⟨rfl, hnew, hlen, hgrant⟩
      · exact Or.inl h
      · exact Or.inr ⟨env, packet, addr, batch, r, rfl, hf, hnew, hlen, hgrant⟩

theorem Registers.known {t : TunnelV3 C A R} {e : Event} {id : UInt32}
    (h : Registers core rater t e id) : id ∈ ((machine core rater).step t e).mappings := by
  obtain ⟨env, packet, addr, batch, r, rfl, hf, hnew, hlen, hgrant⟩ := h
  have hget : t.mappings.get id = none := DashMap.get_eq_none.mpr hnew
  simp only [machine]
  rw [hf.onReceive_eq]
  unfold handleDataForward senderValid ConnectionRateLimiter.tryAcquire
  simp only [hget, hlen, hgrant, if_true, Bool.not_true, Bool.false_eq_true, if_false]
  have hinserted := DashMap.mem_insert (m := t.mappings) (k := id) (j := id)
    (v := core.newWithEndpoint addr env.timestamp)
  unfold relay
  split
  · split
    · exact DashMap.mem_modify.mpr (hinserted.mpr (Or.inl rfl))
    · exact hinserted.mpr (Or.inl rfl)
  · exact hinserted.mpr (Or.inl rfl)

/-! ## Id 0 -/

/-- The call leaves id 0 to the control traffic. -/
structure KeepsReserved (t : TunnelV3 C A R) (e : Event) : Prop where
  unknown : ¬ Known ((machine core rater).step t e) 0
  /-- A packet of sender 0 consumes no token: the limiter is not asked or refuses. -/
  noToken : ∀ env packet addr batch r, e = .receive env packet addr batch →
    parsePacketHeader packet = some (0, r) →
    ((machine core rater).step t e).connectionLimiter = t.connectionLimiter ∨
      (rater.tryAcquire t.connectionLimiter addr.ip env.timestamp).1 = false
  /-- What a packet of sender 0 or for receiver 0 has sent goes back to its source. -/
  notRelayed : ∀ env packet addr batch s r, e = .receive env packet addr batch →
    parsePacketHeader packet = some (s, r) → s = 0 ∨ r = 0 →
    ∀ d ∈ (machine core rater).emit t e, d.dest = addr

/-- The data path of an unknown sender that is not registered. -/
theorem handleDataForward_unregistered {t : TunnelV3 C A R} {env : Env} {s r : UInt32}
    {packet : Packet} {addr : SocketAddr} {batch : LocalMetricsBatch} (hnew : s ∉ t.mappings)
    (hno : ¬ (t.mappings.len < t.maxClients ∧
      (rater.tryAcquire t.connectionLimiter addr.ip env.timestamp).1 = true)) :
    (handleDataForward core rater t env s r packet addr batch).2.2 = [] ∧
    ((handleDataForward core rater t env s r packet addr batch).1.connectionLimiter =
        t.connectionLimiter ∨
      (rater.tryAcquire t.connectionLimiter addr.ip env.timestamp).1 = false) := by
  have hget : t.mappings.get s = none := DashMap.get_eq_none.mpr hnew
  unfold handleDataForward senderValid ConnectionRateLimiter.tryAcquire
  by_cases hlen : t.mappings.len < t.maxClients
  · have hrefuse : (rater.tryAcquire t.connectionLimiter addr.ip env.timestamp).1 = false := by
      cases hacq : (rater.tryAcquire t.connectionLimiter addr.ip env.timestamp).1 with
      | true => exact absurd ⟨hlen, hacq⟩ hno
      | false => rfl
    simp [hget, hlen, hrefuse]
  · simp [hget, hlen]

/-- Nothing is relayed to an unknown receiver. -/
theorem handleDataForward_unknownReceiver {t : TunnelV3 C A R} {env : Env} {s r : UInt32}
    {packet : Packet} {addr : SocketAddr} {batch : LocalMetricsBatch} (hr : r ∉ t.mappings)
    (hne : s ≠ r) : (handleDataForward core rater t env s r packet addr batch).2.2 = [] := by
  unfold handleDataForward
  dsimp only
  split
  · rfl
  · have hget := senderValid_get_ne core rater t env s packet addr hne.symm
    rw [DashMap.get_eq_none.mpr hr] at hget
    rw [relay_sent]
    simp [RelayCore.forwardInfo, hget]

/-- On a tunnel that does not know id 0, a call leaves it to the control traffic unless it
registers it. -/
theorem keepsReserved_iff {t : TunnelV3 C A R} (e : Event) (h0 : ¬ Known t 0) :
    KeepsReserved core rater t e ↔ ¬ Registers core rater t e 0 := by
  constructor
  · intro h hreg
    exact h.unknown (Or.inl hreg.known)
  · intro hno
    have hfresh : (0 : UInt32) ∉ t.mappings := fun h => h0 (Or.inl h)
    refine ⟨?_, ?_, ?_⟩
    · intro hknown
      rcases step_known core rater t e hknown with h | h
      · exact h0 h
      · exact hno h
    · rintro env packet addr batch r rfl hheader
      have hstep := onReceive_step core rater t env packet addr batch
      simp only [machine]
      generalize onReceive core rater t env packet addr batch = out at hstep ⊢
      cases hstep with
      | short _ => exact Or.inl rfl
      | command _ _ _ _ =>
        have hcmd := executeCommand_step core rater t env packet
        generalize executeCommand core rater t env packet = t' at hcmd
        cases hcmd <;> exact Or.inl rfl
      | dropped _ => exact Or.inl rfl
      | pingLimited _ => exact Or.inl rfl
      | ping _ _ => exact Or.inl rfl
      | forward s' r' hf =>
        have hids := hf.header
        rw [hheader] at hids
        cases hids
        exact (handleDataForward_unregistered core rater hfresh fun h =>
          hno ⟨env, packet, addr, batch, r, rfl, hf, hfresh, h⟩).2
    · rintro env packet addr batch s r rfl hheader hzero
      have hstep := onReceive_step core rater t env packet addr batch
      simp only [machine]
      generalize onReceive core rater t env packet addr batch = out at hstep ⊢
      have hnil : ∀ d ∈ ([] : List Datagram), d.dest = addr := by
        intro d hd
        cases hd
      cases hstep with
      | short _ => exact hnil
      | command _ _ _ _ => exact hnil
      | dropped _ => exact hnil
      | pingLimited _ => exact hnil
      | ping _ _ =>
        intro d hd
        obtain rfl := List.mem_singleton.mp hd
        rfl
      | forward s' r' hf =>
        have hids := hf.header
        rw [hheader] at hids
        cases hids
        rcases hzero with rfl | rfl
        · rw [(handleDataForward_unregistered core rater hfresh fun h =>
            hno ⟨env, packet, addr, batch, r, rfl, hf, hfresh, h⟩).1]
          exact hnil
        · rw [handleDataForward_unknownReceiver core rater hfresh hf.ids_ne]
          exact hnil

/-- **Id 0.** A run leaves id 0 to the control traffic exactly if none of its calls
registers it. -/
theorem reserved_id (sha1 : List UInt8 → List UInt8) (config : ServerConfig)
    (events : List Event) :
    let t : TunnelV3 C A R := TunnelV3.new rater sha1 config
    (machine core rater).Along (KeepsReserved core rater) t events ↔
      (machine core rater).Along (fun t e => ¬ Registers core rater t e 0) t events := by
  intro t
  refine (machine core rater).along_iff (P := fun t => ¬ Known t 0) ?_ ?_ ?_ events
  · intro t e h0
    exact keepsReserved_iff core rater e h0
  · intro t e _ hkeeps
    exact hkeeps.unknown
  · rintro (h | h) <;> cases h

/-- A packet from id 0 to id 2 takes a slot, and what client 2 then sends to id 0 is
relayed to it. -/
theorem reserved_id_registered :
    let core := RelayCore.reference timeoutSeconds
    let M := machine core Rater.reference
    let t := TunnelV3.new (A := List Bool) Rater.reference id ⟨50001, 50000, 200, "", 8, 4⟩
    let alice : SocketAddr := .v4 8 8 8 8 1234
    let bob : SocketAddr := .v4 9 9 9 9 1234
    let events : List Event := [.receive ⟨1000, 1, true⟩ [0, 0, 0, 0, 2, 0, 0, 0] alice .new,
      .receive ⟨2000, 2, true⟩ [2, 0, 0, 0, 0, 0, 0, 0] bob .new]
    (M.trace t events = [⟨[2, 0, 0, 0, 0, 0, 0, 0], alice⟩]) ∧
      ¬ M.Along (KeepsReserved core Rater.reference) t events := by
  intro core M t alice bob events
  refine ⟨by decide +kernel, ?_⟩
  rintro ⟨h, _⟩
  exact h.unknown (Or.inl (by decide +kernel))

end CncnetServer.TunnelV3
