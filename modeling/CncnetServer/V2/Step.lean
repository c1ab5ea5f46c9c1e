import CncnetServer.TunnelV2
import CncnetServer.Bindings
import Mathlib.Tactic.Common

/-!
What one call of the V2 tunnel can do, said once: `SenderStep` for the sender
validation, `ReceiveStep` for `on_udp_receive`, and for `/request` the exact
change of the mappings, on success (`allocateIds_spec`) and after a roll-back
(`rollBack_allocateIds`).
-/

namespace CncnetServer.TunnelV2

variable {C R A : Type} (core : RelayCore C A) (rater : Rater R)

/-! ## Sender validation -/

/-- The outcomes of the sender validation, with the state each of them leaves. -/
inductive SenderStep (t : TunnelV2 C R) (env : Env) (id : Int16) (packet : Packet)
    (addr : SocketAddr) : Option (TunnelV2 C R) → Prop
  | claimed (client : C) :
      t.mappings.get id = some client → core.remoteEp client = none →
      SenderStep t env id packet addr (some { t with
        mappings := t.mappings.insert id (core.newWithEndpoint addr env.timestamp) })
  | reconnected (client : C) (ep : SocketAddr) :
      t.mappings.get id = some client → core.remoteEp client = some ep → ep ≠ addr →
      core.isTimedOut client env.timestamp = true →
      SenderStep t env id packet addr (some { t with
        mappings := t.mappings.insert id (core.newWithEndpoint addr env.timestamp) })
  | refreshed (client : C) :
      t.mappings.get id = some client → core.remoteEp client = some addr →
      SenderStep t env id packet addr (some { t with
        mappings := t.mappings.modify id fun client =>
          core.updateStats (core.setLastReceiveTickAt client env.timestamp)
            packet.length 0 env.timestamp })
  | refused (client : C) (ep : SocketAddr) :
      t.mappings.get id = some client → core.remoteEp client = some ep → ep ≠ addr →
      core.isTimedOut client env.timestamp = false →
      SenderStep t env id packet addr none
  | unknown : t.mappings.get id = none → SenderStep t env id packet addr none

theorem acceptSender_step (t : TunnelV2 C R) (env : Env) (id : Int16) (packet : Packet)
    (addr : SocketAddr) :
    SenderStep core t env id packet addr (acceptSender core t env id packet addr) := by
  unfold acceptSender
  cases hget : t.mappings.get id with
  | none => exact .unknown hget
  | some client =>
    cases hep : core.remoteEp client with
    | none => simpa [hep] using SenderStep.claimed client hget hep
    | some ep =>
      by_cases heq : ep = addr
      · subst heq
        simpa [hep] using SenderStep.refreshed client hget hep
      · cases hto : core.isTimedOut client env.timestamp with
        | true => simpa [hep, heq, hto] using SenderStep.reconnected client ep hget hep heq hto
        | false => simpa [hep, heq, hto] using SenderStep.refused client ep hget hep heq hto

/-- An accepted sender is bound to the source of the packet. -/
theorem acceptSender_bound (hcore : core.FixedEndpoint) {t t' : TunnelV2 C R} {env : Env}
    {id : Int16} {packet : Packet} {addr : SocketAddr}
    (h : acceptSender core t env id packet addr = some t') :
    core.endpointOf t'.mappings id = some addr := by
  have hstep := acceptSender_step core t env id packet addr
  rw [h] at hstep
  cases hstep with
  | claimed client _ _ => exact core.endpointOf_insert_self hcore _ _ _ _
  | reconnected client ep _ _ _ _ => exact core.endpointOf_insert_self hcore _ _ _ _
  | refreshed client hget hep =>
    exact core.endpointOf_refresh hcore hget hep packet.length env.timestamp

/-- An accepted sender changes nothing but the mappings. -/
theorem acceptSender_eq {t t' : TunnelV2 C R} {env : Env} {id : Int16} {packet : Packet}
    {addr : SocketAddr} (h : acceptSender core t env id packet addr = some t') :
    t' = { t with mappings := t'.mappings } := by
  have hstep := acceptSender_step core t env id packet addr
  rw [h] at hstep
  cases hstep <;> rfl

/-- Only the sender's own row changes. -/
theorem acceptSender_get_ne {t t' : TunnelV2 C R} {env : Env} {id j : Int16} {packet : Packet}
    {addr : SocketAddr} (h : acceptSender core t env id packet addr = some t') (hj : j ≠ id) :
    t'.mappings.get j = t.mappings.get j := by
  have hstep := acceptSender_step core t env id packet addr
  rw [h] at hstep
  cases hstep with
  | claimed => simp [DashMap.get_insert, hj]
  | reconnected => simp [DashMap.get_insert, hj]
  | refreshed => simp [DashMap.get_modify, hj]

/-! ## The relay -/

/-- The relay sends the packet as it is, once, or nothing. -/
theorem relay_sent (t : TunnelV2 C R) (env : Env) (r : Int16) (packet : Packet)
    (addr : SocketAddr) (batch : LocalMetricsBatch) :
    (relay core t env r packet addr batch).2.2 =
      ((core.forwardInfo t.mappings r addr).map fun b => (⟨packet, b⟩ : Datagram)).toList := by
  unfold relay forwardInfo
  cases core.forwardInfo t.mappings r addr with
  | none => rfl
  | some b => cases env.sendOk <;> rfl

/-! ## The receive path -/

/-- The packet passes every test of `on_udp_receive` before `handle_data_forward`. -/
structure ReachesForward (t : TunnelV2 C R) (packet : Packet) (addr : SocketAddr)
    (senderId receiverId : Int16) : Prop where
  header : parsePacketHeader packet = some (senderId, receiverId)
  valid : validatePacket core senderId receiverId addr = true
  notPing : ¬ (senderId = 0 ∧ receiverId = 0)
  notMaintenance : t.maintenanceMode = false

theorem ReachesForward.ids_ne {t : TunnelV2 C R} {packet : Packet} {addr : SocketAddr}
    {s r : Int16} (h : ReachesForward core t packet addr s r) : s ≠ r := by
  rintro rfl
  have hs := (core.validatePacket_eq_true.mp h.valid).1 rfl
  exact h.notPing ⟨hs, hs⟩

theorem ReachesForward.addr_valid {t : TunnelV2 C R} {packet : Packet} {addr : SocketAddr}
    {s r : Int16} (h : ReachesForward core t packet addr s r) :
    core.validateAddress addr = true :=
  (core.validatePacket_eq_true.mp h.valid).2

/-- The packet is accepted with `id` as its sender id. -/
def Accepts (t : TunnelV2 C R) (env : Env) (packet : Packet) (addr : SocketAddr)
    (id : Int16) : Prop :=
  (∃ receiverId, ReachesForward core t packet addr id receiverId) ∧
    (acceptSender core t env id packet addr).isSome

/-- The gate: what happens to a packet that is not a ping. -/
theorem onUdpReceive_data {t : TunnelV2 C R} {env : Env} {packet : Packet} {addr : SocketAddr}
    {batch : LocalMetricsBatch} {s r : Int16} (hh : parsePacketHeader packet = some (s, r))
    (hping : ¬ (s = 0 ∧ r = 0)) :
    onUdpReceive core rater t env packet addr batch =
      if validatePacket core s r addr = false ∨ t.maintenanceMode = true then
        (t, batch.recordV2Rx (UInt64.ofNat packet.length), [])
      else handleDataForward core t env s r packet addr
        (batch.recordV2Rx (UInt64.ofNat packet.length)) := by
  unfold onUdpReceive
  simp only [hh, hping, if_false]
  cases hval : validatePacket core s r addr with
  | false => simp
  | true =>
    cases hm : t.maintenanceMode with
    | true => simp
    | false => simp

theorem ReachesForward.onUdpReceive_eq {t : TunnelV2 C R} {packet : Packet} {addr : SocketAddr}
    {s r : Int16} (h : ReachesForward core t packet addr s r) (env : Env)
    (batch : LocalMetricsBatch) :
    onUdpReceive core rater t env packet addr batch = handleDataForward core t env s r packet addr
      (batch.recordV2Rx (UInt64.ofNat packet.length)) := by
  rw [onUdpReceive_data core rater h.header h.notPing,
    if_neg (by simp [h.valid, h.notMaintenance])]

/-- The outcomes of `on_udp_receive` before the data path. -/
inductive ReceiveStep (t : TunnelV2 C R) (env : Env) (packet : Packet) (addr : SocketAddr)
    (batch : LocalMetricsBatch) : TunnelV2 C R × LocalMetricsBatch × List Datagram → Prop
  | short : parsePacketHeader packet = none → ReceiveStep t env packet addr batch (t, batch, [])
  | dropped : (∀ s r, ¬ ReachesForward core t packet addr s r) →
      ReceiveStep t env packet addr batch
        (t, batch.recordV2Rx (UInt64.ofNat packet.length), [])
  | pingLimited : parsePacketHeader packet = some (0, 0) →
      ReceiveStep t env packet addr batch
        ({ t with pingLimiter := (rater.tryAcquire t.pingLimiter addr.ip env.timestamp).2 },
          batch.recordV2Rx (UInt64.ofNat packet.length), [])
  | ping : parsePacketHeader packet = some (0, 0) → packet.length = 50 →
      ReceiveStep t env packet addr batch
        (handlePing { t with
            pingLimiter := (rater.tryAcquire t.pingLimiter addr.ip env.timestamp).2 }
          env packet addr (batch.recordV2Rx (UInt64.ofNat packet.length)))
  | forward (s r : Int16) : ReachesForward core t packet addr s r →
      ReceiveStep t env packet addr batch
        (handleDataForward core t env s r packet addr
          (batch.recordV2Rx (UInt64.ofNat packet.length)))

theorem onUdpReceive_step (t : TunnelV2 C R) (env : Env) (packet : Packet) (addr : SocketAddr)
    (batch : LocalMetricsBatch) :
    ReceiveStep core rater t env packet addr batch
      (onUdpReceive core rater t env packet addr batch) := by
  unfold onUdpReceive RateLimiter.checkAndIncrement
  cases hh : parsePacketHeader packet with
  | none => exact .short hh
  | some ids =>
    obtain ⟨s, r⟩ := ids
    have hids : ∀ {s' r'}, ReachesForward core t packet addr s' r' → s' = s ∧ r' = r := by
      intro s' r' h
      have := h.header
      rw [hh] at this
      cases this
      exact ⟨rfl, rfl⟩
    cases hval : validatePacket core s r addr with
    | false =>
      simpa [hval] using ReceiveStep.dropped fun s' r' h => by
        obtain ⟨rfl, rfl⟩ := hids h
        exact absurd h.valid (by simp [hval])
    | true =>
      by_cases hping : s = 0 ∧ r = 0
      · obtain ⟨rfl, rfl⟩ := hping
        by_cases hlen : packet.length = 50
        · have hping : ReceiveStep core rater t env packet addr batch _ := .ping hh hlen
          have hlimited : ReceiveStep core rater t env packet addr batch _ := .pingLimited hh
          cases hacq : (rater.tryAcquire t.pingLimiter addr.ip env.timestamp).1 with
          | true => simpa [hval, hlen, hacq] using hping
          | false => simpa [hval, hlen, hacq] using hlimited
        · simpa [hval, hlen] using ReceiveStep.dropped fun s' r' h => by
            obtain ⟨rfl, rfl⟩ := hids h
            exact h.notPing ⟨rfl, rfl⟩
      · cases hm : t.maintenanceMode with
        | true =>
          simpa [hval, hping, hm] using ReceiveStep.dropped fun s' r' h => by
            obtain ⟨rfl, rfl⟩ := hids h
            exact absurd h.notMaintenance (by simp [hm])
        | false => simpa [hval, hping, hm] using ReceiveStep.forward s r ⟨hh, hval, hping, hm⟩

/-! ## Slot allocation -/

theorem parseI16_i16ToString (id : Int16) : parseI16 (i16ToString id) = some id := by
  have hlo := Int16.le_toInt id
  have hhi := Int16.toInt_lt id
  unfold parseI16 i16ToString
  rw [Decimal.parseInt_intText]
  simp only [Option.filter_some]
  rw [if_pos (by simp; omega)]
  simp

/-- **The allocation loop.** It extends the list by the texts of distinct nonzero
ids that were free, and the mappings by exactly these ids, unclaimed. -/
theorem allocateIds_spec (now clients left : Nat) (draws : Nat → Int16)
    (m : DashMap Int16 C) (strs : List (List Char)) :
    ∃ ids : List Int16,
      (allocateIds core now clients left draws m strs).2 = strs ++ ids.map i16ToString ∧
      ids.Nodup ∧ (∀ id ∈ ids, id ≠ 0 ∧ id ∉ m) ∧
      (∀ j, (allocateIds core now clients left draws m strs).1.get j =
        if j ∈ ids then some (core.new now) else m.get j) ∧
      strs.length + ids.length ≤ max strs.length clients := by
  induction left generalizing draws m strs with
  | zero => exact ⟨[], by simp [allocateIds]⟩
  | succ left ih =>
    unfold allocateIds
    by_cases hlen : strs.length < clients
    · rw [if_pos hlen]
      dsimp only
      by_cases hfree : draws 0 ≠ 0 ∧ !m.containsKey (draws 0)
      · rw [if_pos hfree]
        have hnot : draws 0 ∉ m := by simpa [DashMap.containsKey] using hfree.2
        obtain ⟨ids, hstr, hnd, hids, hget, hcount⟩ := ih (fun n => draws (n + 1))
          (m.insert (draws 0) (core.new now)) (strs ++ [i16ToString (draws 0)])
        have hhead : draws 0 ∉ ids := by
          intro hmem
          exact (hids _ hmem).2 (DashMap.mem_insert.mpr (Or.inl rfl))
        refine ⟨draws 0 :: ids, ?_, List.nodup_cons.mpr ⟨hhead, hnd⟩, ?_, ?_, ?_⟩
        · rw [hstr]; simp
        · intro id hid
          rcases List.mem_cons.mp hid with rfl | hid
          · exact ⟨hfree.1, hnot⟩
          · refine ⟨(hids id hid).1, fun hm => (hids id hid).2 ?_⟩
            exact DashMap.mem_insert.mpr (Or.inr hm)
        · intro j
          rw [hget j, DashMap.get_insert]
          by_cases hj : j = draws 0
          · subst hj; simp
          · simp [hj]
        · simp only [List.length_append, List.length_cons, List.length_nil] at hcount ⊢
          omega
      · rw [if_neg hfree]
        exact ih _ m strs
    · rw [if_neg hlen]
      exact ⟨[], by simp⟩

theorem rollBack_get (m : DashMap Int16 C) (ids : List Int16) (j : Int16) :
    (rollBack m (ids.map i16ToString)).get j = if j ∈ ids then none else m.get j := by
  induction ids generalizing m with
  | nil => simp [rollBack]
  | cons id ids ih =>
    have hcons : rollBack m ((id :: ids).map i16ToString) =
        rollBack (m.remove id) (ids.map i16ToString) := by
      simp [rollBack, parseI16_i16ToString]
    rw [hcons, ih, DashMap.get_remove]
    by_cases hj : j = id
    · subst hj; simp
    · simp [hj]

/-- A roll-back undoes the allocation it follows. -/
theorem rollBack_allocateIds (now clients left : Nat) (draws : Nat → Int16)
    (m : DashMap Int16 C) (j : Int16) :
    (rollBack (allocateIds core now clients left draws m []).1
      (allocateIds core now clients left draws m []).2).get j = m.get j := by
  obtain ⟨ids, hstr, _, hids, hget, _⟩ := allocateIds_spec core now clients left draws m []
  rw [hstr, List.nil_append, rollBack_get, hget]
  by_cases hj : j ∈ ids
  · simp [hj, DashMap.get_eq_none.mpr (hids j hj).2]
  · simp [hj]

/-- A request leaves every row as it was or hands out a free id. -/
theorem handleRequest_get (t : TunnelV2 C R) (now : Nat) (draws : Nat → Int16)
    (query : Option (List Char)) (j : Int16) :
    (handleRequest core t now draws query).2.mappings.get j = t.mappings.get j ∨
      (t.maintenanceMode = false ∧ t.mappings.get j = none ∧
        (handleRequest core t now draws query).2.mappings.get j = some (core.new now)) := by
  unfold handleRequest
  cases hm : t.maintenanceMode with
  | true => exact Or.inl rfl
  | false =>
    simp only [Bool.false_eq_true, if_false]
    split
    · exact Or.inl rfl
    split
    · exact Or.inl rfl
    split
    · exact Or.inl (rollBack_allocateIds core now _ _ draws t.mappings j)
    · obtain ⟨ids, _, _, hids, hget, _⟩ :=
        allocateIds_spec core now (parseClients query) maxAttempts draws t.mappings []
      dsimp only
      rw [hget]
      by_cases hj : j ∈ ids
      · rw [if_pos hj]
        exact Or.inr ⟨trivial, DashMap.get_eq_none.mpr (hids j hj).2, rfl⟩
      · rw [if_neg hj]
        exact Or.inl rfl

/-- Routing: an HTTP request changes the mappings only through `/request`. -/
theorem handleHttpRequest_get (t : TunnelV2 C R) (now : Nat) (draws : Nat → Int16)
    (req : Request) (addr : SocketAddr) (j : Int16) :
    (handleHttpRequest core rater t now draws req addr).2.mappings.get j = t.mappings.get j ∨
      (t.maintenanceMode = false ∧ t.mappings.get j = none ∧
        (handleHttpRequest core rater t now draws req addr).2.mappings.get j
          = some (core.new now)) := by
  unfold handleHttpRequest handleMaintenance
  dsimp only
  split
  · exact Or.inl rfl
  split
  · exact Or.inl rfl
  split
  · exact handleRequest_get core _ now draws req.query j
  split
  · split
    · exact Or.inl rfl
    · split <;> exact Or.inl rfl
  split <;> exact Or.inl rfl

end CncnetServer.TunnelV2
