import CncnetServer.V3.Run

/-!
Independent games on one V3 tunnel do not see each other.

`Relay` is the tunnel as far as the data path decides by it: the slots and one
limiter bucket for each address. While there is room for one more client, every
call is a function of that view (`relayOf_onReceive`, `relayOf_cleanup`), and on
the view it is plain that a packet reads and writes only the slot of its sender
id and the bucket of its source. `game_isolation` is the unwinding of that.
-/

namespace CncnetServer.TunnelV3

open Runs Slots

/-! ## The abstract relay -/

structure Relay (B : Type) where
  slot : Slots.Table UInt32 SocketAddr
  bucket : IpAddr → B

namespace Relay

variable {R : Type} {rater : Rater R} (law : rater.PerAddress)

def put (g : Relay law.Bucket) (id : UInt32) (addr : SocketAddr) (now : Nat) : Relay law.Bucket :=
  { g with slot := Function.update g.slot id (some ⟨some addr, now⟩) }

/-- Spend a token of the address, and bind the id to it if there was one. -/
def ask (g : Relay law.Bucket) (id : UInt32) (addr : SocketAddr) (now : Nat) :
    Bool × Relay law.Bucket :=
  let granted := law.answer (g.bucket addr.ip) now
  let g' := { g with
    bucket := Function.update g.bucket addr.ip (law.spend (g.bucket addr.ip) now) }
  (granted, if granted then put law g' id addr now else g')

/-- The sender validation of a relay that has room. -/
def validate (expired : Nat → Nat → Bool) (g : Relay law.Bucket) (id : UInt32) (addr : SocketAddr)
    (now : Nat) : Bool × Relay law.Bucket :=
  match g.slot id with
  | none => ask law g id addr now
  | some ⟨none, _⟩ => (false, g)
  | some ⟨some ep, last⟩ =>
    if ep = addr then (true, put law g id addr now)
    else if expired last now then ask law g id addr now
    else (false, g)

def expire {B : Type} (expired : Nat → Nat → Bool) (now : Nat) (g : Relay B) : Relay B :=
  { g with slot := fun id => (g.slot id).filter fun s => !expired s.last now }

/-- Where a packet of `addr` for `id` goes. -/
def dest {B : Type} (g : Relay B) (id : UInt32) (addr : SocketAddr) : Option SocketAddr :=
  ((g.slot id).bind Slot.endpoint).filter (· ≠ addr)

/-! ### Agreement on a game -/

variable (G : Set UInt32) (H : Set IpAddr)

/-- The two relays agree on the ids in `G` and the addresses in `H`. -/
structure Agree (g g' : Relay law.Bucket) : Prop where
  slot : ∀ id ∈ G, g.slot id = g'.slot id
  bucket : ∀ ip ∈ H, g.bucket ip = g'.bucket ip

variable {law G H} {g g' : Relay law.Bucket} {id : UInt32} {addr : SocketAddr}
variable {expired : Nat → Nat → Bool} {now : Nat}

theorem agree_put (h : Agree law G H g g') :
    Agree law G H (put law g id addr now) (put law g' id addr now) where
  slot j hj := by
    unfold put
    by_cases hji : j = id
    · subst hji; simp
    · simp [hji, h.slot j hj]
  bucket := h.bucket

theorem agree_spend (h : Agree law G H g g') (now : Nat) {ip : IpAddr} (hip : ip ∈ H) :
    Agree law G H
      { g with bucket := Function.update g.bucket ip (law.spend (g.bucket ip) now) }
      { g' with bucket := Function.update g'.bucket ip (law.spend (g'.bucket ip) now) } where
  slot := h.slot
  bucket j hj := by
    rw [h.bucket ip hip]
    by_cases hji : j = ip
    · subst hji; simp
    · simp [hji, h.bucket j hj]

theorem agree_ask (h : Agree law G H g g') (hip : addr.ip ∈ H) :
    (ask law g id addr now).1 = (ask law g' id addr now).1 ∧
      Agree law G H (ask law g id addr now).2 (ask law g' id addr now).2 := by
  have hspend := agree_spend h now hip
  unfold ask
  simp only [h.bucket addr.ip hip] at hspend ⊢
  refine ⟨trivial, ?_⟩
  split
  · exact agree_put hspend
  · exact hspend

/-- Agreeing relays treat a packet of the game alike. -/
theorem agree_validate (h : Agree law G H g g') (expired : Nat → Nat → Bool) (now : Nat) (hid : id ∈ G)
    (hip : addr.ip ∈ H) :
    (validate law expired g id addr now).1 = (validate law expired g' id addr now).1 ∧
      Agree law G H (validate law expired g id addr now).2
        (validate law expired g' id addr now).2 := by
  unfold validate
  rw [h.slot id hid]
  split
  · exact agree_ask h hip
  · exact ⟨rfl, h⟩
  · split
    · exact ⟨rfl, agree_put h⟩
    split
    · exact agree_ask h hip
    · exact ⟨rfl, h⟩

theorem agree_put_left (h : Agree law G H g g') (hid : id ∉ G) :
    Agree law G H (put law g id addr now) g' where
  slot j hj := by
    have hji : j ≠ id := fun he => hid (he ▸ hj)
    simp [put, hji, h.slot j hj]
  bucket := h.bucket

theorem agree_ask_left (h : Agree law G H g g') (hid : id ∉ G) (hip : addr.ip ∉ H) :
    Agree law G H (ask law g id addr now).2 g' := by
  have hspend : Agree law G H
      { g with bucket := Function.update g.bucket addr.ip (law.spend (g.bucket addr.ip) now) }
      g' := by
    refine ⟨h.slot, fun j hj => ?_⟩
    have hji : j ≠ addr.ip := fun he => hip (he ▸ hj)
    simp [hji, h.bucket j hj]
  unfold ask
  dsimp only
  split
  · exact agree_put_left hspend hid
  · exact hspend

/-- A packet from outside the game leaves it alone. -/
theorem agree_validate_left (h : Agree law G H g g') (hid : id ∉ G) (hip : addr.ip ∉ H) :
    Agree law G H (validate law expired g id addr now).2 g' := by
  unfold validate
  split
  · exact agree_ask_left h hid hip
  · exact h
  · split
    · exact agree_put_left h hid
    split
    · exact agree_ask_left h hid hip
    · exact h

theorem agree_expire (h : Agree law G H g g') :
    Agree law G H (expire expired now g) (expire expired now g') where
  slot j hj := by simp only [expire, h.slot j hj]
  bucket := h.bucket

/-! ### One packet -/

/-- A data packet: validated, then forwarded if its sender was accepted. -/
def receive (expired : Nat → Nat → Bool) (g : Relay law.Bucket) (valid : Bool) (s r : UInt32)
    (packet : Packet) (addr : SocketAddr) (now : Nat) : Relay law.Bucket × List Datagram :=
  if valid then
    let out := validate law expired g s addr now
    (out.2, if out.1 then
        ((dest out.2 r addr).map fun b => (⟨packet, b⟩ : Datagram)).toList else [])
  else (g, [])

variable (expired) (valid : Bool) {s : UInt32} (r : UInt32) (packet : Packet) (now : Nat)

theorem agree_receive (h : Agree law G H g g') (hs : s ∈ G) (hip : addr.ip ∈ H) :
    Agree law G H (receive expired g valid s r packet addr now).1
        (receive expired g' valid s r packet addr now).1 ∧
      (r ∈ G → (receive expired g valid s r packet addr now).2 =
        (receive expired g' valid s r packet addr now).2) := by
  obtain ⟨hvalid, hagree⟩ := agree_validate h expired now hs hip
  unfold receive
  cases valid with
  | false => exact ⟨h, fun _ => rfl⟩
  | true =>
    refine ⟨hagree, fun hr => ?_⟩
    simp only [if_true, hvalid, dest, hagree.slot r hr]

theorem agree_receive_left (h : Agree law G H g g') (hs : s ∉ G) (hip : addr.ip ∉ H) :
    Agree law G H (receive expired g valid s r packet addr now).1 g' := by
  unfold receive
  cases valid with
  | false => exact h
  | true => exact agree_validate_left h hs hip

end Relay

/-! ## The tunnel as an abstract relay -/

section Abstraction

variable {C A R : Type} (core : RelayCore C A) (rater : Rater R) (law : rater.PerAddress)
variable {expired : Nat → Nat → Bool}

def relayOf (t : TunnelV3 C A R) : Relay law.Bucket :=
  ⟨core.view core.lastReceive t.mappings, law.bucket t.connectionLimiter⟩

/-- The slots and buckets after a relayed packet are those before. -/
theorem relayOf_relay (hcore : core.FixedEndpoint) (htime : core.TimesOutBy expired)
    (t : TunnelV3 C A R) (env : Env) (r : UInt32) (packet : Packet) (addr : SocketAddr)
    (batch : LocalMetricsBatch) :
    relayOf core rater law (relay core t env r packet addr batch).1 = relayOf core rater law t := by
  have hview := view_relay core hcore core.lastReceive htime.lastReceive_updateStats t env r packet
    addr batch
  have hlimiter : (relay core t env r packet addr batch).1.connectionLimiter =
      t.connectionLimiter := by
    unfold relay
    split
    · split <;> rfl
    · rfl
  unfold relayOf
  rw [hview, hlimiter]

theorem bucket_tryAcquire (r : R) (ip : IpAddr) (now : Nat) :
    law.bucket (rater.tryAcquire r ip now).2 =
      Function.update (law.bucket r) ip (law.spend (law.bucket r ip) now) := by
  funext j
  rw [law.bucket_tryAcquire, Function.update_apply]
  split
  · rename_i h; rw [h]
  · rfl

theorem relayOf_senderValid (hcore : core.FixedEndpoint) (htime : core.TimesOutBy expired)
    {t : TunnelV3 C A R} (hroom : t.mappings.len < t.maxClients) (env : Env) (id : UInt32)
    (packet : Packet) (addr : SocketAddr) :
    ((senderValid core rater t env id packet addr).1,
      relayOf core rater law (senderValid core rater t env id packet addr).2) =
    Relay.validate law expired (relayOf core rater law t) id addr env.timestamp := by
  have hstep := senderValid_step core rater t env id packet addr
  generalize senderValid core rater t env id packet addr = out at hstep
  have hanswer := law.tryAcquire_answer t.connectionLimiter addr.ip env.timestamp
  have hspend := bucket_tryAcquire rater law t.connectionLimiter addr.ip env.timestamp
  -- the slot of the sender, as the abstract validation reads it
  have hslot : (relayOf core rater law t).slot id =
      (t.mappings.get id).map (core.slotOf core.lastReceive) := rfl
  have hdead := fun c => htime.isTimedOut_eq c env.timestamp
  unfold Relay.validate
  rw [hslot]
  cases hstep with
  | refreshed client hget hep =>
    have hview := core.view_refresh hcore htime hget hep packet.length env.timestamp
    simp only [hget, Option.map_some, RelayCore.slotOf, hep, if_true]
    unfold relayOf Relay.put
    exact Prod.ext rfl (congrArg (Relay.mk · _) hview)
  | reconnected client ep hget hep hne hto hacq =>
    simp only [hget, Option.map_some, RelayCore.slotOf, hep, if_neg hne, (hdead client).symm.trans hto,
      if_true]
    unfold relayOf Relay.ask Relay.put
    simp only [core.view_insert hcore htime, hspend, ← hanswer, hacq, if_true]
  | reconnectLimited client ep hget hep hne hto hacq =>
    simp only [hget, Option.map_some, RelayCore.slotOf, hep, if_neg hne, (hdead client).symm.trans hto,
      if_true]
    unfold relayOf Relay.ask
    simp only [hspend, ← hanswer, hacq, Bool.false_eq_true, if_false]
  | refused client hget hne hlive =>
    simp only [hget, Option.map_some, RelayCore.slotOf]
    cases hep : core.remoteEp client with
    | none => rfl
    | some ep =>
      have hep_ne : ep ≠ addr := by
        rintro rfl
        exact hne hep
      have hlate : ¬ expired (core.lastReceive client) env.timestamp = true := by
        rw [← hdead client]
        rcases hlive with h | h
        · rw [hep] at h; cases h
        · simp [h]
      simp only [if_neg hep_ne, if_neg hlate]
  | registered hget _ hacq =>
    simp only [hget, Option.map_none]
    unfold relayOf Relay.ask Relay.put
    simp only [core.view_insert hcore htime, hspend, ← hanswer, hacq, if_true]
  | registerLimited hget _ hacq =>
    simp only [hget, Option.map_none]
    unfold relayOf Relay.ask
    simp only [hspend, ← hanswer, hacq, Bool.false_eq_true, if_false]
  | full _ hfull => exact absurd hroom hfull

/-- **A data packet is an abstract packet**, while the tunnel has room. -/
theorem relayOf_onReceive (hcore : core.FixedEndpoint) (htime : core.TimesOutBy expired)
    {t : TunnelV3 C A R} (hroom : t.mappings.len < t.maxClients) (hoff : t.maintenanceMode = false)
    (env : Env) {packet : Packet} (addr : SocketAddr) (batch : LocalMetricsBatch) {s r : UInt32}
    (hh : parsePacketHeader packet = some (s, r)) (hcmd : ¬ isCommand s r packet)
    (hping : ¬ (s = 0 ∧ r = 0)) :
    (relayOf core rater law (onReceive core rater t env packet addr batch).1,
      (onReceive core rater t env packet addr batch).2.2) =
    Relay.receive expired (relayOf core rater law t)
      (validatePacket core s r addr) s r packet addr env.timestamp := by
  rw [onReceive_data core rater hh hcmd hping, hoff]
  unfold Relay.receive
  cases hval : validatePacket core s r addr with
  | false => rfl
  | true =>
    have hsender := relayOf_senderValid core rater law hcore htime hroom env s packet addr
    rw [← hsender]
    simp only [Bool.true_eq_false, Bool.false_eq_true, or_self, if_false, if_true]
    unfold handleDataForward
    cases hout : senderValid core rater t env s packet addr with
    | mk valid t' =>
      cases valid with
      | false => rfl
      | true =>
        simp only [Bool.not_true, Bool.false_eq_true, if_false, if_true]
        rw [relayOf_relay core rater law hcore htime, relay_sent]
        have hdest : core.forwardInfo t'.mappings r addr =
            Relay.dest (relayOf core rater law t') r addr := by
          ext b
          rw [core.forwardInfo_eq_some]
          simp [Relay.dest, relayOf, RelayCore.view, RelayCore.endpointOf, RelayCore.slotOf,
            Option.filter_eq_some_iff, Option.bind_map, Function.comp_def]
        rw [hdest]

theorem relayOf_cleanup (htime : core.TimesOutBy expired) (t : TunnelV3 C A R) (env : Env) :
    relayOf core rater law (cleanupExpiredMappings core rater t env) =
      Relay.expire expired env.timestamp (relayOf core rater law t) := by
  unfold relayOf Relay.expire cleanupExpiredMappings RelayCore.view
  congr 1
  funext id
  dsimp only
  rw [DashMap.get_retain]
  cases t.mappings.get id with
  | none => rfl
  | some c =>
    simp only [Option.filter_some, htime.isTimedOut_eq, Option.map_some, RelayCore.slotOf]
    split <;> rfl

/-- A data packet changes neither the capacity nor the maintenance mode. -/
theorem onReceive_frame (t : TunnelV3 C A R) (env : Env) {packet : Packet} (addr : SocketAddr)
    (batch : LocalMetricsBatch) {s r : UInt32} (hh : parsePacketHeader packet = some (s, r))
    (hcmd : ¬ isCommand s r packet) (hping : ¬ (s = 0 ∧ r = 0)) :
    (onReceive core rater t env packet addr batch).1.maxClients = t.maxClients ∧
      (onReceive core rater t env packet addr batch).1.maintenanceMode = t.maintenanceMode := by
  rw [onReceive_data core rater hh hcmd hping]
  split
  · exact ⟨rfl, rfl⟩
  have hrelay : ∀ (t : TunnelV3 C A R) (batch : LocalMetricsBatch),
      (relay core t env r packet addr batch).1.maxClients = t.maxClients ∧
        (relay core t env r packet addr batch).1.maintenanceMode = t.maintenanceMode := by
    intro t batch
    unfold relay
    split
    · split <;> exact ⟨rfl, rfl⟩
    · exact ⟨rfl, rfl⟩
  have hstep := senderValid_step core rater t env s packet addr
  unfold handleDataForward
  cases hout : senderValid core rater t env s packet addr with
  | mk valid t' =>
    rw [hout] at hstep
    have hsender : t'.maxClients = t.maxClients ∧ t'.maintenanceMode = t.maintenanceMode := by
      cases hstep <;> exact ⟨rfl, rfl⟩
    cases valid with
    | false => exact hsender
    | true =>
      simp only [Bool.not_true, Bool.false_eq_true, if_false]
      rw [(hrelay t' _).1, (hrelay t' _).2]
      exact hsender

end Abstraction

/-! ## Unwinding -/

section Isolation

variable {C A R : Type} (core : RelayCore C A) (rater : Rater R) (law : rater.PerAddress)
variable (G : Set UInt32) (H : Set IpAddr)

/-- The event is a cleanup, or a data packet that comes while there is room and
whose sender id and source are both inside or both outside the game. -/
def Separated (t : TunnelV3 C A R) : Event → Prop
  | .receive _ packet addr _ => t.mappings.len < t.maxClients ∧
      ∃ s r, parsePacketHeader packet = some (s, r) ∧ ¬ isCommand s r packet ∧
        ¬ (s = 0 ∧ r = 0) ∧ (s ∈ G ∧ addr.ip ∈ H ∨ s ∉ G ∧ addr.ip ∉ H)
  | .cleanup _ => True
  | .toggleMaintenance _ => False

/-- The event stays when the packets from outside the game are deleted. -/
def kept [DecidablePred (· ∈ G)] : Event → Bool
  | .receive _ packet _ _ => (parsePacketHeader packet).all fun ids => decide (ids.1 ∈ G)
  | _ => true

/-- The packet of the event is sent by one id of the game to another. -/
def InGame : Event → Prop
  | .receive _ packet _ _ => ∃ s r, parsePacketHeader packet = some (s, r) ∧ s ∈ G ∧ r ∈ G
  | _ => False

/-- The full run and the run of the game alone. -/
structure Sim (t u : TunnelV3 C A R) : Prop where
  agree : Relay.Agree law G H (relayOf core rater law t) (relayOf core rater law u)
  alone : ∀ id ∉ G, (relayOf core rater law u).slot id = none
  maxClients : u.maxClients = t.maxClients
  off : t.maintenanceMode = false
  off' : u.maintenanceMode = false

variable {core rater law G H} {t u : TunnelV3 C A R}

variable (core rater law) in
theorem mem_mappings_iff {id : UInt32} :
    id ∈ t.mappings ↔ (relayOf core rater law t).slot id ≠ none := by
  show id ∈ t.mappings ↔ (t.mappings.get id).map (core.slotOf core.lastReceive) ≠ none
  rw [ne_eq, Option.map_eq_none_iff, DashMap.get_eq_none, not_not]

/-- Where the full run has room, so has the run of the game alone. -/
theorem Sim.room (h : Sim core rater law G H t u) (hroom : t.mappings.len < t.maxClients) :
    u.mappings.len < u.maxClients := by
  have hle : u.mappings.len ≤ t.mappings.len := by
    apply DashMap.len_le_of_subset
    intro id hid
    rw [mem_mappings_iff core rater law] at hid ⊢
    have hG : id ∈ G := by_contra fun hG => hid (h.alone id hG)
    rwa [h.agree.slot id hG]
  rw [h.maxClients]
  exact Nat.lt_of_le_of_lt hle hroom

section Steps

variable (hcore : core.FixedEndpoint) (htime : core.TimesOutBy expired)
variable [DecidablePred (· ∈ G)]
include hcore htime

/-- A step of both runs. -/
theorem Sim.keep (h : Sim core rater law G H t u) (e : Event) (hs : Separated G H t e)
    (hk : kept G e = true) :
    Sim core rater law G H ((machine core rater).step t e) ((machine core rater).step u e) ∧
      (InGame G e → (machine core rater).emit t e = (machine core rater).emit u e) := by
  cases e with
  | toggleMaintenance env => exact hs.elim
  | cleanup env =>
    refine ⟨⟨?_, ?_, h.maxClients, h.off, h.off'⟩, fun _ => rfl⟩
    · simp only [machine]
      rw [relayOf_cleanup core rater law htime, relayOf_cleanup core rater law htime]
      exact Relay.agree_expire h.agree
    · intro id hid
      simp only [machine]
      rw [relayOf_cleanup core rater law htime]
      simp [Relay.expire, h.alone id hid]
  | receive env packet addr batch =>
    obtain ⟨hroom, s, r, hh, hcmd, hping, hside⟩ := hs
    have hin : s ∈ G ∧ addr.ip ∈ H := by
      rcases hside with hin | hout
      · exact hin
      · simp [kept, hh, hout.1] at hk
    have ht := relayOf_onReceive core rater law hcore htime hroom h.off env addr batch hh hcmd hping
    have hu := relayOf_onReceive core rater law hcore htime (h.room hroom) h.off' env addr batch
      hh hcmd hping
    have hft := onReceive_frame core rater t env addr batch hh hcmd hping
    have hfu := onReceive_frame core rater u env addr batch hh hcmd hping
    obtain ⟨hagree, hsent⟩ := Relay.agree_receive expired (validatePacket core s r addr) r packet
      env.timestamp h.agree hin.1 hin.2
    -- a packet of the game leaves the slots outside the game alone
    have hself : Relay.Agree law Gᶜ ∅ (relayOf core rater law u) (relayOf core rater law u) :=
      ⟨fun _ _ => rfl, fun _ _ => rfl⟩
    have hother := Relay.agree_receive_left expired (validatePacket core s r addr) r packet
      env.timestamp hself (fun hc => hc hin.1) (Set.notMem_empty addr.ip)
    rw [← ht, ← hu] at hagree hsent
    rw [← hu] at hother
    refine ⟨⟨hagree, ?_, ?_, ?_, ?_⟩, ?_⟩
    · intro id hid
      exact (hother.slot id hid).trans (h.alone id hid)
    · exact hfu.1.trans (h.maxClients.trans hft.1.symm)
    · exact hft.2.trans h.off
    · exact hfu.2.trans h.off'
    · rintro ⟨s', r', hh', _, hr'⟩
      rw [hh] at hh'
      cases hh'
      exact hsent hr'

/-- A step of the full run alone. -/
theorem Sim.drop (h : Sim core rater law G H t u) (e : Event) (hs : Separated G H t e)
    (hk : kept G e = false) : Sim core rater law G H ((machine core rater).step t e) u := by
  cases e with
  | toggleMaintenance env => exact hs.elim
  | cleanup env => simp [kept] at hk
  | receive env packet addr batch =>
    obtain ⟨hroom, s, r, hh, hcmd, hping, hside⟩ := hs
    have hout : s ∉ G ∧ addr.ip ∉ H := by
      rcases hside with hin | hout
      · simp [kept, hh, hin.1] at hk
      · exact hout
    have ht := relayOf_onReceive core rater law hcore htime hroom h.off env addr batch hh hcmd hping
    have hft := onReceive_frame core rater t env addr batch hh hcmd hping
    have hagree := Relay.agree_receive_left expired (validatePacket core s r addr) r packet
      env.timestamp h.agree hout.1 hout.2
    rw [← ht] at hagree
    exact ⟨hagree, h.alone, h.maxClients.trans hft.1.symm, hft.2.trans h.off, h.off'⟩

end Steps

end Isolation

/-- **Isolation of independent games.** In a run of data packets and cleanups in
which every packet is on one side of the game and comes while there is room, the
packets from outside the game can be deleted: at every step that remains, the slots
of the game are the same before and after it, and so is what is sent for a packet
from one id of the game to another. -/
theorem game_isolation {C A R : Type} (core : RelayCore C A) (rater : Rater R)
    (law : rater.PerAddress) (hcore : core.FixedEndpoint) {expired : Nat → Nat → Bool}
    (htime : core.TimesOutBy expired) (G : Set UInt32) [DecidablePred (· ∈ G)]
    (H : Set IpAddr) (t₀ : TunnelV3 C A R) (hempty : t₀.mappings = ∅)
    (hoff : t₀.maintenanceMode = false) (events : List Event)
    (hrun : (machine core rater).Along (Separated G H) t₀ events)
    (before : List Event) (e : Event) (after : List Event)
    (hsplit : events = before ++ e :: after) (hkept : kept G e = true) :
    let full := (machine core rater).run t₀ before
    let alone := (machine core rater).run t₀ (before.filter (kept G))
    (∀ id ∈ G, core.view core.lastReceive full.mappings id =
      core.view core.lastReceive alone.mappings id) ∧
    (∀ id ∈ G, core.view core.lastReceive ((machine core rater).step full e).mappings id =
      core.view core.lastReceive ((machine core rater).step alone e).mappings id) ∧
    (InGame G e → (machine core rater).emit full e = (machine core rater).emit alone e) := by
  intro full alone
  subst hsplit
  have hstart : Sim core rater law G H t₀ t₀ :=
    ⟨⟨fun _ _ => rfl, fun _ _ => rfl⟩, fun id _ => by simp [relayOf, RelayCore.view, hempty], rfl,
      hoff, hoff⟩
  have hpre := ((machine core rater).along_append _ t₀ before (e :: after)).mp hrun
  have hsim : Sim core rater law G H full alone :=
    (machine core rater).unwinding
      (fun t u e h hs hk => (h.keep hcore htime e hs hk).1)
      (fun t u e h hs hk => h.drop hcore htime e hs hk) hstart hpre.1
  obtain ⟨hnext, hsent⟩ := hsim.keep hcore htime e hpre.2.1 hkept
  exact ⟨hsim.agree.slot, hnext.agree.slot, hsent⟩

/-- Ids 1 and 2 play one game; the packet of id 7 for id 1 can be deleted. -/
theorem game_isolation_two_players :
    let core := RelayCore.reference timeoutSeconds
    let t₀ := TunnelV3.new (A := List Bool) Rater.reference id ⟨50001, 50000, 200, "", 8, 4⟩
    let receive (ms : Nat) (p : Packet) (host : UInt8) : Event :=
      .receive ⟨ms, 1, true⟩ p (.v4 host host host host 1234) .new
    let before := [receive 1000 [2, 0, 0, 0, 1, 0, 0, 0] 9, receive 2000 [7, 0, 0, 0, 1, 0, 0, 0] 5]
    let e := receive 3000 [1, 0, 0, 0, 2, 0, 0, 0, 42] 8
    let full := (machine core Rater.reference).run t₀ before
    let alone := (machine core Rater.reference).run t₀ (before.filter (kept {id | id = 1 ∨ id = 2}))
    (machine core Rater.reference).emit full e =
        [⟨[1, 0, 0, 0, 2, 0, 0, 0, 42], .v4 9 9 9 9 1234⟩] ∧
      (machine core Rater.reference).emit full e = (machine core Rater.reference).emit alone e := by
  intro core t₀ receive before e full alone
  have hrun : (machine core Rater.reference).Along
      (Separated {id | id = 1 ∨ id = 2} {ip | ip = .v4 8 8 8 8 ∨ ip = .v4 9 9 9 9})
      t₀ (before ++ [e]) := by
    refine ⟨⟨by decide +kernel, 2, 1, by decide, by decide, by decide, Or.inl (by decide)⟩,
      ⟨by decide +kernel, 7, 1, by decide, by decide, by decide, Or.inr (by decide)⟩,
      ⟨by decide +kernel, 1, 2, by decide, by decide, by decide, Or.inl (by decide)⟩, trivial⟩
  refine ⟨by decide +kernel, ?_⟩
  have hisolated := game_isolation core Rater.reference Rater.reference_perAddress
    (RelayCore.reference_fixedEndpoint _) (RelayCore.reference_timesOutInSeconds _)
    {id | id = 1 ∨ id = 2} {ip | ip = .v4 8 8 8 8 ∨ ip = .v4 9 9 9 9} t₀ rfl rfl (before ++ [e])
    hrun before e [] rfl (by decide)
  have hgame : InGame {id | id = 1 ∨ id = 2} e := ⟨1, 2, by decide, by decide, by decide⟩
  simp only [full, alone]
  exact hisolated.2.2 hgame

end CncnetServer.TunnelV3
