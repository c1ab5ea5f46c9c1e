import CncnetServer.MaintenanceMode
import CncnetServer.V2.Allocation

/-!
What the players of a game get from the tunnels, whatever else happens meanwhile: packets of
strangers, pings, commands, HTTP requests, cleanups.

* `Joined`: a client of the V3 tunnel whose first packet has been accepted and that has kept
  sending since;
* `Takes`: a client of the V2 tunnel that has been told its id by `/request` and keeps sending;
* `sessions_deliver`: what one of them sends to another is delivered.
-/

namespace CncnetServer

open Runs Slots

variable {C A R : Type} (core : RelayCore C A) (rater : Rater R) (expired : Nat → Nat → Bool)

/-! ## V3 -/

namespace TunnelV3

/-- The client was accepted during the run, and since then it has kept sending, with the mode
off whenever it sent. -/
def Joined (t : TunnelV3 C A R) (events : List Event) (id : UInt32) (addr : SocketAddr) : Prop :=
  ∃ first e rest, events = first ++ e :: rest ∧
    EventAccepts core rater ((machine core rater).run t first) e id addr ∧
    KeepsSending expired (SendsData core id addr) Event.time e.time rest ∧
    (machine core rater).Along (fun t e => SendsData core id addr e → t.maintenanceMode = false)
      ((machine core rater).run t (first ++ [e])) rest

section Sessions

variable {core expired} (hcore : core.FixedEndpoint) (htime : core.TimesOutBy expired)
include hcore htime

/-- An accepted packet binds its id at its time. -/
theorem view_accepts {t : TunnelV3 C A R} {e : Event} {id : UInt32} {addr : SocketAddr}
    (h : EventAccepts core rater t e id addr) :
    core.view core.lastReceive ((machine core rater).step t e).mappings id =
      some ⟨some addr, e.time⟩ := by
  obtain ⟨env, packet, batch, rfl, ⟨r, hf⟩, hvalid⟩ := h
  have hview := view_senderValid core rater hcore htime t env id packet addr
  rw [if_pos hvalid] at hview
  simp only [machine]
  rw [hf.onReceive_eq]
  unfold handleDataForward
  simp only [hvalid, Bool.not_true, Bool.false_eq_true, if_false]
  rw [view_relay core hcore core.lastReceive htime.lastReceive_updateStats, hview,
    Function.update_self]
  rfl

theorem Joined.bound {t : TunnelV3 C A R} {events : List Event} {id : UInt32} {addr : SocketAddr}
    (h : Joined core rater expired t events id addr) :
    BoundTo (core.view core.lastReceive ((machine core rater).run t events).mappings id) addr := by
  obtain ⟨first, e, rest, rfl, haccepts, hkeeps, hoff⟩ := h
  have hview := view_accepts rater hcore htime haccepts
  rw [← Machine.run_snoc] at hview
  rw [core.boundTo_view, List.append_cons, Machine.run_append]
  exact keeps_binding core rater hcore htime hview hoff hkeeps

/-- A packet from one client to another is delivered. -/
theorem Joined.deliver {t : TunnelV3 C A R} {events : List Event} {i j : UInt32}
    {a b : SocketAddr} (hi : Joined core rater expired t events i a)
    (hj : Joined core rater expired t events j b) (hab : a ≠ b) (env : Env) {packet : Packet} (batch : LocalMetricsBatch)
    (hdata : dataIds core packet a = some (i, j))
    (hoff : ((machine core rater).run t events).maintenanceMode = false) :
    (machine core rater).emit ((machine core rater).run t events) (.receive env packet a batch) =
      [⟨packet, b⟩] := by
  obtain ⟨l, hl⟩ := hi.bound rater hcore htime
  have hto := (core.boundTo_view core.lastReceive).mp (hj.bound rater hcore htime)
  have hf := (reachesForward_iff core).mpr ⟨hdata, hoff⟩
  show (onReceive core rater _ env packet a batch).2.2 = _
  rw [hf.onReceive_eq, (handleDataForward_bound core rater hcore htime _ env packet _ hl
    hf.ids_ne).2, core.forwardInfo_eq_some.mpr ⟨hto, hab.symm⟩]
  rfl

end Sessions

end TunnelV3

/-! ## V2 -/

namespace TunnelV2

/-- The event brings a valid data packet with sender id `id`, but not from `addr`. -/
def OthersSendData (id : Int16) (addr : SocketAddr) : Event → Prop
  | .receive _ packet source _ => source ≠ addr ∧ (dataIds core packet source).map Prod.fst = some id
  | _ => False

instance (id : Int16) (addr : SocketAddr) : DecidablePred (OthersSendData core id addr)
  | .receive _ _ _ _ => inferInstanceAs (Decidable (_ ∧ _))
  | .http _ _ _ _ => inferInstanceAs (Decidable False)
  | .heartbeat _ => inferInstanceAs (Decidable False)
  | .toggleMaintenance _ => inferInstanceAs (Decidable False)

/-- From `since` on, when the id was handed out, the client keeps sending with it, the mode is
off whenever it sends, and nobody else sends with it before. -/
structure Takes (t : TunnelV2 C R) (since : Nat) (events : List Event) (id : Int16)
    (addr : SocketAddr) : Prop where
  first : SendsFirst (SendsData core id addr) (OthersSendData core id addr) events
  keeps : KeepsSending expired (SendsData core id addr) Event.time since events
  notMaintenance : (machine core rater).Along
    (fun t e => SendsData core id addr e → t.maintenanceMode = false) t events

instance (t : TunnelV2 C R) (since : Nat) (events : List Event) (id : Int16) (addr : SocketAddr) :
    Decidable (Takes core rater expired t since events id addr) :=
  decidable_of_iff (_ ∧ _ ∧ _) ⟨fun h => ⟨h.1, h.2.1, h.2.2⟩, fun h => ⟨h.1, h.2, h.3⟩⟩

section Sessions

variable {core expired} (hcore : core.FixedEndpoint) (htime : core.TimesOutBy expired)
include htime

/-- The tunnel accepts who comes first or owns the slot. -/
theorem isSome_acceptSender {t : TunnelV2 C R} (env : Env) {s : Int16} (packet : Packet)
    {addr : SocketAddr} {owner : Option SocketAddr} {l : Nat}
    (hb : core.view core.lastReceive t.mappings s = some ⟨owner, l⟩)
    (howner : owner = none ∨ owner = some addr) :
    (acceptSender core t env s packet addr).isSome := by
  rcases howner with rfl | rfl
  · obtain ⟨client, hget, hslot⟩ := Option.map_eq_some_iff.mp hb
    have hep : core.remoteEp client = none := congrArg Slot.endpoint hslot
    simp [acceptSender, hget, hep]
  · exact (isSome_acceptSender_iff core htime env packet addr hb).mpr (Or.inl rfl)

include hcore

/-- A packet of who comes first or owns the slot makes the slot its own, and goes to the
endpoint of the receiver. -/
theorem handleDataForward_claims (t : TunnelV2 C R) (env : Env) {s r : Int16} (packet : Packet)
    {addr : SocketAddr} (batch : LocalMetricsBatch) {owner : Option SocketAddr} {l : Nat}
    (hb : core.view core.lastReceive t.mappings s = some ⟨owner, l⟩)
    (howner : owner = none ∨ owner = some addr) (hne : s ≠ r) :
    core.view core.lastReceive
        (handleDataForward core t env s r packet addr batch).1.mappings s =
      some ⟨some addr, env.timestamp⟩ ∧
    (handleDataForward core t env s r packet addr batch).2.2 =
      ((core.forwardInfo t.mappings r addr).map fun b => (⟨packet, b⟩ : Datagram)).toList := by
  obtain ⟨t', hacc⟩ := Option.isSome_iff_exists.mp
    (isSome_acceptSender htime env packet hb howner)
  have hrow : t'.mappings.get r = t.mappings.get r := acceptSender_get_ne core hacc hne.symm
  unfold handleDataForward
  simp only [hacc]
  rw [view_relay core hcore core.lastReceive htime.lastReceive_updateStats, relay_sent,
    view_acceptSender core hcore htime hacc, Function.update_self]
  refine ⟨rfl, ?_⟩
  unfold RelayCore.forwardInfo
  rw [hrow]

omit hcore htime in
/-- The ids of an answer 200 to `/request` are unclaimed slots from now on. -/
theorem handleHttpRequest_handsOut (t : TunnelV2 C R) (env : Env) (draws : Nat → Int16)
    (req : Request) (addr : SocketAddr) (hget : req.isGet = true)
    (hpath : req.path = "/request".toList) :
    let out := handleHttpRequest core rater t env.timestamp draws req addr
    out.1.status = .ok → ∃ ids, parseIds out.1.body = some ids ∧
      ids.length = parseClients req.query ∧ ids.Nodup ∧
      ∀ id ∈ ids, out.2.mappings.get id = some (core.new env.timestamp) := by
  intro out hok
  simp only [out, handleHttpRequest, hget, hpath] at hok ⊢
  split at hok
  · cases hok
  · rename_i hgranted
    rw [if_neg hgranted]
    obtain ⟨ids, hids⟩ := handleRequest_ok core _ env.timestamp draws req.query hok
    refine ⟨ids, hids.body, hids.length, hids.nodup, fun id hid => ?_⟩
    exact (hids.added id).trans (if_pos hid)

/-- The slot of a client that takes its id: its own once it has sent, and unclaimed before. -/
theorem Takes.slot {t : TunnelV2 C R} {since : Nat} {events : List Event} {id : Int16}
    {addr : SocketAddr} (h : Takes core rater expired t since events id addr)
    (h0 : core.view core.lastReceive t.mappings id = some ⟨none, since⟩) :
    if ∃ e ∈ events, SendsData core id addr e then
      BoundTo (core.view core.lastReceive ((machine core rater).run t events).mappings id) addr
    else core.view core.lastReceive ((machine core rater).run t events).mappings id =
      some ⟨none, since⟩ := by
  have href := refines core rater hcore core.lastReceive htime.lastReceive_updateStats
    (fun e s => expired s.last e.time = true)
    (fun e c h => (htime.isTimedOut_eq c e.time).symm.trans h)
  have hids : ∀ {t : TunnelV2 C R} {packet : Packet} {source : SocketAddr} {r : Int16},
      ReachesForward core t packet source id r →
      (dataIds core packet source).map Prod.fst = some id := by
    intro t packet source r hf
    rw [((reachesForward_iff core).mp hf).1]
    rfl
  refine claims href ?_ ?_ ?_ h0 h.notMaintenance h.keeps h.first
  · rintro t _ ⟨env, packet, batch, rfl, ⟨r, hf⟩, _⟩
    exact ⟨rfl, hids hf⟩
  · rintro t _ source ⟨env, packet, batch, rfl, ⟨r, hf⟩, _⟩
    by_cases hsource : source = addr
    · exact Or.inl hsource
    · exact Or.inr ⟨hsource, hids hf⟩
  · intro t e owner l hC hs howner hview
    have hopen := hC hs
    cases e with
    | http env draws req addr => exact hs.elim
    | heartbeat env => exact hs.elim
    | toggleMaintenance env => exact hs.elim
    | receive env packet source batch =>
      obtain ⟨rfl, hids⟩ := hs
      obtain ⟨⟨s, r⟩, hd, hs⟩ := Option.map_eq_some_iff.mp hids
      obtain rfl : s = id := hs
      have hf := (reachesForward_iff core).mpr ⟨hd, hopen⟩
      simp only [machine]
      rw [hf.onUdpReceive_eq]
      exact (handleDataForward_claims hcore htime t env packet _ hview howner hf.ids_ne).1

/-- A packet from one client to another is delivered once the other has sent anything. -/
theorem Takes.deliver {t : TunnelV2 C R} {since : Nat} {events : List Event} {i j : Int16}
    {a b : SocketAddr} (hi : Takes core rater expired t since events i a)
    (hj : Takes core rater expired t since events j b)
    (hi0 : core.view core.lastReceive t.mappings i = some ⟨none, since⟩)
    (hj0 : core.view core.lastReceive t.mappings j = some ⟨none, since⟩)
    (hab : a ≠ b) (env : Env) {packet : Packet} (batch : LocalMetricsBatch)
    (hdata : dataIds core packet a = some (i, j))
    (hoff : ((machine core rater).run t events).maintenanceMode = false) :
    (machine core rater).emit ((machine core rater).run t events) (.receive env packet a batch) =
      if ∃ e ∈ events, SendsData core j b e then [⟨packet, b⟩] else [] := by
  have hslot := hi.slot rater hcore htime hi0
  have hreceiver := hj.slot rater hcore htime hj0
  have hf := (reachesForward_iff core).mpr ⟨hdata, hoff⟩
  obtain ⟨owner, l, hview, howner⟩ : ∃ owner l, core.view core.lastReceive
      ((machine core rater).run t events).mappings i = some ⟨owner, l⟩ ∧
      (owner = none ∨ owner = some a) := by
    split at hslot
    · obtain ⟨l, hl⟩ := hslot
      exact ⟨some a, l, hl, Or.inr rfl⟩
    · exact ⟨none, since, hslot, Or.inl rfl⟩
  show (onUdpReceive core rater _ env packet a batch).2.2 = _
  rw [hf.onUdpReceive_eq, (handleDataForward_claims hcore htime _ env packet _ hview howner
    hf.ids_ne).2]
  split
  · rename_i hsent
    rw [if_pos hsent, core.boundTo_view] at hreceiver
    rw [core.forwardInfo_eq_some.mpr ⟨hreceiver, hab.symm⟩]
    rfl
  · rename_i hsilent
    rw [if_neg hsilent] at hreceiver
    obtain ⟨client, hget, hclient⟩ := Option.map_eq_some_iff.mp hreceiver
    have hep : core.remoteEp client = none := congrArg Slot.endpoint hclient
    simp [RelayCore.forwardInfo, hget, hep]

end Sessions

end TunnelV2

/-! ## Both tunnels -/

/-- **Sessions.** In any run of the V3 tunnel, a packet between two clients that have joined and
keep sending is delivered. In any run of the V2 tunnel after an answer 200 to `/request`, a packet
between two clients that have taken ids of the answer is delivered, if the other has sent
anything yet; otherwise it is dropped. -/
theorem sessions_deliver (hcore : core.FixedEndpoint) (htime : core.TimesOutBy expired) :
    (∀ (t : TunnelV3 C A R) events i j a b,
      TunnelV3.Joined core rater expired t events i a →
      TunnelV3.Joined core rater expired t events j b → a ≠ b →
      ∀ env packet batch, TunnelV3.dataIds core packet a = some (i, j) →
      let M := TunnelV3.machine core rater
      (M.run t events).maintenanceMode = false →
      M.emit (M.run t events) (.receive env packet a batch) = [⟨packet, b⟩]) ∧
    ∀ (t₀ : TunnelV2 C R) (now : Env) draws (req : Request) source,
      req.isGet = true → req.path = "/request".toList →
      let out := TunnelV2.handleHttpRequest core rater t₀ now.timestamp draws req source
      let t := out.2
      out.1.status = .ok → ∃ ids, TunnelV2.parseIds out.1.body = some ids ∧
        ids.length = TunnelV2.parseClients req.query ∧ ids.Nodup ∧
        ∀ events, ∀ i ∈ ids, ∀ j ∈ ids, ∀ a b, a ≠ b →
        TunnelV2.Takes core rater expired t now.timestamp events i a →
        TunnelV2.Takes core rater expired t now.timestamp events j b →
        ∀ env packet batch, TunnelV2.dataIds core packet a = some (i, j) →
        let M := TunnelV2.machine core rater
        (M.run t events).maintenanceMode = false →
        M.emit (M.run t events) (.receive env packet a batch) =
          if ∃ e ∈ events, TunnelV2.SendsData core j b e then [⟨packet, b⟩] else [] := by
  refine ⟨?_, ?_⟩
  · intro t events i j a b hi hj hab env packet batch hdata M hoff
    exact hi.deliver rater hcore htime hj hab env batch hdata hoff
  · intro t₀ now draws req source hget hpath out t hok
    obtain ⟨ids, hbody, hlength, hnodup, hslots⟩ :=
      TunnelV2.handleHttpRequest_handsOut rater t₀ now draws req source hget hpath hok
    refine ⟨ids, hbody, hlength, hnodup, ?_⟩
    intro events i hi j hj a b hab htakes htakes' env packet batch hdata M hoff
    have hslot : ∀ id ∈ ids, core.view core.lastReceive t.mappings id =
        some ⟨none, now.timestamp⟩ := by
      intro id hid
      have hrow : t.mappings.get id = some (core.new now.timestamp) := hslots id hid
      simp only [RelayCore.view, hrow, Option.map_some, RelayCore.slotOf, hcore.remoteEp_new,
        htime.lastReceive_new]
    exact htakes.deliver rater hcore htime htakes' (hslot i hi) (hslot j hj) hab env batch hdata
      hoff

/-- Two clients of each tunnel, with a cleanup 29 s after they joined before the packet. -/
theorem sessions_deliver_two_clients :
    let core := RelayCore.reference TunnelV3.timeoutSeconds
    let alice : SocketAddr := .v4 8 8 8 8 1234
    let bob : SocketAddr := .v4 9 9 9 9 1234
    let config : ServerConfig := ⟨50001, 50000, 200, "", 8, 4⟩
    let env (ms : Nat) : Env := ⟨ms, 1, true⟩
    (let M := TunnelV3.machine core Rater.reference
      let t := TunnelV3.new (A := List Bool) Rater.reference id config
      let events : List TunnelV3.Event := [.receive (env 1000) [1, 0, 0, 0, 2, 0, 0, 0] alice .new,
        .receive (env 2000) [2, 0, 0, 0, 1, 0, 0, 0] bob .new, .cleanup (env 30000)]
      M.emit (M.run t events) (.receive (env 30000) [1, 0, 0, 0, 2, 0, 0, 0, 42] alice .new) =
        [⟨[1, 0, 0, 0, 2, 0, 0, 0, 42], bob⟩]) ∧
    (let M := TunnelV2.machine core Rater.reference
      let out := TunnelV2.handleHttpRequest core Rater.reference
        (TunnelV2.new Rater.reference config) (env 1000).timestamp (fun n => [7, 7, -5].getD n 1)
        ⟨true, "/request".toList, some "clients=2".toList⟩ alice
      let events : List TunnelV2.Event := [.receive (env 2000) [0, 7, 255, 251] alice .new,
        .receive (env 3000) [255, 251, 0, 7] bob .new, .heartbeat (env 30000)]
      TunnelV2.parseIds out.1.body = some [7, -5] ∧
      M.emit (M.run out.2 events) (.receive (env 30000) [0, 7, 255, 251, 42] alice .new) =
        [⟨[0, 7, 255, 251, 42], bob⟩]) := by
  intro core alice bob config env
  have hboth := sessions_deliver core Rater.reference _
    (RelayCore.reference_fixedEndpoint _) (RelayCore.reference_timesOutInSeconds _)
  refine ⟨?_, ?_⟩
  · intro M t events
    have halice : TunnelV3.Joined core Rater.reference (RelayCore.inWholeSeconds 1000 30) t
        events 1 alice := by
      refine ⟨[], events[0], events.drop 1, rfl, ?_, by decide +kernel, by decide +kernel⟩
      exact ⟨_, _, _, rfl, ⟨2, (TunnelV3.reachesForward_iff core).mpr (by decide +kernel)⟩,
        by decide +kernel⟩
    have hbob : TunnelV3.Joined core Rater.reference (RelayCore.inWholeSeconds 1000 30) t
        events 2 bob := by
      refine ⟨[events[0]], events[1], events.drop 2, rfl, ?_, by decide +kernel, by decide +kernel⟩
      exact ⟨_, _, _, rfl, ⟨1, (TunnelV3.reachesForward_iff core).mpr (by decide +kernel)⟩,
        by decide +kernel⟩
    simp only [M]
    exact hboth.1 t events 1 2 alice bob halice hbob (by decide) (env 30000)
      [1, 0, 0, 0, 2, 0, 0, 0, 42] .new (by decide +kernel) (by decide +kernel)
  · intro M out events
    obtain ⟨ids, hbody, _, _, hdeliver⟩ := hboth.2 (TunnelV2.new Rater.reference config)
      (env 1000) (fun n => [7, 7, -5].getD n 1)
      ⟨true, "/request".toList, some "clients=2".toList⟩ alice rfl rfl (by decide +kernel)
    have hids : TunnelV2.parseIds out.1.body = some [7, -5] := by decide +kernel
    obtain rfl : ids = [7, -5] := Option.some.inj (hbody.symm.trans hids)
    have hsent := hdeliver events 7 (by decide) (-5) (by decide) alice bob (by decide)
      (by decide +kernel) (by decide +kernel) (env 30000) [0, 7, 255, 251, 42] .new
      (by decide +kernel) (by decide +kernel)
    rw [if_pos (by decide +kernel)] at hsent
    refine ⟨hids, ?_⟩
    simp only [M, out]
    exact hsent

end CncnetServer
