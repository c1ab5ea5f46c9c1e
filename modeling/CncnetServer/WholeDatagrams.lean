import CncnetServer.V2.Run
import CncnetServer.V3.Run

/-!
Datagrams of any length on the UDP ports.

The receive buffer of both tunnels has `MAX_PACKET_SIZE` bytes, and `recv_from`
cuts a longer datagram off there. What is left passes the size test.

* `whole_datagrams`: the exact datagrams that are relayed whole or not at all;
* `whole_datagrams_cut`: a datagram of 1473 bytes of which 1472 are forwarded.
-/

namespace CncnetServer

open Runs

variable {C A R : Type} (core : RelayCore C A) (rater : Rater R)

/-- `recv_from` into a buffer of `size` bytes: the part of the datagram that fits. -/
def recvFrom (size : Nat) (datagram : Packet) : Packet := datagram.take size

theorem recvFrom_of_le {size : Nat} {datagram : Packet} (h : datagram.length ≤ size) :
    recvFrom size datagram = datagram := List.take_of_length_le h

theorem length_recvFrom_of_lt {size : Nat} {datagram : Packet} (h : size < datagram.length) :
    (recvFrom size datagram).length = size := by
  unfold recvFrom
  rw [List.length_take]
  omega

/-- Nothing was sent to others than `addr`, and no slot has changed. -/
def NoTrace {K : Type} [DecidableEq K] (m m' : DashMap K C) (addr : SocketAddr)
    (sent : List Datagram) : Prop :=
  (∀ s ∈ sent, s.dest = addr) ∧ core.view core.lastReceive m' = core.view core.lastReceive m

/-- What was sent to others because of a datagram from `addr` is the datagram itself,
and nothing if it is longer than `size`; then no slot has changed either. -/
structure RelaysWhole {K : Type} [DecidableEq K] (size : Nat) (m m' : DashMap K C)
    (datagram : Packet) (addr : SocketAddr) (sent : List Datagram) : Prop where
  whole : ∀ s ∈ sent, s.dest ≠ addr → s.payload = datagram
  tooLong : size < datagram.length → NoTrace core m m' addr sent

/-! ## V3 -/

namespace TunnelV3

/-- One iteration of `receive_loop` on a datagram of the network. -/
def receiveDatagram (t : TunnelV3 C A R) (env : Env) (batch : LocalMetricsBatch)
    (datagram : Packet) (addr : SocketAddr) :
    TunnelV3 C A R × LocalMetricsBatch × List Datagram :=
  receive core rater t env batch (.datagram (recvFrom maxPacketSize datagram) addr)

/-- What is sent to others is the packet itself. -/
theorem onReceive_payload (t : TunnelV3 C A R) (env : Env) (packet : Packet) (addr : SocketAddr)
    (batch : LocalMetricsBatch) {s : Datagram}
    (hs : s ∈ (onReceive core rater t env packet addr batch).2.2) (hdest : s.dest ≠ addr) :
    s.payload = packet := by
  have hstep := onReceive_step core rater t env packet addr batch
  generalize onReceive core rater t env packet addr batch = out at hstep hs
  cases hstep with
  | short _ => cases hs
  | command _ _ _ _ => cases hs
  | dropped _ => cases hs
  | pingLimited _ => cases hs
  | ping _ _ =>
    obtain rfl := List.mem_singleton.mp hs
    exact absurd rfl hdest
  | forward id r _ =>
    unfold handleDataForward at hs
    dsimp only at hs
    split at hs
    · cases hs
    · rw [relay_sent] at hs
      obtain ⟨b, _, rfl⟩ := Option.map_eq_some_iff.mp (Option.mem_toList.mp hs)
      rfl

/-- Handling a packet never counts it as invalid. -/
theorem onReceive_invalidPackets (t : TunnelV3 C A R) (env : Env) (packet : Packet)
    (addr : SocketAddr) (batch : LocalMetricsBatch) :
    (onReceive core rater t env packet addr batch).1.metrics.count .invalidPackets =
      t.metrics.count .invalidPackets := by
  have hstep := onReceive_step core rater t env packet addr batch
  generalize onReceive core rater t env packet addr batch = out at hstep
  cases hstep with
  | short _ => rfl
  | dropped _ => rfl
  | pingLimited _ => rfl
  | ping _ _ => rfl
  | command _ _ _ _ =>
    have hcmd := executeCommand_step core rater t env packet
    generalize executeCommand core rater t env packet = t' at hcmd
    cases hcmd <;> rfl
  | forward id r _ =>
    have hrelay : ∀ t' : TunnelV3 C A R,
        (relay core t' env r packet addr
          (batch.recordV3Rx (UInt64.ofNat packet.length))).1.metrics = t'.metrics := by
      intro t'
      unfold relay
      split
      · split <;> rfl
      · rfl
    have hsender : (senderValid core rater t env id packet addr).2.metrics.count .invalidPackets =
        t.metrics.count .invalidPackets := by
      have hsender := senderValid_step core rater t env id packet addr
      generalize senderValid core rater t env id packet addr = out at hsender
      cases hsender <;> rfl
    unfold handleDataForward
    dsimp only
    split
    · exact hsender
    · rw [hrelay]
      exact hsender

/-- An iteration with an admitted packet is `on_receive` and a flush. -/
theorem receive_admitted (t : TunnelV3 C A R) (env : Env) (packet : Packet) (addr : SocketAddr)
    (batch : LocalMetricsBatch) (hlo : 8 ≤ packet.length) (hhi : packet.length ≤ maxPacketSize) :
    receive core rater t env batch (.datagram packet addr) =
      let out := onReceive core rater t env packet addr batch
      ({ out.1 with metrics := (out.2.1.maybeFlush out.1.metrics).2 },
        (out.2.1.maybeFlush out.1.metrics).1, out.2.2) := by
  simp only [receive, hlo, hhi, and_self, if_true]

/-- What is sent to others is the packet that `recv_from` returned. -/
theorem receive_payload (t : TunnelV3 C A R) (env : Env) (packet : Packet) (addr : SocketAddr)
    (batch : LocalMetricsBatch) {s : Datagram}
    (hs : s ∈ (receive core rater t env batch (.datagram packet addr)).2.2)
    (hdest : s.dest ≠ addr) : s.payload = packet := by
  by_cases hsize : 8 ≤ packet.length ∧ packet.length ≤ maxPacketSize
  · rw [receive_admitted core rater t env packet addr batch hsize.1 hsize.2] at hs
    exact onReceive_payload core rater t env packet addr batch hs hdest
  · simp only [receive, hsize, if_false] at hs
    cases hs

/-- A datagram that does not fit into the buffer is not counted as invalid. -/
theorem receiveDatagram_invalidPackets (t : TunnelV3 C A R) (env : Env)
    (batch : LocalMetricsBatch) {datagram : Packet} (addr : SocketAddr)
    (hlong : maxPacketSize < datagram.length) :
    (receiveDatagram core rater t env batch datagram addr).1.metrics.count .invalidPackets =
      t.metrics.count .invalidPackets := by
  have hlen := length_recvFrom_of_lt hlong
  unfold receiveDatagram
  rw [receive_admitted core rater t env _ addr batch (by rw [hlen]; decide) (Nat.le_of_eq hlen)]
  dsimp only
  rw [LocalMetricsBatch.count_maybeFlush _ _ fun f => f.counter_ne_invalidPackets,
    onReceive_invalidPackets]

/-- What becomes of a datagram, as it should be: `RelaysWhole`, and one that is too long
is counted. -/
def HandlesWhole (t : TunnelV3 C A R) (env : Env) (batch : LocalMetricsBatch)
    (datagram : Packet) (addr : SocketAddr) : Prop :=
  let out := receiveDatagram core rater t env batch datagram addr
  RelaysWhole core maxPacketSize t.mappings out.1.mappings datagram addr out.2.2 ∧
    (maxPacketSize < datagram.length → out.1.metrics.count .invalidPackets =
      t.metrics.count .invalidPackets + 1)

theorem handlesWhole_iff (t : TunnelV3 C A R) (env : Env) (batch : LocalMetricsBatch)
    (datagram : Packet) (addr : SocketAddr) :
    HandlesWhole core rater t env batch datagram addr ↔ datagram.length ≤ maxPacketSize := by
  constructor
  · rintro ⟨_, hcounted⟩
    by_contra hle
    have hlong : maxPacketSize < datagram.length := Nat.lt_of_not_le hle
    have hcount := hcounted hlong
    rw [receiveDatagram_invalidPackets core rater t env batch addr hlong] at hcount
    have hone : (0 : UInt64) = 1 := by
      apply UInt64.add_right_inj (t.metrics.count .invalidPackets) |>.mp
      rw [UInt64.add_zero]
      exact hcount
    cases hone
  · intro hle
    have hnot : ¬ maxPacketSize < datagram.length := Nat.not_lt.mpr hle
    refine ⟨⟨?_, fun hlong => absurd hlong hnot⟩, fun hlong => absurd hlong hnot⟩
    intro s hs hdest
    unfold receiveDatagram at hs
    rw [recvFrom_of_le hle] at hs
    exact receive_payload core rater t env datagram addr batch hs hdest

end TunnelV3

/-! ## V2 -/

namespace TunnelV2

/-- One iteration of `receive_loop` on a datagram of the network. -/
def receiveDatagram (t : TunnelV2 C R) (env : Env) (batch : LocalMetricsBatch)
    (datagram : Packet) (addr : SocketAddr) : TunnelV2 C R × LocalMetricsBatch × List Datagram :=
  receive core rater t env batch (.datagram (recvFrom maxPacketSize datagram) addr)

/-- What is sent to others is the packet itself. -/
theorem onUdpReceive_payload (t : TunnelV2 C R) (env : Env) (packet : Packet) (addr : SocketAddr)
    (batch : LocalMetricsBatch) {s : Datagram}
    (hs : s ∈ (onUdpReceive core rater t env packet addr batch).2.2) (hdest : s.dest ≠ addr) :
    s.payload = packet := by
  have hstep := onUdpReceive_step core rater t env packet addr batch
  generalize onUdpReceive core rater t env packet addr batch = out at hstep hs
  cases hstep with
  | short _ => cases hs
  | dropped _ => cases hs
  | pingLimited _ => cases hs
  | ping _ _ =>
    obtain rfl := List.mem_singleton.mp hs
    exact absurd rfl hdest
  | forward id r _ =>
    unfold handleDataForward at hs
    split at hs
    · rw [relay_sent] at hs
      obtain ⟨b, _, rfl⟩ := Option.map_eq_some_iff.mp (Option.mem_toList.mp hs)
      rfl
    · cases hs

/-- An iteration with an admitted packet is `on_udp_receive` and a flush. -/
theorem receive_admitted (t : TunnelV2 C R) (env : Env) (packet : Packet) (addr : SocketAddr)
    (batch : LocalMetricsBatch) (hlo : 4 ≤ packet.length) (hhi : packet.length ≤ maxPacketSize) :
    receive core rater t env batch (.datagram packet addr) =
      let out := onUdpReceive core rater t env packet addr batch
      ({ out.1 with metrics := (out.2.1.maybeFlush out.1.metrics).2 },
        (out.2.1.maybeFlush out.1.metrics).1, out.2.2) := by
  simp only [receive, hlo, hhi, and_self, if_true]

/-- What is sent to others is the packet that `recv_from` returned. -/
theorem receive_payload (t : TunnelV2 C R) (env : Env) (packet : Packet) (addr : SocketAddr)
    (batch : LocalMetricsBatch) {s : Datagram}
    (hs : s ∈ (receive core rater t env batch (.datagram packet addr)).2.2)
    (hdest : s.dest ≠ addr) : s.payload = packet := by
  by_cases hsize : 4 ≤ packet.length ∧ packet.length ≤ maxPacketSize
  · rw [receive_admitted core rater t env packet addr batch hsize.1 hsize.2] at hs
    exact onUdpReceive_payload core rater t env packet addr batch hs hdest
  · simp only [receive, hsize, if_false] at hs
    cases hs

/-- A packet that can change nothing: it does not reach the data path, or its sender's
slot is free, or another live endpoint's, or it repeats what its sender said just now
to nobody. -/
def Inert (t : TunnelV2 C R) (env : Env) (packet : Packet) (addr : SocketAddr) : Prop :=
  ∀ s r client, ReachesForward core t packet addr s r → t.mappings.get s = some client →
    (∃ ep, core.remoteEp client = some ep ∧ ep ≠ addr ∧
      core.isTimedOut client env.timestamp = false) ∨
    (core.remoteEp client = some addr ∧ core.lastReceive client = env.timestamp ∧
      core.forwardInfo t.mappings r addr = none)

theorem inert_iff {t : TunnelV2 C R} {env : Env} {packet : Packet} {addr : SocketAddr}
    {s r : Int16} (hf : ReachesForward core t packet addr s r) :
    Inert core t env packet addr ↔ ∀ client, t.mappings.get s = some client →
      (∃ ep, core.remoteEp client = some ep ∧ ep ≠ addr ∧
        core.isTimedOut client env.timestamp = false) ∨
      (core.remoteEp client = some addr ∧ core.lastReceive client = env.timestamp ∧
        core.forwardInfo t.mappings r addr = none) := by
  constructor
  · intro h client hget
    exact h s r client hf hget
  · intro h s' r' client hf' hget
    have hids := hf'.header
    rw [hf.header] at hids
    cases hids
    exact h client hget

section Laws

variable {expired : Nat → Nat → Bool} (hcore : core.FixedEndpoint) (htime : core.TimesOutBy expired)
include hcore htime

/-- An accepted packet leaves no trace only if its sender had sent at the same time
and there is nobody to forward it to. -/
theorem accepted_noTrace {t t' : TunnelV2 C R} {env : Env} {s r : Int16} {packet : Packet}
    {addr : SocketAddr} (hacc : acceptSender core t env s packet addr = some t') (hne : s ≠ r)
    (batch : LocalMetricsBatch) :
    NoTrace core t.mappings (relay core t' env r packet addr batch).1.mappings addr
        (relay core t' env r packet addr batch).2.2 ↔
      core.view core.lastReceive t.mappings s = some ⟨some addr, env.timestamp⟩ ∧
        core.forwardInfo t.mappings r addr = none := by
  have hview : core.view core.lastReceive (relay core t' env r packet addr batch).1.mappings =
      Function.update (core.view core.lastReceive t.mappings) s
        (some ⟨some addr, env.timestamp⟩) := by
    rw [view_relay core hcore core.lastReceive htime.lastReceive_updateStats]
    exact view_acceptSender core hcore htime hacc
  have hforward : core.forwardInfo t'.mappings r addr = core.forwardInfo t.mappings r addr := by
    unfold RelayCore.forwardInfo
    rw [acceptSender_get_ne core hacc (Ne.symm hne)]
  have hsent : (∀ d ∈ (relay core t' env r packet addr batch).2.2, d.dest = addr) ↔
      core.forwardInfo t.mappings r addr = none := by
    simp only [relay_sent, hforward]
    cases hinfo : core.forwardInfo t.mappings r addr with
    | none => simp
    | some b =>
      have hb := ((core.forwardInfo_eq_some).mp hinfo).2
      simp [hb]
  unfold NoTrace
  rw [hsent, hview, Function.update_eq_self_iff, and_comm, eq_comm]

/-- The packets that leave no trace, pings apart. -/
theorem onUdpReceive_noTrace (t : TunnelV2 C R) (env : Env) (packet : Packet) (addr : SocketAddr)
    (batch : LocalMetricsBatch) (hping : packet.length ≠ 50) :
    NoTrace core t.mappings (onUdpReceive core rater t env packet addr batch).1.mappings addr
        (onUdpReceive core rater t env packet addr batch).2.2 ↔
      Inert core t env packet addr := by
  have hstep := onUdpReceive_step core rater t env packet addr batch
  generalize onUdpReceive core rater t env packet addr batch = out at hstep ⊢
  have hnone : ∀ {P : Prop}, (∀ s r, ¬ ReachesForward core t packet addr s r) →
      (P ↔ True) → (P ↔ Inert core t env packet addr) := by
    intro P hno hP
    exact hP.trans (iff_of_true trivial fun s r client hf _ => absurd hf (hno s r))
  cases hstep with
  | short hheader =>
    refine hnone ?_ (by simp [NoTrace])
    intro s r hf
    rw [hf.header] at hheader
    cases hheader
  | dropped hno => exact hnone hno (by simp [NoTrace])
  | pingLimited hheader =>
    refine hnone ?_ (by simp [NoTrace])
    intro s r hf
    have hids := hf.header
    rw [hheader] at hids
    cases hids
    exact hf.notPing ⟨rfl, rfl⟩
  | ping _ hlen => exact absurd hlen hping
  | forward s r hf =>
    rw [inert_iff core hf]
    have hsender := acceptSender_step core t env s packet addr
    unfold handleDataForward
    generalize hacc : acceptSender core t env s packet addr = accepted at hsender ⊢
    cases hsender with
    | claimed client hget hep =>
      rw [accepted_noTrace core hcore htime hacc hf.ids_ne]
      simp [RelayCore.view, RelayCore.slotOf, hget, hep]
    | reconnected client ep hget hep hne hto =>
      rw [accepted_noTrace core hcore htime hacc hf.ids_ne]
      simp [RelayCore.view, RelayCore.slotOf, hget, hep, hne, hto]
    | refreshed client hget hep =>
      rw [accepted_noTrace core hcore htime hacc hf.ids_ne]
      simp [RelayCore.view, RelayCore.slotOf, hget, hep]
    | refused client ep hget hep hne hto => simp [NoTrace, hget, hep, hne, hto]
    | unknown hget => simp [NoTrace, hget]

/-- **V2.** A datagram is relayed whole or not at all exactly if it fits into the
buffer or what fits of it is inert. -/
theorem relaysWhole_iff (t : TunnelV2 C R) (env : Env) (batch : LocalMetricsBatch)
    (datagram : Packet) (addr : SocketAddr) :
    let out := receiveDatagram core rater t env batch datagram addr
    RelaysWhole core maxPacketSize t.mappings out.1.mappings datagram addr out.2.2 ↔
      datagram.length ≤ maxPacketSize ∨
        Inert core t env (recvFrom maxPacketSize datagram) addr := by
  intro out
  by_cases hle : datagram.length ≤ maxPacketSize
  · refine iff_of_true ⟨?_, fun hlong => absurd hlong (Nat.not_lt.mpr hle)⟩ (Or.inl hle)
    intro s hs hdest
    simp only [out, receiveDatagram, recvFrom_of_le hle] at hs
    exact receive_payload core rater t env datagram addr batch hs hdest
  · have hlong : maxPacketSize < datagram.length := Nat.lt_of_not_le hle
    have hlen := length_recvFrom_of_lt hlong
    have hnoTrace := onUdpReceive_noTrace core rater hcore htime t env
      (recvFrom maxPacketSize datagram) addr batch (by rw [hlen]; decide)
    have hout : out = _ := receive_admitted core rater t env (recvFrom maxPacketSize datagram) addr
      batch (by rw [hlen]; decide) (Nat.le_of_eq hlen)
    rw [hout, ← hnoTrace]
    constructor
    · intro h
      exact Or.inr (h.tooLong hlong)
    · rintro (h | h)
      · exact absurd h hle
      · refine ⟨fun s hs hdest => absurd (h.1 s hs) hdest, fun _ => h⟩

end Laws

end TunnelV2

/-! ## Both tunnels -/

/-- **Whole datagrams.** V3 handles a datagram as it should exactly if it fits into the
receive buffer; V2 also when the part that fits is inert. -/
theorem whole_datagrams {expired : Nat → Nat → Bool} (hcore : core.FixedEndpoint)
    (htime : core.TimesOutBy expired) :
    (∀ (t : TunnelV3 C A R) (env : Env) (batch : LocalMetricsBatch) (datagram : Packet)
      (addr : SocketAddr), TunnelV3.HandlesWhole core rater t env batch datagram addr ↔
        datagram.length ≤ TunnelV3.maxPacketSize) ∧
    (∀ (t : TunnelV2 C R) (env : Env) (batch : LocalMetricsBatch) (datagram : Packet)
      (addr : SocketAddr),
      let out := TunnelV2.receiveDatagram core rater t env batch datagram addr
      RelaysWhole core TunnelV2.maxPacketSize t.mappings out.1.mappings datagram addr out.2.2 ↔
        datagram.length ≤ TunnelV2.maxPacketSize ∨
          TunnelV2.Inert core t env (recvFrom TunnelV2.maxPacketSize datagram) addr) :=
  ⟨TunnelV3.handlesWhole_iff core rater, TunnelV2.relaysWhole_iff core rater hcore htime⟩

/-- Alice and Bob hold the V2 slots 1 and 2. -/
def aliceAndBob : TunnelV2 RelayCore.ReferenceClient SpentTokens :=
  (TunnelV2.machine (RelayCore.reference 30) Rater.reference).run
    (TunnelV2.new Rater.reference ⟨50001, 50000, 200, "", 8, 4⟩)
    [.http ⟨1000, 1, true⟩ (fun i => if i = 0 then 1 else 2) ⟨true, "/request".toList,
        some "clients=2".toList⟩ (.v4 8 8 8 8 1234),
      .receive ⟨1000, 1, true⟩ [0, 2, 0, 1] (.v4 9 9 9 9 1234) .new,
      .receive ⟨1000, 1, true⟩ [0, 1, 0, 2] (.v4 8 8 8 8 1234) .new]

/-- 1473 bytes in the name of Alice. -/
def longPacket : Packet := [0, 1, 0, 2] ++ List.replicate 1469 42

/-- Alice's slot is hers, and she is alive: what Carol sends in her name is inert. -/
theorem longPacket_inert : TunnelV2.Inert (RelayCore.reference 30) aliceAndBob
    ⟨2000, 2, true⟩ (recvFrom TunnelV2.maxPacketSize longPacket) (.v4 7 7 7 7 1234) := by
  have hreaches : TunnelV2.ReachesForward (RelayCore.reference 30) aliceAndBob
      (recvFrom TunnelV2.maxPacketSize longPacket) (.v4 7 7 7 7 1234) 1 2 :=
    ⟨by decide +kernel, by decide +kernel, by decide, by decide +kernel⟩
  have halice : aliceAndBob.mappings.get 1 = some ⟨some (.v4 8 8 8 8 1234), 1000, 0, 0⟩ := by
    decide +kernel
  rw [TunnelV2.inert_iff _ hreaches, halice]
  rintro client ⟨⟩
  exact Or.inl ⟨_, rfl, by decide, by decide +kernel⟩

/-- A first packet on the V3 port, and Carol's long one on the V2 port. -/
theorem whole_datagrams_reference :
    TunnelV3.HandlesWhole (RelayCore.reference 30) Rater.reference
      (TunnelV3.new (A := List Bool) Rater.reference id ⟨50001, 50000, 200, "", 8, 4⟩)
      ⟨1000, 1, true⟩ .new [1, 0, 0, 0, 2, 0, 0, 0] (.v4 8 8 8 8 1234) ∧
    TunnelV2.maxPacketSize < longPacket.length ∧
    RelaysWhole (RelayCore.reference 30) TunnelV2.maxPacketSize
      aliceAndBob.mappings
      (TunnelV2.receiveDatagram (RelayCore.reference 30) Rater.reference
        aliceAndBob ⟨2000, 2, true⟩ .new longPacket (.v4 7 7 7 7 1234)).1.mappings
      longPacket (.v4 7 7 7 7 1234)
      (TunnelV2.receiveDatagram (RelayCore.reference 30) Rater.reference
        aliceAndBob ⟨2000, 2, true⟩ .new longPacket (.v4 7 7 7 7 1234)).2.2 := by
  obtain ⟨h3, h2⟩ := whole_datagrams (RelayCore.reference 30) Rater.reference
    (RelayCore.reference_fixedEndpoint _) (RelayCore.reference_timesOutInSeconds _)
  exact ⟨(h3 _ _ _ _ _).mpr (by decide), by decide +kernel,
    (h2 aliceAndBob ⟨2000, 2, true⟩ .new longPacket (.v4 7 7 7 7 1234)).mpr
      (Or.inr longPacket_inert)⟩

/-- Alice and Bob are connected, and Alice sends 1473 bytes for Bob: on both ports Bob
gets the first 1472. -/
theorem whole_datagrams_cut :
    let core := RelayCore.reference TunnelV3.timeoutSeconds
    let config : ServerConfig := ⟨50001, 50000, 200, "", 8, 4⟩
    let alice : SocketAddr := .v4 8 8 8 8 1234
    let bob : SocketAddr := .v4 9 9 9 9 1234
    let env : Env := ⟨1000, 1, true⟩
    let t3 := (TunnelV3.machine core Rater.reference).run
      (TunnelV3.new (A := List Bool) Rater.reference id config)
      [.receive env [2, 0, 0, 0, 1, 0, 0, 0] bob .new,
        .receive env [1, 0, 0, 0, 2, 0, 0, 0] alice .new]
    let t2 := (TunnelV2.machine core Rater.reference).run (TunnelV2.new Rater.reference config)
      [.http env (fun i => if i = 0 then 1 else 2) ⟨true, "/request".toList,
          some "clients=2".toList⟩ alice,
        .receive env [0, 2, 0, 1] bob .new, .receive env [0, 1, 0, 2] alice .new]
    let long3 : Packet := [1, 0, 0, 0, 2, 0, 0, 0] ++ List.replicate 1465 42
    let long2 : Packet := [0, 1, 0, 2] ++ List.replicate 1469 42
    let out := TunnelV2.receiveDatagram core Rater.reference t2 env .new long2 alice
    ¬ TunnelV3.HandlesWhole core Rater.reference t3 env .new long3 alice ∧
      ¬ RelaysWhole core TunnelV2.maxPacketSize t2.mappings out.1.mappings long2 alice out.2.2 := by
  intro core config alice bob env t3 t2 long3 long2 out
  have hsent3 : ∃ s ∈ (TunnelV3.receiveDatagram core Rater.reference t3 env .new long3 alice).2.2,
      s.dest ≠ alice := by decide +kernel
  have hsent2 : ∃ s ∈ out.2.2, s.dest ≠ alice := by decide +kernel
  constructor
  · rintro ⟨h, _⟩
    obtain ⟨s, hs, hdest⟩ := hsent3
    exact hdest ((h.tooLong (by decide +kernel)).1 s hs)
  · intro h
    obtain ⟨s, hs, hdest⟩ := hsent2
    exact hdest ((h.tooLong (by decide +kernel)).1 s hs)

end CncnetServer
