import CncnetServer.V2.Run
import CncnetServer.V3.Run

/-!
Two relays side by side: `handle_data_forward` of V2 and of V3 on the packets of
clients that both of them know.

* `handleDataForward_agree`: one call on mappings that correspond forwards alike and
  leaves mappings that correspond;
* `established_sessions_agree`: so does every sequence of calls.
-/

namespace CncnetServer

open Runs Slots

variable {C A R R' : Type} (core : RelayCore C A) (rater : Rater R)

/-- The V3 mappings are the V2 mappings under other ids: the same endpoints, all of
them known, and the same last-receive times. -/
def Corresponds (f : Int16 → UInt32) (m : DashMap Int16 C) (m' : DashMap UInt32 C) : Prop :=
  Renames f (core.view core.lastReceive m) (core.view core.lastReceive m')

namespace Established

/-- A call of `handle_data_forward`, with the receiver and the batch of each tunnel. -/
structure Call where
  env : Env
  sender : Int16
  receiver : Int16
  receiver' : UInt32
  packet : Packet
  addr : SocketAddr
  batch : LocalMetricsBatch
  batch' : LocalMetricsBatch

/-- `handle_data_forward` of V2. -/
def relayV2 : Machine (TunnelV2 C R') Call Datagram where
  step t c :=
    (TunnelV2.handleDataForward core t c.env c.sender c.receiver c.packet c.addr c.batch).1
  emit t c :=
    (TunnelV2.handleDataForward core t c.env c.sender c.receiver c.packet c.addr c.batch).2.2

/-- `handle_data_forward` of V3, with the sender's V3 id. -/
def relayV3 (f : Int16 → UInt32) : Machine (TunnelV3 C A R) Call Datagram where
  step t c :=
    (TunnelV3.handleDataForward core rater t c.env (f c.sender) c.receiver' c.packet c.addr
      c.batch').1
  emit t c :=
    (TunnelV3.handleDataForward core rater t c.env (f c.sender) c.receiver' c.packet c.addr
      c.batch').2.2

/-- The receivers are the same client, or both unknown. -/
def SameReceiver (f : Int16 → UInt32) (m : DashMap Int16 C) (m' : DashMap UInt32 C) (c : Call) :
    Prop :=
  (c.receiver ∈ m ∧ c.receiver' = f c.receiver) ∨ (c.receiver ∉ m ∧ c.receiver' ∉ m')

/-- If the connection limiter is asked about the call, it grants a token. -/
def Granted (f : Int16 → UInt32) (t : TunnelV3 C A R) (c : Call) : Prop :=
  ∀ client ep, t.mappings.get (f c.sender) = some client → core.remoteEp client = some ep →
    ep ≠ c.addr → core.isTimedOut client c.env.timestamp = true →
    (rater.tryAcquire t.connectionLimiter c.addr.ip c.env.timestamp).1 = true

end Established

open Established

/-! ## One call -/

theorem isSome_view {K : Type} [DecidableEq K] {m : DashMap K C} {id : K} :
    (core.view core.lastReceive m id).isSome ↔ id ∈ m := by
  rw [DashMap.mem_iff_get, ← Option.isSome_iff_exists]
  unfold RelayCore.view
  rw [Option.isSome_map]

/-- What is forwarded depends on the view of the receiver alone. -/
theorem forwardInfo_congr {K K' : Type} [DecidableEq K] [DecidableEq K'] {m : DashMap K C}
    {m' : DashMap K' C} {r : K} {r' : K'} (addr : SocketAddr)
    (h : core.view core.lastReceive m r = core.view core.lastReceive m' r') :
    core.forwardInfo m r addr = core.forwardInfo m' r' addr := by
  have hep : core.endpointOf m r = core.endpointOf m' r' := by
    ext e
    rw [← core.boundTo_view core.lastReceive, ← core.boundTo_view core.lastReceive, h]
  ext b
  rw [core.forwardInfo_eq_some, core.forwardInfo_eq_some, hep]

/-- The mappings correspond, and have the keys they had at the start. -/
structure Tracks (f : Int16 → UInt32) (m₀ : DashMap Int16 C) (m₀' : DashMap UInt32 C)
    (m : DashMap Int16 C) (m' : DashMap UInt32 C) : Prop where
  corresponds : Corresponds core f m m'
  keys : ∀ i, i ∈ m ↔ i ∈ m₀
  keys' : ∀ k, k ∈ m' ↔ k ∈ m₀'

variable {core} {f : Int16 → UInt32} {m₀ m : DashMap Int16 C} {m₀' m' : DashMap UInt32 C}

theorem Tracks.of_view (h : Tracks core f m₀ m₀' m m') {n : DashMap Int16 C}
    {n' : DashMap UInt32 C} (hn : core.view core.lastReceive n = core.view core.lastReceive m)
    (hn' : core.view core.lastReceive n' = core.view core.lastReceive m') :
    Tracks core f m₀ m₀' n n' where
  corresponds := by
    unfold Corresponds
    rw [hn, hn']
    exact h.corresponds
  keys i := by rw [← isSome_view core, hn, isSome_view, h.keys]
  keys' k := by rw [← isSome_view core, hn', isSome_view, h.keys']

/-- The sender's slot changes alike in both mappings. -/
theorem Tracks.update (h : Tracks core f m₀ m₀' m m') {i : Int16} (hi : i ∈ m) {addr : SocketAddr}
    {now : Nat} {n : DashMap Int16 C} {n' : DashMap UInt32 C}
    (hn : core.view core.lastReceive n =
      Function.update (core.view core.lastReceive m) i (some ⟨some addr, now⟩))
    (hn' : core.view core.lastReceive n' =
      Function.update (core.view core.lastReceive m') (f i) (some ⟨some addr, now⟩)) :
    Tracks core f m₀ m₀' n n' := by
  have hview : (core.view core.lastReceive m i).isSome := (isSome_view core).mpr hi
  refine ⟨?_, ?_, ?_⟩
  · unfold Corresponds
    rw [hn, hn']
    exact Renames.update h.corresponds hview addr now
  · intro j
    rw [← isSome_view core, hn, isSome_update hview, isSome_view, h.keys]
  · intro k
    rw [← isSome_view core, hn', isSome_update (h.corresponds.isSome hview), isSome_view, h.keys']

/-- Corresponding receivers have the same slot. -/
theorem Tracks.receiver (h : Tracks core f m₀ m₀' m m') {c : Call}
    (hr : SameReceiver f m₀ m₀' c) :
    core.view core.lastReceive m c.receiver = core.view core.lastReceive m' c.receiver' := by
  rcases hr with ⟨hknown, heq⟩ | ⟨hnew, hnew'⟩
  · rw [heq]
    exact (h.corresponds.slot _ ((isSome_view core).mpr ((h.keys _).mpr hknown))).symm
  · rw [← h.keys, ← isSome_view core, Option.not_isSome_iff_eq_none] at hnew
    rw [← h.keys', ← isSome_view core, Option.not_isSome_iff_eq_none] at hnew'
    rw [hnew, hnew']

section Laws

variable {expired : Nat → Nat → Bool} (hcore : core.FixedEndpoint) (htime : core.TimesOutBy expired)
include hcore htime

/-- **One call.** Both tunnels forward alike, and their mappings still correspond. -/
theorem handleDataForward_agree {t : TunnelV2 C R'} {t' : TunnelV3 C A R} {c : Call}
    (h : Tracks core f m₀ m₀' t.mappings t'.mappings) (hs : c.sender ∈ m₀)
    (hr : SameReceiver f m₀ m₀' c) (hgrant : Granted core rater f t' c) :
    (relayV2 core).emit t c = (relayV3 core rater f).emit t' c ∧
      Tracks core f m₀ m₀' ((relayV2 core).step t c).mappings
        ((relayV3 core rater f).step t' c).mappings := by
  have hsender : c.sender ∈ t.mappings := (h.keys _).mpr hs
  obtain ⟨ep, l, hview, hview'⟩ := h.corresponds.exists_owner ((isSome_view core).mpr hsender)
  have hacc := TunnelV2.isSome_acceptSender_iff core htime c.env c.packet c.addr hview
  have hacc' := TunnelV3.senderValid_iff core rater htime c.env c.packet c.addr hview'
  -- whenever the owner is silent the limiter is asked, and grants
  have hgranted : ep ≠ c.addr → expired l c.env.timestamp = true →
      (rater.tryAcquire t'.connectionLimiter c.addr.ip c.env.timestamp).1 = true := by
    intro hne hlate
    obtain ⟨client, hget, hslot⟩ := Option.map_eq_some_iff.mp hview'
    have hl : core.lastReceive client = l := congrArg Slot.last hslot
    refine hgrant client ep hget (congrArg Slot.endpoint hslot) hne ?_
    rw [htime.isTimedOut_eq, hl]
    exact hlate
  have hview3 := TunnelV3.view_senderValid core rater hcore htime t' c.env (f c.sender) c.packet
    c.addr
  simp only [relayV2, relayV3, TunnelV2.handleDataForward, TunnelV3.handleDataForward]
  cases hsome : TunnelV2.acceptSender core t c.env c.sender c.packet c.addr with
  | none =>
    have hno : ¬ (ep = c.addr ∨ expired l c.env.timestamp = true) := by
      intro hor
      have := hacc.mpr hor
      rw [hsome] at this
      cases this
    have hvalid : (TunnelV3.senderValid core rater t' c.env (f c.sender) c.packet c.addr).1 =
        false := by
      rw [← Bool.not_eq_true, hacc']
      rintro (heq | hlate)
      · exact hno (Or.inl heq)
      · exact hno (Or.inr hlate.1)
    rw [hvalid, if_neg Bool.false_ne_true] at hview3
    simp only [hvalid, Bool.not_false, if_true]
    exact ⟨trivial, h.of_view rfl hview3⟩
  | some t₁ =>
    have hor := hacc.mp (by rw [hsome]; rfl)
    have hvalid : (TunnelV3.senderValid core rater t' c.env (f c.sender) c.packet c.addr).1 =
        true := by
      rw [hacc']
      by_cases heq : ep = c.addr
      · exact Or.inl heq
      · have hlate := hor.resolve_left heq
        exact Or.inr ⟨hlate, hgranted heq hlate⟩
    rw [hvalid, if_pos rfl] at hview3
    simp only [hvalid, Bool.not_true, Bool.false_eq_true, if_false]
    have htracks := h.update hsender (TunnelV2.view_acceptSender core hcore htime hsome) hview3
    have hforward := forwardInfo_congr core c.addr (htracks.receiver hr)
    constructor
    · rw [TunnelV2.relay_sent, TunnelV3.relay_sent, hforward]
    · exact htracks.of_view
        (TunnelV2.view_relay core hcore core.lastReceive htime.lastReceive_updateStats ..)
        (TunnelV3.view_relay core hcore core.lastReceive htime.lastReceive_updateStats ..)

end Laws

variable (core) in
/-- **Established sessions agree.** On mappings that correspond, with senders that are
keys, every call of a sequence forwards the same packet to the same endpoint in both
tunnels or nothing in both, and leaves mappings that correspond. -/
theorem established_sessions_agree {expired : Nat → Nat → Bool} (hcore : core.FixedEndpoint)
    (htime : core.TimesOutBy expired) {t : TunnelV2 C R'} {t' : TunnelV3 C A R}
    (hstart : Corresponds core f t.mappings t'.mappings) {calls : List Call}
    (hcalls : ∀ c ∈ calls, c.sender ∈ t.mappings ∧ SameReceiver f t.mappings t'.mappings c)
    (hgrant : (relayV3 core rater f).Along (Granted core rater f) t' calls) :
    ∀ before c after, calls = before ++ c :: after →
      let s := (relayV2 core).run t before
      let s' := (relayV3 core rater f).run t' before
      (relayV2 core).emit s c = (relayV3 core rater f).emit s' c ∧
        Corresponds core f ((relayV2 core).step s c).mappings
          ((relayV3 core rater f).step s' c).mappings := by
  rintro before c after rfl s s'
  have hboth := ((relayV3 core rater f).along_and t' _).mpr
    ⟨(relayV3 core rater f).along_of_mem hcalls t', hgrant⟩
  obtain ⟨hbefore, hc⟩ := ((relayV3 core rater f).along_append _ t' before _).mp hboth
  have h0 : Tracks core f t.mappings t'.mappings t.mappings t'.mappings :=
    ⟨hstart, fun _ => Iff.rfl, fun _ => Iff.rfl⟩
  have hrun := (relayV2 core).lockstep (relayV3 core rater f)
    (P := fun s s' => Tracks core f t.mappings t'.mappings s.mappings s'.mappings)
    (fun _ _ _ h hC => handleDataForward_agree rater hcore htime h hC.1.1 hC.1.2 hC.2) h0 hbefore
  have hstep := handleDataForward_agree rater hcore htime hrun.2 hc.1.1.1 hc.1.1.2 hc.1.2
  exact ⟨hstep.1, hstep.2.corresponds⟩

/-- Alice and Bob in both tunnels: Alice's packet reaches Bob through either. -/
theorem established_sessions_agree_two_clients :
    let core := RelayCore.reference TunnelV3.timeoutSeconds
    let f : Int16 → UInt32 := fun i => i.toUInt16.toUInt32
    let alice : SocketAddr := .v4 8 8 8 8 1234
    let bob : SocketAddr := .v4 9 9 9 9 1234
    let config : ServerConfig := ⟨50001, 50000, 200, "", 8, 4⟩
    let t : TunnelV2 RelayCore.ReferenceClient Unit := {
        TunnelV2.new (C := RelayCore.ReferenceClient) Rater.granting config with
      mappings := (DashMap.insert ∅ 1 ⟨some alice, 0, 0, 0⟩).insert 2 ⟨some bob, 0, 0, 0⟩ }
    let t' : TunnelV3 RelayCore.ReferenceClient (List Bool) Unit :=
      { TunnelV3.new (C := RelayCore.ReferenceClient) Rater.granting id config with
        mappings := (DashMap.insert ∅ 1 ⟨some alice, 0, 5, 5⟩).insert 2 ⟨some bob, 0, 0, 0⟩ }
    let c : Call := ⟨⟨1000, 1, true⟩, 1, 2, 2, [42], alice, .new, .new⟩
    (relayV2 core).emit t c = [⟨[42], bob⟩] ∧
      (relayV3 core Rater.granting f).emit t' c = [⟨[42], bob⟩] := by
  intro core f alice bob config t t' c
  have hview : ∀ i, core.view core.lastReceive t.mappings i =
      if i = 2 then some ⟨some bob, 0⟩ else if i = 1 then some ⟨some alice, 0⟩ else none := by
    intro i
    simp only [RelayCore.view, t, DashMap.get_insert]
    split
    · rfl
    · split <;> rfl
  have hview' : ∀ k, core.view core.lastReceive t'.mappings k =
      if k = 2 then some ⟨some bob, 0⟩ else if k = 1 then some ⟨some alice, 0⟩ else none := by
    intro k
    simp only [RelayCore.view, t', DashMap.get_insert]
    split
    · rfl
    · split <;> rfl
  have hids : ∀ i, (core.view core.lastReceive t.mappings i).isSome → i = 2 ∨ i = 1 := by
    intro i hi
    rw [hview] at hi
    by_contra hne
    rw [not_or] at hne
    simp [hne] at hi
  have hstart : Corresponds core f t.mappings t'.mappings := by
    refine ⟨?_, ?_, ?_, ?_⟩
    · intro i j hi hj
      rcases hids i hi with rfl | rfl <;> rcases hids j hj with rfl | rfl <;> decide
    · intro k hk
      rw [hview'] at hk
      by_cases h2 : k = 2
      · exact ⟨2, by rw [hview]; rfl, h2 ▸ rfl⟩
      · by_cases h1 : k = 1
        · exact ⟨1, by rw [hview]; rfl, h1 ▸ rfl⟩
        · simp [h1, h2] at hk
    · intro i hi
      rw [hview, hview']
      rcases hids i hi with rfl | rfl <;> rfl
    · intro i s hs
      have hi := hids i (by rw [hs]; rfl)
      rw [hview] at hs
      rcases hi with rfl | rfl <;> cases hs <;> rfl
  have hcalls : ∀ c' ∈ [c], c'.sender ∈ t.mappings ∧ SameReceiver f t.mappings t'.mappings c' := by
    intro c' hc'
    obtain rfl := List.mem_singleton.mp hc'
    exact ⟨by decide +kernel, Or.inl (by decide +kernel)⟩
  have hagree := established_sessions_agree core Rater.granting
    (RelayCore.reference_fixedEndpoint _) (RelayCore.reference_timesOutInSeconds _) hstart hcalls
    ⟨fun _ _ _ _ _ _ => rfl, trivial⟩ [] c [] rfl
  have hsent : (relayV2 core).emit t c = [⟨[42], bob⟩] := by decide +kernel
  exact ⟨hsent, hagree.1.symm.trans hsent⟩

end CncnetServer
