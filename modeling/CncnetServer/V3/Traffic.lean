import CncnetServer.V3.Threads
import CncnetServer.Traffic

/-!
The traffic of the V3 tunnel under every interleaving of its threads.

A handler sends to the endpoint of the client it has found under the receiver's id, which
may have left the map since. `traffic_authorised`: that endpoint has sent a packet with this
id all the same.
-/

namespace CncnetServer.TunnelV3

open Threads Runs History Traffic

variable {C A R : Type} (core : RelayCore C A) (rater : Rater R)

def Call.heard (call : Call) : Traffic UInt32 :=
  .heard call.senderId call.receiverId call.packet call.remoteAddr

/-- What the access of a handler sends. -/
def Call.sends (call : Call) : Pc → List (Traffic UInt32)
  | .send receiverEp _ => [.sent ⟨call.packet, receiverEp⟩]
  | _ => []

/-- The threads of the tunnel, by what they hear and send. -/
def traffic : System (Shared C A R) Thread Input (Traffic UInt32) where
  exec := exec core rater
  emit _
    | .idle, .receive s r packet addr => [.heard s r packet addr]
    | .handler call pc, .go _ => call.sends pc
    | _, _ => []
  tick s d := { s with clock := s.clock + d }

/-- The handler has sent its packet. -/
def Pc.hasSent : Pc → Bool
  | .receiverStats _ | .recordLost => true
  | _ => false

/-- What a handler knows of endpoints at its next access. -/
def KnowsEndpoint (heard : UInt32 → SocketAddr → Prop) (s : Shared C A R) (call : Call) :
    Pc → Prop
  | .insertReconnect r | .insertFirst r =>
    r < s.heap.next ∧ core.remoteEp (s.heap.cell r) = some call.remoteAddr
  | .send ep _ => heard call.receiverId ep ∧ ep ≠ call.remoteAddr
  | _ => True

/-- Until it has sent its packet, the packet is the last that a handler has shown. -/
def KnowsTraffic {ι : Type} [DecidableEq ι] (tr : List (ι × Traffic UInt32)) (s : Shared C A R)
    (i : ι) : Thread → Prop
  | .handler call pc => (pc.hasSent = false → (shownBy i tr).getLast? = some call.heard) ∧
      HeardFrom tr call.senderId call.remoteAddr ∧ KnowsEndpoint core (HeardFrom tr) s call pc
  | _ => True

/-- What holds of the tunnel and of its traffic. -/
def Sound {ι : Type} [DecidableEq ι] (tr : List (ι × Traffic UInt32)) (s : Shared C A R) : Prop :=
  core.Sourced (HeardFrom tr) s.mappings s.heap ∧ Always Authorised tr

section Handlers

variable {core} {heard : UInt32 → SocketAddr → Prop} {s : Shared C A R} {call : Call}

theorem KnowsEndpoint.mono {heard' : UInt32 → SocketAddr → Prop} {s' : Shared C A R} {pc : Pc}
    (hk : KnowsEndpoint core heard s call pc) (hheard : ∀ id addr, heard id addr → heard' id addr)
    (hkeep : core.KeepsEndpoints s.heap s'.heap) : KnowsEndpoint core heard' s' call pc := by
  cases pc with
  | insertReconnect r => exact ⟨hkeep.lt hk.1, (hkeep.remoteEp r hk.1).trans hk.2⟩
  | insertFirst r => exact ⟨hkeep.lt hk.1, (hkeep.remoteEp r hk.1).trans hk.2⟩
  | send ep r => exact ⟨hheard _ _ hk.1, hk.2⟩
  | _ => trivial

/-- A handler that has not sent its packet yet has shown nothing at this access. -/
theorem handle_hasSent {pc next : Pc} {sendOk : Bool}
    (hnext : (handle core rater s call sendOk pc).2 = some next) (hsent : next.hasSent = false) :
    pc.hasSent = false ∧ call.sends pc = [] := by
  cases pc with
  | send ep r =>
    simp only [handle, Option.some.injEq] at hnext
    subst hnext
    cases sendOk <;> cases hsent
  | receiverStats r => cases hnext
  | recordLost => cases hnext
  | _ => exact ⟨rfl, rfl⟩

/-- The receiver that a handler finds is one that has been heard. -/
theorem forward_knows (hs : core.Sourced heard s.mappings s.heap) {next : Pc} {sendOk : Bool}
    (hnext : (handle core rater s call sendOk .forward).2 = some next) :
    KnowsEndpoint core heard s call next := by
  simp only [handle] at hnext
  cases hget : s.mappings.get call.receiverId with
  | none => simp [hget] at hnext
  | some r =>
    cases hep : core.remoteEp (s.heap.cell r) with
    | none => simp [hget, hep] at hnext
    | some ep =>
      by_cases heq : ep = call.remoteAddr
      · simp [hget, hep, heq] at hnext
      · simp only [hget, hep, heq, if_false, Option.some.injEq] at hnext
        subst hnext
        exact ⟨(hs _ r hget).2 ep hep, heq⟩

variable (hcore : core.FixedEndpoint)
include hcore

theorem handle_keepsEndpoints (s : Shared C A R) (call : Call) (sendOk : Bool) (pc : Pc) :
    core.KeepsEndpoints s.heap (handle core rater s call sendOk pc).1.heap := by
  cases pc with
  | newReconnect => exact .alloc _ _
  | newFirst => exact .alloc _ _
  | setLastReceive r => exact .modify _ r fun c => hcore.remoteEp_setLastReceiveTickAt c call.now
  | updateStats r => exact .modify _ r fun c => hcore.remoteEp_updateStats c _ _ call.now
  | receiverStats r => exact .modify _ r fun c => hcore.remoteEp_updateStats c _ _ call.now
  | _ => exact .refl _

theorem handle_sourced (hs : core.Sourced heard s.mappings s.heap)
    (hheard : heard call.senderId call.remoteAddr) {pc : Pc}
    (hk : KnowsEndpoint core heard s call pc) (sendOk : Bool) :
    core.Sourced heard (handle core rater s call sendOk pc).1.mappings
      (handle core rater s call sendOk pc).1.heap := by
  have hkept := hs.keep (handle_keepsEndpoints rater hcore s call sendOk pc)
  have hinsert : ∀ r, r < s.heap.next ∧ core.remoteEp (s.heap.cell r) = some call.remoteAddr →
      core.Sourced heard (s.mappings.insert call.senderId r) s.heap := by
    rintro r ⟨hr, hep⟩
    refine hs.insert hr fun addr haddr => ?_
    rw [hep, Option.some.injEq] at haddr
    exact haddr ▸ hheard
  cases pc with
  | insertReconnect r => exact hinsert r hk
  | insertFirst r => exact hinsert r hk
  | _ => exact hkept

/-- A handler knows at its next access what it relies on there. -/
theorem handle_knowsEndpoint (hs : core.Sourced heard s.mappings s.heap) {pc next : Pc}
    {sendOk : Bool} (hnext : (handle core rater s call sendOk pc).2 = some next) :
    KnowsEndpoint core heard (handle core rater s call sendOk pc).1 call next := by
  have hnew : core.remoteEp ((s.heap.alloc (core.newWithEndpoint call.remoteAddr s.clock)).cell
      s.heap.next) = some call.remoteAddr := by
    rw [Heap.cell_alloc_next, hcore.remoteEp_newWithEndpoint]
  cases pc with
  | lookup =>
    simp only [handle] at hnext
    split at hnext
    · split at hnext
      · cases hnext
        split <;> trivial
      · cases hnext
    · cases hnext
      trivial
  | isTimedOut r =>
    simp only [handle] at hnext
    split at hnext <;> cases hnext
    trivial
  | tryAcquireReconnect =>
    simp only [handle] at hnext
    split at hnext <;> cases hnext
    trivial
  | newReconnect =>
    cases hnext
    exact ⟨Nat.lt_succ_self _, hnew⟩
  | newFirst =>
    cases hnext
    exact ⟨Nat.lt_succ_self _, hnew⟩
  | checkLen =>
    cases hnext
    split <;> trivial
  | tryAcquireFirst =>
    cases hnext
    split <;> trivial
  | forward => exact forward_knows rater hs hnext
  | send ep r =>
    cases hnext
    split <;> trivial
  | insertReconnect r => cases hnext; trivial
  | analyzerReconnect => cases hnext; trivial
  | setLastReceive r => cases hnext; trivial
  | updateStats r => cases hnext; trivial
  | recordPacket => cases hnext; trivial
  | insertFirst r => cases hnext; trivial
  | analyzerFirst => cases hnext; trivial
  | activeLen => cases hnext; trivial
  | activeStore len => cases hnext; trivial
  | rateLimited => cases hnext
  | full => cases hnext
  | receiverStats r => cases hnext
  | recordLost => cases hnext

end Handlers

/-! ## Steps -/

section Steps

variable {core} (hcore : core.FixedEndpoint)
include hcore

theorem exec_keepsEndpoints (s : Shared C A R) (th : Thread) (a : Input) :
    core.KeepsEndpoints s.heap (exec core rater s th a).1.heap := by
  have hvisit : ∀ key, core.KeepsEndpoints s.heap (visit core s key).heap := by
    intro key
    unfold visit
    split
    · split <;> exact .refl _
    · exact .refl _
  cases th with
  | idle => cases a <;> exact .refl _
  | handler call pc =>
    cases a with
    | go sendOk => exact handle_keepsEndpoints rater hcore s call sendOk pc
    | _ => exact .refl _
  | cleanup pc =>
    cases pc with
    | retain =>
      cases a with
      | visit key => exact hvisit key
      | _ => exact .refl _
    | _ => cases a <;> exact .refl _

variable {ι : Type} [DecidableEq ι]

omit hcore in
/-- What is known of the traffic stays true while others make more of it. -/
theorem KnowsTraffic.mono {tr es : List (ι × Traffic UInt32)} {s s' : Shared C A R} {i : ι}
    {th : Thread} (hk : KnowsTraffic core tr s i th) (hquiet : shownBy i es = [])
    (hkeep : core.KeepsEndpoints s.heap s'.heap) : KnowsTraffic core (tr ++ es) s' i th := by
  cases th with
  | idle => trivial
  | cleanup _ => trivial
  | handler call pc =>
    obtain ⟨hlast, hsender, hend⟩ := hk
    refine ⟨?_, hsender.append es, hend.mono (fun _ _ h => h.append es) hkeep⟩
    rw [shownBy_append, hquiet, List.append_nil]
    exact hlast

omit hcore in
theorem Sound.of_eq {tr : List (ι × Traffic UInt32)} {s s' : Shared C A R}
    (h : Sound core tr s) (hm : s'.mappings = s.mappings) (hh : s'.heap = s.heap) :
    Sound core tr s' := by
  unfold Sound
  rw [hm, hh]
  exact h

/-- One access of a handler. -/
theorem handle_traffic {tr : List (ι × Traffic UInt32)} {s : Shared C A R} {i : ι} {call : Call}
    {pc : Pc} (h : Sound core tr s) (hk : KnowsTraffic core tr s i (.handler call pc))
    (sendOk : Bool) :
    let out := exec core rater s (.handler call pc) (.go sendOk)
    let tr' := tr ++ (call.sends pc).map (Prod.mk i)
    Sound core tr' out.1 ∧ KnowsTraffic core tr' out.1 i out.2 := by
  obtain ⟨hs, htr⟩ := h
  obtain ⟨hlast, hsender, hend⟩ := hk
  refine ⟨⟨?_, ?_⟩, ?_⟩
  · exact (handle_sourced rater hcore hs hsender hend sendOk).mono fun _ _ h => h.append _
  · cases pc with
    | send ep r =>
      refine (always_snoc _ _).mpr ⟨htr, ?_⟩
      exact ⟨call.senderId, call.receiverId, call.remoteAddr, hlast rfl, hend.2, hend.1⟩
    | _ => simpa [Call.sends] using htr
  · simp only [exec]
    cases hnext : (handle core rater s call sendOk pc).2 with
    | none => trivial
    | some next =>
      refine ⟨fun hno => ?_, hsender.append _, ?_⟩
      · obtain ⟨hbefore, hnothing⟩ := handle_hasSent rater hnext hno
        rw [hnothing, List.map_nil, List.append_nil]
        exact hlast hbefore
      · exact (handle_knowsEndpoint rater hcore hs hnext).mono (fun _ _ h => h.append _) (.refl _)

/-- One access of any thread. -/
theorem exec_traffic {tr : List (ι × Traffic UInt32)} {s : Shared C A R} {i : ι} {th : Thread}
    (h : Sound core tr s) (hk : KnowsTraffic core tr s i th) (a : Input) :
    let out := exec core rater s th a
    let tr' := tr ++ ((traffic core rater).emit s th a).map (Prod.mk i)
    Sound core tr' out.1 ∧ KnowsTraffic core tr' out.1 i out.2 := by
  have hnil : tr ++ [] = tr := List.append_nil tr
  cases th with
  | idle =>
    cases a with
    | receive senderId receiverId packet addr =>
      refine ⟨⟨h.1.mono fun _ _ h => h.append _, (always_snoc _ _).mpr ⟨h.2, trivial⟩⟩, ?_, ?_,
        trivial⟩
      · intro _
        rw [shownBy_append, shownBy_self]
        exact List.getLast?_concat
      · exact ⟨i, receiverId, packet, List.mem_append_right _ (List.mem_singleton_self _)⟩
    | _ => exact hnil.symm ▸ ⟨h, trivial⟩
  | cleanup pc =>
    cases pc with
    | retain =>
      cases a with
      | visit key =>
        refine hnil.symm ▸ ⟨?_, trivial⟩
        simp only [exec, visit]
        split
        · split
          · exact ⟨h.1.remove key, h.2⟩
          · exact h
        · exact h
      | _ => exact hnil.symm ▸ ⟨h, trivial⟩
    | _ => cases a <;> exact hnil.symm ▸ ⟨h.of_eq rfl rfl, trivial⟩
  | handler call pc =>
    cases a with
    | go sendOk => exact handle_traffic rater hcore h hk sendOk
    | _ => exact hnil.symm ▸ ⟨h, hk⟩

/-- **The invariant of the traffic**: all clients are sourced, all datagrams authorised. -/
theorem traffic_invariant : (traffic core rater).Invariant (fun _ _ => True)
    (Sound core) (fun tr s (i : ι) th => KnowsTraffic core tr s i th)
    (fun _ _ => True) where
  exec _ _ _ a _ h hk := exec_traffic rater hcore h hk a
  interfere tr p i a j := by
    intro _ _ _ hj hk _
    exact hk.mono (shownBy_of_ne hj _) (exec_keepsEndpoints rater hcore p.shared (p.thread i) a)
  apart _ _ _ _ _ _ _ _ _ _ _ := trivial
  symm _ _ _ := trivial
  tick _ _ _ h := h
  tick_local tr s d i u := by
    intro _ hu
    cases u with
    | handler call pc => cases pc <;> exact hu
    | _ => trivial

omit hcore in
/-- Nothing has been heard of a started tunnel. -/
theorem started_traffic {p : Pool ι (Shared C A R) Thread} (hstart : Started p) :
    System.Holds (Sound core) (fun tr s (i : ι) th => KnowsTraffic core tr s i th)
      (fun _ _ => True) [] p := by
  refine ⟨⟨?_, always_nil⟩, fun i => by rw [hstart.idle i]; trivial, fun _ _ _ => trivial⟩
  intro id r hget
  rw [hstart.mappings, DashMap.get_empty] at hget
  cases hget

/-- **Every datagram is authorised**, whatever the interleaving. -/
theorem traffic_authorised {p : Pool ι (Shared C A R) Thread} (hstart : Started p)
    (as : List (Action ι Input)) :
    Always Authorised ((traffic core rater).machine.trace p as) :=
  ((traffic_invariant rater hcore).run (started_traffic hstart)
    ((traffic core rater).machine.along_of_forall (fun _ _ => trivial) p as)).shared.2

end Steps

end CncnetServer.TunnelV3
