import CncnetServer.V2.Threads
import CncnetServer.Traffic

/-!
The traffic of the V2 tunnel under every interleaving of its threads, requests and
cleanups among them. A slot that a request has handed out has no endpoint until somebody
claims it with a packet.
-/

namespace CncnetServer.TunnelV2

open Threads Runs History Traffic

variable {C A R : Type} (core : RelayCore C A) (rater : Rater R)

def Call.heard (call : Call) : Traffic Int16 :=
  .heard call.senderId call.receiverId call.packet call.remoteAddr

/-- What the access of a handler sends. -/
def Call.sends (call : Call) : Pc → List (Traffic Int16)
  | .send receiverEp _ => [.sent ⟨call.packet, receiverEp⟩]
  | _ => []

/-- The threads of the tunnel, by what they hear and send. -/
def traffic : System (Shared C R) Thread Input (Traffic Int16) where
  exec := exec core rater
  emit _
    | .idle, .receive s r packet addr => [.heard s r packet addr]
    | .handler call pc, .go _ => call.sends pc
    | _, _ => []
  tick s d := { s with clock := s.clock + d }

/-- The handler has sent its packet. -/
def Pc.hasSent : Pc → Bool
  | .receiverStats _ => true
  | _ => false

/-- What a handler knows of endpoints at its next access. -/
def KnowsEndpoint (heard : Int16 → SocketAddr → Prop) (s : Shared C R) (call : Call) : Pc → Prop
  | .insertClaim _ r | .insertReconnect _ r =>
    r < s.heap.next ∧ core.remoteEp (s.heap.cell r) = some call.remoteAddr
  | .send ep _ => heard call.receiverId ep ∧ ep ≠ call.remoteAddr
  | _ => True

/-- Until it has sent its packet, the packet is the last that a handler has shown; the
client that a request is about to insert has no endpoint. -/
def KnowsTraffic {ι : Type} [DecidableEq ι] (tr : List (ι × Traffic Int16)) (s : Shared C R)
    (i : ι) : Thread → Prop
  | .handler call pc => (pc.hasSent = false → (shownBy i tr).getLast? = some call.heard) ∧
      HeardFrom tr call.senderId call.remoteAddr ∧ KnowsEndpoint core (HeardFrom tr) s call pc
  | .request _ (.insert _ _ _ r) => r < s.heap.next ∧ core.remoteEp (s.heap.cell r) = none
  | _ => True

/-- What holds of the tunnel and of its traffic. -/
def Sound {ι : Type} [DecidableEq ι] (tr : List (ι × Traffic Int16)) (s : Shared C R) : Prop :=
  core.Sourced (HeardFrom tr) s.mappings s.heap ∧ Always Authorised tr

section Handlers

variable {core} {heard : Int16 → SocketAddr → Prop} {s : Shared C R} {call : Call}

theorem KnowsEndpoint.mono {heard' : Int16 → SocketAddr → Prop} {s' : Shared C R} {pc : Pc}
    (hk : KnowsEndpoint core heard s call pc) (hheard : ∀ id addr, heard id addr → heard' id addr)
    (hkeep : core.KeepsEndpoints s.heap s'.heap) : KnowsEndpoint core heard' s' call pc := by
  cases pc with
  | insertClaim _ r => exact ⟨hkeep.lt hk.1, (hkeep.remoteEp r hk.1).trans hk.2⟩
  | insertReconnect _ r => exact ⟨hkeep.lt hk.1, (hkeep.remoteEp r hk.1).trans hk.2⟩
  | send ep r => exact ⟨hheard _ _ hk.1, hk.2⟩
  | _ => trivial

/-- A handler that has not sent its packet yet has shown nothing at this access. -/
theorem handle_hasSent {pc next : Pc} {sendOk : Bool}
    (hnext : (handle core s call sendOk pc).2 = some next) (hsent : next.hasSent = false) :
    pc.hasSent = false ∧ call.sends pc = [] := by
  cases pc with
  | send ep r =>
    cases sendOk with
    | true =>
      cases hnext
      cases hsent
    | false => cases hnext
  | receiverStats r => cases hnext
  | _ => exact ⟨rfl, rfl⟩

/-- The receiver that a handler finds is one that has been heard. -/
theorem forward_knows (hs : core.Sourced heard s.mappings s.heap) {next : Pc} {sendOk : Bool}
    (hnext : (handle core s call sendOk .forward).2 = some next) :
    KnowsEndpoint core heard s call next := by
  simp only [handle] at hnext
  cases hget : s.mappings.get call.receiverId with
  | none => simp [hget] at hnext
  | some r =>
    cases hep : core.remoteEp (s.heap.cell r) with
    | none => simp [hget, hep] at hnext
    | some ep =>
      by_cases heq : ep = call.remoteAddr
      · simp [hget, hep, heq] at hnext
      · simp only [hget, hep, heq, if_false, Option.some.injEq] at hnext
        subst hnext
        exact ⟨(hs _ r hget).2 ep hep, heq⟩

variable (hcore : core.FixedEndpoint)
include hcore

theorem handle_keepsEndpoints (s : Shared C R) (call : Call) (sendOk : Bool) (pc : Pc) :
    core.KeepsEndpoints s.heap (handle core s call sendOk pc).1.heap := by
  cases pc with
  | newClaim _ => exact .alloc _ _
  | newReconnect _ => exact .alloc _ _
  | setLastReceive r => exact .modify _ r fun c => hcore.remoteEp_setLastReceiveTickAt c call.now
  | updateStats r => exact .modify _ r fun c => hcore.remoteEp_updateStats c _ _ call.now
  | receiverStats r => exact .modify _ r fun c => hcore.remoteEp_updateStats c _ _ call.now
  | _ => exact .refl _

theorem handle_sourced (hs : core.Sourced heard s.mappings s.heap)
    (hheard : heard call.senderId call.remoteAddr) {pc : Pc}
    (hk : KnowsEndpoint core heard s call pc) (sendOk : Bool) :
    core.Sourced heard (handle core s call sendOk pc).1.mappings
      (handle core s call sendOk pc).1.heap := by
  have hkept := hs.keep (handle_keepsEndpoints hcore s call sendOk pc)
  have hinsert : ∀ r, r < s.heap.next ∧ core.remoteEp (s.heap.cell r) = some call.remoteAddr →
      core.Sourced heard (s.mappings.insert call.senderId r) s.heap := by
    rintro r ⟨hr, hep⟩
    refine hs.insert hr fun addr haddr => ?_
    rw [hep, Option.some.injEq] at haddr
    exact haddr ▸ hheard
  cases pc with
  | insertClaim _ r => exact hinsert r hk
  | insertReconnect _ r => exact hinsert r hk
  | _ => exact hkept

/-- A handler knows at its next access what it relies on there. -/
theorem handle_knowsEndpoint (hs : core.Sourced heard s.mappings s.heap) {pc next : Pc}
    {sendOk : Bool} (hnext : (handle core s call sendOk pc).2 = some next) :
    KnowsEndpoint core heard (handle core s call sendOk pc).1 call next := by
  have hnew : core.remoteEp ((s.heap.alloc (core.newWithEndpoint call.remoteAddr s.clock)).cell
      s.heap.next) = some call.remoteAddr := by
    rw [Heap.cell_alloc_next, hcore.remoteEp_newWithEndpoint]
  cases pc with
  | lookup =>
    simp only [handle] at hnext
    split at hnext
    · split at hnext
      · cases hnext
        split <;> trivial
      · cases hnext
        trivial
    · cases hnext
  | isTimedOut r =>
    simp only [handle] at hnext
    split at hnext <;> cases hnext
    trivial
  | newClaim _ =>
    cases hnext
    exact ⟨Nat.lt_succ_self _, hnew⟩
  | newReconnect _ =>
    cases hnext
    exact ⟨Nat.lt_succ_self _, hnew⟩
  | forward => exact forward_knows hs hnext
  | send ep r =>
    cases sendOk with
    | true =>
      cases hnext
      trivial
    | false => cases hnext
  | insertClaim _ r => cases hnext; trivial
  | insertReconnect _ r => cases hnext; trivial
  | setLastReceive r => cases hnext; trivial
  | updateStats r => cases hnext; trivial
  | receiverStats r => cases hnext

end Handlers

/-! ## Steps -/

section Steps

variable {core}

theorem allocate_keepsEndpoints (s : Shared C R) (clients : Nat) (k : Int16) (pc : RequestPc) :
    core.KeepsEndpoints s.heap (allocate core s clients k pc).1.heap := by
  cases pc with
  | newClient ids attempts id => exact .alloc _ _
  | rollBack ids =>
    cases ids with
    | nil => exact .refl _
    | cons id ids =>
      rw [allocate_rollBack]
      exact .refl _
  | _ => exact .refl _

variable {ι : Type} [DecidableEq ι] (hcore : core.FixedEndpoint)

/-- What is known of the traffic stays true while others make more of it. -/
theorem KnowsTraffic.mono {tr es : List (ι × Traffic Int16)} {s s' : Shared C R} {i : ι}
    {th : Thread} (hk : KnowsTraffic core tr s i th) (hquiet : shownBy i es = [])
    (hkeep : core.KeepsEndpoints s.heap s'.heap) : KnowsTraffic core (tr ++ es) s' i th := by
  cases th with
  | handler call pc =>
    obtain ⟨hlast, hsender, hend⟩ := hk
    refine ⟨?_, hsender.append es, hend.mono (fun _ _ h => h.append es) hkeep⟩
    rw [shownBy_append, hquiet, List.append_nil]
    exact hlast
  | request clients pc =>
    cases pc with
    | insert ids attempts id r => exact ⟨hkeep.lt hk.1, (hkeep.remoteEp r hk.1).trans hk.2⟩
    | _ => trivial
  | _ => trivial

/-- The loop of a request inserts nothing at once. -/
theorem knowsTraffic_loop (tr : List (ι × Traffic Int16)) (s : Shared C R) (i : ι)
    (clients n : Nat) (ids : List Int16) (attempts : Nat) :
    KnowsTraffic core tr s i (.request n (loop clients ids attempts)) := by
  unfold loop
  split
  · trivial
  · split <;> trivial

include hcore

theorem exec_keepsEndpoints (s : Shared C R) (th : Thread) (a : Input) :
    core.KeepsEndpoints s.heap (exec core rater s th a).1.heap := by
  have hvisit : ∀ key, core.KeepsEndpoints s.heap (visit core s key).heap := by
    intro key
    unfold visit
    split
    · split <;> exact .refl _
    · exact .refl _
  cases th with
  | idle => cases a <;> exact .refl _
  | status => cases a <;> exact .refl _
  | handler call pc =>
    cases a with
    | go sendOk => exact handle_keepsEndpoints hcore s call sendOk pc
    | _ => exact .refl _
  | request clients pc =>
    cases a with
    | draw k => exact allocate_keepsEndpoints s clients k pc
    | _ => exact .refl _
  | cleanup pc =>
    cases pc with
    | retain =>
      cases a with
      | visit key => exact hvisit key
      | _ => exact .refl _
    | _ => cases a <;> exact .refl _

/-- One access of a handler. -/
theorem handle_traffic {tr : List (ι × Traffic Int16)} {s : Shared C R} {i : ι} {call : Call}
    {pc : Pc} (h : Sound core tr s) (hk : KnowsTraffic core tr s i (.handler call pc))
    (sendOk : Bool) :
    let out := exec core rater s (.handler call pc) (.go sendOk)
    let tr' := tr ++ (call.sends pc).map (Prod.mk i)
    Sound core tr' out.1 ∧ KnowsTraffic core tr' out.1 i out.2 := by
  obtain ⟨hs, htr⟩ := h
  obtain ⟨hlast, hsender, hend⟩ := hk
  refine ⟨⟨?_, ?_⟩, ?_⟩
  · exact (handle_sourced hcore hs hsender hend sendOk).mono fun _ _ h => h.append _
  · cases pc with
    | send ep r =>
      refine (always_snoc _ _).mpr ⟨htr, ?_⟩
      exact ⟨call.senderId, call.receiverId, call.remoteAddr, hlast rfl, hend.2, hend.1⟩
    | _ => simpa [Call.sends] using htr
  · simp only [exec]
    cases hnext : (handle core s call sendOk pc).2 with
    | none => trivial
    | some next =>
      refine ⟨fun hno => ?_, hsender.append _, ?_⟩
      · obtain ⟨hbefore, hnothing⟩ := handle_hasSent hnext hno
        rw [hnothing, List.map_nil, List.append_nil]
        exact hlast hbefore
      · exact (handle_knowsEndpoint hcore hs hnext).mono (fun _ _ h => h.append _) (.refl _)

/-- One access of a request. -/
theorem request_traffic {tr : List (ι × Traffic Int16)} {s : Shared C R} {i : ι} {clients : Nat}
    {pc : RequestPc} (h : Sound core tr s) (hk : KnowsTraffic core tr s i (.request clients pc))
    (k : Int16) :
    let out := exec core rater s (.request clients pc) (.draw k)
    Sound core tr out.1 ∧ KnowsTraffic core tr out.1 i out.2 := by
  cases pc with
  | maintenance =>
    refine ⟨h, ?_⟩
    simp only [exec, allocate]
    split
    · trivial
    · split <;> trivial
  | checkLen =>
    refine ⟨h, ?_⟩
    simp only [exec, allocate]
    split
    · trivial
    · exact knowsTraffic_loop _ _ _ _ _ _ _
  | attempt ids attempts =>
    refine ⟨h, ?_⟩
    simp only [exec, allocate]
    split
    · trivial
    · exact knowsTraffic_loop _ _ _ _ _ _ _
  | newClient ids attempts id =>
    refine ⟨⟨h.1.keep (.alloc _ _), h.2⟩, Nat.lt_succ_self _, ?_⟩
    show core.remoteEp ((s.heap.alloc (core.new s.clock)).cell s.heap.next) = none
    rw [Heap.cell_alloc_next, hcore.remoteEp_new]
  | insert ids attempts id r =>
    refine ⟨⟨h.1.insert hk.1 fun addr haddr => ?_, h.2⟩, knowsTraffic_loop _ _ _ _ _ _ _⟩
    rw [hk.2] at haddr
    cases haddr
  | rollBack ids =>
    cases ids with
    | nil => exact ⟨h, trivial⟩
    | cons id ids =>
      simp only [exec, allocate_rollBack]
      exact ⟨⟨h.1.remove id, h.2⟩, trivial⟩
  | activeLen ids => exact ⟨h, trivial⟩
  | activeStore ids len => exact ⟨h, trivial⟩

/-- One access of any thread. -/
theorem exec_traffic {tr : List (ι × Traffic Int16)} {s : Shared C R} {i : ι} {th : Thread}
    (h : Sound core tr s) (hk : KnowsTraffic core tr s i th) (a : Input) :
    let out := exec core rater s th a
    let tr' := tr ++ ((traffic core rater).emit s th a).map (Prod.mk i)
    Sound core tr' out.1 ∧ KnowsTraffic core tr' out.1 i out.2 := by
  have hnil : tr ++ [] = tr := List.append_nil tr
  cases th with
  | idle =>
    cases a with
    | receive senderId receiverId packet addr =>
      refine ⟨⟨h.1.mono fun _ _ h => h.append _, (always_snoc _ _).mpr ⟨h.2, trivial⟩⟩, ?_, ?_,
        trivial⟩
      · intro _
        rw [shownBy_append, shownBy_self]
        exact List.getLast?_concat
      · exact ⟨i, receiverId, packet, List.mem_append_right _ (List.mem_singleton_self _)⟩
    | _ => exact hnil.symm ▸ ⟨h, trivial⟩
  | status => cases a <;> exact hnil.symm ▸ ⟨h, trivial⟩
  | cleanup pc =>
    cases pc with
    | retain =>
      cases a with
      | visit key =>
        refine hnil.symm ▸ ⟨?_, trivial⟩
        simp only [exec, visit]
        split
        · split
          · exact ⟨h.1.remove key, h.2⟩
          · exact h
        · exact h
      | _ => exact hnil.symm ▸ ⟨h, trivial⟩
    | _ => cases a <;> exact hnil.symm ▸ ⟨h, trivial⟩
  | request clients pc =>
    cases a with
    | draw k => exact hnil.symm ▸ request_traffic rater hcore h hk k
    | _ => exact hnil.symm ▸ ⟨h, hk⟩
  | handler call pc =>
    cases a with
    | go sendOk => exact handle_traffic rater hcore h hk sendOk
    | _ => exact hnil.symm ▸ ⟨h, hk⟩

/-- **The invariant of the traffic**: all clients are sourced, all datagrams authorised. -/
theorem traffic_invariant : (traffic core rater).Invariant (fun _ _ => True)
    (Sound core) (fun tr s (i : ι) th => KnowsTraffic core tr s i th) (fun _ _ => True) where
  exec _ _ _ a _ h hk := exec_traffic rater hcore h hk a
  interfere tr p i a j := by
    intro _ _ _ hj hk _
    exact hk.mono (shownBy_of_ne hj _) (exec_keepsEndpoints rater hcore p.shared (p.thread i) a)
  apart _ _ _ _ _ _ _ _ _ _ _ := trivial
  symm _ _ _ := trivial
  tick _ _ _ h := h
  tick_local tr s d i u := by
    intro _ hu
    cases u with
    | handler call pc => cases pc <;> exact hu
    | request clients pc => cases pc <;> exact hu
    | _ => trivial

omit hcore in
/-- Nothing has been heard of a started tunnel. -/
theorem started_traffic {p : Pool ι (Shared C R) Thread} (hstart : Started p) :
    System.Holds (Sound core) (fun tr s (i : ι) th => KnowsTraffic core tr s i th)
      (fun _ _ => True) [] p := by
  refine ⟨⟨?_, always_nil⟩, fun i => by rw [hstart.idle i]; trivial, fun _ _ _ => trivial⟩
  intro id r hget
  rw [hstart.mappings, DashMap.get_empty] at hget
  cases hget

/-- **Every datagram is authorised**, whatever the interleaving. -/
theorem traffic_authorised {p : Pool ι (Shared C R) Thread} (hstart : Started p)
    (as : List (Action ι Input)) :
    Always Authorised ((traffic core rater).machine.trace p as) :=
  ((traffic_invariant rater hcore).run (started_traffic hstart)
    ((traffic core rater).machine.along_of_forall (fun _ _ => trivial) p as)).shared.2

end Steps

end CncnetServer.TunnelV2
