import CncnetServer.V3.Run
import CncnetServer.V3.Traffic

/-!
Established clients of the V3 tunnel: what the workers send for them does not depend on the
interleaving.

While every packet has the id of a client that is there and nobody is found silent, the
bindings are a fixed table (`Steady`), and a worker sends what the table says for the packets
it has heard, one after another. So do the same calls one after another.
-/

namespace CncnetServer.TunnelV3

open Threads Runs Traffic

variable {C A R : Type} (core : RelayCore C A) (rater : Rater R)

/-- The bindings of the threads' tunnel are those of the table. -/
structure Steady (table : UInt32 → Option SocketAddr) (s : Shared C A R) : Prop where
  allocated : ∀ id r, s.mappings.get id = some r → r < s.heap.next
  endpoints : core.endpointAt s.mappings s.heap = table

/-- A call has the id of a client of the table, and no access finds a client timed out. -/
def established (table : UInt32 → Option SocketAddr) (s : Shared C A R) : Thread → Input → Bool
  | .idle, .receive senderId _ _ _ => (table senderId).isSome
  | .handler _ (.isTimedOut client), .go _ => !core.isTimedOut (s.heap.cell client) s.clock
  | .cleanup .retain, .visit key =>
    (s.mappings.get key).all (fun r => !core.isTimedOut (s.heap.cell r) s.clock)
  | _, _ => true

abbrev Established (table : UInt32 → Option SocketAddr) (s : Shared C A R) (th : Thread)
    (a : Input) : Prop :=
  established core table s th a = true

/-- Where a handler can be, and what it knows there of its sender and its receiver. -/
def OnTrack (table : UInt32 → Option SocketAddr) (call : Call) : Pc → Prop
  | .lookup | .receiverStats _ | .recordLost => True
  | .isTimedOut _ => table call.senderId ≠ some call.remoteAddr
  | .setLastReceive _ | .updateStats _ | .recordPacket | .forward =>
    table call.senderId = some call.remoteAddr
  | .send ep _ => forwardOf table call.heard = some ⟨call.packet, ep⟩
  | _ => False

/-- The datagram that a thread has still to send. -/
def owed (table : UInt32 → Option SocketAddr) : Thread → Option Datagram
  | .handler call pc => if pc.hasSent then none else forwardOf table call.heard
  | _ => none

theorem owed_unsent {table : UInt32 → Option SocketAddr} {call : Call} {pc : Pc}
    (h : pc.hasSent = false) : owed table (.handler call pc) = forwardOf table call.heard := by
  simp [owed, h]

/-- What a thread knows of itself, and of what it has heard and sent. -/
structure Books (table : UInt32 → Option SocketAddr) (shown : List (Traffic UInt32))
    (th : Thread) : Prop where
  onTrack : ∀ call pc, th = .handler call pc →
    (table call.senderId).isSome ∧ OnTrack table call pc
  forwarded : Forwarded table shown (owed table th)

section Steps

variable {core} {table : UInt32 → Option SocketAddr} {s : Shared C A R}

/-- A change of clients that leaves the endpoints alone. -/
theorem Steady.keep (h : Steady core table s) {s' : Shared C A R}
    (hm : s'.mappings = s.mappings) (hkeep : core.KeepsEndpoints s.heap s'.heap) :
    Steady core table s' := by
  constructor
  · intro id r hget
    rw [hm] at hget
    exact hkeep.lt (h.allocated id r hget)
  · rw [hm, hkeep.endpointAt h.allocated]
    exact h.endpoints

/-- The client under an id of the table. -/
theorem Steady.exists_client (h : Steady core table s) {id : UInt32} (hid : (table id).isSome) :
    ∃ r ep, s.mappings.get id = some r ∧ core.remoteEp (s.heap.cell r) = some ep ∧
      table id = some ep := by
  obtain ⟨ep, hep⟩ := Option.isSome_iff_exists.mp hid
  have hbind := hep
  rw [← h.endpoints] at hbind
  obtain ⟨r, hget, hcell⟩ := Option.bind_eq_some_iff.mp hbind
  exact ⟨r, ep, hget, hcell, hep⟩

/-- What the lookup of the receiver leads to is what the table says. -/
theorem Steady.forward (h : Steady core table s) {call : Call} (sendOk : Bool)
    (hbound : table call.senderId = some call.remoteAddr) :
    (∃ ep r, (handle core rater s call sendOk .forward).2 = some (.send ep r) ∧
      forwardOf table call.heard = some ⟨call.packet, ep⟩) ∨
    ((handle core rater s call sendOk .forward).2 = none ∧
      forwardOf table call.heard = none) := by
  have htable : forwardOf table call.heard =
      ((table call.receiverId).filter fun b => decide (b ≠ call.remoteAddr)).map
        fun b => ⟨call.packet, b⟩ := forwardOf_bound hbound
  rw [htable, ← h.endpoints]
  unfold RelayCore.endpointAt
  simp only [handle]
  cases hget : s.mappings.get call.receiverId with
  | none => exact Or.inr ⟨rfl, rfl⟩
  | some r =>
    cases hep : core.remoteEp (s.heap.cell r) with
    | none => exact Or.inr (by simp [hep])
    | some ep =>
      by_cases heq : ep = call.remoteAddr
      · exact Or.inr (by simp [hep, heq])
      · exact Or.inl ⟨ep, r, by simp [hep, heq]⟩

/-- A handler that goes on without sending. -/
theorem Books.advance {shown : List (Traffic UInt32)} {call : Call} {pc next : Pc}
    (h : Books table shown (.handler call pc)) (hpc : pc.hasSent = false)
    (hnext : next.hasSent = false) (htrack : OnTrack table call next) :
    Books table (shown ++ []) (.handler call next) := by
  refine ⟨?_, ?_⟩
  · rintro _ _ ⟨⟩
    exact ⟨(h.onTrack call pc rfl).1, htrack⟩
  · rw [List.append_nil, owed_unsent hnext, ← owed_unsent hpc]
    exact h.forwarded

/-- A handler that returns with nothing left to send. -/
theorem Books.return {shown : List (Traffic UInt32)} {call : Call} {pc : Pc}
    (h : Books table shown (.handler call pc))
    (howed : owed table (.handler call pc) = none) : Books table (shown ++ []) .idle := by
  refine ⟨fun _ _ hth => (nomatch hth), ?_⟩
  have hforwarded := h.forwarded
  rw [howed] at hforwarded
  rw [List.append_nil]
  exact hforwarded

/-- One access of a handler. -/
theorem handle_books (h : Steady core table s) {shown : List (Traffic UInt32)} {call : Call}
    {pc : Pc} (hbooks : Books table shown (.handler call pc)) {sendOk : Bool}
    (hC : Established core table s (.handler call pc) (.go sendOk)) :
    Books table (shown ++ call.sends pc) (exec core rater s (.handler call pc) (.go sendOk)).2 := by
  obtain ⟨hid, htrack⟩ := hbooks.onTrack call pc rfl
  cases pc with
  | lookup =>
    obtain ⟨r, ep, hget, hcell, hep⟩ := h.exists_client hid
    simp only [exec, handle, hget, hcell]
    by_cases heq : ep = call.remoteAddr
    · rw [if_neg (not_not.mpr heq)]
      exact hbooks.advance rfl rfl (by rw [OnTrack, hep, heq])
    · rw [if_pos heq]
      refine hbooks.advance rfl rfl ?_
      rw [OnTrack, hep]
      exact fun hsome => heq (Option.some.inj hsome)
  | isTimedOut r =>
    have hlive : core.isTimedOut (s.heap.cell r) s.clock = false := by
      rw [Established, established, Bool.not_eq_true'] at hC
      exact hC
    simp only [exec, handle, hlive, Bool.false_eq_true, if_false]
    exact hbooks.return (forwardOf_foreign htrack)
  | setLastReceive r => exact hbooks.advance rfl rfl htrack
  | updateStats r => exact hbooks.advance rfl rfl htrack
  | recordPacket => exact hbooks.advance rfl rfl htrack
  | forward =>
    rcases h.forward rater sendOk htrack with ⟨ep, r, hnext, hforward⟩ | ⟨hnext, hforward⟩
    · simp only [exec, hnext]
      exact hbooks.advance rfl rfl hforward
    · simp only [exec, hnext]
      exact hbooks.return hforward
  | send ep r =>
    have hforwarded : Forwarded table shown (some ⟨call.packet, ep⟩) := by
      rw [← (show forwardOf table call.heard = some ⟨call.packet, ep⟩ from htrack)]
      exact hbooks.forwarded
    refine ⟨?_, ?_⟩
    · rintro _ _ hth
      cases sendOk <;> cases hth <;> exact ⟨hid, trivial⟩
    · cases sendOk <;> exact hforwarded.send
  | receiverStats r => exact hbooks.return rfl
  | recordLost => exact hbooks.return rfl
  | _ => exact htrack.elim

variable (hcore : core.FixedEndpoint)
include hcore

theorem exec_steady (h : Steady core table s) {shown : List (Traffic UInt32)} {th : Thread}
    (hbooks : Books table shown th) {a : Input} (hC : Established core table s th a) :
    Steady core table (exec core rater s th a).1 := by
  have hkeep := exec_keepsEndpoints rater hcore s th a
  cases th with
  | idle => cases a <;> exact h
  | cleanup pc =>
    cases pc with
    | retain =>
      cases a with
      | visit key =>
        simp only [exec, visit]
        split
        · rename_i r hget
          have hlive : core.isTimedOut (s.heap.cell r) s.clock = false := by
            have hall : (s.mappings.get key).all _ = true := hC
            rw [hget, Option.all_some, Bool.not_eq_true'] at hall
            exact hall
          rw [hlive, if_neg Bool.false_ne_true]
          exact h
        · exact h
      | _ => exact h
    | _ => cases a <;> exact h.keep rfl (.refl _)
  | handler call pc =>
    cases a with
    | go sendOk =>
      have htrack := (hbooks.onTrack call pc rfl).2
      cases pc with
      | insertReconnect r => exact htrack.elim
      | insertFirst r => exact htrack.elim
      | _ => exact h.keep rfl hkeep
    | _ => exact h

omit hcore in
theorem exec_books (h : Steady core table s) {shown : List (Traffic UInt32)} {th : Thread}
    (hbooks : Books table shown th) {a : Input} (hC : Established core table s th a) :
    Books table (shown ++ (traffic core rater).emit s th a) (exec core rater s th a).2 := by
  have hsame : Books table (shown ++ []) th := by
    rw [List.append_nil]
    exact hbooks
  have hother : ∀ th', owed table th' = owed table th → (∀ call pc, th' ≠ .handler call pc) →
      Books table (shown ++ []) th' := by
    intro th' howed hno
    refine ⟨fun call pc hth => absurd hth (hno call pc), ?_⟩
    rw [howed, List.append_nil]
    exact hbooks.forwarded
  cases th with
  | idle =>
    cases a with
    | receive senderId receiverId packet addr =>
      refine ⟨?_, hbooks.forwarded.hear senderId receiverId packet addr⟩
      rintro _ _ ⟨⟩
      exact ⟨hC, trivial⟩
    | clean => exact hother _ rfl fun _ _ hth => nomatch hth
    | _ => exact hsame
  | cleanup pc =>
    cases pc <;> cases a <;> first | exact hsame | exact hother _ rfl fun _ _ hth => nomatch hth
  | handler call pc =>
    cases a with
    | go sendOk => exact handle_books rater h hbooks hC
    | _ => exact hsame

/-- **Runs of established clients** keep the table, and every worker keeps its books. -/
theorem books_run {ι : Type} [DecidableEq ι] {p : Pool ι (Shared C A R) Thread}
    (hidle : ∀ i, p.thread i = .idle) (hsteady : Steady core table p.shared)
    {as : List (Action ι Input)}
    (hC : (traffic core rater).machine.Along (System.OnWork (Established core table)) p as) :
    let p' := (traffic core rater).machine.run p as
    Steady core table p'.shared ∧
      ∀ i, Books table (shownBy i ((traffic core rater).machine.trace p as)) (p'.thread i) := by
  refine (traffic core rater).machine.run_trace_induction
    (P := fun tr q => Steady core table q.shared ∧
      ∀ i, Books table (shownBy i tr) (q.thread i)) ?_ ?_ as hC
  · refine ⟨hsteady, fun i => ?_⟩
    rw [hidle i]
    exact ⟨fun _ _ hth => (nomatch hth), forwarded_nil⟩
  · rintro tr q (⟨i, a⟩ | d) ⟨hq, hbooks⟩ hc
    · exact ⟨exec_steady rater hcore hq (hbooks i) hc,
        shownBy_work (traffic core rater) (L := fun _ => Books table) hbooks
          (exec_books rater hq (hbooks i) hc)⟩
    · refine ⟨hq.keep rfl (.refl _), fun i => ?_⟩
      rw [System.emit_tick, List.append_nil]
      exact hbooks i

end Steps

/-! ## One call after another -/

/-- The tunnel without its threads: every entry holds its client. -/
def Shared.unshared (s : Shared C A R) : TunnelV3 C A R :=
  { s with mappings := s.mappings.mapValues s.heap.cell }

def oneByOne : Machine (TunnelV3 C A R) (Turn UInt32) Datagram where
  step t c := (handleDataForward core rater t c.env c.senderId c.receiverId c.packet c.addr c.batch).1
  emit t c :=
    (handleDataForward core rater t c.env c.senderId c.receiverId c.packet c.addr c.batch).2.2

/-- The sender is a client, and the call does not find it timed out. -/
def establishedTurn (t : TunnelV3 C A R) (c : Turn UInt32) : Bool :=
  (core.endpointOf t.mappings c.senderId).isSome &&
    (t.mappings.get c.senderId).all fun client =>
      core.remoteEp client == some c.addr || !core.isTimedOut client c.env.timestamp

abbrev EstablishedTurn (t : TunnelV3 C A R) (c : Turn UInt32) : Prop :=
  establishedTurn core t c = true

theorem establishedTurn_iff (t : TunnelV3 C A R) (c : Turn UInt32) :
    EstablishedTurn core t c ↔ (core.endpointOf t.mappings c.senderId).isSome ∧
      ∀ client, t.mappings.get c.senderId = some client → core.remoteEp client ≠ some c.addr →
        core.isTimedOut client c.env.timestamp = false := by
  simp only [EstablishedTurn, establishedTurn, Bool.and_eq_true, Option.all_eq_true,
    Bool.or_eq_true, beq_iff_eq, Bool.not_eq_true', or_iff_not_imp_left]


section Turns

variable {core} (hcore : core.FixedEndpoint)
include hcore

theorem endpointOf_relay (t : TunnelV3 C A R) (env : Env) (r : UInt32) (packet : Packet)
    (addr : SocketAddr) (batch : LocalMetricsBatch) :
    core.endpointOf (relay core t env r packet addr batch).1.mappings =
      core.endpointOf t.mappings :=
  core.endpointOf_congr (view_relay core hcore (fun _ => 0) (fun _ _ _ _ => rfl) t env r packet addr
    batch)

/-- One call sends what the table of its tunnel says, and leaves the table as it is. -/
theorem turn_forwards {t : TunnelV3 C A R} {c : Turn UInt32} (hC : EstablishedTurn core t c) :
    (oneByOne core rater).emit t c =
        (forwardOf (core.endpointOf t.mappings) c.heard).toList ∧
      core.endpointOf ((oneByOne core rater).step t c).mappings = core.endpointOf t.mappings := by
  obtain ⟨hsome, hlive⟩ := (establishedTurn_iff core t c).mp hC
  obtain ⟨ep, hep⟩ := Option.isSome_iff_exists.mp hsome
  obtain ⟨client, hget, hclient⟩ := Option.bind_eq_some_iff.mp hep
  simp only [oneByOne, handleDataForward]
  have hstep := senderValid_step core rater t c.env c.senderId c.packet c.addr
  generalize senderValid core rater t c.env c.senderId c.packet c.addr = out at hstep
  cases hstep with
  | refreshed client' hget' haddr =>
    have hbound : core.endpointOf t.mappings c.senderId = some c.addr := by
      rw [RelayCore.endpointOf, hget', Option.bind_some, haddr]
    have hsame : core.endpointOf (t.mappings.modify c.senderId
        (core.refresh c.packet.length c.env.timestamp)) = core.endpointOf t.mappings :=
      core.endpointOf_modify (core.remoteEp_refresh hcore _ _) _ _
    simp only [Bool.not_true, Bool.false_eq_true, if_false]
    rw [endpointOf_relay hcore, relay_sent]
    exact ⟨congrArg Option.toList (RelayCore.forwardInfo_forwardOf hsame hbound), hsame⟩
  | refused client' hget' hne _ =>
    have hforeign : core.endpointOf t.mappings c.senderId ≠ some c.addr := by
      rw [RelayCore.endpointOf, hget', Option.bind_some]
      exact hne
    rw [Turn.heard, forwardOf_foreign hforeign]
    exact ⟨rfl, rfl⟩
  | reconnected client' ep' hget' hep' hne hto _ =>
    have hfalse := hlive client' hget' (by rw [hep']; exact fun h => hne (Option.some.inj h))
    rw [hfalse] at hto
    cases hto
  | reconnectLimited client' ep' hget' hep' hne hto _ =>
    have hfalse := hlive client' hget' (by rw [hep']; exact fun h => hne (Option.some.inj h))
    rw [hfalse] at hto
    cases hto
  | registered hnone _ _ => rw [hget] at hnone; cases hnone
  | registerLimited hnone _ _ => rw [hget] at hnone; cases hnone
  | full hnone _ => rw [hget] at hnone; cases hnone

end Turns

/-- **Established clients.** From any state that a run has come to with all threads idle: once
the threads are idle again, the bindings are what they were, and every worker has sent what they
say for the packets it has heard; the same calls one after another send the same. -/
theorem established_run {core} (hcore : core.FixedEndpoint) {ι : Type} [DecidableEq ι] [Fintype ι]
    {start : Pool ι (Shared C A R) Thread} (hstart : Started start) (past as : List (Action ι Input)) :
    let M := (traffic core rater).machine
    let p := M.run start past
    let table := core.endpointAt p.shared.mappings p.shared.heap
    let p' := M.run p as
    let tr := M.trace p as
    (∀ i, p.thread i = .idle) → M.Along (System.OnWork (Established core table)) p as →
    (∀ i, p'.thread i = .idle) →
    core.endpointAt p'.shared.mappings p'.shared.heap = table ∧
    OrderFree table tr (oneByOne core rater) (EstablishedTurn core) p.shared.unshared := by
  intro M p table p' tr hidle hC hback
  have hsound := (traffic_invariant rater hcore).run (p := start)
    (started_traffic hstart) (M.along_of_forall (fun _ _ => trivial) start past)
  have hsteady : Steady core table p.shared :=
    ⟨fun id r hget => (hsound.shared.1 id r hget).1, rfl⟩
  obtain ⟨hsteady', hbooks⟩ := books_run rater hcore hidle hsteady hC
  have hforwarded : ∀ i, Forwarded table (shownBy i tr) none := by
    intro i
    have h := (hbooks i).forwarded
    rw [show (M.run p as).thread i = .idle from hback i] at h
    exact h
  exact ⟨hsteady'.endpoints, .of_forwarded (fun t : TunnelV3 C A R => core.endpointOf t.mappings)
    hforwarded (fun _ _ => turn_forwards rater hcore) (RelayCore.endpointOf_mapValues _ _)⟩

end CncnetServer.TunnelV3
