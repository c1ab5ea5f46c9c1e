import CncnetServer.V2.Run
import CncnetServer.V2.Traffic

/-!
Established clients of the V2 tunnel under interleaving, with requests for new slots and
cleanups of unclaimed ones in between.

An id that nobody has claimed has no endpoint, whether it is in the map or not, so handing
out and taking back such ids leaves the table of endpoints as it is.
-/

namespace CncnetServer.TunnelV2

open Threads Runs Traffic

variable {C A R : Type} (core : RelayCore C A) (rater : Rater R)

/-- The endpoints of the threads' tunnel are those of the table. -/
structure Steady (table : Int16 → Option SocketAddr) (s : Shared C R) : Prop where
  allocated : ∀ id r, s.mappings.get id = some r → r < s.heap.next
  endpoints : core.endpointAt s.mappings s.heap = table

/-- A call has the id of a client of the table, and no access finds such a client timed out. -/
def established (table : Int16 → Option SocketAddr) (s : Shared C R) : Thread → Input → Bool
  | .idle, .receive senderId _ _ _ => (table senderId).isSome
  | .handler _ (.isTimedOut client), .go _ => !core.isTimedOut (s.heap.cell client) s.clock
  | .cleanup .retain, .visit key => (s.mappings.get key).all fun r =>
      (core.remoteEp (s.heap.cell r)).isNone || !core.isTimedOut (s.heap.cell r) s.clock
  | _, _ => true

abbrev Established (table : Int16 → Option SocketAddr) (s : Shared C R) (th : Thread)
    (a : Input) : Prop :=
  established core table s th a = true

/-- Where a handler can be, and what it knows there of its sender and its receiver. -/
def OnTrack (table : Int16 → Option SocketAddr) (call : Call) : Pc → Prop
  | .lookup | .receiverStats _ => True
  | .isTimedOut _ => table call.senderId ≠ some call.remoteAddr
  | .setLastReceive _ | .updateStats _ | .forward => table call.senderId = some call.remoteAddr
  | .send ep _ => forwardOf table call.heard = some ⟨call.packet, ep⟩
  | _ => False

/-- The ids of a request are none of the table's, nor is its client anybody's. -/
def Unclaimed (table : Int16 → Option SocketAddr) (s : Shared C R) : RequestPc → Prop
  | .newClient _ _ id => table id = none
  | .insert _ _ id r =>
    table id = none ∧ r < s.heap.next ∧ core.remoteEp (s.heap.cell r) = none
  | _ => True

/-- What a thread relies on. -/
def KnowsTable (table : Int16 → Option SocketAddr) (s : Shared C R) : Thread → Prop
  | .handler call pc => (table call.senderId).isSome ∧ OnTrack table call pc
  | .request _ pc => (∀ id ∈ pc.held, table id = none) ∧ Unclaimed core table s pc
  | _ => True

/-- The datagram that a thread has still to send. -/
def owed (table : Int16 → Option SocketAddr) : Thread → Option Datagram
  | .handler call pc => if pc.hasSent then none else forwardOf table call.heard
  | _ => none

theorem owed_unsent {table : Int16 → Option SocketAddr} {call : Call} {pc : Pc}
    (h : pc.hasSent = false) : owed table (.handler call pc) = forwardOf table call.heard := by
  simp [owed, h]

/-- What a thread knows of itself, and of what it has heard and sent. -/
structure Books (table : Int16 → Option SocketAddr) (s : Shared C R)
    (shown : List (Traffic Int16)) (th : Thread) : Prop where
  knows : KnowsTable core table s th
  forwarded : Forwarded table shown (owed table th)

section Steps

variable {core} {table : Int16 → Option SocketAddr} {s : Shared C R}

/-- A change of clients that leaves the endpoints alone. -/
theorem Steady.keep (h : Steady core table s) {s' : Shared C R}
    (hm : s'.mappings = s.mappings) (hkeep : core.KeepsEndpoints s.heap s'.heap) :
    Steady core table s' := by
  constructor
  · intro id r hget
    rw [hm] at hget
    exact hkeep.lt (h.allocated id r hget)
  · rw [hm, hkeep.endpointAt h.allocated]
    exact h.endpoints

/-- An id that nobody has claimed is handed out. -/
theorem Steady.insert (h : Steady core table s) {id : Int16} {r : Ref} (hr : r < s.heap.next)
    (hep : core.remoteEp (s.heap.cell r) = none) (hid : table id = none) :
    Steady core table { s with mappings := s.mappings.insert id r } := by
  constructor
  · intro j r' hget
    by_cases hj : j = id
    · subst hj
      rw [DashMap.get_insert_self] at hget
      cases hget
      exact hr
    · rw [DashMap.get_insert_ne _ _ hj] at hget
      exact h.allocated j r' hget
  · rw [RelayCore.endpointAt_insert, h.endpoints, hep, ← hid]
    exact Function.update_eq_self id table

/-- An id that nobody has claimed is taken back. -/
theorem Steady.remove (h : Steady core table s) {id : Int16} (hid : table id = none) :
    Steady core table { s with mappings := s.mappings.remove id } := by
  constructor
  · intro j r hget
    rw [DashMap.get_remove] at hget
    split at hget
    · cases hget
    · exact h.allocated j r hget
  · rw [RelayCore.endpointAt_remove, h.endpoints, ← hid]
    exact Function.update_eq_self id table

/-- The client under an id of the table. -/
theorem Steady.exists_client (h : Steady core table s) {id : Int16} (hid : (table id).isSome) :
    ∃ r ep, s.mappings.get id = some r ∧ core.remoteEp (s.heap.cell r) = some ep ∧
      table id = some ep := by
  obtain ⟨ep, hep⟩ := Option.isSome_iff_exists.mp hid
  have hbind := hep
  rw [← h.endpoints] at hbind
  obtain ⟨r, hget, hcell⟩ := Option.bind_eq_some_iff.mp hbind
  exact ⟨r, ep, hget, hcell, hep⟩

/-- What the lookup of the receiver leads to is what the table says. -/
theorem Steady.forward (h : Steady core table s) {call : Call} (sendOk : Bool)
    (hbound : table call.senderId = some call.remoteAddr) :
    (∃ ep r, (handle core s call sendOk .forward).2 = some (.send ep r) ∧
      forwardOf table call.heard = some ⟨call.packet, ep⟩) ∨
    ((handle core s call sendOk .forward).2 = none ∧ forwardOf table call.heard = none) := by
  have htable : forwardOf table call.heard =
      ((table call.receiverId).filter fun b => decide (b ≠ call.remoteAddr)).map
        fun b => ⟨call.packet, b⟩ := forwardOf_bound hbound
  rw [htable, ← h.endpoints]
  unfold RelayCore.endpointAt
  simp only [handle]
  cases hget : s.mappings.get call.receiverId with
  | none => exact Or.inr ⟨rfl, rfl⟩
  | some r =>
    cases hep : core.remoteEp (s.heap.cell r) with
    | none => exact Or.inr (by simp [hep])
    | some ep =>
      by_cases heq : ep = call.remoteAddr
      · exact Or.inr (by simp [hep, heq])
      · exact Or.inl ⟨ep, r, by simp [hep, heq]⟩

theorem KnowsTable.mono {s' : Shared C R} {th : Thread} (hk : KnowsTable core table s th)
    (hkeep : core.KeepsEndpoints s.heap s'.heap) : KnowsTable core table s' th := by
  cases th with
  | request clients pc =>
    refine ⟨hk.1, ?_⟩
    cases pc with
    | insert ids attempts id r =>
      obtain ⟨hid, hr, hep⟩ := hk.2
      exact ⟨hid, hkeep.lt hr, (hkeep.remoteEp r hr).trans hep⟩
    | newClient ids attempts id => exact hk.2
    | _ => trivial
  | _ => exact hk

/-- A handler that goes on without sending. -/
theorem Books.advance {s' : Shared C R} {shown : List (Traffic Int16)} {call : Call}
    {pc next : Pc} (h : Books core table s shown (.handler call pc))
    (hpc : pc.hasSent = false) (hnext : next.hasSent = false) (htrack : OnTrack table call next) :
    Books core table s' (shown ++ []) (.handler call next) := by
  refine ⟨⟨h.knows.1, htrack⟩, ?_⟩
  rw [List.append_nil, owed_unsent hnext, ← owed_unsent hpc]
  exact h.forwarded

/-- A handler that returns with nothing left to send. -/
theorem Books.return {s' : Shared C R} {shown : List (Traffic Int16)} {call : Call} {pc : Pc}
    (h : Books core table s shown (.handler call pc))
    (howed : owed table (.handler call pc) = none) :
    Books core table s' (shown ++ []) .idle := by
  refine ⟨trivial, ?_⟩
  have hforwarded := h.forwarded
  rw [howed] at hforwarded
  rw [List.append_nil]
  exact hforwarded

/-- One access of a handler. -/
theorem handle_books (h : Steady core table s) {shown : List (Traffic Int16)} {call : Call}
    {pc : Pc} (hbooks : Books core table s shown (.handler call pc)) {sendOk : Bool}
    (hC : Established core table s (.handler call pc) (.go sendOk)) :
    Books core table (exec core rater s (.handler call pc) (.go sendOk)).1
      (shown ++ call.sends pc) (exec core rater s (.handler call pc) (.go sendOk)).2 := by
  obtain ⟨hid, htrack⟩ := hbooks.knows
  cases pc with
  | lookup =>
    obtain ⟨r, ep, hget, hcell, hep⟩ := h.exists_client hid
    simp only [exec, handle, hget, hcell]
    by_cases heq : ep = call.remoteAddr
    · rw [if_neg (not_not.mpr heq)]
      exact hbooks.advance rfl rfl (by rw [OnTrack, hep, heq])
    · rw [if_pos heq]
      refine hbooks.advance rfl rfl ?_
      rw [OnTrack, hep]
      exact fun hsome => heq (Option.some.inj hsome)
  | isTimedOut r =>
    have hlive : core.isTimedOut (s.heap.cell r) s.clock = false := by
      rw [Established, established, Bool.not_eq_true'] at hC
      exact hC
    simp only [exec, handle, hlive, Bool.false_eq_true, if_false]
    exact hbooks.return (forwardOf_foreign htrack)
  | setLastReceive r => exact hbooks.advance rfl rfl htrack
  | updateStats r => exact hbooks.advance rfl rfl htrack
  | forward =>
    rcases h.forward sendOk htrack with ⟨ep, r, hnext, hforward⟩ | ⟨hnext, hforward⟩
    · simp only [exec, hnext]
      exact hbooks.advance rfl rfl hforward
    · simp only [exec, hnext]
      exact hbooks.return hforward
  | send ep r =>
    have hforwarded : Forwarded table shown (some ⟨call.packet, ep⟩) := by
      rw [← (show forwardOf table call.heard = some ⟨call.packet, ep⟩ from htrack)]
      exact hbooks.forwarded
    cases sendOk with
    | true => exact ⟨⟨hid, trivial⟩, hforwarded.send⟩
    | false => exact ⟨trivial, hforwarded.send⟩
  | receiverStats r => exact hbooks.return rfl
  | _ => exact htrack.elim

/-- The loop of a request claims nothing at once. -/
theorem knowsTable_loop {ids : List Int16} (h : ∀ id ∈ ids, table id = none) (n clients : Nat)
    (attempts : Nat) : KnowsTable core table s (.request n (loop clients ids attempts)) := by
  refine ⟨by rwa [held_loop], ?_⟩
  unfold loop
  split
  · trivial
  · split <;> trivial

/-- An id that is not in the map has no endpoint. -/
theorem Steady.table_eq_none (h : Steady core table s) {id : Int16}
    (hfree : s.mappings.get id = none) : table id = none := by
  rw [← h.endpoints, RelayCore.endpointAt, hfree, Option.bind_none]

variable (hcore : core.FixedEndpoint)
include hcore

/-- One access of a request. -/
theorem request_steady (h : Steady core table s) {clients : Nat} {pc : RequestPc}
    (hk : KnowsTable core table s (.request clients pc)) (k : Int16) :
    let out := exec core rater s (.request clients pc) (.draw k)
    Steady core table out.1 ∧ KnowsTable core table out.1 out.2 := by
  obtain ⟨hheld, hpc⟩ := hk
  cases pc with
  | maintenance =>
    refine ⟨h, ?_⟩
    simp only [exec, allocate]
    split
    · trivial
    · split
      · trivial
      · exact ⟨fun _ hmem => absurd hmem List.not_mem_nil, trivial⟩
  | checkLen =>
    refine ⟨h, ?_⟩
    simp only [exec, allocate]
    split
    · trivial
    · exact knowsTable_loop (fun _ hmem => absurd hmem List.not_mem_nil) _ _ _
  | attempt ids attempts =>
    refine ⟨h, ?_⟩
    simp only [exec, allocate]
    split
    · rename_i hfree
      have hget : s.mappings.get k = none := by
        simpa [DashMap.containsKey, DashMap.get_eq_none] using hfree.2
      exact ⟨hheld, h.table_eq_none hget⟩
    · exact knowsTable_loop hheld _ _ _
  | newClient ids attempts id =>
    refine ⟨h.keep rfl (.alloc _ _), hheld, hpc, Nat.lt_succ_self _, ?_⟩
    show core.remoteEp ((s.heap.alloc (core.new s.clock)).cell s.heap.next) = none
    rw [Heap.cell_alloc_next, hcore.remoteEp_new]
  | insert ids attempts id r =>
    refine ⟨h.insert hpc.2.1 hpc.2.2 hpc.1, knowsTable_loop ?_ _ _ _⟩
    intro j hj
    rcases List.mem_append.mp hj with hj | hj
    · exact hheld j hj
    · rw [List.mem_singleton.mp hj]
      exact hpc.1
  | rollBack ids =>
    cases ids with
    | nil => exact ⟨h, trivial⟩
    | cons id ids =>
      simp only [exec, allocate_rollBack]
      exact ⟨h.remove (hheld id List.mem_cons_self),
        fun j hj => hheld j (List.mem_cons_of_mem _ hj), trivial⟩
  | activeLen ids => exact ⟨h, hheld, trivial⟩
  | activeStore ids len => exact ⟨h.keep rfl (.refl _), trivial⟩

/-- One access of any thread. -/
theorem exec_books (h : Steady core table s) {shown : List (Traffic Int16)} {th : Thread}
    (hbooks : Books core table s shown th) {a : Input} (hC : Established core table s th a) :
    let out := exec core rater s th a
    Steady core table out.1 ∧
      Books core table out.1 (shown ++ (traffic core rater).emit s th a) out.2 := by
  have hkeep := exec_keepsEndpoints rater hcore s th a
  have hsame : Steady core table s ∧ Books core table s (shown ++ []) th := by
    rw [List.append_nil]
    exact ⟨h, hbooks⟩
  cases th with
  | idle =>
    cases a with
    | receive senderId receiverId packet addr =>
      exact ⟨h, ⟨hC, trivial⟩, hbooks.forwarded.hear senderId receiverId packet addr⟩
    | request query =>
      exact ⟨h, ⟨fun _ hmem => absurd hmem List.not_mem_nil, trivial⟩, hsame.2.forwarded⟩
    | toggleMaintenance => exact ⟨h.keep rfl (.refl _), trivial, hsame.2.forwarded⟩
    | _ => exact ⟨h, trivial, hsame.2.forwarded⟩
  | status => cases a <;> exact ⟨h, trivial, hsame.2.forwarded⟩
  | cleanup pc =>
    cases pc with
    | retain =>
      cases a with
      | visit key =>
        refine ⟨?_, trivial, hsame.2.forwarded⟩
        simp only [exec, visit]
        split
        · rename_i r hget
          have hall : (s.mappings.get key).all _ = true := hC
          rw [hget, Option.all_some, Bool.or_eq_true, Bool.not_eq_true'] at hall
          split
          · rename_i hto
            rw [hto] at hall
            have hnone : table key = none := by
              rw [← h.endpoints, RelayCore.endpointAt, hget, Option.bind_some]
              exact Option.isNone_iff_eq_none.mp (hall.resolve_right (by decide))
            exact h.remove hnone
          · exact h
        · exact h
      | _ => exact ⟨h, trivial, hsame.2.forwarded⟩
    | _ => cases a <;> exact ⟨h.keep rfl (.refl _), trivial, hsame.2.forwarded⟩
  | request clients pc =>
    cases a with
    | draw k =>
      obtain ⟨hsteady, hk⟩ := request_steady rater hcore h hbooks.knows k
      refine ⟨hsteady, hk, ?_⟩
      have hidle : owed table (exec core rater s (.request clients pc) (.draw k)).2 = none := by
        simp only [exec]
        cases (allocate core s clients k pc).2 <;> rfl
      rw [hidle]
      exact hsame.2.forwarded
    | _ => exact hsame
  | handler call pc =>
    cases a with
    | go sendOk =>
      refine ⟨?_, handle_books rater h hbooks hC⟩
      have htrack := hbooks.knows.2
      cases pc with
      | insertClaim _ r => exact htrack.elim
      | insertReconnect _ r => exact htrack.elim
      | _ => exact h.keep rfl hkeep
    | _ => exact hsame

variable {ι : Type} [DecidableEq ι]

/-- **The invariant of established runs**: the table, and the books of every thread. -/
theorem books_invariant : (traffic core rater).Invariant (ι := ι)
    (System.OnWork (Established core table)) (fun _ s => Steady core table s)
    (fun tr s i th => Books core table s (shownBy i tr) th) (fun _ _ => True) where
  exec tr p i a hC h hbooks := by
    rw [shownBy_append, shownBy_self]
    exact exec_books rater hcore h hbooks hC
  interfere tr p i a j := by
    intro _ _ _ hj hbooks _
    refine ⟨hbooks.knows.mono (exec_keepsEndpoints rater hcore p.shared (p.thread i) a), ?_⟩
    rw [shownBy_append, shownBy_of_ne hj, List.append_nil]
    exact hbooks.forwarded
  apart _ _ _ _ _ _ _ _ _ _ _ := trivial
  symm _ _ _ := trivial
  tick _ _ _ h := h.keep rfl (.refl _)
  tick_local _ _ _ _ _ _ hbooks := ⟨hbooks.knows.mono (.refl _), hbooks.forwarded⟩

end Steps

/-! ## One call after another -/

/-- The tunnel without its threads: every entry holds its client. -/
def Shared.unshared (s : Shared C R) : TunnelV2 C R :=
  { s with mappings := s.mappings.mapValues s.heap.cell }

def oneByOne : Machine (TunnelV2 C R) (Turn Int16) Datagram where
  step t c := (handleDataForward core t c.env c.senderId c.receiverId c.packet c.addr c.batch).1
  emit t c := (handleDataForward core t c.env c.senderId c.receiverId c.packet c.addr c.batch).2.2

/-- The sender has claimed its id, and the call does not find it timed out. -/
def establishedTurn (t : TunnelV2 C R) (c : Turn Int16) : Bool :=
  (core.endpointOf t.mappings c.senderId).isSome &&
    (t.mappings.get c.senderId).all fun client =>
      core.remoteEp client == some c.addr || !core.isTimedOut client c.env.timestamp

abbrev EstablishedTurn (t : TunnelV2 C R) (c : Turn Int16) : Prop :=
  establishedTurn core t c = true

theorem establishedTurn_iff (t : TunnelV2 C R) (c : Turn Int16) :
    EstablishedTurn core t c ↔ (core.endpointOf t.mappings c.senderId).isSome ∧
      ∀ client, t.mappings.get c.senderId = some client → core.remoteEp client ≠ some c.addr →
        core.isTimedOut client c.env.timestamp = false := by
  simp only [EstablishedTurn, establishedTurn, Bool.and_eq_true, Option.all_eq_true,
    Bool.or_eq_true, beq_iff_eq, Bool.not_eq_true', or_iff_not_imp_left]


section Turns

variable {core} (hcore : core.FixedEndpoint)
include hcore

theorem endpointOf_relay (t : TunnelV2 C R) (env : Env) (r : Int16) (packet : Packet)
    (addr : SocketAddr) (batch : LocalMetricsBatch) :
    core.endpointOf (relay core t env r packet addr batch).1.mappings =
      core.endpointOf t.mappings :=
  core.endpointOf_congr (view_relay core hcore (fun _ => 0) (fun _ _ _ _ => rfl) t env r packet addr
    batch)

/-- One call sends what the table of its tunnel says, and leaves the table as it is. -/
theorem turn_forwards {t : TunnelV2 C R} {c : Turn Int16} (hC : EstablishedTurn core t c) :
    (oneByOne core).emit t c = (forwardOf (core.endpointOf t.mappings) c.heard).toList ∧
      core.endpointOf ((oneByOne core).step t c).mappings = core.endpointOf t.mappings := by
  obtain ⟨hsome, hlive⟩ := (establishedTurn_iff core t c).mp hC
  simp only [oneByOne, handleDataForward]
  have hstep := acceptSender_step core t c.env c.senderId c.packet c.addr
  generalize acceptSender core t c.env c.senderId c.packet c.addr = out at hstep
  cases hstep with
  | claimed client hget hep =>
    rw [RelayCore.endpointOf, hget, Option.bind_some, hep] at hsome
    cases hsome
  | reconnected client ep hget hep hne hto =>
    have hfalse := hlive client hget (by rw [hep]; exact fun h => hne (Option.some.inj h))
    rw [hfalse] at hto
    cases hto
  | refreshed client hget hep =>
    have hbound : core.endpointOf t.mappings c.senderId = some c.addr := by
      rw [RelayCore.endpointOf, hget, Option.bind_some, hep]
    have hsame : core.endpointOf (t.mappings.modify c.senderId
        (core.refresh c.packet.length c.env.timestamp)) = core.endpointOf t.mappings :=
      core.endpointOf_modify (core.remoteEp_refresh hcore _ _) _ _
    dsimp only
    rw [endpointOf_relay hcore, relay_sent]
    exact ⟨congrArg Option.toList (RelayCore.forwardInfo_forwardOf hsame hbound), hsame⟩
  | refused client ep hget hep hne _ =>
    have hforeign : core.endpointOf t.mappings c.senderId ≠ some c.addr := by
      rw [RelayCore.endpointOf, hget, Option.bind_some, hep]
      exact fun h => hne (Option.some.inj h)
    rw [Turn.heard, forwardOf_foreign hforeign]
    exact ⟨rfl, rfl⟩
  | unknown hnone =>
    rw [RelayCore.endpointOf, hnone] at hsome
    cases hsome

end Turns

/-- **Established clients.** From any state that a run has come to with all threads idle: once
the threads are idle again, the endpoints are what they were, and every worker has sent what they
say for the packets it has heard; the same calls one after another send the same. -/
theorem established_run {core : RelayCore C A} (hcore : core.FixedEndpoint) {ι : Type}
    [DecidableEq ι] [Fintype ι] {start : Pool ι (Shared C R) Thread} (hstart : Started start)
    (past as : List (Action ι Input)) :
    let M := (traffic core rater).machine
    let p := M.run start past
    let table := core.endpointAt p.shared.mappings p.shared.heap
    let p' := M.run p as
    let tr := M.trace p as
    (∀ i, p.thread i = .idle) → M.Along (System.OnWork (Established core table)) p as →
    (∀ i, p'.thread i = .idle) →
    core.endpointAt p'.shared.mappings p'.shared.heap = table ∧
    OrderFree table tr (oneByOne core) (EstablishedTurn core) p.shared.unshared := by
  intro M p table p' tr hidle hC hback
  have hsound := (traffic_invariant rater hcore).run (p := start)
    (started_traffic hstart) (M.along_of_forall (fun _ _ => trivial) start past)
  have hsteady : Steady core table p.shared :=
    ⟨fun id r hget => (hsound.shared.1 id r hget).1, rfl⟩
  have hheld := (books_invariant rater hcore).run (p := p)
    ⟨hsteady, fun i => by rw [hidle i]; exact ⟨trivial, forwarded_nil⟩, fun _ _ _ => trivial⟩ hC
  have hforwarded : ∀ i, Forwarded table (shownBy i tr) none := by
    intro i
    have h := (hheld.thread i).forwarded
    rw [show (M.run p as).thread i = .idle from hback i] at h
    exact h
  exact ⟨hheld.shared.endpoints, .of_forwarded (fun t : TunnelV2 C R => core.endpointOf t.mappings)
    hforwarded (fun _ _ => turn_forwards hcore) (RelayCore.endpointOf_mapValues _ _)⟩

end CncnetServer.TunnelV2
