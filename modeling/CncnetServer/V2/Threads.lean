import CncnetServer.V2.Step
import CncnetServer.Lib.Heap
import CncnetServer.Lib.Threads

/-!
The V2 tunnel with any number of threads: receive workers inside
`handle_data_forward`, HTTP tasks inside `handle_request` and the other routes,
and cleanups inside `cleanup_expired_mappings`, one shared access a step.

An entry of `mappings` is an `Arc`, here a reference into a heap of clients. A
program counter names the access that comes next and carries the locals of the
source that are still needed; a handler keeps the client it looked up.
-/

namespace CncnetServer.TunnelV2

open Threads

/-- The tunnel as the threads share it, with the clients behind their references. -/
structure Shared (C R : Type) extends TunnelV2 Ref R where
  heap : Heap C
  clock : Nat

/-- The arguments of `handle_data_forward`. -/
structure Call where
  senderId : Int16
  receiverId : Int16
  packet : Packet
  remoteAddr : SocketAddr
  now : Nat

/-- Where `handle_data_forward` is: the access it makes next. -/
inductive Pc
  /-- `mappings.get(&sender_id)`, cloned. -/
  | lookup
  -- the entry nobody has claimed
  | newClaim (sender : Ref)
  | insertClaim (sender newClient : Ref)
  -- the entry of another endpoint
  | isTimedOut (sender : Ref)
  | newReconnect (sender : Ref)
  | insertReconnect (sender newClient : Ref)
  -- the entry of this endpoint
  | setLastReceive (sender : Ref)
  | updateStats (sender : Ref)
  /-- `mappings.get(&receiver_id)`. -/
  | forward
  | send (receiverEp : SocketAddr) (receiver : Ref)
  | receiverStats (receiver : Ref)
  deriving DecidableEq

/-- Where `handle_request` is; `ids` are the ids in `client_ids`. -/
inductive RequestPc
  | maintenance
  | checkLen
  /-- `contains_key` of the next draw. -/
  | attempt (ids : List Int16) (attempts : Nat)
  | newClient (ids : List Int16) (attempts : Nat) (clientId : Int16)
  | insert (ids : List Int16) (attempts : Nat) (clientId : Int16) (client : Ref)
  | rollBack (ids : List Int16)
  | activeLen (ids : List Int16)
  | activeStore (ids : List Int16) (len : Nat)
  deriving DecidableEq

/-- Where a cleanup is. -/
inductive CleanupPc
  | retain
  | activeLen
  | activeStore (len : Nat)
  | resetPings
  deriving DecidableEq

inductive Thread
  | idle
  | handler (call : Call) (pc : Pc)
  | request (clients : Nat) (pc : RequestPc)
  | status
  | cleanup (pc : CleanupPc)

/-- What a step does not determine: the call an idle thread starts, the draw of a
request, the entry `retain` comes to next, and whether `send_to` succeeds. -/
inductive Input
  | receive (senderId receiverId : Int16) (packet : Packet) (remoteAddr : SocketAddr)
  | request (query : Option (List Char))
  | status
  | clean
  | toggleMaintenance
  | draw (clientId : Int16)
  | visit (key : Int16)
  | go (sendOk : Bool)

/-- What a step shows. -/
inductive Shown
  | lookedUp (id : Int16)
  /-- `handle_data_forward` has put a client of the endpoint under the id. -/
  | bound (id : Int16) (remoteAddr : SocketAddr)
  | allocated (id : Int16)
  | rolledBack (id : Int16)
  | expired (id : Int16)
  /-- `handle_request` returns 200 with these ids. -/
  | answered (ids : List Int16)
  /-- What `/status` prints. -/
  | slots (free inUse : Nat)
  | sent (datagram : Datagram)
  deriving DecidableEq

variable {C R A : Type} (core : RelayCore C A) (rater : Rater R)

/-! ## Steps -/

/-- The access of `handle_data_forward` at `pc`, and where it goes from there. -/
def handle (s : Shared C R) (call : Call) (sendOk : Bool) : Pc → Shared C R × Option Pc
  | .lookup =>
    (s, match s.mappings.get call.senderId with
      | some sender =>
        match core.remoteEp (s.heap.cell sender) with
        | some ep => some (if ep ≠ call.remoteAddr then .isTimedOut sender else .setLastReceive sender)
        | none => some (.newClaim sender)
      | none => none)
  | .newClaim sender =>
    ({ s with heap := s.heap.alloc (core.newWithEndpoint call.remoteAddr s.clock) },
      some (.insertClaim sender s.heap.next))
  | .isTimedOut sender =>
    (s, if core.isTimedOut (s.heap.cell sender) s.clock then some (.newReconnect sender) else none)
  | .newReconnect sender =>
    ({ s with heap := s.heap.alloc (core.newWithEndpoint call.remoteAddr s.clock) },
      some (.insertReconnect sender s.heap.next))
  | .insertClaim _ newClient | .insertReconnect _ newClient =>
    ({ s with mappings := s.mappings.insert call.senderId newClient }, some .forward)
  | .setLastReceive sender =>
    ({ s with heap := s.heap.modify sender (core.setLastReceiveTickAt · call.now) },
      some (.updateStats sender))
  | .updateStats sender =>
    ({ s with heap := s.heap.modify sender (core.updateStats · call.packet.length 0 call.now) },
      some .forward)
  | .forward =>
    (s, match s.mappings.get call.receiverId with
      | some receiver =>
        match core.remoteEp (s.heap.cell receiver) with
        | some ep => if ep = call.remoteAddr then none else some (.send ep receiver)
        | none => none
      | none => none)
  | .send _ receiver => (s, if sendOk then some (.receiverStats receiver) else none)
  | .receiverStats receiver =>
    ({ s with heap := s.heap.modify receiver (core.updateStats · 0 call.packet.length call.now) },
      none)

/-- The test of the allocation loop, and what follows the loop. -/
def loop (clients : Nat) (ids : List Int16) (attempts : Nat) : RequestPc :=
  if ids.length < clients ∧ attempts < maxAttempts then .attempt ids attempts
  else if ids.length < clients then .rollBack ids
  else .activeLen ids

/-- The access of `handle_request` at `pc`, and where it goes from there. -/
def allocate (s : Shared C R) (clients : Nat) (clientId : Int16) :
    RequestPc → Shared C R × Option RequestPc
  | .maintenance =>
    (s, if s.maintenanceMode then none
      else if clients < 2 ∨ clients > 8 then none
      else some .checkLen)
  | .checkLen =>
    (s, if s.mappings.len + clients > s.maxClients then none else some (loop clients [] 0))
  | .attempt ids attempts =>
    (s, some (if clientId ≠ 0 ∧ !s.mappings.containsKey clientId
      then .newClient ids (attempts + 1) clientId
      else loop clients ids (attempts + 1)))
  | .newClient ids attempts clientId =>
    ({ s with heap := s.heap.alloc (core.new s.clock) },
      some (.insert ids attempts clientId s.heap.next))
  | .insert ids attempts clientId client =>
    ({ s with mappings := s.mappings.insert clientId client },
      some (loop clients (ids ++ [clientId]) attempts))
  | .rollBack ids =>
    match ids with
    | [] => (s, none)
    | id :: ids =>
      -- the ids are kept as texts and parsed again
      (match parseI16 (i16ToString id) with
        | some id => { s with mappings := s.mappings.remove id }
        | none => s,
      some (.rollBack ids))
  | .activeLen ids => (s, some (.activeStore ids s.mappings.len))
  | .activeStore _ len =>
    ({ s with metrics := { s.metrics with v2ActiveClients := len } }, none)

/-- One entry of `retain`. -/
def visit (s : Shared C R) (key : Int16) : Shared C R :=
  match s.mappings.get key with
  | some client =>
    if core.isTimedOut (s.heap.cell client) s.clock then
      { s with mappings := s.mappings.remove key }
    else s
  | none => s

def Thread.handlerAt (call : Call) : Option Pc → Thread
  | some pc => .handler call pc
  | none => .idle

def Thread.requestAt (clients : Nat) : Option RequestPc → Thread
  | some pc => .request clients pc
  | none => .idle

/-- One step of a thread. An input that does not fit leaves everything as it is. -/
def exec (s : Shared C R) : Thread → Input → Shared C R × Thread
  | .idle, .receive senderId receiverId packet remoteAddr =>
    (s, .handler ⟨senderId, receiverId, packet, remoteAddr, s.clock⟩ .lookup)
  | .idle, .request query => (s, .request (parseClients query) .maintenance)
  | .idle, .status => (s, .status)
  | .idle, .clean => (s, .cleanup .retain)
  | .idle, .toggleMaintenance => ({ s with maintenanceMode := !s.maintenanceMode }, .idle)
  | .handler call pc, .go sendOk =>
    ((handle core s call sendOk pc).1, .handlerAt call (handle core s call sendOk pc).2)
  | .request clients pc, .draw clientId =>
    ((allocate core s clients clientId pc).1,
      .requestAt clients (allocate core s clients clientId pc).2)
  | .status, .go _ => (s, .idle)
  | .cleanup .retain, .visit key => (visit core s key, .cleanup .retain)
  | .cleanup .retain, .go _ => (s, .cleanup .activeLen)
  | .cleanup .activeLen, .go _ => (s, .cleanup (.activeStore s.mappings.len))
  | .cleanup (.activeStore len), .go _ =>
    ({ s with metrics := { s.metrics with v2ActiveClients := len } }, .cleanup .resetPings)
  | .cleanup .resetPings, .go _ =>
    ({ s with pingLimiter := RateLimiter.reset rater s.pingLimiter }, .idle)
  | thread, _ => (s, thread)

/-- What the access of `handle_data_forward` shows. -/
def shown (call : Call) : Pc → List Shown
  | .lookup => [.lookedUp call.senderId]
  | .insertClaim _ _ | .insertReconnect _ _ => [.bound call.senderId call.remoteAddr]
  | .send receiverEp _ => [.sent ⟨call.packet, receiverEp⟩]
  | _ => []

/-- What the access of `handle_request` shows. -/
def shownRequest : RequestPc → List Shown
  | .insert _ _ clientId _ => [.allocated clientId]
  | .rollBack (id :: _) => [.rolledBack id]
  | .activeStore ids _ => [.answered ids]
  | _ => []

def emit (s : Shared C R) : Thread → Input → List Shown
  | .handler call pc, .go _ => shown call pc
  | .request _ pc, .draw _ => shownRequest pc
  | .status, .go _ => [.slots (s.maxClients - s.mappings.len) s.mappings.len]
  | .cleanup .retain, .visit key =>
    if (s.mappings.get key).any fun client => core.isTimedOut (s.heap.cell client) s.clock
    then [.expired key] else []
  | _, _ => []

/-- The threads of the tunnel. -/
def threads : System (Shared C R) Thread Input Shown where
  exec := exec core rater
  emit := emit core
  tick s d := { s with clock := s.clock + d }

/-- A started tunnel: no client, all threads idle. -/
structure Started {ι : Type} (p : Pool ι (Shared C R) Thread) : Prop where
  mappings : p.shared.mappings = ∅
  idle : ∀ i, p.thread i = .idle

/-! ## What one step does to the map -/

/-- The roll-back finds the id it has written. -/
theorem allocate_rollBack (s : Shared C R) (clients : Nat) (clientId id : Int16)
    (ids : List Int16) :
    allocate core s clients clientId (.rollBack (id :: ids)) =
      ({ s with mappings := s.mappings.remove id }, some (.rollBack ids)) := by
  simp only [allocate, parseI16_i16ToString]

/-- The ids a request has put into the map and not yet answered or taken back. -/
def RequestPc.held : RequestPc → List Int16
  | .maintenance | .checkLen => []
  | .attempt ids _ | .newClient ids _ _ | .insert ids _ _ _ | .rollBack ids | .activeLen ids
  | .activeStore ids _ => ids

def Thread.held : Thread → List Int16
  | .request _ pc => pc.held
  | _ => []

@[simp] theorem held_loop (clients : Nat) (ids : List Int16) (attempts : Nat) :
    (loop clients ids attempts).held = ids := by
  unfold loop
  split
  · rfl
  · split <;> rfl

/-- What is shown when an id is allocated, bound, answered or removed. -/
def Shown.changes : Shown → Bool
  | .lookedUp _ | .slots _ _ | .sent _ => false
  | _ => true

/-- The client a handler is about to put into the map. -/
def Pc.inserts : Pc → Option Ref
  | .insertClaim _ newClient | .insertReconnect _ newClient => some newClient
  | _ => none

/-- Everything a step can do to the map, and what it shows then. -/
inductive MapStep (s : Shared C R) :
    Thread → Input → Shared C R → Thread → List Shown → Prop
  | quiet {th a s' th' es} : s'.mappings = s.mappings → th'.held = th.held →
      (∀ e ∈ es, e.changes = false) → MapStep s th a s' th' es
  | bound {call pc r b s'} : pc.inserts = some r →
      s'.mappings = s.mappings.insert call.senderId r →
      MapStep s (.handler call pc) (.go b) s' (.handler call .forward)
        [.bound call.senderId call.remoteAddr]
  | allocated {clients ids attempts id r k s'} : s'.mappings = s.mappings.insert id r →
      MapStep s (.request clients (.insert ids attempts id r)) (.draw k) s'
        (.request clients (loop clients (ids ++ [id]) attempts)) [.allocated id]
  | rolledBack {clients id ids k s'} : s'.mappings = s.mappings.remove id →
      MapStep s (.request clients (.rollBack (id :: ids))) (.draw k) s'
        (.request clients (.rollBack ids)) [.rolledBack id]
  | answered {clients ids len k s'} : s'.mappings = s.mappings →
      MapStep s (.request clients (.activeStore ids len)) (.draw k) s' .idle [.answered ids]
  | expired {key r s'} : s.mappings.get key = some r →
      core.isTimedOut (s.heap.cell r) s.clock = true →
      s'.mappings = s.mappings.remove key →
      MapStep s (.cleanup .retain) (.visit key) s' (.cleanup .retain) [.expired key]

theorem exec_mapStep (s : Shared C R) (th : Thread) (a : Input) :
    MapStep core s th a (exec core rater s th a).1 (exec core rater s th a).2
      (emit core s th a) := by
  have hsame : MapStep core s th a s th [] := .quiet rfl rfl (by simp)
  cases th with
  | idle => cases a <;> first | exact hsame | exact .quiet rfl rfl (by simp [emit])
  | status => cases a <;> first | exact hsame | exact .quiet rfl rfl (by simp [emit, Shown.changes])
  | handler call pc =>
    cases a with
    | go sendOk =>
      have hheld : ∀ pc, (exec core rater s (.handler call pc) (.go sendOk)).2.held = [] := by
        intro pc
        show (Thread.handlerAt call (handle core s call sendOk pc).2).held = []
        cases (handle core s call sendOk pc).2 <;> rfl
      cases pc with
      | insertClaim _ r => exact .bound rfl rfl
      | insertReconnect _ r => exact .bound rfl rfl
      | _ => exact .quiet rfl (hheld _) (by simp [emit, shown, Shown.changes])
    | _ => exact hsame
  | request clients pc =>
    cases a with
    | draw k =>
      cases pc with
      | maintenance =>
        refine .quiet rfl ?_ (by simp [emit, shownRequest])
        simp only [exec, allocate]
        split
        · rfl
        · split <;> rfl
      | checkLen =>
        refine .quiet rfl ?_ (by simp [emit, shownRequest])
        simp only [exec, allocate]
        split
        · rfl
        · exact held_loop clients [] 0
      | attempt ids attempts =>
        refine .quiet rfl ?_ (by simp [emit, shownRequest])
        simp only [exec, allocate]
        split
        · rfl
        · exact held_loop clients ids (attempts + 1)
      | newClient ids attempts id => exact .quiet rfl rfl (by simp [emit, shownRequest])
      | insert ids attempts id r => exact .allocated rfl
      | rollBack ids =>
        cases ids with
        | nil => exact .quiet rfl rfl (by simp [emit, shownRequest])
        | cons id ids =>
          simp only [exec, allocate_rollBack]
          exact .rolledBack rfl
      | activeLen ids => exact .quiet rfl rfl (by simp [emit, shownRequest])
      | activeStore ids len => exact .answered rfl
    | _ => exact hsame
  | cleanup pc =>
    cases pc with
    | retain =>
      cases a with
      | visit key =>
        cases hget : s.mappings.get key with
        | none => exact .quiet (by simp [exec, visit, hget]) rfl (by simp [emit, hget])
        | some r =>
          cases hto : core.isTimedOut (s.heap.cell r) s.clock with
          | false =>
            exact .quiet (by simp [exec, visit, hget, hto]) rfl (by simp [emit, hget, hto])
          | true =>
            simp only [exec, emit, visit, hget, Option.any_some, hto, if_true]
            exact .expired hget hto rfl
      | _ => exact .quiet rfl rfl (by simp [emit])
    | _ => cases a <;> first | exact hsame | exact .quiet rfl rfl (by simp [emit])

/-! ## What a call has looked up -/

/-- A `handle_data_forward`, a `handle_request` or a cleanup is in progress. -/
def Thread.inProgress : Thread → Bool
  | .idle | .status => false
  | _ => true

/-- The id that a slot claim or a reconnect has found and is about to insert. -/
def Thread.reconnects : Thread → Option Int16
  | .handler call (.newClaim _) | .handler call (.insertClaim _ _) => some call.senderId
  | .handler call (.isTimedOut _) | .handler call (.newReconnect _) => some call.senderId
  | .handler call (.insertReconnect _ _) => some call.senderId
  | _ => none

/-- The id that a request has not found and is about to insert. -/
def Thread.picks : Thread → Option Int16
  | .request _ (.newClient _ _ id) | .request _ (.insert _ _ id _) => some id
  | _ => none

theorem exec_reconnects {s : Shared C R} {th : Thread} {a : Input} {k : Int16}
    (h : k ∈ (exec core rater s th a).2.reconnects) :
    (exec core rater s th a).1.mappings = s.mappings ∧ (k ∈ th.reconnects ∨ k ∈ s.mappings) := by
  cases th with
  | idle => cases a <;> cases h
  | status => cases a <;> cases h
  | request clients pc =>
    cases a with
    | draw id =>
      simp only [exec] at h
      cases hnext : (allocate core s clients id pc).2 with
      | none => rw [hnext] at h; cases h
      | some next => rw [hnext] at h; cases h
    | _ => cases h
  | cleanup pc => cases pc <;> cases a <;> cases h
  | handler call pc =>
    cases a with
    | go sendOk =>
      cases pc with
      | lookup =>
        refine ⟨rfl, Or.inr ?_⟩
        cases hget : s.mappings.get call.senderId with
        | none => simp only [exec, handle, hget] at h; cases h
        | some sender =>
          simp only [exec, handle, hget] at h
          have hmem := DashMap.mem_of_get hget
          split at h
          · split at h <;> cases h
            exact hmem
          · cases h
            exact hmem
      | newClaim sender => exact ⟨rfl, Or.inl h⟩
      | isTimedOut sender =>
        refine ⟨rfl, Or.inl ?_⟩
        simp only [exec, handle] at h
        split at h
        · exact h
        · cases h
      | newReconnect sender => exact ⟨rfl, Or.inl h⟩
      | forward =>
        simp only [exec, handle] at h
        split at h
        · split at h
          · split at h <;> cases h
          · cases h
        · cases h
      | send receiverEp receiver => cases sendOk <;> cases h
      | _ => cases h
    | _ => exact ⟨rfl, Or.inl h⟩

theorem exec_picks {s : Shared C R} {th : Thread} {a : Input} {k : Int16}
    (h : k ∈ (exec core rater s th a).2.picks) :
    (exec core rater s th a).1.mappings = s.mappings ∧ (k ∈ th.picks ∨ k ∉ s.mappings) := by
  have hloop : ∀ n clients ids attempts,
      (Thread.request n (loop clients ids attempts)).picks = none := by
    intro n clients ids attempts
    unfold loop
    split
    · rfl
    · split <;> rfl
  cases th with
  | idle => cases a <;> cases h
  | status => cases a <;> cases h
  | handler call pc =>
    cases a with
    | go sendOk =>
      simp only [exec] at h
      cases hnext : (handle core s call sendOk pc).2 with
      | none => rw [hnext] at h; cases h
      | some next => rw [hnext] at h; cases h
    | _ => cases h
  | cleanup pc => cases pc <;> cases a <;> cases h
  | request clients pc =>
    cases a with
    | draw id =>
      cases pc with
      | maintenance =>
        simp only [exec, allocate] at h
        split at h
        · cases h
        · split at h <;> cases h
      | checkLen =>
        simp only [exec, allocate] at h
        split at h
        · cases h
        · rw [Thread.requestAt, hloop] at h
          cases h
      | attempt ids attempts =>
        refine ⟨rfl, Or.inr ?_⟩
        simp only [exec, allocate] at h
        split at h
        · rename_i hfree
          cases h
          simpa [DashMap.containsKey] using hfree.2
        · rw [Thread.requestAt, hloop] at h
          cases h
      | newClient ids attempts id => exact ⟨rfl, Or.inl h⟩
      | insert ids attempts id r =>
        have hnone : (exec core rater s (.request clients (.insert ids attempts id r))
            (.draw k)).2.picks = none := hloop clients clients (ids ++ [id]) attempts
        exact absurd (hnone.symm.trans h) (by simp)
      | rollBack ids =>
        cases ids with
        | nil => cases h
        | cons id ids => cases h
      | activeLen ids => cases h
      | activeStore ids len => cases h
    | _ => exact ⟨rfl, Or.inl h⟩

/-! ## A concrete tunnel -/

/-- A started tunnel over the concrete crates, with every attempt granted. -/
def referencePool (ι : Type) (maxClients clock : Nat) :
    Pool ι (Shared RelayCore.ReferenceClient Unit) Thread where
  shared := { TunnelV2.new Rater.granting ⟨50001, 50000, maxClients, "", 8, 4⟩ with
    heap := ⟨fun _ => (RelayCore.reference timeoutSeconds).new 0, 0⟩
    clock := clock }
  thread _ := .idle

theorem referencePool_started (ι : Type) (maxClients clock : Nat) :
    Started (referencePool ι maxClients clock) := ⟨rfl, fun _ => rfl⟩

/-- A request for two slots arrives at the thread. -/
def requestTwo {ι : Type} (i : ι) : Action ι Input := .work i (.request (some "clients=2".toList))

/-- A request takes its next steps, with these draws. -/
def drawing {ι : Type} (i : ι) (ids : List Int16) : List (Action ι Input) :=
  ids.map fun id => .work i (.draw id)

end CncnetServer.TunnelV2
