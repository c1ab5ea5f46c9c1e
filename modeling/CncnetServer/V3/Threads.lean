import CncnetServer.TunnelV3
import CncnetServer.Lib.Heap
import CncnetServer.Lib.Threads

/-!
The V3 tunnel with any number of threads: receive workers inside
`handle_data_forward` and cleanups inside `cleanup_expired_mappings`, one shared
access a step.

An entry of `mappings` is an `Arc`, here a reference into a heap of clients. A
handler clones it and drops the guard, so what it holds may no longer be what the
map holds. A program counter names the access that comes next and carries the
locals of the source that are still needed. `remote_ep` is never written after
the construction of a client and is read together with the entry.
-/

namespace CncnetServer.TunnelV3

open Threads

/-- The tunnel as the threads share it, with the clients behind their references. -/
structure Shared (C A R : Type) extends TunnelV3 Ref A R where
  heap : Heap C
  clock : Nat

/-- The arguments of `handle_data_forward`. -/
structure Call where
  senderId : UInt32
  receiverId : UInt32
  packet : Packet
  remoteAddr : SocketAddr
  now : Nat

/-- Where a handler is: the access it makes next. -/
inductive Pc
  /-- `mappings.get(&sender_id)`, cloned. -/
  | lookup
  -- the entry of another endpoint
  | isTimedOut (client : Ref)
  | tryAcquireReconnect
  | newReconnect
  | insertReconnect (newClient : Ref)
  | analyzerReconnect
  -- the entry of this endpoint
  | setLastReceive (client : Ref)
  | updateStats (client : Ref)
  | recordPacket
  -- no entry
  | checkLen
  | tryAcquireFirst
  | newFirst
  | insertFirst (client : Ref)
  | analyzerFirst
  | activeLen
  | activeStore (len : Nat)
  | rateLimited
  | full
  /-- `sender_valid` is true: `mappings.get(&receiver_id)`. -/
  | forward
  | send (receiverEp : SocketAddr) (receiver : Ref)
  | receiverStats (receiver : Ref)
  | recordLost
  deriving DecidableEq

/-- Where a cleanup is. -/
inductive CleanupPc
  | retain
  | activeLen
  | activeStore (len : Nat)
  | resetPings
  deriving DecidableEq

inductive Thread
  | idle
  | handler (call : Call) (pc : Pc)
  | cleanup (pc : CleanupPc)

/-- What a step does not determine: the call an idle thread starts, the entry
`retain` comes to next, and whether `send_to` succeeds. -/
inductive Input
  | receive (senderId receiverId : UInt32) (packet : Packet) (remoteAddr : SocketAddr)
  | clean
  | visit (key : UInt32)
  | go (sendOk : Bool)

/-- What a step shows. -/
inductive Shown
  /-- `sender_valid` has become true. -/
  | accepted (id : UInt32) (remoteAddr : SocketAddr) (now : Nat)
  | sent (datagram : Datagram)
  deriving DecidableEq

variable {C A R : Type} (core : RelayCore C A) (rater : Rater R)

/-- The endpoint an id is bound to. -/
def Shared.endpointOf (s : Shared C A R) (id : UInt32) : Option SocketAddr :=
  (s.mappings.get id).bind fun r => core.remoteEp (s.heap.cell r)

/-! ## Steps -/

/-- The access of a handler at `pc`, and where it goes from there. -/
def handle (s : Shared C A R) (call : Call) (sendOk : Bool) : Pc → Shared C A R × Option Pc
  | .lookup =>
    (s, match s.mappings.get call.senderId with
      | some client =>
        match core.remoteEp (s.heap.cell client) with
        | some ep => some (if ep ≠ call.remoteAddr then .isTimedOut client else .setLastReceive client)
        | none => none
      | none => some .checkLen)
  | .isTimedOut client =>
    (s, if core.isTimedOut (s.heap.cell client) s.clock then some .tryAcquireReconnect else none)
  | .tryAcquireReconnect =>
    let (granted, limiter) :=
      ConnectionRateLimiter.tryAcquire rater s.connectionLimiter call.remoteAddr.ip s.clock
    ({ s with connectionLimiter := limiter }, if granted then some .newReconnect else none)
  | .newReconnect =>
    ({ s with heap := s.heap.alloc (core.newWithEndpoint call.remoteAddr s.clock) },
      some (.insertReconnect s.heap.next))
  | .insertReconnect newClient =>
    ({ s with mappings := s.mappings.insert call.senderId newClient }, some .analyzerReconnect)
  | .analyzerReconnect =>
    ({ s with qualityAnalyzers := s.qualityAnalyzers.insert call.senderId core.newAnalyzer },
      some .forward)
  | .setLastReceive client =>
    ({ s with heap := s.heap.modify client (core.setLastReceiveTickAt · call.now) },
      some (.updateStats client))
  | .updateStats client =>
    ({ s with heap := s.heap.modify client (core.updateStats · call.packet.length 0 call.now) },
      some .recordPacket)
  | .recordPacket =>
    ({ s with
        qualityAnalyzers := s.qualityAnalyzers.modify call.senderId (core.recordPacket · false) },
      some .forward)
  | .checkLen => (s, some (if s.mappings.len < s.maxClients then .tryAcquireFirst else .full))
  | .tryAcquireFirst =>
    let (granted, limiter) :=
      ConnectionRateLimiter.tryAcquire rater s.connectionLimiter call.remoteAddr.ip s.clock
    ({ s with connectionLimiter := limiter }, some (if granted then .newFirst else .rateLimited))
  | .newFirst =>
    ({ s with heap := s.heap.alloc (core.newWithEndpoint call.remoteAddr s.clock) },
      some (.insertFirst s.heap.next))
  | .insertFirst client =>
    ({ s with mappings := s.mappings.insert call.senderId client }, some .analyzerFirst)
  | .analyzerFirst =>
    ({ s with qualityAnalyzers := s.qualityAnalyzers.insert call.senderId core.newAnalyzer },
      some .activeLen)
  | .activeLen => (s, some (.activeStore s.mappings.len))
  | .activeStore len =>
    ({ s with metrics := { s.metrics with v3ActiveClients := len } }, some .forward)
  | .rateLimited => ({ s with metrics := s.metrics.fetchAdd .rateLimitHits 1 }, none)
  | .full => ({ s with metrics := s.metrics.fetchAdd .droppedPackets 1 }, none)
  | .forward =>
    (s, match s.mappings.get call.receiverId with
      | some receiver =>
        match core.remoteEp (s.heap.cell receiver) with
        | some ep => if ep = call.remoteAddr then none else some (.send ep receiver)
        | none => none
      | none => none)
  | .send _ receiver => (s, some (if sendOk then .receiverStats receiver else .recordLost))
  | .receiverStats receiver =>
    ({ s with heap := s.heap.modify receiver (core.updateStats · 0 call.packet.length call.now) },
      none)
  | .recordLost =>
    ({ s with
        qualityAnalyzers := s.qualityAnalyzers.modify call.receiverId (core.recordPacket · true) },
      none)

/-- What the access at `pc` shows. -/
def shown (call : Call) : Pc → List Shown
  | .analyzerReconnect | .recordPacket | .activeStore _ =>
    [.accepted call.senderId call.remoteAddr call.now]
  | .send receiverEp _ => [.sent ⟨call.packet, receiverEp⟩]
  | _ => []

/-- One entry of `retain`. -/
def visit (s : Shared C A R) (key : UInt32) : Shared C A R :=
  match s.mappings.get key with
  | some client =>
    if core.isTimedOut (s.heap.cell client) s.clock then
      { s with
        mappings := s.mappings.remove key
        qualityAnalyzers := s.qualityAnalyzers.remove key }
    else s
  | none => s

/-- One step of a thread. An input that does not fit leaves everything as it is. -/
def exec (s : Shared C A R) : Thread → Input → Shared C A R × Thread
  | .idle, .receive senderId receiverId packet remoteAddr =>
    (s, .handler ⟨senderId, receiverId, packet, remoteAddr, s.clock⟩ .lookup)
  | .idle, .clean => (s, .cleanup .retain)
  | .handler call pc, .go sendOk =>
    let (s, next) := handle core rater s call sendOk pc
    (s, match next with
      | some pc => .handler call pc
      | none => .idle)
  | .cleanup .retain, .visit key => (visit core s key, .cleanup .retain)
  | .cleanup .retain, .go _ => (s, .cleanup .activeLen)
  | .cleanup .activeLen, .go _ => (s, .cleanup (.activeStore s.mappings.len))
  | .cleanup (.activeStore len), .go _ =>
    ({ s with metrics := { s.metrics with v3ActiveClients := len } }, .cleanup .resetPings)
  | .cleanup .resetPings, .go _ =>
    ({ s with pingLimiter := RateLimiter.reset rater s.pingLimiter }, .idle)
  | thread, _ => (s, thread)

def emit : Thread → Input → List Shown
  | .handler call pc, .go _ => shown call pc
  | _, _ => []

/-- The threads of the tunnel. -/
def threads : System (Shared C A R) Thread Input Shown where
  exec := exec core rater
  emit _ := emit
  tick s d := { s with clock := s.clock + d }

/-- A started tunnel: no client, all threads idle. -/
structure Started {ι : Type} (p : Pool ι (Shared C A R) Thread) : Prop where
  mappings : p.shared.mappings = ∅
  idle : ∀ i, p.thread i = .idle

/-- A `handle_data_forward` or a cleanup is in progress. -/
def Thread.inProgress : Thread → Bool
  | .idle => false
  | _ => true

/-! ## A concrete tunnel -/

/-- A started tunnel over the concrete crates, with every attempt granted. -/
def referencePool (ι : Type) (maxClients clock : Nat) :
    Pool ι (Shared RelayCore.ReferenceClient (List Bool) Unit) Thread where
  shared := { TunnelV3.new Rater.granting id ⟨50001, 50000, maxClients, "", 8, 4⟩ with
    heap := ⟨fun _ => (RelayCore.reference timeoutSeconds).new 0, 0⟩
    clock := clock }
  thread _ := .idle

theorem referencePool_started (ι : Type) (maxClients clock : Nat) :
    Started (referencePool ι maxClients clock) := ⟨rfl, fun _ => rfl⟩

end CncnetServer.TunnelV3
