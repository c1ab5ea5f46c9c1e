import CncnetServer.Metrics
import CncnetServer.RateLimiter
import CncnetServer.RelayCore
import CncnetServer.WholeDatagrams
import CncnetServer.Lib.Buffer
import Mathlib.Tactic.IntervalCases

/-!
`peer_to_peer.rs`: the handler that answers a client with its own address, each call as
one function on the service and on the send buffer of the worker that makes it.

The buffer is filled with random bytes once, and every answer overwrites its first six
bytes: `answer_eq` says that what it held before makes no difference, and `answer_replies`
what the answer is.
-/

namespace CncnetServer

/-- `u16::to_be_bytes`. -/
def u16ToBeBytes (n : UInt16) : UInt8 × UInt8 := ((n >>> 8).toUInt8, n.toUInt8)

/-- `u16::from_be_bytes`. -/
def u16FromBeBytes (b0 b1 : UInt8) : UInt16 := b0.toUInt16 <<< 8 ||| b1.toUInt16

theorem u16FromBeBytes_toBeBytes (n : UInt16) :
    u16FromBeBytes (u16ToBeBytes n).1 (u16ToBeBytes n).2 = n := by
  have hlt := n.toNat_lt
  have hlow : n.toNat % 256 < 2 ^ 8 := Nat.mod_lt _ (by decide)
  have hhigh : n.toNat / 256 % 256 = n.toNat / 256 := by omega
  unfold u16FromBeBytes u16ToBeBytes
  rw [← UInt16.toNat_inj]
  simp only [UInt16.toNat_or, UInt16.toNat_shiftLeft, UInt8.toNat_toUInt16, UInt16.toNat_toUInt8,
    UInt16.toNat_shiftRight, UInt16.reduceToNat, Nat.reduceMod, Nat.reducePow,
    Nat.shiftRight_eq_div_pow]
  -- the high byte shifted and the low byte have no bit in common
  rw [hhigh, Nat.shiftLeft_eq, Nat.mod_eq_of_lt (by omega), ← Nat.shiftLeft_eq,
    ← Nat.shiftLeft_add_eq_or_of_lt hlow, Nat.shiftLeft_eq]
  omega

structure PeerToPeer (R : Type) where
  rateLimiter : R
  metrics : Metrics

namespace PeerToPeer

open Buffers

def maxRequestsPerIp : UInt32 := 20
def stunId : Int16 := 26262

/-- The size of the receive buffer. -/
def bufSize : Nat := 64

abbrev SendBuffer := Vector UInt8 40

variable {C A R : Type} (core : RelayCore C A) (rater : Rater R)

def new (metrics : Metrics) : PeerToPeer R where
  rateLimiter := RateLimiter.new rater 60 maxRequestsPerIp
  metrics := metrics

/-- The send buffer at the start of `receive_loop`, over its random bytes. -/
def sendBuffer (noise : SendBuffer) : SendBuffer :=
  (noise.set 6 ((stunId >>> 8) &&& 0xFF).toInt8.toUInt8 (by decide)).set 7
    (stunId &&& 0xFF).toInt8.toUInt8 (by decide)

def writeOctets (buffer : SendBuffer) : IpAddr → SendBuffer
  | .v4 a b c d =>
    (((buffer.set 0 a (by decide)).set 1 b (by decide)).set 2 c (by decide)).set 3 d (by decide)
  | .v6 _ =>
    (((buffer.set 0 0 (by decide)).set 1 0 (by decide)).set 2 0 (by decide)).set 3 0 (by decide)

def writePort (buffer : SendBuffer) (port : UInt16) : SendBuffer :=
  (buffer.set 4 (u16ToBeBytes port).1 (by decide)).set 5 (u16ToBeBytes port).2 (by decide)

/-- What `on_receive` makes of the send buffer before `send_to`. -/
def answer (buffer : SendBuffer) (remoteAddr : SocketAddr) : SendBuffer :=
  mapPrefix (· ^^^ 0x20) 6 (by decide) (writePort (writeOctets buffer remoteAddr.ip) remoteAddr.port)

def receivedId (packet : Packet) : Int16 := i16FromBeBytes (packet.getD 0 0) (packet.getD 1 0)

def onReceive (p : PeerToPeer R) (env : Env) (packet : Packet) (remoteAddr : SocketAddr)
    (buffer : SendBuffer) : PeerToPeer R × SendBuffer × List Datagram :=
  if !core.validateAddress remoteAddr then (p, buffer, [])
  else
    let (granted, limiter) :=
      RateLimiter.checkAndIncrement rater p.rateLimiter remoteAddr.ip env.timestamp
    let p := { p with rateLimiter := limiter }
    if !granted then ({ p with metrics := p.metrics.fetchAdd .rateLimitHits 1 }, buffer, [])
    else
      let p := { p with metrics := p.metrics.fetchAdd .p2pRequests 1 }
      if receivedId packet ≠ stunId then (p, buffer, [])
      else
        let buffer := answer buffer remoteAddr
        (if env.sendOk then { p with metrics := p.metrics.fetchAdd .p2pResponses 1 } else p,
          buffer, [⟨buffer.toList, remoteAddr⟩])

/-- One iteration of `receive_loop`. -/
def receive (p : PeerToPeer R) (env : Env) (buffer : SendBuffer) :
    Received → PeerToPeer R × SendBuffer × List Datagram
  | .datagram packet addr =>
    if packet.length = 48 then onReceive core rater p env packet addr buffer else (p, buffer, [])
  | .error => (p, buffer, [])

/-! ## The answer -/

/-- The address of a client as the first six bytes of an answer spell it. -/
def addressBytes (addr : SocketAddr) : List UInt8 :=
  (match addr.ip with
    | .v4 a b c d => [a, b, c, d]
    | .v6 _ => [0, 0, 0, 0]) ++ [(u16ToBeBytes addr.port).1, (u16ToBeBytes addr.port).2]

theorem length_addressBytes (addr : SocketAddr) : (addressBytes addr).length = 6 := by
  unfold addressBytes
  cases addr.ip with
  | v4 a b c d => rfl
  | v6 s => rfl

theorem writeOctets_sameFrom (buffer : SendBuffer) (ip : IpAddr) :
    SameFrom 6 (writeOctets buffer ip) buffer := by
  have hset : ∀ (b : SendBuffer) (i : Nat) (hi : i < 40) (_ : i < 6) (x : UInt8),
      SameFrom 6 b buffer → SameFrom 6 (b.set i x) buffer :=
    fun b i hi hlt x h => (SameFrom.set hi hlt b x).trans h
  have hstart := SameFrom.refl 6 buffer
  unfold writeOctets
  cases ip with
  | v4 a b c d =>
    exact hset _ 3 _ (by decide) d (hset _ 2 _ (by decide) c
      (hset _ 1 _ (by decide) b (hset _ 0 _ (by decide) a hstart)))
  | v6 s =>
    exact hset _ 3 _ (by decide) 0 (hset _ 2 _ (by decide) 0
      (hset _ 1 _ (by decide) 0 (hset _ 0 _ (by decide) 0 hstart)))

/-- An answer leaves everything from the byte 6 on as it is. -/
theorem answer_sameFrom (buffer : SendBuffer) (addr : SocketAddr) :
    SameFrom 6 (answer buffer addr) buffer := by
  have hle : 6 ≤ 40 := by decide
  have hmask := SameFrom.mapPrefix (· ^^^ 0x20) hle
    (writePort (writeOctets buffer addr.ip) addr.port)
  have hport : SameFrom 6 (writePort (writeOctets buffer addr.ip) addr.port)
      (writeOctets buffer addr.ip) :=
    (SameFrom.set (by decide) (by decide) _ _).trans (SameFrom.set (by decide) (by decide) _ _)
  exact hmask.trans (hport.trans (writeOctets_sameFrom buffer addr.ip))

/-- The bytes below 6 are written, whatever they were. -/
theorem getElem_written (buffer : SendBuffer) (addr : SocketAddr) {j : Nat} (hj : j < 6) :
    (writePort (writeOctets buffer addr.ip) addr.port)[j] = (addressBytes addr).getD j 0 := by
  unfold writePort writeOctets addressBytes
  cases addr.ip with
  | v4 a b c d =>
    simp only [Vector.getElem_set]
    interval_cases j <;> rfl
  | v6 s =>
    simp only [Vector.getElem_set]
    interval_cases j <;> rfl

theorem getElem_answer (buffer : SendBuffer) (addr : SocketAddr) {j : Nat} (hj : j < 6) :
    (answer buffer addr)[j] = (addressBytes addr).getD j 0 ^^^ 0x20 := by
  unfold answer
  rw [getElem_mapPrefix, if_pos hj, getElem_written buffer addr hj]

/-- **No trace of earlier answers.** An answer depends on the buffer from the byte 6 on only. -/
theorem answer_eq {buffer buffer' : SendBuffer} (h : SameFrom 6 buffer buffer')
    (addr : SocketAddr) : answer buffer addr = answer buffer' addr := by
  have hrest : SameFrom 6 (answer buffer addr) (answer buffer' addr) :=
    (answer_sameFrom buffer addr).trans (h.trans (answer_sameFrom buffer' addr).symm)
  refine hrest.eq_of_lt fun j _ hlt => ?_
  rw [getElem_answer buffer addr hlt, getElem_answer buffer' addr hlt]

/-- The answer to `addr` of a worker that has answered nobody yet. -/
def reply (noise : SendBuffer) (addr : SocketAddr) : Datagram :=
  ⟨(answer (sendBuffer noise) addr).toList, addr⟩

/-- A datagram that tells the client at `addr` its own address, over the random bytes. -/
structure RepliesTo (noise : SendBuffer) (addr : SocketAddr) (d : Datagram) : Prop where
  dest : d.dest = addr
  length : d.payload.length = 40
  /-- The first six bytes are the octets and the port, big endian, under the mask. -/
  address : ∀ a b c e port, addr = .v4 a b c e port →
    ∃ hi lo, (d.payload.take 6).map (· ^^^ 0x20) = [a, b, c, e, hi, lo] ∧
      u16FromBeBytes hi lo = port
  stunId : i16FromBeBytes (d.payload.getD 6 0) (d.payload.getD 7 0) = stunId
  noise : d.payload.drop 8 = noise.toList.drop 8

theorem take_answer (buffer : SendBuffer) (addr : SocketAddr) :
    ((answer buffer addr).toList.take 6).map (· ^^^ 0x20) = addressBytes addr := by
  apply List.ext_getElem
  · rw [List.length_map, List.length_take, Vector.length_toList, length_addressBytes]
    rfl
  · intro j _ hj
    rw [length_addressBytes] at hj
    rw [List.getElem_map, List.getElem_take, Vector.getElem_toList, getElem_answer buffer addr hj,
      UInt8.xor_assoc, UInt8.xor_self, UInt8.xor_zero, List.getElem_eq_getD 0]

theorem drop_answer (noise : SendBuffer) (addr : SocketAddr) :
    (reply noise addr).payload.drop 8 = noise.toList.drop 8 := by
  have hsame : SameFrom 8 (answer (sendBuffer noise) addr) noise := by
    have hanswer : SameFrom 8 (answer (sendBuffer noise) addr) (sendBuffer noise) :=
      fun j hj hle => answer_sameFrom (sendBuffer noise) addr j hj (by omega)
    exact hanswer.trans ((SameFrom.set (by decide) (by decide) _ _).trans
      (SameFrom.set (by decide) (by decide) _ _))
  unfold reply
  apply List.ext_getElem
  · rw [List.length_drop, List.length_drop, Vector.length_toList, Vector.length_toList]
  · intro j hj _
    rw [List.length_drop, Vector.length_toList] at hj
    rw [List.getElem_drop, List.getElem_drop, Vector.getElem_toList, Vector.getElem_toList]
    exact hsame _ (by omega) (by omega)

theorem getD_payload (noise : SendBuffer) (addr : SocketAddr) {j : Nat} (hj : j < 40) :
    (reply noise addr).payload.getD j 0 = (answer (sendBuffer noise) addr)[j] := by
  have hlength : j < (answer (sendBuffer noise) addr).toList.length := by
    rw [Vector.length_toList]
    exact hj
  unfold reply
  rw [← List.getElem_eq_getD 0 (h := hlength), Vector.getElem_toList]

theorem reply_repliesTo (noise : SendBuffer) (addr : SocketAddr) :
    RepliesTo noise addr (reply noise addr) where
  dest := rfl
  length := Vector.length_toList
  address := by
    rintro a b c e port rfl
    exact ⟨_, _, take_answer _ _, u16FromBeBytes_toBeBytes port⟩
  stunId := by
    have hsix : (answer (sendBuffer noise) addr)[6] = 0x66 :=
      (answer_sameFrom _ addr 6 (by decide) (by decide)).trans
        ((Vector.getElem_set_ne _ _ (by decide)).trans (Vector.getElem_set_self _))
    have hseven : (answer (sendBuffer noise) addr)[7] = 0x96 :=
      (answer_sameFrom _ addr 7 (by decide) (by decide)).trans (Vector.getElem_set_self _)
    rw [getD_payload noise addr (by decide), getD_payload noise addr (by decide), hsix, hseven]
    decide
  noise := drop_answer noise addr

end PeerToPeer

end CncnetServer
