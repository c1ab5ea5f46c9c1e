import Mathlib.Data.List.Basic

/-!
Socket addresses, packets, the fixed-width readers of the packet headers, and
what a call of a packet handler sees of the world.
-/

namespace CncnetServer

/-- `std::net::IpAddr`. -/
inductive IpAddr
  | v4 (a b c d : UInt8)
  | v6 (segments : BitVec 128)
  deriving DecidableEq, Repr

/-- `std::net::SocketAddr`; equality compares every field, as in Rust. -/
inductive SocketAddr
  | v4 (a b c d : UInt8) (port : UInt16)
  | v6 (segments : BitVec 128) (port : UInt16) (flowinfo scopeId : UInt32)
  deriving DecidableEq, Repr

def SocketAddr.ip : SocketAddr → IpAddr
  | .v4 a b c d _ => .v4 a b c d
  | .v6 s _ _ _ => .v6 s

def SocketAddr.port : SocketAddr → UInt16
  | .v4 _ _ _ _ p => p
  | .v6 _ p _ _ => p

abbrev Packet := List UInt8

/-- A datagram handed to `send_to`. -/
structure Datagram where
  payload : Packet
  dest : SocketAddr
  deriving DecidableEq, Repr

/-- What one call of a packet handler sees of the world outside the tunnel. -/
structure Env where
  /-- The reading of every `TunnelClient` and limiter clock during the call. -/
  timestamp : Nat
  /-- `boot_instant.elapsed().as_secs()`. -/
  elapsedSecs : Nat
  sendOk : Bool
  deriving DecidableEq, Repr

/-- What one iteration of `receive_loop` gets from `recv_from`. -/
inductive Received
  | datagram (packet : Packet) (addr : SocketAddr)
  | error

/-- `u32::from_le_bytes`. -/
def u32FromLeBytes (b0 b1 b2 b3 : UInt8) : UInt32 :=
  b0.toUInt32 ||| b1.toUInt32 <<< 8 ||| b2.toUInt32 <<< 16 ||| b3.toUInt32 <<< 24

/-- `i16::from_be_bytes`. -/
def i16FromBeBytes (b0 b1 : UInt8) : Int16 :=
  (b0.toUInt16 <<< 8 ||| b1.toUInt16).toInt16

end CncnetServer
