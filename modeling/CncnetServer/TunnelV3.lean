import CncnetServer.Config
import CncnetServer.Metrics
import CncnetServer.RateLimiter
import CncnetServer.Bindings

/-!
`tunnel_v3.rs`: the V3 packet handler, its commands and its cleanup, each call
as one function on the tunnel.

A call returns the datagrams it hands to `send_to`, sent or failed.
-/

namespace CncnetServer

structure TunnelV3 (C A R : Type) where
  maxClients : Nat
  mappings : DashMap UInt32 C
  qualityAnalyzers : DashMap UInt32 A
  connectionLimiter : R
  pingLimiter : R
  maintenanceMode : Bool
  lastCommandTick : Nat
  maintenancePasswordSha1 : Option (List UInt8)
  metrics : Metrics

namespace TunnelV3

def commandRateLimitSecs : Nat := 60
def maxPingsPerIp : UInt32 := 20
def timeoutSeconds : Nat := 30
def maxPacketSize : Nat := 1472

variable {C A R : Type} (core : RelayCore C A) (rater : Rater R)

/-- `str::as_bytes`. -/
def asBytes (s : String) : List UInt8 := s.toUTF8.data.toList

def new (sha1 : List UInt8 → List UInt8) (config : ServerConfig) : TunnelV3 C A R where
  maxClients := config.maxClients
  mappings := ∅
  qualityAnalyzers := ∅
  connectionLimiter := ConnectionRateLimiter.new rater (UInt32.ofNat config.ipLimit)
  pingLimiter := RateLimiter.new rater 60 maxPingsPerIp
  maintenanceMode := false
  lastCommandTick := 0
  maintenancePasswordSha1 :=
    if config.maintenancePassword.isEmpty then none
    else some (sha1 (asBytes config.maintenancePassword))
  metrics := Metrics.new

/-- `sender_id` and `receiver_id`, little endian. -/
def parsePacketHeader : Packet → Option (UInt32 × UInt32)
  | b0 :: b1 :: b2 :: b3 :: b4 :: b5 :: b6 :: b7 :: _ =>
    some (u32FromLeBytes b0 b1 b2 b3, u32FromLeBytes b4 b5 b6 b7)
  | _ => none

def validatePacket (senderId receiverId : UInt32) (addr : SocketAddr) : Bool :=
  core.validatePacket senderId receiverId addr

/-! ## Data packets -/

/-- The first half of `handle_data_forward`: `sender_valid`. -/
def senderValid (t : TunnelV3 C A R) (env : Env) (senderId : UInt32) (packet : Packet)
    (remoteAddr : SocketAddr) : Bool × TunnelV3 C A R :=
  match t.mappings.get senderId with
  | some client =>
    match core.remoteEp client with
    | some ep =>
      if ep ≠ remoteAddr then
        if core.isTimedOut client env.timestamp then
          let (granted, limiter) :=
            ConnectionRateLimiter.tryAcquire rater t.connectionLimiter remoteAddr.ip env.timestamp
          if granted then
            (true, { t with
              connectionLimiter := limiter
              mappings := t.mappings.insert senderId (core.newWithEndpoint remoteAddr env.timestamp)
              qualityAnalyzers := t.qualityAnalyzers.insert senderId core.newAnalyzer })
          else (false, { t with connectionLimiter := limiter })
        else (false, t)
      else
        (true, { t with
          mappings := t.mappings.modify senderId fun client =>
            core.updateStats (core.setLastReceiveTickAt client env.timestamp)
              packet.length 0 env.timestamp
          qualityAnalyzers := t.qualityAnalyzers.modify senderId (core.recordPacket · false) })
    | none => (false, t)
  | none =>
    if t.mappings.len < t.maxClients then
      let (granted, limiter) :=
        ConnectionRateLimiter.tryAcquire rater t.connectionLimiter remoteAddr.ip env.timestamp
      if granted then
        let mappings := t.mappings.insert senderId (core.newWithEndpoint remoteAddr env.timestamp)
        (true, { t with
          connectionLimiter := limiter
          mappings := mappings
          qualityAnalyzers := t.qualityAnalyzers.insert senderId core.newAnalyzer
          metrics := { t.metrics with v3ActiveClients := mappings.len } })
      else
        (false, { t with
          connectionLimiter := limiter
          metrics := t.metrics.fetchAdd .rateLimitHits 1 })
    else (false, { t with metrics := t.metrics.fetchAdd .droppedPackets 1 })

def forwardInfo (t : TunnelV3 C A R) (receiverId : UInt32) (remoteAddr : SocketAddr) :
    Option SocketAddr :=
  core.forwardInfo t.mappings receiverId remoteAddr

/-- The second half of `handle_data_forward`: the relay itself. -/
def relay (t : TunnelV3 C A R) (env : Env) (receiverId : UInt32) (packet : Packet)
    (remoteAddr : SocketAddr) (batch : LocalMetricsBatch) :
    TunnelV3 C A R × LocalMetricsBatch × List Datagram :=
  match forwardInfo core t receiverId remoteAddr with
  | some receiverEp =>
    if env.sendOk then
      ({ t with
          mappings := t.mappings.modify receiverId fun receiver =>
            core.updateStats receiver 0 packet.length env.timestamp },
        batch.recordV3Tx (UInt64.ofNat packet.length), [⟨packet, receiverEp⟩])
    else
      ({ t with qualityAnalyzers := t.qualityAnalyzers.modify receiverId (core.recordPacket · true) },
        batch, [⟨packet, receiverEp⟩])
  | none => (t, batch, [])

def handleDataForward (t : TunnelV3 C A R) (env : Env) (senderId receiverId : UInt32)
    (packet : Packet) (remoteAddr : SocketAddr) (batch : LocalMetricsBatch) :
    TunnelV3 C A R × LocalMetricsBatch × List Datagram :=
  let (valid, t) := senderValid core rater t env senderId packet remoteAddr
  if !valid then (t, batch, []) else relay core t env receiverId packet remoteAddr batch

def handlePing (t : TunnelV3 C A R) (env : Env) (packet : Packet) (remoteAddr : SocketAddr)
    (batch : LocalMetricsBatch) : TunnelV3 C A R × LocalMetricsBatch × List Datagram :=
  let t := { t with metrics := t.metrics.fetchAdd .v3PingRequests 1 }
  let response := packet.take (min 12 packet.length)
  (t, if env.sendOk then batch.recordV3Tx (UInt64.ofNat response.length) else batch,
    [⟨response, remoteAddr⟩])

/-! ## Cleanup and commands -/

def cleanupExpiredMappings (t : TunnelV3 C A R) (env : Env) : TunnelV3 C A R :=
  let keeps (client : C) : Bool := !core.isTimedOut client env.timestamp
  let mappings := t.mappings.retain fun _ client => keeps client
  { t with
    mappings := mappings
    -- the closure of `retain` removes the analyzer of every id it drops
    qualityAnalyzers := t.qualityAnalyzers.retain fun id _ => (t.mappings.get id).all keeps
    metrics := { t.metrics with v3ActiveClients := mappings.len }
    pingLimiter := RateLimiter.reset rater t.pingLimiter }

def executeCommand (t : TunnelV3 C A R) (env : Env) (packet : Packet) : TunnelV3 C A R :=
  if env.elapsedSecs - t.lastCommandTick < commandRateLimitSecs
      ∨ t.maintenancePasswordSha1.isNone then t
  else
    let t := { t with lastCommandTick := env.elapsedSecs }
    let command := packet.getD 8 0
    let passwordSha1 := (packet.take 29).drop 9
    if t.maintenancePasswordSha1 = some passwordSha1 then
      match command with
      | 0 => { t with maintenanceMode := !t.maintenanceMode }
      | 1 => cleanupExpiredMappings core rater t env
      | _ => t
    else t

/-! ## The receive path -/

def isCommand (senderId receiverId : UInt32) (packet : Packet) : Prop :=
  senderId = 0 ∧ receiverId = 0xFFFFFFFF ∧ 29 ≤ packet.length

instance (senderId receiverId : UInt32) (packet : Packet) :
    Decidable (isCommand senderId receiverId packet) := by
  unfold isCommand
  infer_instance

def onReceive (t : TunnelV3 C A R) (env : Env) (packet : Packet) (remoteAddr : SocketAddr)
    (batch : LocalMetricsBatch) : TunnelV3 C A R × LocalMetricsBatch × List Datagram :=
  match parsePacketHeader packet with
  | none => (t, batch, [])
  | some (senderId, receiverId) =>
    let batch := batch.recordV3Rx (UInt64.ofNat packet.length)
    if isCommand senderId receiverId packet then (executeCommand core rater t env packet, batch, [])
    else if !validatePacket core senderId receiverId remoteAddr then (t, batch, [])
    else if senderId = 0 ∧ receiverId = 0 then
      if packet.length = 50 then
        let (granted, limiter) :=
          RateLimiter.checkAndIncrement rater t.pingLimiter remoteAddr.ip env.timestamp
        let t := { t with pingLimiter := limiter }
        if granted then handlePing t env packet remoteAddr batch else (t, batch, [])
      else (t, batch, [])
    else if t.maintenanceMode then (t, batch, [])
    else handleDataForward core rater t env senderId receiverId packet remoteAddr batch

/-- One iteration of `receive_loop`. -/
def receive (t : TunnelV3 C A R) (env : Env) (batch : LocalMetricsBatch) :
    Received → TunnelV3 C A R × LocalMetricsBatch × List Datagram
  | .datagram packet addr =>
    if 8 ≤ packet.length ∧ packet.length ≤ maxPacketSize then
      let (t, batch, sent) := onReceive core rater t env packet addr batch
      let (batch, metrics) := batch.maybeFlush t.metrics
      ({ t with metrics := metrics }, batch, sent)
    else ({ t with metrics := t.metrics.fetchAdd .invalidPackets 1 }, batch, [])
  | .error =>
    let (batch, metrics) := batch.flush t.metrics
    ({ t with metrics := metrics }, batch, [])

end TunnelV3

end CncnetServer
