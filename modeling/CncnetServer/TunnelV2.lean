import CncnetServer.Config
import CncnetServer.Metrics
import CncnetServer.RateLimiter
import CncnetServer.Bindings
import CncnetServer.Lib.Decimal
import Mathlib.Algebra.Group.Int.Defs

/-!
`tunnel_v2.rs`: the V2 packet handler, its HTTP requests and its cleanup, each
call as one function on the tunnel. Texts of requests and answers are lists of
characters.
-/

namespace CncnetServer

structure TunnelV2 (C R : Type) where
  maxClients : Nat
  maintenancePassword : String
  mappings : DashMap Int16 C
  pingLimiter : R
  requestLimiter : R
  maintenanceMode : Bool
  droppedConnections : UInt32
  metrics : Metrics

/-- The status codes the V2 server answers with. -/
inductive StatusCode
  | ok | badRequest | unauthorized | notFound | tooManyRequests | serviceUnavailable
  deriving DecidableEq, Repr

structure Response where
  status : StatusCode
  headers : List (String × String)
  body : List Char
  deriving DecidableEq, Repr

/-- An HTTP request as far as the routing looks at it. -/
structure Request where
  isGet : Bool
  path : List Char
  query : Option (List Char)

namespace TunnelV2

def maxPingsPerIp : UInt32 := 20
def timeoutSeconds : Nat := 30
def maxPacketSize : Nat := 1472
def maxAttempts : Nat := 1000

variable {C R : Type} {A : Type} (core : RelayCore C A) (rater : Rater R)

def new (config : ServerConfig) : TunnelV2 C R where
  maxClients := config.maxClients
  maintenancePassword := config.maintenancePassword
  mappings := ∅
  pingLimiter := RateLimiter.new rater 60 maxPingsPerIp
  requestLimiter := RateLimiter.new rater 60 (UInt32.ofNat config.ipLimitV2)
  maintenanceMode := false
  droppedConnections := 0
  metrics := Metrics.new

/-! ## HTTP -/

/-- `str::parse::<usize>`. -/
def parseUsize (s : List Char) : Option Nat :=
  let digits := match s with
    | '+' :: s => s
    | s => s
  (Decimal.parseNat digits).filter (· < 2 ^ 64)

/-- `str::parse::<i16>`. -/
def parseI16 (s : List Char) : Option Int16 :=
  ((Decimal.parseInt s).filter fun i => decide (-2 ^ 15 ≤ i ∧ i < 2 ^ 15)).map Int16.ofInt

/-- `i16::to_string`. -/
def i16ToString (id : Int16) : List Char := Decimal.intText id.toInt

def clientsPrefix : List Char := "clients=".toList

/-- The value of the first `clients=` parameter, 0 if there is none that parses. -/
def parseClients (query : Option (List Char)) : Nat :=
  (query.bind fun q =>
    ((q.splitOn '&').find? (clientsPrefix.isPrefixOf ·)).bind fun p =>
      parseUsize (p.drop clientsPrefix.length)).getD 0

def handleStatus (t : TunnelV2 C R) : Response :=
  let active := t.mappings.len
  let free := t.maxClients - active
  ⟨.ok, [("Content-Type", "text/plain")],
    (toString free ++ " slots free.\n" ++ toString active ++ " slots in use.\n" ++
      toString t.droppedConnections.toNat ++ " connections dropped.\n").toList⟩

/-- The allocation loop of `handle_request` with `left` attempts to go. -/
def allocateIds (now clients : Nat) :
    (left : Nat) → (draws : Nat → Int16) → DashMap Int16 C → List (List Char) →
      DashMap Int16 C × List (List Char)
  | 0, _, mappings, clientIds => (mappings, clientIds)
  | left + 1, draws, mappings, clientIds =>
    if clientIds.length < clients then
      let clientId := draws 0
      let rest := fun n => draws (n + 1)
      if clientId ≠ 0 ∧ !mappings.containsKey clientId then
        allocateIds now clients left rest (mappings.insert clientId (core.new now))
          (clientIds ++ [i16ToString clientId])
      else allocateIds now clients left rest mappings clientIds
    else (mappings, clientIds)

/-- The roll-back loop of `handle_request`. -/
def rollBack (mappings : DashMap Int16 C) (clientIds : List (List Char)) : DashMap Int16 C :=
  clientIds.foldl (fun m idStr =>
    match parseI16 idStr with
    | some id => m.remove id
    | none => m) mappings

def handleRequest (t : TunnelV2 C R) (now : Nat) (draws : Nat → Int16)
    (query : Option (List Char)) : Response × TunnelV2 C R :=
  if t.maintenanceMode then
    (⟨.serviceUnavailable, [], "Server in maintenance mode".toList⟩, t)
  else
    let clients := parseClients query
    if clients < 2 ∨ clients > 8 then
      (⟨.badRequest, [], "Invalid clients parameter (2-8)".toList⟩, t)
    else if t.mappings.len + clients > t.maxClients then
      (⟨.serviceUnavailable, [], "Not enough slots available".toList⟩, t)
    else
      let (mappings, clientIds) := allocateIds core now clients maxAttempts draws t.mappings []
      if clientIds.length < clients then
        (⟨.serviceUnavailable, [], "Could not allocate requested clients".toList⟩,
          { t with mappings := rollBack mappings clientIds })
      else
        (⟨.ok, [("Content-Type", "application/json")],
            '[' :: List.intercalate [','] clientIds ++ [']']⟩,
          { t with
            mappings := mappings
            metrics := { t.metrics with v2ActiveClients := mappings.len } })

def handleMaintenance (t : TunnelV2 C R) (path : List Char) : Response × TunnelV2 C R :=
  if t.maintenancePassword.isEmpty then
    (⟨.unauthorized, [], "Maintenance password not configured".toList⟩, t)
  else if (path.splitOn '/')[2]? = some t.maintenancePassword.toList then
    (⟨.ok, [], (if !t.maintenanceMode then "Maintenance mode enabled"
        else "Maintenance mode disabled").toList⟩,
      { t with maintenanceMode := !t.maintenanceMode })
  else (⟨.unauthorized, [], "Invalid maintenance password".toList⟩, t)

def handleHttpRequest (t : TunnelV2 C R) (now : Nat) (draws : Nat → Int16) (req : Request)
    (remoteAddr : SocketAddr) : Response × TunnelV2 C R :=
  let t := { t with metrics := t.metrics.fetchAdd .v2HttpRequests 1 }
  let (granted, limiter) :=
    RateLimiter.checkAndIncrement rater t.requestLimiter remoteAddr.ip now
  let t := { t with requestLimiter := limiter }
  if !granted then
    (⟨.tooManyRequests, [("Retry-After", "60")], "Rate limit exceeded".toList⟩,
      { t with metrics := t.metrics.fetchAdd .rateLimitHits 1 })
  else if req.isGet ∧ req.path = "/status".toList then (handleStatus t, t)
  else if req.isGet ∧ req.path = "/request".toList then handleRequest core t now draws req.query
  else if req.isGet ∧ "/maintenance/".toList.isPrefixOf req.path then handleMaintenance t req.path
  else if req.isGet ∧ req.path = "/health".toList then (⟨.ok, [], "OK".toList⟩, t)
  else (⟨.notFound, [], "Not Found".toList⟩, t)

/-! ## Data packets -/

/-- `sender_id` and `receiver_id`, big endian. -/
def parsePacketHeader : Packet → Option (Int16 × Int16)
  | b0 :: b1 :: b2 :: b3 :: _ => some (i16FromBeBytes b0 b1, i16FromBeBytes b2 b3)
  | _ => none

def validatePacket (senderId receiverId : Int16) (addr : SocketAddr) : Bool :=
  core.validatePacket senderId receiverId addr

/-- The first half of `handle_data_forward`: the tunnel with the sender's slot
claimed, reconnected or refreshed, or nothing where the source returns early. -/
def acceptSender (t : TunnelV2 C R) (env : Env) (senderId : Int16) (packet : Packet)
    (remoteAddr : SocketAddr) : Option (TunnelV2 C R) :=
  match t.mappings.get senderId with
  | none => none
  | some sender =>
    match core.remoteEp sender with
    | none =>
      some { t with
        mappings := t.mappings.insert senderId (core.newWithEndpoint remoteAddr env.timestamp) }
    | some ep =>
      if ep ≠ remoteAddr then
        if core.isTimedOut sender env.timestamp then
          some { t with
            mappings := t.mappings.insert senderId (core.newWithEndpoint remoteAddr env.timestamp) }
        else none
      else
        some { t with
          mappings := t.mappings.modify senderId fun sender =>
            core.updateStats (core.setLastReceiveTickAt sender env.timestamp)
              packet.length 0 env.timestamp }

def forwardInfo (t : TunnelV2 C R) (receiverId : Int16) (remoteAddr : SocketAddr) :
    Option SocketAddr :=
  core.forwardInfo t.mappings receiverId remoteAddr

/-- The second half of `handle_data_forward`: the relay itself. -/
def relay (t : TunnelV2 C R) (env : Env) (receiverId : Int16) (packet : Packet)
    (remoteAddr : SocketAddr) (batch : LocalMetricsBatch) :
    TunnelV2 C R × LocalMetricsBatch × List Datagram :=
  match forwardInfo core t receiverId remoteAddr with
  | some receiverEp =>
    if env.sendOk then
      ({ t with
          mappings := t.mappings.modify receiverId fun receiver =>
            core.updateStats receiver 0 packet.length env.timestamp },
        batch.recordV2Tx (UInt64.ofNat packet.length), [⟨packet, receiverEp⟩])
    else (t, batch, [⟨packet, receiverEp⟩])
  | none => (t, batch, [])

def handleDataForward (t : TunnelV2 C R) (env : Env) (senderId receiverId : Int16)
    (packet : Packet) (remoteAddr : SocketAddr) (batch : LocalMetricsBatch) :
    TunnelV2 C R × LocalMetricsBatch × List Datagram :=
  match acceptSender core t env senderId packet remoteAddr with
  | some t => relay core t env receiverId packet remoteAddr batch
  | none => (t, batch, [])

def handlePing (t : TunnelV2 C R) (env : Env) (packet : Packet) (remoteAddr : SocketAddr)
    (batch : LocalMetricsBatch) : TunnelV2 C R × LocalMetricsBatch × List Datagram :=
  let t := { t with metrics := t.metrics.fetchAdd .v2PingRequests 1 }
  let response := packet.take (min 12 packet.length)
  (t, if env.sendOk then batch.recordV2Tx (UInt64.ofNat response.length) else batch,
    [⟨response, remoteAddr⟩])

def onUdpReceive (t : TunnelV2 C R) (env : Env) (packet : Packet) (remoteAddr : SocketAddr)
    (batch : LocalMetricsBatch) : TunnelV2 C R × LocalMetricsBatch × List Datagram :=
  match parsePacketHeader packet with
  | none => (t, batch, [])
  | some (senderId, receiverId) =>
    let batch := batch.recordV2Rx (UInt64.ofNat packet.length)
    if !validatePacket core senderId receiverId remoteAddr then (t, batch, [])
    else if senderId = 0 ∧ receiverId = 0 then
      if packet.length = 50 then
        let (granted, limiter) :=
          RateLimiter.checkAndIncrement rater t.pingLimiter remoteAddr.ip env.timestamp
        let t := { t with pingLimiter := limiter }
        if granted then handlePing t env packet remoteAddr batch else (t, batch, [])
      else (t, batch, [])
    else if t.maintenanceMode then (t, batch, [])
    else handleDataForward core t env senderId receiverId packet remoteAddr batch

/-- One iteration of `receive_loop`. -/
def receive (t : TunnelV2 C R) (env : Env) (batch : LocalMetricsBatch) :
    Received → TunnelV2 C R × LocalMetricsBatch × List Datagram
  | .datagram packet addr =>
    if 4 ≤ packet.length ∧ packet.length ≤ maxPacketSize then
      let (t, batch, sent) := onUdpReceive core rater t env packet addr batch
      let (batch, metrics) := batch.maybeFlush t.metrics
      ({ t with metrics := metrics }, batch, sent)
    else (t, batch, [])
  | .error =>
    let (batch, metrics) := batch.flush t.metrics
    ({ t with metrics := metrics }, batch, [])

/-! ## Cleanup -/

def cleanupExpiredMappings (t : TunnelV2 C R) (env : Env) : TunnelV2 C R :=
  let mappings := t.mappings.retain fun _ client => !core.isTimedOut client env.timestamp
  { t with
    mappings := mappings
    metrics := { t.metrics with v2ActiveClients := mappings.len }
    pingLimiter := RateLimiter.reset rater t.pingLimiter }

/-- One tick of `heartbeat_loop`; the announcement touches no tunnel state. -/
def heartbeat (t : TunnelV2 C R) (env : Env) : TunnelV2 C R :=
  let t := cleanupExpiredMappings core rater t env
  { t with
    requestLimiter := RateLimiter.reset rater t.requestLimiter
    droppedConnections := 0 }

end TunnelV2

end CncnetServer
