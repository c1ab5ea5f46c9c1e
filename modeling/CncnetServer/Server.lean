import CncnetServer.Writes
import Mathlib.Data.Fintype.Defs

/-!
The server as `async_main` puts it together: both tunnels and both P2P services, each with its
receive workers, over one `Metrics`. Calls come one after another, in any order.

* `V3Service`, `V2Service`, `P2pService`: a service with the batches or buffers of its workers;
* `services_writeOnly`: none of them reads the metrics;
* `server_is_its_services`: in company each service does what it does alone, and the metrics are
  what all of them count.
-/

namespace CncnetServer

open Runs

variable {ι C A R : Type} [DecidableEq ι] (core : RelayCore C A) (rater : Rater R)

/-! ## The services -/

/-- The V3 tunnel, and the batch of each receive worker. -/
structure V3Service (ι C A R : Type) where
  heartbeat : TunnelV3.Heartbeat C A R
  batch : ι → LocalMetricsBatch

inductive V3Event (ι : Type)
  | receive (worker : ι) (env : Env) (received : Received)
  | tick (env : Env)

/-- The V2 tunnel with its HTTP server, and the batch of each receive worker. -/
structure V2Service (ι C R : Type) where
  http : TunnelV2.HttpServer C R
  batch : ι → LocalMetricsBatch

inductive V2Event (ι : Type)
  | receive (worker : ι) (env : Env) (received : Received)
  | accept (accepted : Accepted)
  | request (c : Connection) (env : Env) (draws : Nat → Int16) (req : Request)
  | close (c : Connection)
  | heartbeat (env : Env)

/-- A P2P service, and the send buffer of each worker. -/
structure P2pService (ι R : Type) where
  p2p : PeerToPeer R
  buffer : ι → PeerToPeer.SendBuffer

inductive P2pEvent (ι : Type)
  | receive (worker : ι) (env : Env) (received : Received)
  | reset

namespace V3Service

def machine : Machine (V3Service ι C A R) (V3Event ι) Datagram where
  step s
    | .receive i env received =>
      let out := TunnelV3.receive core rater s.heartbeat.tunnel env (s.batch i) received
      { heartbeat := { s.heartbeat with tunnel := out.1 }
        batch := Function.update s.batch i out.2.1 }
    | .tick env => { s with heartbeat := TunnelV3.Heartbeat.tick core rater s.heartbeat env }
  emit s
    | .receive i env received =>
      (TunnelV3.receive core rater s.heartbeat.tunnel env (s.batch i) received).2.2
    | .tick _ => []

def heartbeatPart : Part (V3Service ι C A R) (TunnelV3.Heartbeat C A R) where
  get := heartbeat
  put h s := { s with heartbeat := h }
  get_put _ _ := rfl
  put_put _ _ _ := rfl
  put_get _ := rfl

def metricsPart : Part (V3Service ι C A R) Metrics :=
  heartbeatPart.comp (TunnelV3.Heartbeat.tunnelPart.comp TunnelV3.metricsPart)

theorem machine_writeOnly :
    (machine (ι := ι) core rater).WriteOnly metricsPart Metrics.writesV3 := by
  intro s e
  cases e with
  | receive i env received =>
    have hreceive := ((TunnelV3.receive_blind core rater s.heartbeat.tunnel env (s.batch i)
      received).zoom TunnelV3.Heartbeat.tunnelPart).zoom (heartbeatPart (ι := ι))
    exact hreceive.bind (k := fun out s => ({ s with batch := Function.update s.batch i out.1 },
      out.2)) (.of_eq fun _ => rfl)
  | tick env => exact (TunnelV3.Heartbeat.tick_blind core rater s.heartbeat env []).zoom heartbeatPart

end V3Service

namespace V2Service

/-- A step of the HTTP server. -/
def onHttp (s : V2Service ι C R) (e : TunnelV2.HttpEvent) : V2Service ι C R × List (Datagram ⊕ Served) :=
  ({ s with http := (TunnelV2.HttpServer.machine core rater).step s.http e },
    ((TunnelV2.HttpServer.machine core rater).emit s.http e).map Sum.inr)

def onReceive (s : V2Service ι C R) (i : ι) (env : Env) (received : Received) :
    V2Service ι C R × List (Datagram ⊕ Served) :=
  let out := TunnelV2.receive core rater s.http.tunnel env (s.batch i) received
  ({ http := { s.http with tunnel := out.1 }, batch := Function.update s.batch i out.2.1 },
    out.2.2.map Sum.inl)

def handle (s : V2Service ι C R) : V2Event ι → V2Service ι C R × List (Datagram ⊕ Served)
  | .receive i env received => onReceive core rater s i env received
  | .accept accepted => onHttp core rater s (.accept accepted)
  | .request c env draws req => onHttp core rater s (.request c env draws req)
  | .close c => onHttp core rater s (.close c)
  | .heartbeat env => onHttp core rater s (.call (.heartbeat env))

def machine : Machine (V2Service ι C R) (V2Event ι) (Datagram ⊕ Served) where
  step s e := (handle core rater s e).1
  emit s e := (handle core rater s e).2

def httpPart : Part (V2Service ι C R) (TunnelV2.HttpServer C R) where
  get := http
  put h s := { s with http := h }
  get_put _ _ := rfl
  put_put _ _ _ := rfl
  put_get _ := rfl

def metricsPart : Part (V2Service ι C R) Metrics :=
  httpPart.comp (TunnelV2.HttpServer.tunnelPart.comp TunnelV2.metricsPart)

omit [DecidableEq ι] in
theorem onHttp_blind (s : V2Service ι C R) (e : TunnelV2.HttpEvent) :
    Blind metricsPart Metrics.writesV2 (fun s => onHttp core rater s e) s :=
  ((TunnelV2.HttpServer.machine_writeOnly core rater s.http e).zoom httpPart).map (List.map Sum.inr)

theorem machine_writeOnly :
    (machine (ι := ι) (C := C) core rater).WriteOnly metricsPart Metrics.writesV2 := by
  intro s e
  cases e with
  | receive i env received =>
    have hreceive := ((TunnelV2.receive_blind core rater s.http.tunnel env (s.batch i)
      received).zoom TunnelV2.HttpServer.tunnelPart).zoom (httpPart (ι := ι))
    let kept (out : LocalMetricsBatch × List Datagram) (s : V2Service ι C R) :
        V2Service ι C R × List (Datagram ⊕ Served) :=
      ({ s with batch := Function.update s.batch i out.1 }, out.2.map Sum.inl)
    exact hreceive.bind (k := kept) (.of_eq fun _ => rfl)
  | accept accepted => exact onHttp_blind core rater s _
  | request c env draws req => exact onHttp_blind core rater s _
  | close c => exact onHttp_blind core rater s _
  | heartbeat env => exact onHttp_blind core rater s _

end V2Service

namespace P2pService

def handle (s : P2pService ι R) : P2pEvent ι → P2pService ι R × List Datagram
  | .receive i env received =>
    let out := PeerToPeer.receive core rater s.p2p env (s.buffer i) received
    (⟨out.1, Function.update s.buffer i out.2.1⟩, out.2.2)
  | .reset =>
    ({ s with p2p := { s.p2p with
        rateLimiter := RateLimiter.reset rater s.p2p.rateLimiter } }, [])

def machine : Machine (P2pService ι R) (P2pEvent ι) Datagram where
  step s e := (handle core rater s e).1
  emit s e := (handle core rater s e).2

def p2pPart : Part (P2pService ι R) (PeerToPeer R) where
  get := p2p
  put p s := { s with p2p := p }
  get_put _ _ := rfl
  put_put _ _ _ := rfl
  put_get _ := rfl

def metricsPart : Part (P2pService ι R) Metrics := p2pPart.comp PeerToPeer.metricsPart

theorem machine_writeOnly :
    (machine (ι := ι) core rater).WriteOnly metricsPart Metrics.counts := by
  intro s e
  cases e with
  | receive i env received =>
    have hreceive := (PeerToPeer.receive_blind core rater s.p2p env (s.buffer i) received).zoom
      (p2pPart (ι := ι))
    exact hreceive.bind (k := fun out s => ({ s with buffer := Function.update s.buffer i out.1 },
      out.2)) (.of_eq fun _ => rfl)
  | reset => exact .of_eq fun _ => rfl

end P2pService

/-! ## The server -/

namespace Server

inductive Service
  | tunnelV3 | tunnelV2 | p2p8054 | p2p3478
  deriving DecidableEq

instance : Fintype Service where
  elems := {.tunnelV3, .tunnelV2, .p2p8054, .p2p3478}
  complete k := by cases k <;> decide

abbrev State (ι C A R : Type) : Service → Type
  | .tunnelV3 => V3Service ι C A R
  | .tunnelV2 => V2Service ι C R
  | .p2p8054 | .p2p3478 => P2pService ι R

abbrev Event (ι : Type) : Service → Type
  | .tunnelV3 => V3Event ι
  | .tunnelV2 => V2Event ι
  | .p2p8054 | .p2p3478 => P2pEvent ι

abbrev Shown : Service → Type
  | .tunnelV3 | .p2p8054 | .p2p3478 => Datagram
  | .tunnelV2 => Datagram ⊕ Served

/-- A service alone. -/
def service : ∀ k, Machine (State ι C A R k) (Event ι k) (Shown k)
  | .tunnelV3 => V3Service.machine core rater
  | .tunnelV2 => V2Service.machine core rater
  | .p2p8054 | .p2p3478 => P2pService.machine core rater

def metricsPart : ∀ k, Part (State ι C A R k) Metrics
  | .tunnelV3 => V3Service.metricsPart
  | .tunnelV2 => V2Service.metricsPart
  | .p2p8054 | .p2p3478 => P2pService.metricsPart

/-- What a service writes into the metrics. -/
def writes : Service → Submonoid (Function.End Metrics)
  | .tunnelV3 => Metrics.writesV3
  | .tunnelV2 => Metrics.writesV2
  | .p2p8054 | .p2p3478 => Metrics.counts

/-- The services over one `Metrics`. -/
def server : Machine (∀ k, State ι C A R k) (Sigma (Event ι)) (Sigma Shown) :=
  share (service core rater) metricsPart

/-- The services that `async_main` makes of a configuration, with the random bytes of the P2P
workers. -/
def start (sha1 : List UInt8 → List UInt8) (config : ServerConfig)
    (noise : Service → ι → PeerToPeer.SendBuffer) : ∀ k, State ι C A R k
  | .tunnelV3 => ⟨⟨TunnelV3.new rater sha1 config, 0⟩, fun _ => .new⟩
  | .tunnelV2 => ⟨.start (TunnelV2.new rater config), fun _ => .new⟩
  | .p2p8054 => ⟨PeerToPeer.new rater .new, fun i => PeerToPeer.sendBuffer (noise .p2p8054 i)⟩
  | .p2p3478 => ⟨PeerToPeer.new rater .new, fun i => PeerToPeer.sendBuffer (noise .p2p3478 i)⟩

theorem services_writeOnly (k : Service) :
    (service (ι := ι) core rater k).WriteOnly (metricsPart k) (writes k) := by
  cases k with
  | tunnelV3 => exact V3Service.machine_writeOnly core rater
  | tunnelV2 => exact V2Service.machine_writeOnly core rater
  | p2p8054 => exact P2pService.machine_writeOnly core rater
  | p2p3478 => exact P2pService.machine_writeOnly core rater

theorem writes_le_adds (k : Service) : writes k ≤ Metrics.adds := by
  cases k with
  | tunnelV3 => exact fun g hg => hg.1.1
  | tunnelV2 => exact fun g hg => hg.1.1
  | p2p8054 => exact fun g hg => hg.1.1
  | p2p3478 => exact fun g hg => hg.1.1

omit [DecidableEq ι] in
theorem metrics_start (sha1 : List UInt8 → List UInt8) (config : ServerConfig)
    (noise : Service → ι → PeerToPeer.SendBuffer) (k : Service) :
    (metricsPart k).get (start (C := C) (A := A) rater sha1 config noise k) = .new := by
  cases k <;> rfl

/-- **The server is its services.** In any run of the server, whatever calls of the services come
in whatever order: each service is, but for the metrics, where its own calls alone would have
brought it, and has sent and answered just that; each counter of the metrics is the sum of what
the services alone count, modulo 2^64; and each gauge is the one of its tunnel. -/
theorem server_is_its_services (sha1 : List UInt8 → List UInt8) (config : ServerConfig)
    (noise : Service → ι → PeerToPeer.SendBuffer) (as : List (Sigma (Event ι))) :
    let s₀ := start (C := C) (A := A) rater sha1 config noise
    let s := (server core rater).run s₀ as
    let alone k := (service core rater k).run (s₀ k) (as.filterMap (pick k))
    (∀ k, (metricsPart k).Same (s k) (alone k) ∧
      ((server core rater).trace s₀ as).filterMap (pick k) =
        (service core rater k).trace (s₀ k) (as.filterMap (pick k))) ∧
    ∀ j, let metrics := (metricsPart j).get (s j)
      (∀ c, metrics.count c = ∑ k, ((metricsPart k).get (alone k)).count c) ∧
      metrics.v3ActiveClients = ((metricsPart .tunnelV3).get (alone .tunnelV3)).v3ActiveClients ∧
      metrics.v2ActiveClients = ((metricsPart .tunnelV2).get (alone .tunnelV2)).v2ActiveClients := by
  intro s₀ s alone
  have hM := services_writeOnly (ι := ι) core rater
  have hsame : ∀ k, (metricsPart k).Same (s₀ k) (s₀ k) := fun k => Part.Same.refl _ _
  have hnew : ∀ k, (metricsPart k).get (s₀ k) = .new := metrics_start rater sha1 config noise
  refine ⟨fun k => share_project hM hsame as k, fun j => ⟨fun c => ?_, ?_, ?_⟩⟩
  · have hadds : ∀ k, ∀ g ∈ writes k, ∀ m m' : Metrics,
        (g m).count c - m.count c = (g m').count c - m'.count c := by
      intro k g hg m m'
      obtain ⟨d, hd⟩ := writes_le_adds k hg
      rw [hd, hd, add_sub_cancel_left, add_sub_cancel_left]
    have htally := share_tally (w := fun m => m.count c) hM hadds hsame hnew as j
    simp only [hnew] at htally
    have hzero : Metrics.new.count c = 0 := rfl
    simp only [hzero, sub_zero] at htally
    exact htally
  · refine share_own (w := Metrics.v3ActiveClients) hM .tunnelV3 ?_ ?_ hsame hnew
      (congrArg _ (hnew _).symm) as j
    · intro i hi g hg
      cases i with
      | tunnelV3 => exact absurd rfl hi
      | tunnelV2 => exact hg.1.2
      | p2p8054 => exact hg.1.2
      | p2p3478 => exact hg.1.2
    · exact fun g hg => hg.1.2
  · refine share_own (w := Metrics.v2ActiveClients) hM .tunnelV2 ?_ ?_ hsame hnew
      (congrArg _ (hnew _).symm) as j
    · intro i hi g hg
      cases i with
      | tunnelV3 => exact hg.2
      | tunnelV2 => exact absurd rfl hi
      | p2p8054 => exact hg.2
      | p2p3478 => exact hg.2
    · exact fun g hg => hg.2

end Server

end CncnetServer
