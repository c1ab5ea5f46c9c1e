import CncnetServer.V2.Run
import CncnetServer.Lib.Acceptor

/-!
The accept loops of the two HTTP servers, that of the V2 tunnel and that of `health.rs`.

The loop of the V2 tunnel leaves through the `?` behind `accept`. The loop of the health
server matches `Ok` in a branch of `tokio::select!`; a branch whose pattern does not match
is not polled again in that call, and the call then waits for the shutdown.

* `listeners_take_all`: each loop takes every connection exactly if no accept has failed
  before one;
* `listeners_dead`: the connection after a failed accept.
-/

namespace CncnetServer

open Runs

/-- The stream that `accept` returns, and its peer. -/
structure Connection where
  socket : Nat
  remoteAddr : SocketAddr
  deriving DecidableEq, Repr

/-- What `listener.accept()` returns. -/
inductive Accepted
  | ok (c : Connection)
  | error
  deriving DecidableEq

/-- What a server does with connections. -/
inductive Served
  /-- A task serves the connection. -/
  | spawned (c : Connection)
  | dropped (c : Connection)
  | answered (c : Connection) (response : Response)
  deriving DecidableEq

/-! ## The V2 tunnel -/

namespace TunnelV2

variable {C R A : Type} (core : RelayCore C A) (rater : Rater R)

def maxHttpConnections : Nat := 100

/-- The HTTP server: the tunnel, and the tasks it has spawned. Each of them holds a permit. -/
structure HttpServer (C R : Type) where
  tunnel : TunnelV2 C R
  /-- The permits that are left in `http_semaphore`. -/
  permits : Nat
  tasks : List Connection
  permits_add_tasks : permits + tasks.length = maxHttpConnections
  /-- In the loop of `start_http_server`, which has not returned. -/
  listening : Bool

/-- One step: what `accept` returns, a request on a connection that is served, the end of a
connection, or any other call of the tunnel. -/
inductive HttpEvent
  | accept (accepted : Accepted)
  | request (c : Connection) (env : Env) (draws : Nat → Int16) (req : Request)
  | close (c : Connection)
  | call (e : Event)

namespace HttpServer

/-- The server when `start_http_server` has bound its listener. -/
def start (t : TunnelV2 C R) : HttpServer C R := ⟨t, maxHttpConnections, [], rfl, true⟩

/-- `drop(stream)`, counted twice. -/
def dropConnection (s : HttpServer C R) : HttpServer C R :=
  { s with tunnel := { s.tunnel with
      droppedConnections := s.tunnel.droppedConnections + 1
      metrics := s.tunnel.metrics.fetchAdd .droppedConnections 1 } }

/-- `try_acquire_owned` with a permit left, and the task that gets the permit. -/
def spawn (s : HttpServer C R) (c : Connection) (h : s.permits ≠ 0) : HttpServer C R :=
  { s with
    permits := s.permits - 1
    tasks := c :: s.tasks
    permits_add_tasks := by
      have htotal := s.permits_add_tasks
      rw [List.length_cons]
      omega }

/-- One iteration of the loop. -/
def onAccept (s : HttpServer C R) : Accepted → HttpServer C R
  | .error => { s with listening := false }
  | .ok c => if h : s.permits = 0 then s.dropConnection else s.spawn c h

/-- A task ends and gives its permit back. -/
def finish (s : HttpServer C R) (c : Connection) : HttpServer C R :=
  if h : c ∈ s.tasks then
    { s with
      permits := s.permits + 1
      tasks := s.tasks.erase c
      permits_add_tasks := by
        have htotal := s.permits_add_tasks
        have hpos := List.length_pos_of_mem h
        rw [List.length_erase_of_mem h]
        omega }
  else s

/-- Without `keep_alive` a task ends with the answer to its first request. -/
def machine : Machine (HttpServer C R) HttpEvent Served where
  step s
    | .accept accepted => if s.listening then s.onAccept accepted else s
    | .request c env draws req =>
      if c ∈ s.tasks then
        finish { s with tunnel :=
          (handleHttpRequest core rater s.tunnel env.timestamp draws req c.remoteAddr).2 } c
      else s
    | .close c => s.finish c
    | .call e => { s with tunnel := (TunnelV2.machine core rater).step s.tunnel e }
  emit s
    | .accept (.ok c) =>
      if s.listening then [if s.permits = 0 then .dropped c else .spawned c] else []
    | .request c env draws req =>
      if c ∈ s.tasks then
        [.answered c (handleHttpRequest core rater s.tunnel env.timestamp draws req c.remoteAddr).1]
      else []
    | _ => []

/-- The connection is served, or it is dropped and counted because all permits are in use. -/
def Takes (s : HttpServer C R) (c : Connection) : Prop :=
  let s' := (machine core rater).step s (.accept (.ok c))
  let shown := (machine core rater).emit s (.accept (.ok c))
  (shown = [.spawned c] ∧ s'.tasks = c :: s.tasks ∧ s'.tunnel = s.tunnel) ∨
    (shown = [.dropped c] ∧ s.tasks.length = maxHttpConnections ∧ s'.tasks = s.tasks ∧
      s'.tunnel = { s.tunnel with
        droppedConnections := s.tunnel.droppedConnections + 1
        metrics := s.tunnel.metrics.fetchAdd .droppedConnections 1 })

/-- The accept loop, as a loop that takes connections. -/
def acceptor : Acceptor (HttpServer C R) HttpEvent where
  listening s := s.listening = true
  offers a := ∃ c, a = .accept (.ok c)
  ends a := a = .accept .error
  takes s a := ∀ c, a = .accept (.ok c) → Takes core rater s c

theorem takes_iff (s : HttpServer C R) (c : Connection) :
    Takes core rater s c ↔ s.listening = true := by
  unfold Takes machine
  constructor
  · intro h
    cases hl : s.listening with
    | true => rfl
    | false =>
      rcases h with h | h
      · simp [hl] at h
      · simp [hl] at h
  · intro hl
    have htotal := s.permits_add_tasks
    simp only [hl, if_true]
    simp only [onAccept]
    by_cases hp : s.permits = 0
    · right
      rw [if_pos hp, dif_pos hp]
      exact ⟨rfl, by omega, rfl, rfl⟩
    · left
      rw [if_neg hp, dif_neg hp]
      exact ⟨rfl, rfl, rfl⟩

theorem listening_onAccept (s : HttpServer C R) (accepted : Accepted) :
    (s.onAccept accepted).listening = true ↔ s.listening = true ∧ accepted ≠ .error := by
  cases accepted with
  | error => simp [onAccept]
  | ok c =>
    simp only [onAccept]
    split <;> simp [dropConnection, spawn]

@[simp] theorem tunnel_finish (s : HttpServer C R) (c : Connection) :
    (s.finish c).tunnel = s.tunnel := by
  unfold finish
  split <;> rfl

@[simp] theorem listening_finish (s : HttpServer C R) (c : Connection) :
    (s.finish c).listening = s.listening := by
  unfold finish
  split <;> rfl

theorem acceptor_lawful : (acceptor core rater).Lawful (machine core rater) where
  takes_iff s a := by
    rintro ⟨c, rfl⟩
    constructor
    · intro h
      exact (takes_iff core rater s c).mp (h c rfl)
    · rintro hl _ ⟨⟩
      exact (takes_iff core rater s c).mpr hl
  listening_step s a := by
    cases a with
    | accept accepted =>
      simp only [machine, acceptor]
      cases hl : s.listening with
      | true => simp [listening_onAccept, hl]
      | false => simp [hl]
    | request c env draws req =>
      simp only [machine, acceptor]
      split <;> simp
    | close c => simp [machine, acceptor]
    | call e => simp [machine, acceptor]

/-- A task is at work until it has answered or its connection is closed. -/
theorem mem_tasks_run {s : HttpServer C R} {c : Connection} (hc : c ∈ s.tasks)
    {events : List HttpEvent}
    (hopen : ∀ e ∈ events, e ≠ .close c ∧ ∀ env draws req, e ≠ .request c env draws req) :
    c ∈ ((machine core rater).run s events).tasks := by
  have hfinish : ∀ (u : HttpServer C R) (d : Connection), d ≠ c → c ∈ u.tasks →
      c ∈ (u.finish d).tasks := by
    intro u d hd hu
    unfold finish
    split
    · exact (List.mem_erase_of_ne hd.symm).mpr hu
    · exact hu
  refine (machine core rater).run_induction (P := fun u => c ∈ u.tasks) hc ?_ events
    ((machine core rater).along_of_mem hopen s)
  rintro u e hu ⟨hclose, hrequest⟩
  cases e with
  | accept accepted =>
    simp only [machine]
    split
    · cases accepted with
      | error => exact hu
      | ok d =>
        simp only [onAccept]
        split
        · exact hu
        · exact List.mem_cons_of_mem d hu
    · exact hu
  | request d env draws req =>
    have hd : d ≠ c := fun h => hrequest env draws req (by rw [h])
    simp only [machine]
    split
    · exact hfinish _ d hd hu
    · exact hu
  | close d => exact hfinish u d (fun h => hclose (by rw [h])) hu
  | call e => exact hu

/-- **A connection that is served** has its request answered on the tunnel as it is then,
whatever has become of the loop. -/
theorem answers {s : HttpServer C R} {c : Connection} (hc : c ∈ s.tasks) {events : List HttpEvent}
    (hopen : ∀ e ∈ events, e ≠ .close c ∧ ∀ env draws req, e ≠ .request c env draws req)
    (env : Env) (draws : Nat → Int16) (req : Request) :
    let t := ((machine core rater).run s events).tunnel
    (machine core rater).emit ((machine core rater).run s events) (.request c env draws req) =
      [.answered c (handleHttpRequest core rater t env.timestamp draws req c.remoteAddr).1] :=
  if_pos (mem_tasks_run core rater hc hopen)

end HttpServer

end TunnelV2

/-! ## `tokio::select!` -/

/-- A call of `select!` under way, by the branches that it polls. A branch whose pattern
matches everything is always polled. -/
structure Select {β : Type} (refutable : β → Bool) where
  enabled : β → Bool
  enabled_of_irrefutable : ∀ b, refutable b = false → enabled b = true

namespace Select

variable {β : Type} {refutable : β → Bool}

/-- A new call polls every branch. -/
def start : Select refutable := ⟨fun _ => true, fun _ _ => rfl⟩

/-- The future of a branch completes. If its pattern matches, the handler runs and the call
is over (`none`); if not, the branch is disabled for the rest of the call. -/
def complete [DecidableEq β] (call : Select refutable) (b : β) (isMatch : Bool)
    (h : refutable b = false → isMatch = true) : Option (Select refutable) :=
  if call.enabled b then
    if hm : isMatch = true then none
    else some {
      enabled := Function.update call.enabled b false
      enabled_of_irrefutable := by
        intro b' hb'
        have hne : b' ≠ b := by
          rintro rfl
          exact hm (h hb')
        rw [Function.update_of_ne hne]
        exact call.enabled_of_irrefutable b' hb' }
  else some call

end Select

/-! ## The health server -/

namespace Health

/-- The two branches of the loop in `start_health_server`. -/
inductive Branch
  | accept | shutdown
  deriving DecidableEq

/-- `Ok((stream, _))` and `_`. -/
def Branch.refutable : Branch → Bool
  | .accept => true
  | .shutdown => false

/-- `handle_request`; `exported` is the text of `export_prometheus`. -/
def handleRequest (path exported : List Char) : Response :=
  if path = "/health".toList then ⟨.ok, [], "OK".toList⟩
  else if path = "/ready".toList then ⟨.ok, [], "READY".toList⟩
  else if path = "/metrics".toList then ⟨.ok, [], exported⟩
  else ⟨.notFound, [], "Not Found".toList⟩

structure HealthServer where
  /-- The `select!` that the loop is in, or nothing behind the loop. -/
  call : Option (Select Branch.refutable)
  tasks : List Connection

inductive Event
  | accept (accepted : Accepted)
  | shutdown
  | request (c : Connection) (path exported : List Char)
  | close (c : Connection)

namespace HealthServer

/-- The server when `start_health_server` has bound its listener. -/
def start : HealthServer := ⟨some .start, []⟩

/-- What the loop does with the result of `accept`. -/
def onAccept (s : HealthServer) (call : Select Branch.refutable) (accepted : Accepted) :
    HealthServer :=
  match call.complete .accept (accepted ≠ .error) (fun h => nomatch h), accepted with
  | none, .ok c => ⟨some .start, c :: s.tasks⟩
  | none, .error => s
  | some call, _ => { s with call := some call }

/-- With `keep_alive` a task answers until its connection is closed. -/
def machine : Machine HealthServer Event Served where
  step s
    | .accept accepted =>
      match s.call with
      | some call => s.onAccept call accepted
      | none => s
    | .shutdown =>
      match s.call with
      | some call => { s with call := call.complete .shutdown true fun _ => rfl }
      | none => s
    | .request _ _ _ => s
    | .close c => { s with tasks := s.tasks.erase c }
  emit s
    | .accept (.ok c) => if s.call.any (·.enabled .accept) then [.spawned c] else []
    | .request c path exported =>
      if c ∈ s.tasks then [.answered c (handleRequest path exported)] else []
    | _ => []

/-- The connection is served. -/
def Takes (s : HealthServer) (c : Connection) : Prop :=
  machine.emit s (.accept (.ok c)) = [.spawned c] ∧
    (machine.step s (.accept (.ok c))).tasks = c :: s.tasks

/-- The accept loop, as a loop that takes connections. -/
def acceptor : Acceptor HealthServer Event where
  listening s := s.call.any (·.enabled .accept) = true
  offers a := ∃ c, a = .accept (.ok c)
  ends a := a = .accept .error ∨ a = .shutdown
  takes s a := ∀ c, a = .accept (.ok c) → Takes s c

theorem takes_iff (s : HealthServer) (c : Connection) :
    Takes s c ↔ s.call.any (·.enabled .accept) = true := by
  unfold Takes machine
  cases hcall : s.call with
  | none => simp [hcall]
  | some call =>
    cases hen : call.enabled .accept with
    | false => simp [hcall, hen]
    | true => simp [hcall, hen, onAccept, Select.complete]

theorem acceptor_lawful : acceptor.Lawful machine where
  takes_iff s a := by
    rintro ⟨c, rfl⟩
    constructor
    · intro h
      exact (takes_iff s c).mp (h c rfl)
    · rintro hl _ ⟨⟩
      exact (takes_iff s c).mpr hl
  listening_step s a := by
    simp only [acceptor]
    cases a with
    | request c path exported => simp [machine]
    | close c => simp [machine]
    | shutdown =>
      simp only [machine]
      cases hcall : s.call with
      | none => simp [hcall]
      | some call =>
        have hen : call.enabled .shutdown = true := call.enabled_of_irrefutable .shutdown rfl
        simp [Select.complete, hen]
    | accept accepted =>
      simp only [machine]
      cases hcall : s.call with
      | none => simp [hcall]
      | some call =>
        cases hen : call.enabled .accept with
        | false => cases accepted <;> simp [onAccept, Select.complete, hen]
        | true => cases accepted <;> simp [onAccept, Select.complete, hen, Select.start]

/-- **A connection that is served** has all its requests answered until it is closed. -/
theorem answers {s : HealthServer} {c : Connection} (hc : c ∈ s.tasks) {events : List Event}
    (hopen : ∀ e ∈ events, e ≠ .close c) (path exported : List Char) :
    machine.emit (machine.run s events) (.request c path exported) =
      [.answered c (handleRequest path exported)] := by
  have hmem : c ∈ (machine.run s events).tasks := by
    refine machine.run_induction (P := fun u => c ∈ u.tasks) hc ?_ events
      (machine.along_of_mem hopen s)
    intro u e hu hclose
    cases e with
    | request d path exported => exact hu
    | close d => exact (List.mem_erase_of_ne fun h => hclose (by rw [h])).mpr hu
    | shutdown =>
      simp only [machine]
      split <;> exact hu
    | accept accepted =>
      simp only [machine]
      split
      · unfold onAccept
        split
        · exact List.mem_cons_of_mem _ hu
        · exact hu
        · exact hu
      · exact hu
  exact if_pos hmem

end HealthServer

end Health

/-! ## Both servers -/

variable {C R A : Type} (core : RelayCore C A) (rater : Rater R)

/-- **The accept loops.** In a run of either server, until the shutdown, every connection is
taken (the health server serves it; the V2 server serves it, or drops and counts it because
all permits are in use) exactly if no connection comes after an accept that has failed. -/
theorem listeners_take_all :
    (∀ (t : TunnelV2 C R) (events : List TunnelV2.HttpEvent),
      (TunnelV2.HttpServer.machine core rater).Along
          (fun s e => ∀ c, e = .accept (.ok c) → TunnelV2.HttpServer.Takes core rater s c)
          (.start t) events ↔
        events.Pairwise fun e e' => e = .accept .error → ∀ c, e' ≠ .accept (.ok c)) ∧
    (∀ events : List Health.Event, .shutdown ∉ events →
      (Health.HealthServer.machine.Along
          (fun s e => ∀ c, e = .accept (.ok c) → Health.HealthServer.Takes s c)
          .start events ↔
        events.Pairwise fun e e' => e = .accept .error → ∀ c, e' ≠ .accept (.ok c))) := by
  constructor
  · intro t events
    have htakes := (TunnelV2.HttpServer.acceptor_lawful core rater).takes_all_iff
      (s := .start t) rfl events
    have hoffers : (TunnelV2.HttpServer.acceptor core rater).OffersBeforeEnd events ↔
        events.Pairwise fun e e' => e = .accept .error → ∀ c, e' ≠ .accept (.ok c) := by
      unfold Acceptor.OffersBeforeEnd TunnelV2.HttpServer.acceptor
      simp only [not_exists, ne_eq]
    rw [← hoffers, ← htakes]
    refine Machine.along_congr _ (fun s e => ?_) _ events
    exact ⟨fun h _ => h, fun h c hc => h ⟨c, hc⟩ c hc⟩
  · intro events hshutdown
    have htakes := Health.HealthServer.acceptor_lawful.takes_all_iff (s := .start) rfl events
    have hoffers : Health.HealthServer.acceptor.OffersBeforeEnd events ↔
        events.Pairwise fun e e' => e = .accept .error → ∀ c, e' ≠ .accept (.ok c) := by
      refine List.Pairwise.iff_of_mem fun {e e'} he _ => ?_
      have hne : e ≠ .shutdown := fun h => hshutdown (h ▸ he)
      simp [Health.HealthServer.acceptor, hne]
    rw [← hoffers, ← htakes]
    refine Machine.along_congr _ (fun s e => ?_) _ events
    exact ⟨fun h _ => h, fun h c hc => h ⟨c, hc⟩ c hc⟩

/-- Two connections before a failed accept. -/
theorem listeners_take_all_two :
    let alice : Connection := ⟨8, .v4 8 8 8 8 1234⟩
    let bob : Connection := ⟨9, .v4 9 9 9 9 1234⟩
    let events : List Health.Event := [.accept (.ok alice), .accept (.ok bob), .accept .error]
    Health.HealthServer.machine.Along
      (fun s e => ∀ c, e = .accept (.ok c) → Health.HealthServer.Takes s c) .start events := by
  intro alice bob events
  refine ((listeners_take_all (RelayCore.reference 30) Rater.reference).2 events
    (by simp [events])).mpr ?_
  simp [events]

/-- A connection after a failed accept is taken by neither server. -/
theorem listeners_dead :
    let core := RelayCore.reference TunnelV2.timeoutSeconds
    let t := TunnelV2.new Rater.reference ⟨50001, 50000, 200, "", 8, 4⟩
    let alice : Connection := ⟨8, .v4 8 8 8 8 1234⟩
    (¬ (TunnelV2.HttpServer.machine core Rater.reference).Along
      (fun s e => ∀ c, e = .accept (.ok c) → TunnelV2.HttpServer.Takes core Rater.reference s c)
      (.start t) [.accept .error, .accept (.ok alice)]) ∧
    ¬ Health.HealthServer.machine.Along
      (fun s e => ∀ c, e = .accept (.ok c) → Health.HealthServer.Takes s c)
      .start [.accept .error, .accept (.ok alice)] := by
  intro core t alice
  constructor
  · rintro ⟨_, htakes, _⟩
    have hlistening := (TunnelV2.HttpServer.takes_iff core Rater.reference _ alice).mp
      (htakes alice rfl)
    cases hlistening
  · rintro ⟨_, htakes, _⟩
    have hlistening := (Health.HealthServer.takes_iff _ alice).mp (htakes alice rfl)
    cases hlistening

end CncnetServer
