import CncnetServer.Net

/-!
The crate `udp_relay_core`, which the server depends on and which is not part
of the repository: `TunnelClient`, `QualityAnalyzer` and `validate_address`.

It enters the model as a parameter. Both tunnels build every client with
`TIMEOUT_SECONDS`, so the constructors take that argument as already applied.
Clock readings are explicit: a function that reads the clock takes the reading
as an argument. What the server relies on is stated as laws of the parameter,
one structure for each thing relied on; `RelayCore.reference` is a concrete
crate that meets them. What holds for any rule of timing out takes the rule as `expired`.
-/

namespace CncnetServer

structure RelayCore (Client Analyzer : Type) where
  /-- Ticks of `TunnelClient::current_timestamp` in one second. -/
  second : Nat
  /-- `TunnelClient::new(TIMEOUT_SECONDS)` at a clock reading. -/
  new : Nat → Client
  /-- `TunnelClient::new_with_endpoint(addr, TIMEOUT_SECONDS)` at a clock reading. -/
  newWithEndpoint : SocketAddr → Nat → Client
  /-- The field `remote_ep`. -/
  remoteEp : Client → Option SocketAddr
  /-- The tick the timeout is counted from. -/
  lastReceive : Client → Nat
  setLastReceiveTickAt : Client → Nat → Client
  /-- `update_stats(received, sent, now)`, lengths in bytes. -/
  updateStats : Client → Nat → Nat → Nat → Client
  /-- `is_timed_out` at a clock reading. -/
  isTimedOut : Client → Nat → Bool
  /-- `QualityAnalyzer::new`. -/
  newAnalyzer : Analyzer
  /-- `record_packet(lost)`. -/
  recordPacket : Analyzer → Bool → Analyzer
  validateAddress : SocketAddr → Bool

namespace RelayCore

variable {C A : Type}

/-- `remote_ep` is what the constructor put there and never changes. -/
structure FixedEndpoint (core : RelayCore C A) : Prop where
  remoteEp_new : ∀ t, core.remoteEp (core.new t) = none
  remoteEp_newWithEndpoint : ∀ a t, core.remoteEp (core.newWithEndpoint a t) = some a
  remoteEp_setLastReceiveTickAt : ∀ c t, core.remoteEp (core.setLastReceiveTickAt c t) = core.remoteEp c
  remoteEp_updateStats : ∀ c r s t, core.remoteEp (core.updateStats c r s t) = core.remoteEp c

/-- The last-receive time is the creation time until `set_last_receive_tick_at`
overwrites it, and whether a client is timed out is a matter of that time and of the
clock: `expired last now`. -/
structure TimesOutBy (core : RelayCore C A) (expired : Nat → Nat → Bool) : Prop where
  lastReceive_new : ∀ t, core.lastReceive (core.new t) = t
  lastReceive_newWithEndpoint : ∀ a t, core.lastReceive (core.newWithEndpoint a t) = t
  lastReceive_setLastReceiveTickAt : ∀ c t, core.lastReceive (core.setLastReceiveTickAt c t) = t
  lastReceive_updateStats : ∀ c r s t, core.lastReceive (core.updateStats c r s t) = core.lastReceive c
  isTimedOut_eq : ∀ c now, core.isTimedOut c now = expired (core.lastReceive c) now

attribute [simp] FixedEndpoint.remoteEp_new FixedEndpoint.remoteEp_newWithEndpoint
  FixedEndpoint.remoteEp_setLastReceiveTickAt FixedEndpoint.remoteEp_updateStats
  TimesOutBy.lastReceive_new TimesOutBy.lastReceive_newWithEndpoint
  TimesOutBy.lastReceive_setLastReceiveTickAt TimesOutBy.lastReceive_updateStats

/-- More than `timeoutSeconds` have passed since `last`. -/
def moreThan (second timeoutSeconds last now : Nat) : Bool :=
  decide (last + timeoutSeconds * second < now)

/-- A clock of whole seconds shows `timeoutSeconds` more than at `last`. -/
def inWholeSeconds (second timeoutSeconds last now : Nat) : Bool :=
  decide (last / second + timeoutSeconds ≤ now / second)

/-- A client is timed out once more than `timeoutSeconds` have passed since it was last
heard from. -/
abbrev TimesOutAfter (core : RelayCore C A) (timeoutSeconds : Nat) : Prop :=
  core.TimesOutBy (moreThan core.second timeoutSeconds)

theorem TimesOutAfter.isTimedOut_iff {core : RelayCore C A} {timeoutSeconds : Nat}
    (h : core.TimesOutAfter timeoutSeconds) (c : C) (now : Nat) :
    core.isTimedOut c now = true ↔ core.lastReceive c + timeoutSeconds * core.second < now := by
  rw [h.isTimedOut_eq, moreThan, decide_eq_true_iff]

/-- The crate compares whole seconds. -/
abbrev TimesOutInSeconds (core : RelayCore C A) (timeoutSeconds : Nat) : Prop :=
  core.TimesOutBy (inWholeSeconds core.second timeoutSeconds)

/-! ## A concrete crate -/

structure ReferenceClient where
  remoteEp : Option SocketAddr
  lastReceive : Nat
  received : Nat
  sent : Nat
  deriving DecidableEq, Repr

/-- A millisecond clock; an analyzer is the list of what it recorded; an address
is valid when it can be answered: a nonzero port, not unspecified, not broadcast. -/
def referenceBy (expired : Nat → Nat → Bool) : RelayCore ReferenceClient (List Bool) where
  second := 1000
  new now := ⟨none, now, 0, 0⟩
  newWithEndpoint a now := ⟨some a, now, 0, 0⟩
  remoteEp c := c.remoteEp
  lastReceive c := c.lastReceive
  setLastReceiveTickAt c now := { c with lastReceive := now }
  updateStats c r s _ := { c with received := c.received + r, sent := c.sent + s }
  isTimedOut c now := expired c.lastReceive now
  newAnalyzer := []
  recordPacket q lost := lost :: q
  validateAddress a :=
    a.port != 0 && a.ip != .v4 0 0 0 0 && a.ip != .v4 255 255 255 255

/-- The crate that compares whole seconds. -/
def reference (timeoutSeconds : Nat) : RelayCore ReferenceClient (List Bool) :=
  referenceBy (inWholeSeconds 1000 timeoutSeconds)

/-- The crate that compares ticks. -/
def referenceInTicks (timeoutSeconds : Nat) : RelayCore ReferenceClient (List Bool) :=
  referenceBy (moreThan 1000 timeoutSeconds)

theorem referenceBy_fixedEndpoint (expired : Nat → Nat → Bool) :
    (referenceBy expired).FixedEndpoint where
  remoteEp_new _ := rfl
  remoteEp_newWithEndpoint _ _ := rfl
  remoteEp_setLastReceiveTickAt _ _ := rfl
  remoteEp_updateStats _ _ _ _ := rfl

theorem referenceBy_timesOutBy (expired : Nat → Nat → Bool) :
    (referenceBy expired).TimesOutBy expired where
  lastReceive_new _ := rfl
  lastReceive_newWithEndpoint _ _ := rfl
  lastReceive_setLastReceiveTickAt _ _ := rfl
  lastReceive_updateStats _ _ _ _ := rfl
  isTimedOut_eq _ _ := rfl

theorem reference_fixedEndpoint (T : Nat) : (reference T).FixedEndpoint :=
  referenceBy_fixedEndpoint _

theorem reference_timesOutInSeconds (T : Nat) : (reference T).TimesOutInSeconds T :=
  referenceBy_timesOutBy _

theorem referenceInTicks_fixedEndpoint (T : Nat) : (referenceInTicks T).FixedEndpoint :=
  referenceBy_fixedEndpoint _

theorem referenceInTicks_timesOutAfter (T : Nat) : (referenceInTicks T).TimesOutAfter T :=
  referenceBy_timesOutBy _

end RelayCore

end CncnetServer
