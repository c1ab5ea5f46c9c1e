import CncnetServer.Settings
import CncnetServer.Lib.Url
import CncnetServer.Occupancy
import CncnetServer.V3.Heartbeat

/-!
`send_master_announce` of both tunnels: the URL that the heartbeat asks the master server for.

* `read_announceUrl`: whatever the server is called and whatever the password is, the query
  reads back as what the tunnel has said;
* `announcements_read_back`: what the master server is told in a run.
-/

namespace CncnetServer

open Runs

/-- The crate `urlencoding`, and the decoder of whoever reads the text. -/
structure UrlEncoding where
  encode : List Char → List Char
  decode : List Char → Option (List Char)

namespace UrlEncoding

/-- What the crate says of `encode`. -/
structure Lawful (u : UrlEncoding) : Prop where
  mem_encode : ∀ s, ∀ c ∈ u.encode s, Url.isUnreserved c = true ∨ c = '%'
  encode_unreserved : ∀ s, (∀ c ∈ s, Url.isUnreserved c = true) → u.encode s = s
  decode_encode : ∀ s, u.decode (u.encode s) = some s

def reference : UrlEncoding := ⟨Url.encodeText, Url.decodeText⟩

theorem reference_lawful : reference.Lawful where
  mem_encode _ _ hc := Url.mem_encode hc
  encode_unreserved _ hs := Url.encodeText_unreserved hs
  decode_encode s := Url.decodeText_encodeText s

theorem Lawful.notMem_encode {u : UrlEncoding} (hu : u.Lawful) (s : List Char) {c : Char}
    (hplain : Url.isUnreserved c = false) (hpercent : c ≠ '%') : c ∉ u.encode s := by
  intro hc
  rcases hu.mem_encode s c hc with h | h
  · rw [hplain] at h
    cases h
  · exact hpercent h

end UrlEncoding

/-- The text of an integer. -/
def decimal (n : Nat) : List Char := Nat.toDigits 10 n

theorem isUnreserved_of_mem_decimal {n : Nat} {c : Char} (h : c ∈ decimal n) :
    Url.isUnreserved c = true := by
  have hdigit : c.isDigit = true := Nat.isDigit_of_mem_toDigits (by decide) (by decide) h
  have hrange : '0' ≤ c ∧ c ≤ '9' := by
    simp only [Char.isDigit, Bool.and_eq_true, decide_eq_true_eq] at hdigit
    exact hdigit
  simp [Url.isUnreserved, hrange]

theorem notMem_decimal (n : Nat) {c : Char} (hplain : Url.isUnreserved c = false) :
    c ∉ decimal n := by
  intro hc
  rw [isUnreserved_of_mem_decimal hc] at hplain
  cases hplain

/-! ## The URL -/

/-- The URL of an announcement, by the constants of the tunnel and what it reads of its state. -/
def announceUrl (u : UrlEncoding) (s : Settings) (version : Nat) (port : UInt16) (clients : Nat)
    (maintenanceMode : Bool) : List Char :=
  s.masterServerUrl.toList ++ "?version=".toList ++ decimal version ++
    "&name=".toList ++ u.encode s.name.toList ++
    "&port=".toList ++ decimal port.toNat ++
    "&clients=".toList ++ decimal clients ++
    "&maxclients=".toList ++ decimal s.maxClients ++
    "&masterpw=".toList ++ u.encode s.masterPassword.toList ++
    "&maintenance=".toList ++ (if maintenanceMode then "1" else "0").toList

/-- What an announcement says. -/
structure Announcement where
  version : Nat
  name : List Char
  port : Nat
  clients : Nat
  maxclients : Nat
  masterpw : List Char
  maintenance : Bool
  deriving DecidableEq, Repr

namespace Announcement

/-- A query as its receiver reads it: each parameter by its name, decoded. -/
def read (u : UrlEncoding) (query : List Char) : Option Announcement := do
  let text (name : String) := ((Url.parseQuery query).lookup name.toList).bind u.decode
  let number (name : String) := (text name).bind Decimal.parseNat
  some {
    version := ← number "version"
    name := ← text "name"
    port := ← number "port"
    clients := ← number "clients"
    maxclients := ← number "maxclients"
    masterpw := ← text "masterpw"
    maintenance := ← (number "maintenance").map fun n => decide (n ≠ 0) }

/-- The parameters in the order of the URL. -/
def params (u : UrlEncoding) (a : Announcement) : List (List Char × List Char) :=
  [("version".toList, decimal a.version), ("name".toList, u.encode a.name),
    ("port".toList, decimal a.port), ("clients".toList, decimal a.clients),
    ("maxclients".toList, decimal a.maxclients), ("masterpw".toList, u.encode a.masterpw),
    ("maintenance".toList, decimal a.maintenance.toNat)]

end Announcement

/-- What the tunnel has to say. -/
def Settings.announcement (s : Settings) (version : Nat) (port : UInt16) (clients : Nat)
    (maintenanceMode : Bool) : Announcement :=
  ⟨version, s.name.toList, port.toNat, clients, s.maxClients, s.masterPassword.toList,
    maintenanceMode⟩

section RoundTrip

variable {u : UrlEncoding}

theorem announceUrl_eq (s : Settings) (version : Nat) (port : UInt16) (clients : Nat)
    (maintenanceMode : Bool) :
    announceUrl u s version port clients maintenanceMode = s.masterServerUrl.toList ++
      '?' :: Url.queryText ((s.announcement version port clients maintenanceMode).params u) := by
  have hmode : (if maintenanceMode then "1" else "0").toList = decimal maintenanceMode.toNat := by
    cases maintenanceMode <;> decide
  rw [announceUrl, hmode]
  simp [Url.queryText, Announcement.params, Settings.announcement, List.intercalate,
    List.intersperse]

variable (hu : u.Lawful)
include hu

theorem notMem_params (a : Announcement) {c : Char} (hplain : Url.isUnreserved c = false)
    (hpercent : c ≠ '%') : ∀ p ∈ a.params u, c ∉ p.1 ∧ c ∉ p.2 := by
  have hname : ∀ name : String, name.toList.all Url.isUnreserved = true → c ∉ name.toList := by
    intro name hall hc
    rw [List.all_eq_true.mp hall c hc] at hplain
    cases hplain
  intro p hp
  simp only [Announcement.params, List.mem_cons, List.not_mem_nil, or_false] at hp
  rcases hp with rfl | rfl | rfl | rfl | rfl | rfl | rfl
  · exact ⟨hname _ (by decide), notMem_decimal _ hplain⟩
  · exact ⟨hname _ (by decide), hu.notMem_encode _ hplain hpercent⟩
  · exact ⟨hname _ (by decide), notMem_decimal _ hplain⟩
  · exact ⟨hname _ (by decide), notMem_decimal _ hplain⟩
  · exact ⟨hname _ (by decide), notMem_decimal _ hplain⟩
  · exact ⟨hname _ (by decide), hu.notMem_encode _ hplain hpercent⟩
  · exact ⟨hname _ (by decide), notMem_decimal _ hplain⟩

theorem parseQuery_params (a : Announcement) :
    Url.parseQuery (Url.queryText (a.params u)) = a.params u := by
  refine Url.parseQuery_queryText (List.cons_ne_nil _ _) fun p hp => ?_
  have hequals := notMem_params hu a (c := '=') (by decide) (by decide) p hp
  have hand := notMem_params hu a (c := '&') (by decide) (by decide) p hp
  exact ⟨⟨hequals.1, hand.1⟩, hand.2⟩

theorem decode_decimal (n : Nat) : u.decode (decimal n) = some (decimal n) := by
  have hplain := hu.encode_unreserved (decimal n) fun c hc => isUnreserved_of_mem_decimal hc
  have hread := hu.decode_encode (decimal n)
  rwa [hplain] at hread

/-- **Round trip.** The query of an announcement reads back as the announcement. -/
theorem Announcement.read_params (a : Announcement) :
    Announcement.read u (Url.queryText (a.params u)) = some a := by
  have hnumber : ∀ n, (u.decode (decimal n)).bind Decimal.parseNat = some n := by
    intro n
    rw [decode_decimal hu, Option.bind_some]
    exact Decimal.parseNat_toDigits n
  have htext : ∀ s, u.decode (u.encode s) = some s := hu.decode_encode
  have hmode : decide (a.maintenance.toNat ≠ 0) = a.maintenance := by
    cases a.maintenance <;> rfl
  have hversion : (a.params u).lookup "version".toList = some (decimal a.version) := rfl
  have hname : (a.params u).lookup "name".toList = some (u.encode a.name) := rfl
  have hport : (a.params u).lookup "port".toList = some (decimal a.port) := rfl
  have hclients : (a.params u).lookup "clients".toList = some (decimal a.clients) := rfl
  have hmax : (a.params u).lookup "maxclients".toList = some (decimal a.maxclients) := rfl
  have hpassword : (a.params u).lookup "masterpw".toList = some (u.encode a.masterpw) := rfl
  have hmaintenance : (a.params u).lookup "maintenance".toList =
      some (decimal a.maintenance.toNat) := rfl
  unfold Announcement.read
  simp only [parseQuery_params hu, hversion, hname, hport, hclients, hmax, hpassword,
    hmaintenance, Option.bind_some, hnumber, htext, Option.map_some, hmode, Option.bind_eq_bind]

end RoundTrip

/-- The requests of one tick: one URL, whose query says `a`, and which has the master server's
URL before its query if that URL has no query of its own. -/
def Announces (u : UrlEncoding) (s : Settings) (requests : List (List Char)) (a : Announcement) :
    Prop :=
  ∃ query, requests = [s.masterServerUrl.toList ++ '?' :: query] ∧
    Announcement.read u query = some a ∧
    ('?' ∉ s.masterServerUrl.toList → '#' ∉ s.masterServerUrl.toList →
      Url.cut (s.masterServerUrl.toList ++ '?' :: query) = (s.masterServerUrl.toList, query))

theorem announces_announceUrl {u : UrlEncoding} (hu : u.Lawful) (s : Settings) (version : Nat)
    (port : UInt16) (clients : Nat) (maintenanceMode : Bool) :
    Announces u s [announceUrl u s version port clients maintenanceMode]
      (s.announcement version port clients maintenanceMode) := by
  refine ⟨_, by rw [announceUrl_eq], Announcement.read_params hu _, ?_⟩
  intro hquery hfragment
  refine Url.cut_append hquery hfragment fun hmem => ?_
  rcases Url.mem_queryText hmem with h | h | ⟨p, hp, h⟩
  · cases h
  · cases h
  · have hnone := notMem_params hu _ (c := '#') (by decide) (by decide) p hp
    exact h.elim hnone.1 hnone.2

/-! ## Both tunnels -/

variable {C A R : Type} (core : RelayCore C A) (rater : Rater R)

namespace TunnelV3

def version : Nat := 3

/-- The URL of `send_master_announce`. -/
def masterAnnounceUrl (u : UrlEncoding) (s : Settings) (t : TunnelV3 C A R) : List Char :=
  announceUrl u s version s.tunnelPort t.mappings.len t.maintenanceMode

namespace Heartbeat

def start (sha1 : List UInt8 → List UInt8) (config : ServerConfig) : Heartbeat C A R :=
  ⟨TunnelV3.new rater sha1 config, 0⟩

/-- The heartbeat between its packets, by what it asks of the master server. -/
def announcer (u : UrlEncoding) (s : Settings) : Machine (Heartbeat C A R) Call (List Char) where
  step := (machine core rater).step
  emit h
    | .tick env =>
      if s.noMasterAnnounce then [] else [masterAnnounceUrl u s (tick core rater h env).tunnel]
    | .receive _ _ _ _ => []

theorem occupancy_step {capacity : Nat} {h : Heartbeat C A R} (hroom : Occupancy capacity h.tunnel)
    (call : Call) : Occupancy capacity ((machine core rater).step h call).tunnel := by
  cases call with
  | tick env =>
    simp only [machine, tick]
    split
    · exact hroom.cleanup core rater env
    · exact hroom
  | receive env packet addr batch => exact hroom.onReceive core rater env packet addr batch

/-- A tick that cleans up leaves nobody who is silent. -/
theorem live_tick {h : Heartbeat C A R} (hcleans : (h.cleanupCounter + 1) % 3 = 0) (env : Env)
    {id : UInt32} {client : C} (hget : (tick core rater h env).tunnel.mappings.get id = some client) :
    core.isTimedOut client env.timestamp = false := by
  simp only [tick, if_pos hcleans, cleanupExpiredMappings, DashMap.get_retain,
    Option.filter_eq_some_iff, Bool.not_eq_true'] at hget
  exact hget.2

end Heartbeat

end TunnelV3

namespace TunnelV2

def version : Nat := 2

/-- The URL of `send_master_announce`. -/
def masterAnnounceUrl (u : UrlEncoding) (s : Settings) (t : TunnelV2 C R) : List Char :=
  announceUrl u s version s.tunnelV2Port t.mappings.len t.maintenanceMode

/-- The tunnel, by what its heartbeat asks of the master server. -/
def announcer (u : UrlEncoding) (s : Settings) : Machine (TunnelV2 C R) Event (List Char) where
  step := (machine core rater).step
  emit t
    | .heartbeat env =>
      if s.noMasterAnnounce then [] else [masterAnnounceUrl u s (heartbeat core rater t env)]
    | _ => []

/-- A heartbeat leaves nobody who is silent. -/
theorem live_heartbeat {t : TunnelV2 C R} (env : Env) {id : Int16} {client : C}
    (hget : (heartbeat core rater t env).mappings.get id = some client) :
    core.isTimedOut client env.timestamp = false := by
  simp only [heartbeat, cleanupExpiredMappings, DashMap.get_retain, Option.filter_eq_some_iff,
    Bool.not_eq_true'] at hget
  exact hget.2

end TunnelV2

/-- **Announcements.** At every tick of any run of the two tunnels, one after the other, the
master server is told the name and the password of the configuration, and the clients and the
mode of the tunnel at that time: no more clients than there may be, and after a cleanup none that
is silent. With `no_master_announce` it is told nothing. -/
theorem announcements_read_back {u : UrlEncoding} (hu : u.Lawful) {args : CommandLine}
    {s : Settings} (hs : Settings.fromArgs args = .ok s) :
    ';' ∉ s.name.toList ∧
    (∀ sha1 calls env,
      let M := TunnelV3.Heartbeat.announcer core rater u s
      let h : TunnelV3.Heartbeat C A R :=
        M.run (TunnelV3.Heartbeat.start rater sha1 s.toServerConfig) calls
      let t := (M.step h (.tick env)).tunnel
      (s.noMasterAnnounce = true → M.emit h (.tick env) = []) ∧
      (s.noMasterAnnounce = false → Announces u s (M.emit h (.tick env))
        (s.announcement 3 s.tunnelPort t.mappings.len t.maintenanceMode)) ∧
      t.mappings.len ≤ s.maxClients ∧
      ((h.cleanupCounter + 1) % 3 = 0 → ∀ id client, t.mappings.get id = some client →
        core.isTimedOut client env.timestamp = false)) ∧
    ∀ events env,
      let M := TunnelV2.announcer core rater u s
      let t₀ : TunnelV2 C R := M.run (TunnelV2.new rater s.toServerConfig) events
      let t := M.step t₀ (.heartbeat env)
      (s.noMasterAnnounce = true → M.emit t₀ (.heartbeat env) = []) ∧
      (s.noMasterAnnounce = false → Announces u s (M.emit t₀ (.heartbeat env))
        (s.announcement 2 s.tunnelV2Port t.mappings.len t.maintenanceMode)) ∧
      t.mappings.len ≤ s.maxClients ∧
      ∀ id client, t.mappings.get id = some client →
        core.isTimedOut client env.timestamp = false := by
  refine ⟨?_, ?_, ?_⟩
  · rw [(Settings.fromArgs_eq_ok.mp hs).2.1]
    exact semicolon_notMem_cleanName _
  · intro sha1 calls env M h t
    have hroom : TunnelV3.Occupancy s.maxClients h.tunnel :=
      M.invariant (P := fun h => TunnelV3.Occupancy s.maxClients h.tunnel)
        (TunnelV3.occupancy_new rater sha1 s.toServerConfig)
        (fun _ call hroom => TunnelV3.Heartbeat.occupancy_step core rater hroom call) calls
    refine ⟨fun hoff => if_pos hoff, fun hon => ?_,
      (TunnelV3.Heartbeat.occupancy_step core rater hroom (.tick env)).len, ?_⟩
    · have hone : M.emit h (.tick env) = [TunnelV3.masterAnnounceUrl u s t] :=
        if_neg (by simp [hon])
      rw [hone]
      exact announces_announceUrl hu s _ _ _ _
    · intro hcleans id client hget
      exact TunnelV3.Heartbeat.live_tick core rater hcleans env hget
  · intro events env M t₀ t
    have hroom : TunnelV2.Occupancy s.maxClients t₀ :=
      M.invariant (P := TunnelV2.Occupancy s.maxClients) (TunnelV2.occupancy_new rater s.toServerConfig)
        (fun _ e hroom => hroom.step core rater e) events
    refine ⟨fun hoff => if_pos hoff, fun hon => ?_,
      (hroom.step core rater (.heartbeat env)).len, ?_⟩
    · have hone : M.emit t₀ (.heartbeat env) = [TunnelV2.masterAnnounceUrl u s t] :=
        if_neg (by simp [hon])
      rw [hone]
      exact announces_announceUrl hu s _ _ _ _
    · intro id client hget
      exact TunnelV2.live_heartbeat core rater env hget

/-- A server whose name and password look like parameters. -/
theorem announcements_read_back_odd_name :
    let core := RelayCore.reference TunnelV3.timeoutSeconds
    let args := { CommandLine.default with
      name := " ;A&clients=0#?ü ", masterpw := "50%=x&maintenance=1" }
    let alice : SocketAddr := .v4 8 8 8 8 1234
    ∃ s, Settings.fromArgs args = .ok s ∧ s.name = "A&clients=0#?ü" ∧
      let M := TunnelV3.Heartbeat.announcer (A := List Bool) core Rater.granting .reference s
      let h := M.run (TunnelV3.Heartbeat.start Rater.granting id s.toServerConfig)
        [.receive ⟨1000, 1, true⟩ [1, 0, 0, 0, 2, 0, 0, 0] alice .new]
      Announces .reference s (M.emit h (.tick ⟨2000, 2, true⟩))
        (s.announcement 3 s.tunnelPort 1 false) := by
  intro core args alice
  let s : Settings := ⟨⟨50001, 50000, 200, "test123456", 8, 4⟩, cleanName args.name, false,
    args.masterpw, args.master, false, 9090⟩
  have hs : Settings.fromArgs args = .ok s := rfl
  refine ⟨s, hs, by decide +kernel, ?_⟩
  exact ((announcements_read_back core Rater.granting UrlEncoding.reference_lawful hs).2.1 id
    [.receive ⟨1000, 1, true⟩ [1, 0, 0, 0, 2, 0, 0, 0] alice .new] ⟨2000, 2, true⟩).2.1 rfl

end CncnetServer
