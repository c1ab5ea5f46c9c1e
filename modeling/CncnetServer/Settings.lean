import CncnetServer.Config
import Mathlib.Data.List.DropRight

/-!
`config.rs` with all its fields: the command line of `main.rs`, less what only the runtime and
the log use, and the configuration made of it.

* `Settings.fromArgs_toArgs`: an accepted configuration is in normal form.
-/

namespace CncnetServer

/-- `char::is_whitespace`. -/
def isWhitespace (c : Char) : Bool :=
  let n := c.toNat
  (9 ≤ n && n ≤ 13) || n == 32 || n == 0x85 || n == 0xA0 || n == 0x1680 ||
    (0x2000 ≤ n && n ≤ 0x200A) || n == 0x2028 || n == 0x2029 || n == 0x202F || n == 0x205F ||
    n == 0x3000

/-- `str::trim`. -/
def trim (s : List Char) : List Char := (s.dropWhile isWhitespace).rdropWhile isWhitespace

structure CommandLine extends Args where
  name : String
  nomaster : Bool
  masterpw : String
  master : String
  nop2p : Bool
  metricsPort : UInt16

/-- The values of `default_value` and `default_value_t`. -/
def CommandLine.default : CommandLine where
  port := 50001
  portv2 := 50000
  name := "Unnamed server"
  maxclients := 200
  nomaster := false
  masterpw := ""
  maintpw := "test123456"
  master := "http://cncnet.org/master-announce"
  iplimit := 8
  iplimitv2 := 4
  nop2p := false
  metricsPort := 9090

structure Settings extends ServerConfig where
  name : String
  noMasterAnnounce : Bool
  masterPassword : String
  masterServerUrl : String
  noP2p : Bool
  metricsPort : UInt16

/-- `args.name.replace(';', "").trim()`. -/
def cleanName (name : String) : String :=
  String.ofList (trim (name.toList.filter (· ≠ ';')))

def Settings.fromArgs (args : CommandLine) : Except String Settings :=
  (ServerConfig.fromArgs args.toArgs).map fun config => { config with
    name := cleanName args.name
    noMasterAnnounce := args.nomaster
    masterPassword := args.masterpw
    masterServerUrl := args.master
    noP2p := args.nop2p
    metricsPort := args.metricsPort }

example : ((Settings.fromArgs CommandLine.default).map fun s => (s.name, s.ipLimit, s.ipLimitV2)) =
    .ok ("Unnamed server", 8, 4) := by decide +kernel

/-! ## The normal form -/

/-- A command line that says what a configuration says. -/
def Settings.toArgs (s : Settings) : CommandLine where
  port := s.tunnelPort
  portv2 := s.tunnelV2Port
  name := s.name
  maxclients := s.maxClients
  nomaster := s.noMasterAnnounce
  masterpw := s.masterPassword
  maintpw := s.maintenancePassword
  master := s.masterServerUrl
  iplimit := s.ipLimit
  iplimitv2 := s.ipLimitV2
  nop2p := s.noP2p
  metricsPort := s.metricsPort

theorem trim_subset (s : List Char) : trim s ⊆ s := by
  intro c hc
  have hfront : c ∈ s.dropWhile isWhitespace := (List.rdropWhile_prefix _ _).subset hc
  exact (List.dropWhile_suffix _).subset hfront

theorem trim_trim (s : List Char) : trim (trim s) = trim s := by
  have hfirst : (trim s).dropWhile isWhitespace = trim s := by
    rw [List.dropWhile_eq_self_iff]
    intro hpos
    -- what `trim` leaves begins where the blanks at the front end
    obtain ⟨rest, hrest⟩ := List.rdropWhile_prefix isWhitespace (s.dropWhile isWhitespace)
    have hlen : 0 < (s.dropWhile isWhitespace).length := by
      rw [← hrest, List.length_append]
      exact Nat.lt_add_right _ hpos
    have hhead := List.dropWhile_get_zero_not isWhitespace s hlen
    have hsame : (s.dropWhile isWhitespace).get ⟨0, hlen⟩ = (trim s)[0] := by
      rw [List.get_eq_getElem]
      exact (List.IsPrefix.getElem ⟨rest, hrest⟩ hpos).symm
    rwa [hsame] at hhead
  rw [trim, hfirst]
  exact List.rdropWhile_idempotent _ _

theorem semicolon_notMem_cleanName (name : String) : ';' ∉ (cleanName name).toList := by
  intro h
  rw [cleanName, String.toList_ofList] at h
  have hfiltered := trim_subset _ h
  simp at hfiltered

theorem cleanName_cleanName (name : String) : cleanName (cleanName name) = cleanName name := by
  have hfilter : (cleanName name).toList.filter (· ≠ ';') = (cleanName name).toList := by
    rw [List.filter_eq_self]
    intro c hc
    exact decide_eq_true fun heq => semicolon_notMem_cleanName name (heq ▸ hc)
  rw [cleanName, hfilter]
  simp only [cleanName, String.toList_ofList, trim_trim]

theorem ServerConfig.fromArgs_eq_ok {args : Args} {config : ServerConfig} :
    ServerConfig.fromArgs args = .ok config ↔
      ¬ (args.port ≤ 1024 ∧ args.port ≠ 0) ∧ ¬ (args.portv2 ≤ 1024 ∧ args.portv2 ≠ 0) ∧
      2 ≤ args.maxclients ∧ args.maxclients ≤ 10000 ∧
      config = ⟨args.port, args.portv2, args.maxclients, args.maintpw,
        min (max args.iplimit 1) 100, min (max args.iplimitv2 1) 100⟩ := by
  unfold ServerConfig.fromArgs
  split
  · rename_i hport
    simp [hport]
  split
  · rename_i hport
    simp [hport]
  split
  · rename_i hfew
    simp only [reduceCtorEq, false_iff]
    omega
  split
  · rename_i hmany
    simp only [reduceCtorEq, false_iff]
    omega
  rename_i hport hportv2 hfew hmany
  simp only [Except.ok.injEq, hport, hportv2, not_false_eq_true, true_and]
  constructor
  · intro h
    exact ⟨by omega, by omega, h.symm⟩
  · rintro ⟨_, _, h⟩
    exact h.symm

theorem Settings.fromArgs_eq_ok {args : CommandLine} {s : Settings} :
    Settings.fromArgs args = .ok s ↔
      ServerConfig.fromArgs args.toArgs = .ok s.toServerConfig ∧ s.name = cleanName args.name ∧
      s.noMasterAnnounce = args.nomaster ∧ s.masterPassword = args.masterpw ∧
      s.masterServerUrl = args.master ∧ s.noP2p = args.nop2p ∧
      s.metricsPort = args.metricsPort := by
  unfold Settings.fromArgs
  cases h : ServerConfig.fromArgs args.toArgs with
  | error e => simp [Except.map]
  | ok config =>
    obtain ⟨config', name, nomaster, masterpw, master, nop2p, metricsPort⟩ := s
    simp only [Except.map, Except.ok.injEq, Settings.mk.injEq]
    constructor
    · rintro ⟨rfl, rfl, rfl, rfl, rfl, rfl, rfl⟩
      simp
    · rintro ⟨rfl, rfl, rfl, rfl, rfl, rfl, rfl⟩
      simp

/-- **Normal form.** A configuration that was accepted is accepted again as a command line, and
comes out unchanged. -/
theorem Settings.fromArgs_toArgs {args : CommandLine} {s : Settings}
    (h : Settings.fromArgs args = .ok s) : Settings.fromArgs s.toArgs = .ok s := by
  obtain ⟨hconfig, hname, -⟩ := Settings.fromArgs_eq_ok.mp h
  refine Settings.fromArgs_eq_ok.mpr ⟨?_, ?_, rfl, rfl, rfl, rfl, rfl⟩
  · obtain ⟨hport, hportv2, hfew, hmany, heq⟩ := ServerConfig.fromArgs_eq_ok.mp hconfig
    refine ServerConfig.fromArgs_eq_ok.mpr ?_
    simp only [Settings.toArgs, heq]
    refine ⟨hport, hportv2, hfew, hmany, ?_⟩
    congr 1 <;> omega
  · simp only [Settings.toArgs, hname, cleanName_cleanName]

end CncnetServer
