import CncnetServer.TunnelV2
import CncnetServer.TunnelV3
import Mathlib.Tactic.Common

/-!
The maintenance password on the HTTP port of the V2 tunnel.

`handle_maintenance` splits the path at every `/` and compares the third part with the
password. So a password that contains a `/` is the third part of no path, and behind a
password that contains none any further part is ignored.

* `maintenance_password`: the paths that are handled as they should be, and the passwords
  that open the endpoint. A request cannot carry every text as its path: which characters
  it can is up to the crate `http`, and a parameter (`pathChar`);
* `maintenance_password_slash`: a password that V3 accepts and V2 does not, and a path with
  something after the password.
-/

namespace CncnetServer

/-- The first part of a text that is split at `a`. -/
theorem head_splitOn {α : Type} [BEq α] [LawfulBEq α] {a : α} {xs w : List α} :
    (xs.splitOn a)[0]? = some w ↔ a ∉ w ∧ (xs = w ∨ ∃ ys, xs = w ++ a :: ys) := by
  constructor
  · intro h
    by_cases ha : a ∈ xs
    · obtain ⟨l, r, rfl, hl⟩ := List.eq_append_cons_of_mem ha
      rw [List.splitOn_append_cons_self_of_not_mem hl] at h
      cases h
      exact ⟨hl, Or.inr ⟨r, rfl⟩⟩
    · rw [List.splitOn_eq_singleton ha] at h
      cases h
      exact ⟨ha, Or.inl rfl⟩
  · rintro ⟨hw, rfl | ⟨ys, rfl⟩⟩
    · rw [List.splitOn_eq_singleton hw]
      rfl
    · rw [List.splitOn_append_cons_self_of_not_mem hw]
      rfl

namespace TunnelV2

variable {C R A : Type} (core : RelayCore C A) (rater : Rater R)

/-- The path with this text after `/maintenance/`. -/
def maintenancePath (text : List Char) : List Char := "/maintenance/".toList ++ text

/-- The request switches the mode. -/
def Toggles (t : TunnelV2 C R) (path : List Char) : Prop :=
  (handleMaintenance t path).2.maintenanceMode = !t.maintenanceMode

instance (t : TunnelV2 C R) (path : List Char) : Decidable (Toggles t path) :=
  inferInstanceAs (Decidable (_ = _))

/-- The third part of a path is the first part of what follows the prefix. -/
theorem splitOn_maintenancePath (text : List Char) :
    ((maintenancePath text).splitOn '/')[2]? = (text.splitOn '/')[0]? := by
  have hpath : maintenancePath text = [] ++ '/' :: ("maintenance".toList ++ '/' :: text) := rfl
  have hfree : '/' ∉ "maintenance".toList := by decide
  rw [hpath, List.splitOn_append_cons_self, List.splitOn_append_cons_self_of_not_mem hfree]
  rfl

theorem toggles_iff {t : TunnelV2 C R} (hw : t.maintenancePassword ≠ "") (text : List Char) :
    Toggles t (maintenancePath text) ↔ '/' ∉ t.maintenancePassword.toList ∧
      (text = t.maintenancePassword.toList ∨
        ∃ more, text = t.maintenancePassword.toList ++ '/' :: more) := by
  have hset : t.maintenancePassword.isEmpty = false := by
    rw [Bool.eq_false_iff]
    exact fun h => hw (String.isEmpty_iff.mp h)
  rw [← head_splitOn, ← splitOn_maintenancePath]
  unfold Toggles handleMaintenance
  rw [hset]
  by_cases hpart : ((maintenancePath text).splitOn '/')[2]? = some t.maintenancePassword.toList
  · simp [hpart]
  · simp [hpart]

/-- A request that gets past the request limiter switches the mode as `handle_maintenance`
does. -/
theorem handleHttpRequest_maintenance {t : TunnelV2 C R} {now : Nat} {draws : Nat → Int16}
    {text : List Char} {query : Option (List Char)} {addr : SocketAddr}
    (hgrant : (rater.tryAcquire t.requestLimiter addr.ip now).1 = true) :
    (handleHttpRequest core rater t now draws ⟨true, maintenancePath text, query⟩ addr).2
      = (handleMaintenance
          { t with
            metrics := t.metrics.fetchAdd .v2HttpRequests 1
            requestLimiter := (rater.tryAcquire t.requestLimiter addr.ip now).2 }
          (maintenancePath text)).2 := by
  have hpath : maintenancePath text = '/' :: 'm' :: ("aintenance/".toList ++ text) := rfl
  have hstatus : maintenancePath text ≠ "/status".toList := by
    have hother : "/status".toList = '/' :: 's' :: "tatus".toList := by decide
    rw [hpath, hother]
    intro h
    cases h
  have hrequest : maintenancePath text ≠ "/request".toList := by
    have hother : "/request".toList = '/' :: 'r' :: "equest".toList := by decide
    rw [hpath, hother]
    intro h
    cases h
  have hprefix : "/maintenance/".toList.isPrefixOf (maintenancePath text) = true :=
    List.isPrefixOf_iff_prefix.mpr (List.prefix_append _ _)
  unfold handleHttpRequest RateLimiter.checkAndIncrement
  simp only [hgrant, hstatus, hrequest, hprefix, Bool.not_true, Bool.false_eq_true, if_false,
    and_false, and_self, if_true]

end TunnelV2

namespace TunnelV3

variable {C R A : Type} (core : RelayCore C A) (rater : Rater R)

/-- The command that toggles the mode, with a digest. -/
def toggleCommand (digest : List UInt8) : Packet := [0, 0, 0, 0, 255, 255, 255, 255, 0] ++ digest

/-- The V3 port takes the SHA-1 of any password that is set. -/
theorem toggleCommand_toggles {sha1 : List UInt8 → List UInt8}
    (hsha1 : ∀ bytes, (sha1 bytes).length = 20) {config : ServerConfig}
    (hw : config.maintenancePassword ≠ "") {env : Env} (helapsed : 60 ≤ env.elapsedSecs)
    (addr : SocketAddr) (batch : LocalMetricsBatch) :
    let t : TunnelV3 C A R := TunnelV3.new rater sha1 config
    (onReceive core rater t env (toggleCommand (sha1 (asBytes config.maintenancePassword)))
      addr batch).1.maintenanceMode = !t.maintenanceMode := by
  intro t
  have hset : config.maintenancePassword.isEmpty = false := by
    rw [Bool.eq_false_iff]
    exact fun h => hw (String.isEmpty_iff.mp h)
  have hpassword : t.maintenancePasswordSha1 = some (sha1 (asBytes config.maintenancePassword)) :=
    if_neg (by simp [hset])
  generalize hdigest : sha1 (asBytes config.maintenancePassword) = digest at hpassword
  have hlength : digest.length = 20 := by rw [← hdigest]; exact hsha1 _
  have hheader : parsePacketHeader (toggleCommand digest) = some (0, 0xFFFFFFFF) := rfl
  have hcmd : isCommand 0 0xFFFFFFFF (toggleCommand digest) := by
    refine ⟨rfl, rfl, ?_⟩
    simp [toggleCommand, hlength]
  have hbytes : ((toggleCommand digest).take 29).drop 9 = digest := by
    rw [List.take_of_length_le (by simp [toggleCommand, hlength])]
    rfl
  have htick : t.lastCommandTick = 0 := rfl
  have hearly : ¬ env.elapsedSecs - t.lastCommandTick < commandRateLimitSecs := by
    rw [htick]
    unfold commandRateLimitSecs
    omega
  unfold onReceive
  simp only [hheader, hcmd, if_true]
  unfold executeCommand
  rw [if_neg (by simp [hearly, hpassword])]
  dsimp only
  rw [hbytes, if_pos hpassword]
  rfl

end TunnelV3

/-! ## Both ports -/

variable {C R A : Type} (core : RelayCore C A) (rater : Rater R)

def Uri.between (first last c : Char) : Bool :=
  decide (first.toNat ≤ c.toNat ∧ c.toNat ≤ last.toNat)

/-- The characters that the crate `http` passes in the path of a request: neither a blank nor
a `?` nor a `#`, nor a few more. -/
def Uri.pathChar (c : Char) : Bool :=
  ['!', '"', '=', '{', '|', '}', '~'].contains c || between '$' ';' c || between '@' '_' c ||
    between 'a' 'z' c || decide (127 ≤ c.toNat)

/-- **The maintenance password.** A path is handled as it should be (it toggles the mode if
and only if it is `/maintenance/` and the password) unless the password contains a slash and
the path is that one, or the password contains none and the path goes on after it with a
slash. V3 takes every password that is set; V2 can be opened with one by a request exactly
if it contains no slash and only characters that the path of a request can carry. -/
theorem maintenance_password {sha1 : List UInt8 → List UInt8}
    (hsha1 : ∀ bytes, (sha1 bytes).length = 20) {pathChar : Char → Bool}
    (hfront : ∀ c ∈ "/maintenance/".toList, pathChar c = true) {config : ServerConfig}
    (hw : config.maintenancePassword ≠ "") :
    let w := config.maintenancePassword.toList
    (∀ (t : TunnelV2 C R) (path : List Char), t.maintenancePassword = config.maintenancePassword →
      "/maintenance/".toList <+: path →
        ((TunnelV2.Toggles t path ↔ path = TunnelV2.maintenancePath w) ↔
          ¬ ('/' ∈ w ∧ path = TunnelV2.maintenancePath w) ∧
            ¬ ('/' ∉ w ∧ ∃ more, path = TunnelV2.maintenancePath w ++ '/' :: more))) ∧
    (∀ (env : Env) (addr : SocketAddr) (batch : LocalMetricsBatch), 60 ≤ env.elapsedSecs →
      let t : TunnelV3 C A R := TunnelV3.new rater sha1 config
      (TunnelV3.onReceive core rater t env
        (TunnelV3.toggleCommand (sha1 (TunnelV3.asBytes config.maintenancePassword)))
          addr batch).1.maintenanceMode = !t.maintenanceMode) ∧
    (∀ t : TunnelV2 C R, t.maintenancePassword = config.maintenancePassword →
      ((∃ path, (∀ c ∈ path, pathChar c = true) ∧ "/maintenance/".toList <+: path ∧
        TunnelV2.Toggles t path) ↔ '/' ∉ w ∧ ∀ c ∈ w, pathChar c = true)) := by
  intro w
  refine ⟨?_, ?_, ?_⟩
  · rintro t path ht ⟨text, rfl⟩
    have htoggles := TunnelV2.toggles_iff (t := t) (by rw [ht]; exact hw) text
    rw [ht] at htoggles
    have hpath : ∀ rest, "/maintenance/".toList ++ text = TunnelV2.maintenancePath rest ↔
        text = rest := fun rest => List.append_right_inj _
    have hmore : ∀ more, "/maintenance/".toList ++ text =
        TunnelV2.maintenancePath w ++ '/' :: more ↔ text = w ++ '/' :: more := by
      intro more
      unfold TunnelV2.maintenancePath
      rw [List.append_assoc, List.append_right_inj]
    change (TunnelV2.Toggles t (TunnelV2.maintenancePath text) ↔ _) ↔ _
    rw [htoggles, hpath]
    simp only [hmore]
    change ('/' ∉ w ∧ (text = w ∨ ∃ more, text = w ++ '/' :: more) ↔ text = w) ↔ _
    have hlonger : ∀ more, text = w ++ '/' :: more → text ≠ w := by
      rintro more hmore rfl
      have hlength := congrArg List.length hmore
      rw [List.length_append, List.length_cons] at hlength
      omega
    constructor
    · intro hexact
      refine ⟨?_, ?_⟩
      · rintro ⟨hslash, htext⟩
        exact (hexact.mpr htext).1 hslash
      · rintro ⟨hfree, more, htext⟩
        exact hlonger more htext (hexact.mp ⟨hfree, Or.inr ⟨more, htext⟩⟩)
    · rintro ⟨hslash, hfurther⟩
      constructor
      · rintro ⟨hfree, htext | hmore⟩
        · exact htext
        · exact absurd ⟨hfree, hmore⟩ hfurther
      · intro htext
        exact ⟨fun h => hslash ⟨h, htext⟩, Or.inl htext⟩
  · intro env addr batch helapsed
    exact TunnelV3.toggleCommand_toggles core rater hsha1 hw helapsed addr batch
  · intro t ht
    have htoggles := TunnelV2.toggles_iff (t := t) (by rw [ht]; exact hw)
    rw [ht] at htoggles
    constructor
    · rintro ⟨_, hchars, ⟨text, rfl⟩, htoggle⟩
      obtain ⟨hfree, htext⟩ := (htoggles text).mp htoggle
      refine ⟨hfree, fun c hc => hchars c (List.mem_append_right _ ?_)⟩
      rcases htext with rfl | ⟨more, rfl⟩
      · exact hc
      · exact List.mem_append_left _ hc
    · rintro ⟨hfree, hchars⟩
      refine ⟨TunnelV2.maintenancePath w, fun c hc => ?_, List.prefix_append _ _,
        (htoggles w).mpr ⟨hfree, Or.inl rfl⟩⟩
      exact (List.mem_append.mp hc).elim (hfront c) (hchars c)

/-- A tunnel of each version with the password `secret`, which has this SHA-1. -/
theorem maintenance_password_secret :
    let sha1 : List UInt8 → List UInt8 := fun _ => [0xe5, 0xe9, 0xfa, 0x1b, 0xa3, 0x1e, 0xcd,
      0x1a, 0xe8, 0x4f, 0x75, 0xca, 0xaa, 0x47, 0x4f, 0x3a, 0x66, 0x3f, 0x05, 0xf4]
    let config : ServerConfig := ⟨50001, 50000, 200, "secret", 8, 4⟩
    let t2 : TunnelV2 RelayCore.ReferenceClient SpentTokens := TunnelV2.new Rater.reference config
    let t3 : TunnelV3 RelayCore.ReferenceClient (List Bool) SpentTokens :=
      TunnelV3.new Rater.reference sha1 config
    (TunnelV2.Toggles t2 "/maintenance/secret".toList ↔
      "/maintenance/secret".toList = TunnelV2.maintenancePath "secret".toList) ∧
    (TunnelV3.onReceive (RelayCore.reference 30) Rater.reference t3 ⟨60000, 60, true⟩
      (TunnelV3.toggleCommand (sha1 (TunnelV3.asBytes config.maintenancePassword)))
        (.v4 8 8 8 8 1234) .new).1.maintenanceMode = true ∧
    ∃ path, (∀ c ∈ path, Uri.pathChar c = true) ∧ "/maintenance/".toList <+: path ∧
      TunnelV2.Toggles t2 path := by
  intro sha1 config t2 t3
  have hset : config.maintenancePassword ≠ "" := by decide
  have hdigest : ∀ bytes, (sha1 bytes).length = 20 := fun _ => rfl
  have hmain := maintenance_password (RelayCore.reference 30) Rater.reference hdigest
    (List.all_eq_true.mp (by decide : "/maintenance/".toList.all Uri.pathChar = true)) hset
  have hslash : '/' ∉ "secret".toList := by decide
  refine ⟨?_, ?_, ?_⟩
  · refine (hmain.1 t2 "/maintenance/secret".toList rfl ⟨"secret".toList, by decide⟩).mpr ⟨?_, ?_⟩
    · exact fun h => hslash h.1
    · rintro ⟨_, more, h⟩
      have hlength := congrArg List.length h
      have hsame : "/maintenance/secret".toList.length =
          (TunnelV2.maintenancePath config.maintenancePassword.toList).length := by decide
      rw [List.length_append, List.length_cons, hsame] at hlength
      omega
  · exact hmain.2.1 ⟨60000, 60, true⟩ (.v4 8 8 8 8 1234) .new (by decide)
  · exact (hmain.2.2 t2 rfl).mpr ⟨hslash,
      List.all_eq_true.mp (by decide : "secret".toList.all Uri.pathChar = true)⟩

/-- The password `a/b` does not open the endpoint, and `secret` opens it with something
after it. -/
theorem maintenance_password_slash :
    let config (password : String) : ServerConfig := ⟨50001, 50000, 200, password, 8, 4⟩
    let tunnel (password : String) : TunnelV2 RelayCore.ReferenceClient SpentTokens :=
      TunnelV2.new Rater.reference (config password)
    ¬ (TunnelV2.Toggles (tunnel "a/b") "/maintenance/a/b".toList ↔
        "/maintenance/a/b".toList = TunnelV2.maintenancePath "a/b".toList) ∧
      ¬ (TunnelV2.Toggles (tunnel "secret") "/maintenance/secret/x".toList ↔
        "/maintenance/secret/x".toList = TunnelV2.maintenancePath "secret".toList) := by
  decide +kernel

end CncnetServer
