import CncnetServer.V2.Heartbeat
import CncnetServer.V3.Heartbeat

/-!
The cleanups of both tunnels: how long an expired id may stay, and what is never removed.
-/

namespace CncnetServer

open Runs

variable {C A R : Type} (core : RelayCore C A) (rater : Rater R)

namespace TunnelV3.Heartbeat

structure CleansUp : Prop where
  /-- Any three consecutive ticks, with any packets between them, include a cleanup. -/
  bounded : ∀ (h : Heartbeat C A R) (calls : List Call), 3 ≤ calls.countP Call.isTick →
    ∃ before env after, calls = before ++ .tick env :: after ∧
      let h' := (machine core rater).run h before
      (h'.cleanupCounter + 1) % 3 = 0 ∧
      ((machine core rater).step h' (.tick env)).tunnel =
        cleanupExpiredMappings core rater h'.tunnel env
  /-- An id that is timed out at a tick and sends no packet afterwards is in neither table
  from the second tick after it on. -/
  expired : ∀ (h : Heartbeat C A R) (env : Env) (calls : List Call) (id : UInt32) (client : C),
    h.tunnel.mappings.get id = some client → core.isTimedOut client env.timestamp = true →
    ((Call.tick env :: calls).map Call.time).Pairwise (· ≤ ·) →
    (∀ call ∈ calls, call.sender ≠ some id) → 2 ≤ calls.countP Call.isTick →
    let h' := (machine core rater).run h (.tick env :: calls)
    id ∉ h'.tunnel.mappings ∧ id ∉ h'.tunnel.qualityAnalyzers
  /-- A tick or a command before the clock shows 30 s more than when a packet created or
  refreshed an entry leaves the entry and its analyzer as they are. -/
  kept : ∀ (h : Heartbeat C A R) (call : Call) (calls : List Call) (cleanup : Call) (id : UInt32),
    Renews core rater h call id →
    ((call :: calls ++ [cleanup]).map Call.time).Pairwise (· ≤ ·) →
    cleanup.time / core.second < call.time / core.second + 30 → cleanup.cleans →
    let h' := (machine core rater).run h (call :: calls)
    ∃ client, h'.tunnel.mappings.get id = some client ∧
      ((machine core rater).step h' cleanup).tunnel.mappings.get id = some client ∧
      ((machine core rater).step h' cleanup).tunnel.qualityAnalyzers.get id =
        h'.tunnel.qualityAnalyzers.get id

end TunnelV3.Heartbeat

structure TunnelV2.CleansUp : Prop where
  /-- An id that is timed out at a tick is out after it, until a request creates it again. -/
  expired : ∀ (t : TunnelV2 C R) (env : Env) (es : List Event) (id : Int16) (client : C),
    t.mappings.get id = some client → core.isTimedOut client env.timestamp = true →
    (machine core rater).Along (fun u e => ¬ Creates core rater u e id)
      (heartbeat core rater t env) es →
    id ∉ ((machine core rater).run t (.heartbeat env :: es)).mappings
  /-- A tick before the clock shows 30 s more than when a call created or refreshed an entry
  leaves it as it is. -/
  kept : ∀ (t : TunnelV2 C R) (e : Event) (es : List Event) (env : Env) (id : Int16),
    Renews core rater t e id →
    ((e :: es ++ [Event.heartbeat env]).map Event.time).Pairwise (· ≤ ·) →
    env.timestamp / core.second < e.time / core.second + 30 →
    let t' := (machine core rater).run t (e :: es)
    ∃ client, t'.mappings.get id = some client ∧
      (heartbeat core rater t' env).mappings.get id = some client

/-- **Cleanup is sound and bounded**, in both tunnels. -/
theorem cleanup_sound_bounded (htime : core.TimesOutInSeconds 30) :
    TunnelV3.Heartbeat.CleansUp core rater ∧ TunnelV2.CleansUp core rater := by
  have hage := RelayCore.ageing_inWholeSeconds core.second 30
  refine ⟨⟨?bounded, ?expired, ?kept⟩, ⟨?expiredV2, ?keptV2⟩⟩
  case bounded =>
    intro h calls hticks
    exact TunnelV3.Heartbeat.exists_cleanup core rater h hticks
  case expired =>
    intro h env calls id client hget hto hmono hsilent hticks
    exact TunnelV3.Heartbeat.expired_gone rater htime hage h env hget hto hmono hsilent hticks
  case kept =>
    intro h call calls cleanup id hrenews hmono hrecent hcleans
    exact TunnelV3.Heartbeat.renewed_kept rater htime hage h hrenews hmono
      (decide_eq_false (Nat.not_le.mpr hrecent)) hcleans
  case expiredV2 =>
    intro t env es id client hget hto hfree
    exact TunnelV2.expired_gone rater htime hage t env hget hto hfree
  case keptV2 =>
    intro t e es env id hrenews hmono hrecent
    exact TunnelV2.renewed_kept rater htime hage t hrenews hmono
      (decide_eq_false (Nat.not_le.mpr hrecent))

/-- A V3 id registered and a V2 id handed out at 0.95 s are removed at 30 s, when the clock
shows 30 s more: 29.05 s later. -/
theorem cleanup_removes_early :
    let core := RelayCore.reference 30
    let M := TunnelV3.Heartbeat.machine core Rater.reference
    let addr : SocketAddr := .v4 8 8 8 8 1234
    let register : TunnelV3.Heartbeat.Call :=
      .receive ⟨950, 0, true⟩ [7, 0, 0, 0, 9, 0, 0, 0] addr .new
    let request : TunnelV2.Event :=
      .http ⟨950, 0, true⟩ (fun i => [7, 9].getD i 1)
        ⟨true, "/request".toList, some "clients=2".toList⟩ addr
    let config : ServerConfig := ⟨50001, 50000, 200, "", 8, 4⟩
    let h : TunnelV3.Heartbeat RelayCore.ReferenceClient (List Bool) SpentTokens :=
      ⟨TunnelV3.new Rater.reference id config, 0⟩
    let tickAt (s : Nat) : TunnelV3.Heartbeat.Call := .tick ⟨s * 1000, s, true⟩
    let registered := M.run h [register, tickAt 10, tickAt 20]
    let handedOut := (TunnelV2.machine core Rater.reference).step
      (TunnelV2.new Rater.reference config) request
    (tickAt 30).time < register.time + 30 * core.second ∧
      (7 ∈ registered.tunnel.mappings ∧ 7 ∉ (M.step registered (tickAt 30)).tunnel.mappings ∧
        7 ∉ (M.step registered (tickAt 30)).tunnel.qualityAnalyzers) ∧
      7 ∈ handedOut.mappings ∧
      7 ∉ (TunnelV2.heartbeat core Rater.reference handedOut ⟨30000, 30, true⟩).mappings := by
  decide +kernel

/-- A V3 id registered at 0 s and a V2 id handed out at 0 s: a cleanup at 29 s keeps both,
a tick at 31 s finds the first timed out, and at 33 s both tables are rid of it. -/
theorem cleanup_sound_bounded_run :
    let M := TunnelV3.Heartbeat.machine (RelayCore.reference 30) Rater.reference
    let N := TunnelV2.machine (RelayCore.reference 30) Rater.reference
    let addr : SocketAddr := .v4 8 8 8 8 1234
    let register : TunnelV3.Heartbeat.Call := .receive ⟨0, 0, true⟩ [7, 0, 0, 0, 9, 0, 0, 0] addr .new
    let request : TunnelV2.Event :=
      .http ⟨0, 0, true⟩ (fun i => [7, 9].getD i 1) ⟨true, "/request".toList, some "clients=2".toList⟩
        addr
    let config : ServerConfig := ⟨50001, 50000, 200, "", 8, 4⟩
    let h : TunnelV3.Heartbeat RelayCore.ReferenceClient (List Bool) SpentTokens :=
      ⟨TunnelV3.new Rater.reference id config, 0⟩
    let t : TunnelV2 RelayCore.ReferenceClient SpentTokens := TunnelV2.new Rater.reference config
    let tickAt (s : Nat) : TunnelV3.Heartbeat.Call := .tick ⟨s * 1000, s, true⟩
    let registered := M.run h [register, tickAt 10, tickAt 20]
    (∃ client, registered.tunnel.mappings.get 7 = some client ∧
      (M.step registered (tickAt 29)).tunnel.mappings.get 7 = some client ∧
      (M.step registered (tickAt 29)).tunnel.qualityAnalyzers.get 7 =
        registered.tunnel.qualityAnalyzers.get 7) ∧
    (7 ∉ (M.run (M.step h register) [tickAt 31, tickAt 32, tickAt 33]).tunnel.mappings ∧
      7 ∉ (M.run (M.step h register) [tickAt 31, tickAt 32, tickAt 33]).tunnel.qualityAnalyzers) ∧
    7 ∉ (N.run (N.step t request) [.heartbeat ⟨31000, 31, true⟩]).mappings ∧
    ∃ client, (N.run t [request]).mappings.get 7 = some client ∧
      (TunnelV2.heartbeat (RelayCore.reference 30) Rater.reference (N.run t [request])
        ⟨29000, 29, true⟩).mappings.get 7 = some client := by
  intro M N addr register request config h t tickAt registered
  obtain ⟨v3, v2⟩ := cleanup_sound_bounded (C := RelayCore.ReferenceClient) (A := List Bool)
    (RelayCore.reference 30) Rater.reference (RelayCore.reference_timesOutInSeconds 30)
  have haccepts : TunnelV3.Accepts (RelayCore.reference 30) Rater.reference h.tunnel ⟨0, 0, true⟩
      [7, 0, 0, 0, 9, 0, 0, 0] addr 7 :=
    ⟨⟨9, by decide, by decide, by decide, by decide, rfl⟩, by decide +kernel⟩
  refine ⟨?_, ?_, ?_, ?_⟩
  · exact v3.kept h register [tickAt 10, tickAt 20] (tickAt 29) 7
      ⟨_, _, _, _, rfl, haccepts⟩ (by decide) (by decide) trivial
  · exact v3.expired (M.step h register) ⟨31000, 31, true⟩ [tickAt 32, tickAt 33] 7
      ⟨some addr, 0, 0, 0⟩ (by decide +kernel) (by decide) (by decide) (by decide) (by decide)
  · exact v2.expired (N.step t request) ⟨31000, 31, true⟩ [] 7 ⟨none, 0, 0, 0⟩ (by decide +kernel)
      (by decide) trivial
  · refine v2.kept t request [] ⟨29000, 29, true⟩ 7 (Or.inr ⟨_, _, _, _, rfl, ?_, ?_⟩) (by decide)
      (by decide)
    · decide
    · decide +kernel

end CncnetServer
