import CncnetServer.Bindings
import CncnetServer.Lib.Lease

/-!
When the entries of the mappings were renewed last: what each change that the tunnels make
to their mappings does to it, with the passes of `retain` as the sweeps of leases.
-/

namespace CncnetServer.RelayCore

open Leases

variable {C A K : Type} [DecidableEq K] (core : RelayCore C A)

theorem ageing_inWholeSeconds (second timeoutSeconds : Nat) :
    Ageing (inWholeSeconds second timeoutSeconds) := by
  intro t t' now now' ht hnow h
  have hlast := Nat.div_le_div_right (c := second) ht
  have hclock := Nat.div_le_div_right (c := second) hnow
  rw [inWholeSeconds, decide_eq_true_iff] at h ⊢
  omega

/-- The last-receive time under an id. -/
def renewedAt (m : DashMap K C) (id : K) : Option Nat := (m.get id).map core.lastReceive

variable {core}

theorem renewedAt_eq_none {m : DashMap K C} {id : K} : core.renewedAt m id = none ↔ id ∉ m :=
  Option.map_eq_none_iff.trans DashMap.get_eq_none

variable {expired : Nat → Nat → Bool} (htime : core.TimesOutBy expired)
include htime

theorem renewedAt_insert (m : DashMap K C) (id : K) (addr : SocketAddr) (now : Nat) (j : K) :
    core.renewedAt (m.insert id (core.newWithEndpoint addr now)) j =
      if j = id then some now else core.renewedAt m j := by
  unfold renewedAt
  rw [DashMap.get_insert]
  split
  · rw [Option.map_some, htime.lastReceive_newWithEndpoint]
  · rfl

theorem renewedAt_refresh {m : DashMap K C} {id : K} {client : C} (hget : m.get id = some client)
    (received now : Nat) (j : K) :
    core.renewedAt (m.modify id (core.refresh received now)) j =
      if j = id then some now else core.renewedAt m j := by
  unfold renewedAt
  rw [DashMap.get_modify]
  split
  · rename_i hj
    rw [hj, hget, Option.map_some, Option.map_some, core.lastReceive_refresh htime]
  · rfl

theorem renewedAt_updateStats (m : DashMap K C) (id : K) (received sent now : Nat) (j : K) :
    core.renewedAt (m.modify id fun c => core.updateStats c received sent now) j =
      core.renewedAt m j := by
  unfold renewedAt
  rw [DashMap.get_modify]
  split
  · rw [Option.map_map]
    congr 1
    funext c
    exact htime.lastReceive_updateStats c received sent now
  · rfl

/-- What `retain` keeps under an id is what a sweep leaves of its lease. -/
theorem renewedAt_retain (m : DashMap K C) (now : Nat) (j : K) :
    core.renewedAt (m.retain fun _ c => !core.isTimedOut c now) j =
      (core.renewedAt m j).filter fun t => !expired t now := by
  unfold renewedAt
  rw [DashMap.get_retain, Option.filter_map]
  congr 2
  funext c
  rw [htime.isTimedOut_eq]
  rfl

theorem lapsed_of_isTimedOut {m : DashMap K C} {id : K} {client : C} {now : Nat} (held : Bool)
    (hget : m.get id = some client) (hto : core.isTimedOut client now = true) :
    (⟨core.renewedAt m id, held⟩ : Lease).Lapsed expired now := by
  refine Or.inr ⟨core.lastReceive client, ?_, (htime.isTimedOut_eq client now).symm.trans hto⟩
  rw [renewedAt, hget, Option.map_some]

/-- `retain` keeps a client whose lease is not over. -/
theorem get_retain_fresh (hage : Ageing expired) {m : DashMap K C} {id : K} {held : Bool}
    {since now : Nat} (hfresh : (⟨core.renewedAt m id, held⟩ : Lease).Fresh since)
    (hend : expired since now = false) :
    ∃ client, m.get id = some client ∧ core.isTimedOut client now = false ∧
      (m.retain fun _ c => !core.isTimedOut c now).get id = some client := by
  obtain ⟨last, hlast, hsince⟩ := hfresh
  obtain ⟨client, hget, rfl⟩ := Option.map_eq_some_iff.mp hlast
  have hlive : core.isTimedOut client now = false := by
    rw [htime.isTimedOut_eq]
    exact hage.not_expired hsince (Nat.le_refl now) hend
  refine ⟨client, hget, hlive, ?_⟩
  rw [DashMap.get_retain, hget, Option.filter_some, hlive]
  rfl

end CncnetServer.RelayCore
