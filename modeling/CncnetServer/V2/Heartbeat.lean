import CncnetServer.V2.Run
import CncnetServer.Renewals

/-!
The entries of the V2 tunnel as leases, one call after another: the packets it accepts
renew an id, as does the request that creates it, and every tick of the heartbeat sweeps.

* `expired_gone`: a timed-out id is gone after the tick, until a request creates it again;
* `renewed_kept`: a tick leaves an entry alone whose time since then is not over.
-/

namespace CncnetServer.TunnelV2

open Runs Leases

variable {C A R : Type} (core : RelayCore C A) (rater : Rater R)

/-- The call is a request that puts a free id into the mappings. -/
def Creates (t : TunnelV2 C R) (e : Event) (id : Int16) : Prop :=
  ∃ env draws req addr, e = .http env draws req addr ∧ id ∉ t.mappings ∧
    id ∈ (handleHttpRequest core rater t env.timestamp draws req addr).2.mappings

/-- The call creates or refreshes the entry of the id. -/
def Renews (t : TunnelV2 C R) (e : Event) (id : Int16) : Prop :=
  (∃ addr, EventAccepts core t e id addr) ∨ Creates core rater t e id

/-- The entry of an id as a lease, for which nothing else is held. -/
def leaseOf (t : TunnelV2 C R) (id : Int16) : Lease := ⟨core.renewedAt t.mappings id, false⟩

theorem leaseOf_gone {t : TunnelV2 C R} {id : Int16} :
    (leaseOf core t id).Gone ↔ id ∉ t.mappings :=
  Iff.trans (and_iff_left rfl) RelayCore.renewedAt_eq_none

/-- No packet brings an absent id back. -/
theorem not_accepts {t : TunnelV2 C R} {id : Int16} (hid : id ∉ t.mappings) (e : Event)
    (addr : SocketAddr) : ¬ EventAccepts core t e id addr := by
  rintro ⟨env, packet, batch, rfl, _, hsome⟩
  unfold acceptSender at hsome
  rw [DashMap.get_eq_none.mpr hid] at hsome
  cases hsome

section Laws

variable {core} {expired : Nat → Nat → Bool} (htime : core.TimesOutBy expired)
include htime

theorem leaseOf_heartbeat (t : TunnelV2 C R) (env : Env) (id : Int16) :
    leaseOf core (heartbeat core rater t env) id =
      (leaseOf core t id).sweep expired env.timestamp := by
  unfold leaseOf heartbeat cleanupExpiredMappings Lease.sweep
  dsimp only
  rw [RelayCore.renewedAt_retain htime, Bool.false_and]

/-- An accepted sender renews its entry, and nothing else is renewed. -/
theorem renewedAt_acceptSender {t t' : TunnelV2 C R} {env : Env} {s : Int16} {packet : Packet}
    {addr : SocketAddr} (haccept : acceptSender core t env s packet addr = some t') (id : Int16) :
    core.renewedAt t'.mappings id =
      if id = s then some env.timestamp else core.renewedAt t.mappings id := by
  have hstep := acceptSender_step core t env s packet addr
  rw [haccept] at hstep
  have hinsert := RelayCore.renewedAt_insert htime t.mappings s addr env.timestamp id
  cases hstep with
  | claimed => exact hinsert
  | reconnected => exact hinsert
  | refreshed client hget _ =>
    exact RelayCore.renewedAt_refresh htime hget packet.length env.timestamp id

theorem renewedAt_relay (t : TunnelV2 C R) (env : Env) (r : Int16) (packet : Packet)
    (addr : SocketAddr) (batch : LocalMetricsBatch) (id : Int16) :
    core.renewedAt (relay core t env r packet addr batch).1.mappings id =
      core.renewedAt t.mappings id := by
  unfold relay
  split
  · split
    · exact RelayCore.renewedAt_updateStats htime _ _ _ _ _ _
    · rfl
  · rfl

/-- **A packet** renews the entry of its sender if it is accepted. -/
theorem lease_onUdpReceive (t : TunnelV2 C R) (env : Env) (packet : Packet) (addr : SocketAddr)
    (batch : LocalMetricsBatch) (id : Int16) :
    LeaseStep expired env.timestamp (Accepts core t env packet addr id)
      (leaseOf core t id) (leaseOf core (onUdpReceive core rater t env packet addr batch).1 id) := by
  have hstep := onUdpReceive_step core rater t env packet addr batch
  generalize onUdpReceive core rater t env packet addr batch = out at hstep
  cases hstep with
  | short _ => exact .keep rfl fun _ => rfl
  | dropped _ => exact .keep rfl fun _ => rfl
  | pingLimited _ => exact .keep rfl fun _ => rfl
  | ping _ _ => exact .keep rfl fun _ => rfl
  | forward s r hf =>
    unfold handleDataForward
    cases haccept : acceptSender core t env s packet addr with
    | none => exact .keep rfl fun _ => rfl
    | some t' =>
      dsimp only
      rw [leaseOf, leaseOf, renewedAt_relay htime, renewedAt_acceptSender htime haccept]
      by_cases hid : id = s
      · rw [if_pos hid]
        refine .renew _ _ ⟨⟨r, hid ▸ hf⟩, ?_⟩
        rw [hid, haccept]
        rfl
      · rw [if_neg hid]
        exact .keep rfl fun _ => rfl

theorem lease_handleHttpRequest (t : TunnelV2 C R) (env : Env) (draws : Nat → Int16)
    (req : Request) (addr : SocketAddr) (id : Int16) :
    LeaseStep expired env.timestamp
      (Creates core rater t (.http env draws req addr) id) (leaseOf core t id)
      (leaseOf core (handleHttpRequest core rater t env.timestamp draws req addr).2 id) := by
  have hget := handleHttpRequest_get core rater t env.timestamp draws req addr id
  rcases hget with hsame | ⟨_, hfree, hnew⟩
  · refine .keep ?_ fun _ => rfl
    show core.renewedAt _ id = core.renewedAt _ id
    rw [RelayCore.renewedAt, hsame]
    rfl
  · have hrenewed : core.renewedAt
        (handleHttpRequest core rater t env.timestamp draws req addr).2.mappings id =
          some env.timestamp := by
      rw [RelayCore.renewedAt, hnew, Option.map_some, htime.lastReceive_new]
    rw [leaseOf, leaseOf, hrenewed]
    exact .renew _ _ ⟨env, draws, req, addr, rfl, DashMap.get_eq_none.mp hfree,
      DashMap.mem_of_get hnew⟩

/-- **Every call** is a step on the lease of every id. -/
theorem leased (id : Int16) :
    Leased (machine core rater) expired (fun t => leaseOf core t id)
      Event.time (fun t e => Renews core rater t e id) := by
  intro t e
  cases e with
  | receive env packet addr batch =>
    refine (lease_onUdpReceive rater htime t env packet addr batch id).mono ?_
    exact fun haccepts => Or.inl ⟨addr, env, packet, batch, rfl, haccepts⟩
  | http env draws req addr =>
    exact (lease_handleHttpRequest rater htime t env draws req addr id).mono Or.inr
  | heartbeat env =>
    simp only [machine]
    rw [leaseOf_heartbeat rater htime]
    exact .sweep _
  | toggleMaintenance env => exact .keep rfl fun _ => rfl

/-- **A timed-out id** is gone after the tick, and stays out until a request creates it. -/
theorem expired_gone (hage : Ageing expired) (t : TunnelV2 C R) (env : Env) {es : List Event}
    {id : Int16} {c : C}
    (hget : t.mappings.get id = some c) (hto : core.isTimedOut c env.timestamp = true)
    (hfree : (machine core rater).Along (fun u e => ¬ Creates core rater u e id)
      (heartbeat core rater t env) es) :
    id ∉ ((machine core rater).run t (.heartbeat env :: es)).mappings := by
  have hlapsed := RelayCore.lapsed_of_isTimedOut htime false hget hto
  have hgone : id ∉ (heartbeat core rater t env).mappings := by
    rw [← leaseOf_gone core, leaseOf_heartbeat rater htime]
    exact hlapsed.sweep_gone hage (Nat.le_refl _)
  refine (machine core rater).run_induction (P := fun u => id ∉ u.mappings) hgone ?_ es hfree
  intro u e hid hnot
  rw [← leaseOf_gone core] at hid ⊢
  refine (leased rater htime id u e).gone hage ?_ hid
  rintro (⟨addr, haccepts⟩ | hout)
  · exact not_accepts core ((leaseOf_gone core).mp hid) e addr haccepts
  · exact hnot hout

theorem fresh_renews {t : TunnelV2 C R} {e : Event} {id : Int16}
    (hrenews : Renews core rater t e id) :
    (leaseOf core ((machine core rater).step t e) id).Fresh e.time := by
  rcases hrenews with ⟨addr, env, packet, batch, rfl, ⟨r, hreaches⟩, hsome⟩ |
    ⟨env, draws, req, addr, rfl, hfree, hmem⟩
  · obtain ⟨t', haccept⟩ := Option.isSome_iff_exists.mp hsome
    refine ⟨env.timestamp, ?_, Nat.le_refl _⟩
    simp only [machine, leaseOf]
    rw [hreaches.onUdpReceive_eq]
    unfold handleDataForward
    rw [haccept]
    dsimp only
    rw [renewedAt_relay htime, renewedAt_acceptSender htime haccept, if_pos rfl]
  · refine ⟨env.timestamp, ?_, Nat.le_refl _⟩
    rcases handleHttpRequest_get core rater t env.timestamp draws req addr id with
      hsame | ⟨_, _, hnew⟩
    · obtain ⟨client, hclient⟩ := DashMap.mem_iff_get.mp hmem
      exact absurd (DashMap.mem_of_get (hsame.symm.trans hclient)) hfree
    · simp only [machine, leaseOf]
      rw [RelayCore.renewedAt, hnew, Option.map_some, htime.lastReceive_new]

/-- **A tick** keeps an entry whose time since it was created or refreshed is not over. -/
theorem renewed_kept (hage : Ageing expired) (t : TunnelV2 C R) {e : Event} {es : List Event}
    {env : Env} {id : Int16}
    (hrenews : Renews core rater t e id)
    (hmono : ((e :: es ++ [Event.heartbeat env]).map Event.time).Pairwise (· ≤ ·))
    (hrecent : expired e.time env.timestamp = false) :
    let t' := (machine core rater).run t (e :: es)
    ∃ client, t'.mappings.get id = some client ∧
      (heartbeat core rater t' env).mappings.get id = some client := by
  intro t'
  have hfresh : (leaseOf core t' id).Fresh e.time :=
    (leased rater htime id).renewed_run hage (fresh_renews rater htime hrenews) hmono hrecent
  obtain ⟨client, hget, _, hkept⟩ := RelayCore.get_retain_fresh htime hage hfresh hrecent
  exact ⟨client, hget, hkept⟩

end Laws

end CncnetServer.TunnelV2
