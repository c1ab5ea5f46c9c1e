import CncnetServer.V3.Run
import Mathlib.Data.Finset.Card

/-!
What the connection limiter of the V3 tunnel limits.

It takes a token for each registration and each reconnection of an address, and the
tokens come back every minute, while a client stays as long as it keeps sending. So it
bounds how fast an address gains entries, not how many it has.

* `connections_per_ip`: the entries an address can gain in a time;
* `connections_exceed_ip_limit`: an address with more entries than its limit.
-/

namespace CncnetServer.TunnelV3

open Runs

variable {C A R : Type} (core : RelayCore C A) (rater : Rater R)

/-- The entries whose endpoint has the address. -/
def clientsOf (m : DashMap UInt32 C) (ip : IpAddr) : Finset UInt32 :=
  m.keySet.filter fun id => (core.endpointOf m id).map SocketAddr.ip = some ip

theorem mem_clientsOf {m : DashMap UInt32 C} {ip : IpAddr} {id : UInt32} :
    id ∈ clientsOf core m ip ↔ (core.endpointOf m id).map SocketAddr.ip = some ip := by
  unfold clientsOf
  rw [Finset.mem_filter, DashMap.mem_keySet]
  refine ⟨And.right, fun h => ⟨?_, h⟩⟩
  obtain ⟨ep, hep, _⟩ := Option.map_eq_some_iff.mp h
  obtain ⟨client, hget, _⟩ := Option.bind_eq_some_iff.mp hep
  exact DashMap.mem_of_get hget

/-- Fewer or the same bindings, fewer or the same entries. -/
theorem card_clientsOf_le {m m' : DashMap UInt32 C} (ip : IpAddr)
    (h : ∀ id, core.endpointOf m' id = core.endpointOf m id ∨ core.endpointOf m' id = none) :
    (clientsOf core m' ip).card ≤ (clientsOf core m ip).card := by
  apply Finset.card_le_card
  intro id hid
  rw [mem_clientsOf] at hid ⊢
  rcases h id with heq | hnone
  · rw [← heq]
    exact hid
  · rw [hnone] at hid
    cases hid

/-- A new client is one more entry of its own address. -/
theorem card_clientsOf_insert (hcore : core.FixedEndpoint) (m : DashMap UInt32 C) (id : UInt32)
    (addr : SocketAddr) (now : Nat) (ip : IpAddr) :
    (clientsOf core (m.insert id (core.newWithEndpoint addr now)) ip).card ≤
      (clientsOf core m ip).card + if ip = addr.ip then 1 else 0 := by
  have hep : ∀ j, core.endpointOf (m.insert id (core.newWithEndpoint addr now)) j =
      if j = id then some addr else core.endpointOf m j := by
    intro j
    by_cases hj : j = id
    · subst hj
      rw [core.endpointOf_insert_self hcore, if_pos rfl]
    · rw [if_neg hj, RelayCore.endpointOf, DashMap.get_insert_ne _ _ hj, RelayCore.endpointOf]
  by_cases hip : ip = addr.ip
  · rw [if_pos hip]
    have hsub : clientsOf core (m.insert id (core.newWithEndpoint addr now)) ip ⊆
        insert id (clientsOf core m ip) := by
      intro j hj
      rw [mem_clientsOf, hep] at hj
      by_cases hji : j = id
      · exact Finset.mem_insert.mpr (Or.inl hji)
      · rw [if_neg hji] at hj
        exact Finset.mem_insert.mpr (Or.inr ((mem_clientsOf core).mpr hj))
    exact Nat.le_trans (Finset.card_le_card hsub) (Finset.card_insert_le _ _)
  · rw [if_neg hip, Nat.add_zero]
    apply Finset.card_le_card
    intro j hj
    rw [mem_clientsOf, hep] at hj
    rw [mem_clientsOf]
    by_cases hji : j = id
    · rw [if_pos hji, Option.map_some, Option.some.injEq] at hj
      exact absurd hj.symm hip
    · rw [if_neg hji] at hj
      exact hj

/-! ## One call -/

section Laws

variable {rater}
variable (hcore : core.FixedEndpoint) (law : rater.Bucketed core.second)

/-- The entries of the address, in the worth of a token, and the credit of its bucket. -/
def holdings (t : TunnelV3 C A R) (ip : IpAddr) (now : Nat) : Nat :=
  (clientsOf core t.mappings ip).card * (60 * core.second) + law.credit t.connectionLimiter ip now

/-- A step at `now` that pays for every entry it makes. -/
structure Pays (ip : IpAddr) (now : Nat) (t t' : TunnelV3 C A R) : Prop where
  limit : law.limit t'.connectionLimiter = law.limit t.connectionLimiter
  holdings : holdings core law t' ip now ≤ holdings core law t ip now

variable {core law} in
theorem Pays.trans {ip : IpAddr} {now : Nat} {t t' t'' : TunnelV3 C A R}
    (h : Pays core law ip now t t') (h' : Pays core law ip now t' t'') :
    Pays core law ip now t t'' :=
  ⟨h'.limit.trans h.limit, h'.holdings.trans h.holdings⟩

/-- A step that uses no token and binds no id. -/
theorem Pays.of_endpoints {ip : IpAddr} {now : Nat} {t t' : TunnelV3 C A R}
    (hlimiter : t'.connectionLimiter = t.connectionLimiter)
    (h : ∀ id, core.endpointOf t'.mappings id = core.endpointOf t.mappings id ∨
      core.endpointOf t'.mappings id = none) : Pays core law ip now t t' where
  limit := by rw [hlimiter]
  holdings := by
    unfold TunnelV3.holdings
    rw [hlimiter]
    exact Nat.add_le_add_right (Nat.mul_le_mul_right _ (card_clientsOf_le core ip h)) _

theorem Pays.refl {ip : IpAddr} {now : Nat} {t t' : TunnelV3 C A R}
    (hlimiter : t'.connectionLimiter = t.connectionLimiter)
    (hmappings : t'.mappings = t.mappings) : Pays core law ip now t t' :=
  .of_endpoints core law hlimiter fun _ => Or.inl (by rw [hmappings])

/-- An attempt pays for the entry it makes, if it is granted. -/
theorem Pays.attempt {t t' : TunnelV3 C A R} {ip : IpAddr} {addr : SocketAddr} {now : Nat}
    (hlimiter : t'.connectionLimiter = (rater.tryAcquire t.connectionLimiter addr.ip now).2)
    (hcard : (clientsOf core t'.mappings ip).card ≤ (clientsOf core t.mappings ip).card +
      (decide (ip = addr.ip) && (rater.tryAcquire t.connectionLimiter addr.ip now).1).toNat) :
    Pays core law ip now t t' where
  limit := by rw [hlimiter, law.limit_tryAcquire]
  holdings := by
    have hcredit := law.credit_tryAcquire t.connectionLimiter addr.ip now ip
    have hmul := Nat.mul_le_mul_right (60 * core.second) hcard
    rw [Nat.add_mul] at hmul
    unfold TunnelV3.holdings
    rw [hlimiter]
    omega

theorem Pays.granted {t t' : TunnelV3 C A R} {ip : IpAddr} {addr : SocketAddr} {now : Nat}
    (hgrant : (rater.tryAcquire t.connectionLimiter addr.ip now).1 = true)
    (hlimiter : t'.connectionLimiter = (rater.tryAcquire t.connectionLimiter addr.ip now).2)
    (hcard : (clientsOf core t'.mappings ip).card ≤
      (clientsOf core t.mappings ip).card + if ip = addr.ip then 1 else 0) :
    Pays core law ip now t t' := by
  refine .attempt core law hlimiter (Nat.le_trans hcard (Nat.le_of_eq ?_))
  rw [hgrant, Bool.and_true]
  by_cases hip : ip = addr.ip
  · rw [if_pos hip, decide_eq_true hip, Bool.toNat_true]
  · rw [if_neg hip, decide_eq_false hip, Bool.toNat_false]

theorem Pays.refused {t t' : TunnelV3 C A R} {ip : IpAddr} {addr : SocketAddr} {now : Nat}
    (hlimiter : t'.connectionLimiter = (rater.tryAcquire t.connectionLimiter addr.ip now).2)
    (hmappings : t'.mappings = t.mappings) : Pays core law ip now t t' := by
  refine .attempt core law hlimiter ?_
  rw [hmappings]
  exact Nat.le_add_right _ _

include hcore

theorem senderValid_pays (t : TunnelV3 C A R) (env : Env) (id : UInt32) (packet : Packet)
    (addr : SocketAddr) (ip : IpAddr) :
    Pays core law ip env.timestamp t (senderValid core rater t env id packet addr).2 := by
  have hinsert := card_clientsOf_insert core hcore t.mappings id addr env.timestamp ip
  have hstep := senderValid_step core rater t env id packet addr
  generalize senderValid core rater t env id packet addr = out at hstep
  cases hstep with
  | refreshed client hget hep =>
    refine .of_endpoints core law rfl ?_
    exact fun j => Or.inl (congrFun (core.endpointOf_modify
      (core.remoteEp_refresh hcore packet.length env.timestamp) t.mappings id) j)
  | reconnected client ep _ _ _ _ hgrant => exact .granted core law hgrant rfl hinsert
  | reconnectLimited => exact .refused core law rfl rfl
  | refused => exact .refl core law rfl rfl
  | registered _ _ hgrant => exact .granted core law hgrant rfl hinsert
  | registerLimited => exact .refused core law rfl rfl
  | full => exact .refl core law rfl rfl

theorem relay_pays (t : TunnelV3 C A R) (env : Env) (r : UInt32) (packet : Packet)
    (addr : SocketAddr) (batch : LocalMetricsBatch) (ip : IpAddr) (now : Nat) :
    Pays core law ip now t (relay core t env r packet addr batch).1 := by
  unfold relay
  split
  · split
    · exact .of_endpoints core law rfl fun j => Or.inl (congrFun (core.endpointOf_modify
        (fun c => hcore.remoteEp_updateStats c 0 packet.length env.timestamp) t.mappings r) j)
    · exact .refl core law rfl rfl
  · exact .refl core law rfl rfl

omit hcore in
theorem cleanup_pays (t : TunnelV3 C A R) (env : Env) (ip : IpAddr) (now : Nat) :
    Pays core law ip now t (cleanupExpiredMappings core rater t env) := by
  refine .of_endpoints core law rfl ?_
  intro id
  have hget : (cleanupExpiredMappings core rater t env).mappings.get id =
      (t.mappings.get id).filter fun client => !core.isTimedOut client env.timestamp :=
    DashMap.get_retain _ _ _
  unfold RelayCore.endpointOf
  rw [hget]
  cases t.mappings.get id with
  | none => exact Or.inl rfl
  | some client =>
    rw [Option.filter_some]
    split
    · exact Or.inl rfl
    · exact Or.inr rfl

/-- **Every call pays for the entries it makes.** -/
theorem step_pays (t : TunnelV3 C A R) (e : Event) (ip : IpAddr) :
    Pays core law ip e.time t ((machine core rater).step t e) := by
  cases e with
  | cleanup env => exact cleanup_pays core law t env ip _
  | toggleMaintenance env => exact .refl core law rfl rfl
  | receive env packet addr batch =>
    have hstep := onReceive_step core rater t env packet addr batch
    simp only [machine, Event.time, Event.env]
    generalize onReceive core rater t env packet addr batch = out at hstep
    cases hstep with
    | short _ => exact .refl core law rfl rfl
    | command s r _ _ =>
      have hcommand := executeCommand_step core rater t env packet
      dsimp only
      generalize executeCommand core rater t env packet = t' at hcommand
      cases hcommand with
      | ignored => exact .refl core law rfl rfl
      | noEffect => exact .refl core law rfl rfl
      | toggled _ => exact .refl core law rfl rfl
      | cleaned _ =>
        have htick : Pays core law ip env.timestamp t
            { t with lastCommandTick := env.elapsedSecs } := .refl core law rfl rfl
        exact htick.trans (cleanup_pays core law _ env ip env.timestamp)
    | dropped _ => exact .refl core law rfl rfl
    | pingLimited _ => exact .refl core law rfl rfl
    | ping _ _ => exact .refl core law rfl rfl
    | forward s r _ =>
      have hsender := senderValid_pays core hcore law t env s packet addr ip
      unfold handleDataForward
      dsimp only
      generalize senderValid core rater t env s packet addr = out at hsender
      split
      · exact hsender
      · exact hsender.trans (relay_pays core hcore law out.2 env r packet addr _ ip _)

/-! ## A run -/

/-- **A run.** The entries of an address are worth no more than what the address held at
`start` and what its bucket has gained since. -/
theorem clientsOf_run {start finish : Nat} {t : TunnelV3 C A R} {events : List Event}
    (ip : IpAddr) (hmono : (events.map Event.time).Pairwise (· ≤ ·))
    (htimes : ∀ e ∈ events, start ≤ e.time ∧ e.time ≤ finish) (hle : start ≤ finish) :
    (clientsOf core ((machine core rater).run t events).mappings ip).card * (60 * core.second) ≤
      holdings core law t ip start + law.limit t.connectionLimiter * (finish - start) := by
  induction events generalizing t start with
  | nil =>
    rw [Machine.run_nil]
    unfold holdings
    omega
  | cons e events ih =>
    rw [List.map_cons, List.pairwise_cons, List.forall_mem_map] at hmono
    rw [List.forall_mem_cons] at htimes
    obtain ⟨⟨hstart, hfinish⟩, htimes⟩ := htimes
    have hpays := step_pays core hcore law t e ip
    have hrest := ih (t := (machine core rater).step t e) hmono.2
      (fun e' he' => ⟨hmono.1 e' he', (htimes e' he').2⟩) hfinish
    rw [hpays.limit] at hrest
    have hrefill := law.credit_refill t.connectionLimiter ip hstart
    have hpast : holdings core law t ip e.time ≤ holdings core law t ip start +
        law.limit t.connectionLimiter * (e.time - start) := by
      unfold holdings
      omega
    have hsplit : law.limit t.connectionLimiter * (finish - start) =
        law.limit t.connectionLimiter * (e.time - start) +
          law.limit t.connectionLimiter * (finish - e.time) := by
      rw [← Nat.mul_add]
      congr 1
      omega
    rw [Machine.run_cons]
    have hnow := hpays.holdings
    omega

theorem limit_run (t : TunnelV3 C A R) (events : List Event) :
    law.limit ((machine core rater).run t events).connectionLimiter =
      law.limit t.connectionLimiter := by
  apply (machine core rater).invariant
    (P := fun t' => law.limit t'.connectionLimiter = law.limit t.connectionLimiter) rfl
  intro t' e h
  exact (step_pays core hcore law t' e (.v4 0 0 0 0)).limit.trans h

omit hcore in
theorem limit_new_le (sha1 : List UInt8 → List UInt8) (config : ServerConfig) :
    law.limit (TunnelV3.new (C := C) (A := A) rater sha1 config).connectionLimiter ≤
      config.ipLimit := by
  refine Nat.le_trans (Nat.le_of_eq (law.limit_new _)) ?_
  rw [UInt32.toNat_ofNat']
  exact Nat.mod_le _ _

include law in
/-- **Connections of an address.** In a time the entries of an address grow by at most twice
`ip_limit`, and `ip_limit` more for every 60 seconds; from the start of the server they are at
most `ip_limit`, and `ip_limit` more for every 60 seconds. -/
theorem connections_per_ip (sha1 : List UInt8 → List UInt8) (config : ServerConfig) (ip : IpAddr)
    (before after : List Event) {start finish : Nat}
    (hmono : (after.map Event.time).Pairwise (· ≤ ·))
    (htimes : ∀ e ∈ after, start ≤ e.time ∧ e.time ≤ finish) (hle : start ≤ finish) :
    let M := machine core rater
    let t := TunnelV3.new rater sha1 config
    (clientsOf core (M.run t (before ++ after)).mappings ip).card * (60 * core.second) ≤
      ((clientsOf core (M.run t before).mappings ip).card + 2 * config.ipLimit) *
        (60 * core.second) + config.ipLimit * (finish - start) ∧
    (clientsOf core (M.run t after).mappings ip).card * (60 * core.second) ≤
      config.ipLimit * (60 * core.second) + config.ipLimit * (finish - start) := by
  intro M t
  have hnew : law.limit t.connectionLimiter ≤ config.ipLimit := limit_new_le core law sha1 config
  have hfull := Nat.mul_le_mul_right (60 * core.second) hnew
  have hgain := Nat.mul_le_mul_right (finish - start) hnew
  refine ⟨?_, ?_⟩
  · have hrun : (clientsOf core (M.run (M.run t before) after).mappings ip).card * _ ≤ _ :=
      clientsOf_run core hcore law ip hmono htimes hle
    have hcredit := law.credit_le (M.run t before).connectionLimiter ip start
    unfold holdings at hrun
    rw [limit_run core hcore law] at hrun hcredit
    rw [Machine.run_append, Nat.add_mul, Nat.mul_assoc 2]
    omega
  · have hrun : (clientsOf core (M.run t after).mappings ip).card * _ ≤ _ :=
      clientsOf_run core hcore law ip hmono htimes hle
    have hcredit : law.credit t.connectionLimiter ip start =
        law.limit t.connectionLimiter * (60 * core.second) := by
      have hlimit : law.limit t.connectionLimiter = _ := law.limit_new _
      rw [hlimit]
      exact law.credit_new _ ip start
    have hnone : (clientsOf core t.mappings ip).card = 0 := rfl
    unfold holdings at hrun
    rw [hnone, Nat.zero_mul, Nat.zero_add, hcredit] at hrun
    omega

end Laws

/-- A packet of an id, from one address, with no data. -/
def hello (id : UInt8) (milliseconds : Nat) : Event :=
  .receive ⟨milliseconds, milliseconds / 1000, true⟩ [id, 0, 0, 0, 9, 0, 0, 0]
    (.v4 8 8 8 8 1234) .new

/-- With two connections allowed, one client alive for a minute, and three more within two
seconds, as the limiter is filled up. -/
theorem connections_per_ip_burst :
    let core := RelayCore.reference timeoutSeconds
    let M := machine core (Rater.refilling 1000)
    let t := TunnelV3.new (Rater.refilling 1000) id ⟨50001, 50000, 200, "", 2, 4⟩
    let before := [hello 1 1000, hello 1 30000]
    let after := [hello 1 59000, hello 2 60000, hello 3 61000, hello 4 61500, hello 5 62000]
    (clientsOf core (M.run t before).mappings (.v4 8 8 8 8)).card = 1 ∧
      (clientsOf core (M.run t (before ++ after)).mappings (.v4 8 8 8 8)).card = 4 ∧
      4 * 60000 ≤ (1 + 2 * 2) * 60000 + 2 * (62000 - 59000) := by
  intro core M t before after
  have hbound : (clientsOf core (M.run t (before ++ after)).mappings (.v4 8 8 8 8)).card * 60000 ≤
      ((clientsOf core (M.run t before).mappings (.v4 8 8 8 8)).card + 2 * 2) * 60000 +
        2 * (62000 - 59000) :=
    (connections_per_ip core (RelayCore.reference_fixedEndpoint _)
      (Rater.refilling_bucketed (by decide)) id ⟨50001, 50000, 200, "", 2, 4⟩ (.v4 8 8 8 8) before
      after (by decide) (by decide) (by decide)).1
  have hone : (clientsOf core (M.run t before).mappings (.v4 8 8 8 8)).card = 1 := by
    decide +kernel
  have hfour : (clientsOf core (M.run t (before ++ after)).mappings (.v4 8 8 8 8)).card = 4 := by
    decide +kernel
  rw [hone, hfour] at hbound
  exact ⟨hone, hfour, hbound⟩

/-- One connection allowed: an address that keeps a client alive and registers another after a
minute has two. -/
theorem connections_exceed_ip_limit :
    let core := RelayCore.reference timeoutSeconds
    let M := machine core (Rater.refilling 1000)
    let config : ServerConfig := ⟨50001, 50000, 200, "", 1, 4⟩
    let t := TunnelV3.new (Rater.refilling 1000) id config
    let patient := [hello 1 1000, hello 1 21000, hello 1 41000,
      .cleanup ⟨60000, 60, true⟩, hello 1 61000, hello 2 62000, .cleanup ⟨70000, 70, true⟩]
    (patient.map Event.time).Pairwise (· ≤ ·) ∧ config.ipLimit = 1 ∧
      (clientsOf core (M.run t patient).mappings (.v4 8 8 8 8)).card = 2 := by
  decide +kernel

end CncnetServer.TunnelV3
