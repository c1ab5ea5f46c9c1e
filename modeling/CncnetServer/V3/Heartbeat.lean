import CncnetServer.V3.Run
import CncnetServer.Renewals

/-!
The heartbeat of the V3 tunnel between its packets, one call after another.

A tick cleans up when a counter of one byte, which wraps around, is a multiple of 3. An entry
of `mappings` with its analyzer is a lease that the packets of its id renew and that a
cleanup, of the heartbeat or of a command, sweeps.

* `exists_cleanup`: there is a cleanup among any three ticks;
* `expired_gone`: three ticks after it has timed out, a silent id is in neither table;
* `renewed_kept`: a cleanup leaves an entry alone whose time since then is not over.
-/

namespace CncnetServer.TunnelV3

open Runs Leases

variable {C A R : Type} (core : RelayCore C A) (rater : Rater R)

/-- The tunnel, and the counter of `heartbeat_loop`. -/
structure Heartbeat (C A R : Type) where
  tunnel : TunnelV3 C A R
  cleanupCounter : UInt8

namespace Heartbeat

/-- A tick of the heartbeat, or a packet for `on_receive`. -/
inductive Call
  | tick (env : Env)
  | receive (env : Env) (packet : Packet) (addr : SocketAddr) (batch : LocalMetricsBatch)

def Call.env : Call → Env
  | .tick env => env
  | .receive env _ _ _ => env

def Call.time (call : Call) : Nat := call.env.timestamp

def Call.isTick : Call → Bool
  | .tick _ => true
  | .receive _ _ _ _ => false

/-- The sender id of the packet. -/
def Call.sender : Call → Option UInt32
  | .tick _ => none
  | .receive _ packet _ _ => (parsePacketHeader packet).map Prod.fst

/-- One iteration of `heartbeat_loop`; the announcement and the log touch no tunnel state. -/
def tick (h : Heartbeat C A R) (env : Env) : Heartbeat C A R :=
  let cleanupCounter := h.cleanupCounter + 1
  { tunnel :=
      if cleanupCounter % 3 = 0 then cleanupExpiredMappings core rater h.tunnel env else h.tunnel
    cleanupCounter := cleanupCounter }

def machine : Machine (Heartbeat C A R) Call Datagram where
  step h
    | .tick env => tick core rater h env
    | .receive env packet addr batch =>
      { h with tunnel := (onReceive core rater h.tunnel env packet addr batch).1 }
  emit h
    | .tick _ => []
    | .receive env packet addr batch => (onReceive core rater h.tunnel env packet addr batch).2.2

/-- The packet is accepted, and creates or refreshes the entry of its sender id. -/
def Renews (h : Heartbeat C A R) (call : Call) (id : UInt32) : Prop :=
  ∃ env packet addr batch, call = .receive env packet addr batch ∧
    Accepts core rater h.tunnel env packet addr id

/-- A tick, or a packet that is a command. -/
def Call.cleans : Call → Prop
  | .tick _ => True
  | .receive _ packet _ _ =>
    ∃ s r, parsePacketHeader packet = some (s, r) ∧ isCommand s r packet

/-- Who renews an id sends it. -/
theorem Renews.sender {h : Heartbeat C A R} {call : Call} {id : UInt32}
    (hrenews : Renews core rater h call id) : call.sender = some id := by
  obtain ⟨env, packet, addr, batch, rfl, ⟨r, hreaches⟩, _⟩ := hrenews
  simp only [Call.sender, hreaches.header, Option.map_some]

/-! ## The counter -/

/-- The ticks without a cleanup that are still to come. -/
def skips (cleanupCounter : UInt8) : Nat :=
  if (cleanupCounter + 1) % 3 = 0 then 0 else if (cleanupCounter + 2) % 3 = 0 then 1 else 2

theorem toNat_mod_three (c : UInt8) : c % 3 = 0 ↔ c.toNat % 3 = 0 := by
  rw [← UInt8.toNat_inj, UInt8.toNat_mod]
  rfl

/-- Also around the wrap: 255 and its successor 0 are both multiples of 3. -/
theorem one_of_three (c : UInt8) : (c + 1) % 3 = 0 ∨ (c + 2) % 3 = 0 ∨ (c + 3) % 3 = 0 := by
  have hadd : ∀ k : UInt8, (c + k) % 3 = 0 ↔ (c.toNat + k.toNat) % 256 % 3 = 0 := by
    intro k
    rw [toNat_mod_three, UInt8.toNat_add]
  have hlt := c.toNat_lt
  rw [hadd, hadd, hadd]
  show (c.toNat + 1) % 256 % 3 = 0 ∨ (c.toNat + 2) % 256 % 3 = 0 ∨ (c.toNat + 3) % 256 % 3 = 0
  rcases Nat.lt_or_ge c.toNat 253 with hbelow | hwraps
  · have hsmall : ∀ k, k ≤ 3 → (c.toNat + k) % 256 = c.toNat + k := by
      intro k hk
      exact Nat.mod_eq_of_lt (by omega)
    rw [hsmall 1 (by decide), hsmall 2 (by decide), hsmall 3 (by decide)]
    omega
  · obtain h | h | h : c.toNat = 253 ∨ c.toNat = 254 ∨ c.toNat = 255 := by omega
    all_goals
      rw [h]
      decide

theorem skips_succ_lt {c : UInt8} (h : (c + 1) % 3 ≠ 0) : skips (c + 1) < skips c := by
  have htwo : c + 1 + 1 = c + 2 := by
    rw [UInt8.add_assoc]
    rfl
  have hthree : c + 1 + 2 = c + 3 := by
    rw [UInt8.add_assoc]
    rfl
  unfold skips
  rw [htwo, hthree, if_neg h]
  by_cases hsecond : (c + 2) % 3 = 0
  · rw [if_pos hsecond, if_pos hsecond]
    exact Nat.zero_lt_one
  · have hthird : (c + 3) % 3 = 0 := ((one_of_three c).resolve_left h).resolve_left hsecond
    rw [if_neg hsecond, if_neg hsecond, if_pos hthird]
    exact Nat.one_lt_two

theorem skips_le (c : UInt8) : skips c ≤ 2 := by
  unfold skips
  split
  · decide
  · split <;> decide

example : skips 253 = 1 ∧ skips 254 = 0 ∧ skips 255 = 0 ∧ skips 0 = 2 := by decide

/-- The induction is on the calls; a tick without a cleanup leaves fewer of them to come. -/
theorem exists_cleans {h : Heartbeat C A R} {calls : List Call}
    (hticks : skips h.cleanupCounter < calls.countP Call.isTick) :
    ∃ before env after, calls = before ++ .tick env :: after ∧
      (((machine core rater).run h before).cleanupCounter + 1) % 3 = 0 := by
  induction calls generalizing h with
  | nil => cases hticks
  | cons call calls ih =>
    cases call with
    | receive env packet addr batch =>
      rw [List.countP_cons_of_neg Bool.false_ne_true] at hticks
      obtain ⟨before, env', after, hsplit, hcleans⟩ :=
        ih (h := (machine core rater).step h (.receive env packet addr batch)) hticks
      exact ⟨.receive env packet addr batch :: before, env', after, by rw [hsplit]; rfl, hcleans⟩
    | tick env =>
      by_cases hnow : (h.cleanupCounter + 1) % 3 = 0
      · exact ⟨[], env, calls, rfl, hnow⟩
      · have hsoon := skips_succ_lt hnow
        rw [List.countP_cons_of_pos (by rfl)] at hticks
        obtain ⟨before, env', after, hsplit, hcleans⟩ :=
          ih (h := (machine core rater).step h (.tick env)) (by
            show skips (h.cleanupCounter + 1) < _
            omega)
        exact ⟨.tick env :: before, env', after, by rw [hsplit]; rfl, hcleans⟩

theorem tick_cleans {h : Heartbeat C A R} (hcleans : (h.cleanupCounter + 1) % 3 = 0) (env : Env) :
    (tick core rater h env).tunnel = cleanupExpiredMappings core rater h.tunnel env :=
  if_pos hcleans

/-- **Three ticks.** Among any three consecutive ticks of a run one runs the cleanup. -/
theorem exists_cleanup (h : Heartbeat C A R) {calls : List Call}
    (hticks : 3 ≤ calls.countP Call.isTick) :
    ∃ before env after, calls = before ++ .tick env :: after ∧
      let h' := (machine core rater).run h before
      (h'.cleanupCounter + 1) % 3 = 0 ∧
      ((machine core rater).step h' (.tick env)).tunnel =
        cleanupExpiredMappings core rater h'.tunnel env := by
  have hskips : skips h.cleanupCounter < calls.countP Call.isTick :=
    Nat.lt_of_le_of_lt (skips_le h.cleanupCounter) hticks
  obtain ⟨before, env, after, hsplit, hcleans⟩ := exists_cleans core rater hskips
  exact ⟨before, env, after, hsplit, hcleans, tick_cleans core rater hcleans env⟩

end Heartbeat

/-! ## The lease of an id -/

/-- The entry of an id as a lease, for which its analyzer is held. -/
def leaseOf (t : TunnelV3 C A R) (id : UInt32) : Lease :=
  ⟨core.renewedAt t.mappings id, (t.qualityAnalyzers.get id).isSome⟩

theorem leaseOf_gone {t : TunnelV3 C A R} {id : UInt32} (h : (leaseOf core t id).Gone) :
    id ∉ t.mappings ∧ id ∉ t.qualityAnalyzers := by
  obtain ⟨hclient, hanalyzer⟩ := h
  refine ⟨RelayCore.renewedAt_eq_none.mp hclient, DashMap.get_eq_none.mp ?_⟩
  rw [← Option.isNone_iff_eq_none, ← Option.isSome_eq_false_iff]
  exact hanalyzer

theorem isSome_modify (m : DashMap UInt32 A) (k : UInt32) (f : A → A) (id : UInt32) :
    ((m.modify k f).get id).isSome = (m.get id).isSome := by
  rw [DashMap.get_modify]
  split
  · exact Option.isSome_map
  · rfl

/-- Only an accepted sender gets a new analyzer. -/
theorem isSome_analyzer_senderValid {t : TunnelV3 C A R} {env : Env} {s : UInt32} {packet : Packet}
    {addr : SocketAddr} {id : UInt32}
    (hnot : ¬ ((senderValid core rater t env s packet addr).1 = true ∧ id = s)) :
    ((senderValid core rater t env s packet addr).2.qualityAnalyzers.get id).isSome =
      (t.qualityAnalyzers.get id).isSome := by
  have hstep := senderValid_step core rater t env s packet addr
  generalize senderValid core rater t env s packet addr = out at hnot hstep
  cases hstep with
  | refreshed => exact isSome_modify _ _ _ _
  | reconnected => rw [DashMap.get_insert_ne _ _ fun hid => hnot ⟨rfl, hid⟩]
  | reconnectLimited => rfl
  | refused => rfl
  | registered => rw [DashMap.get_insert_ne _ _ fun hid => hnot ⟨rfl, hid⟩]
  | registerLimited => rfl
  | full => rfl

section Laws

variable {core} {expired : Nat → Nat → Bool} (htime : core.TimesOutBy expired)
include htime

theorem leaseOf_cleanup (t : TunnelV3 C A R) (env : Env) (id : UInt32) :
    leaseOf core (cleanupExpiredMappings core rater t env) id =
      (leaseOf core t id).sweep expired env.timestamp := by
  unfold leaseOf cleanupExpiredMappings Lease.sweep
  dsimp only
  rw [RelayCore.renewedAt_retain htime, DashMap.get_retain]
  congr 1
  -- the analyzer stays if its client, where there is one, is not timed out
  have hkeeps : (core.renewedAt t.mappings id).all (fun last => !expired last env.timestamp) =
      (t.mappings.get id).all fun client => !core.isTimedOut client env.timestamp := by
    rw [RelayCore.renewedAt, Option.all_map]
    congr 1
    funext client
    rw [htime.isTimedOut_eq]
  rw [hkeeps]
  cases t.qualityAnalyzers.get id with
  | none => rfl
  | some a =>
    rw [Option.filter_some]
    cases (t.mappings.get id).all fun client => !core.isTimedOut client env.timestamp with
    | true => rfl
    | false => rfl

theorem leaseOf_relay (t : TunnelV3 C A R) (env : Env) (r : UInt32) (packet : Packet)
    (addr : SocketAddr) (batch : LocalMetricsBatch) (id : UInt32) :
    leaseOf core (relay core t env r packet addr batch).1 id = leaseOf core t id := by
  unfold relay leaseOf
  split
  · split
    · dsimp only
      rw [RelayCore.renewedAt_updateStats htime]
    · dsimp only
      rw [isSome_modify]
  · rfl

/-- An accepted sender renews its entry, and nothing else is renewed. -/
theorem renewedAt_senderValid (t : TunnelV3 C A R) (env : Env) (s : UInt32) (packet : Packet)
    (addr : SocketAddr) (id : UInt32) :
    core.renewedAt (senderValid core rater t env s packet addr).2.mappings id =
      if (senderValid core rater t env s packet addr).1 = true ∧ id = s then some env.timestamp
      else core.renewedAt t.mappings id := by
  have hstep := senderValid_step core rater t env s packet addr
  generalize senderValid core rater t env s packet addr = out at hstep
  have hinsert := RelayCore.renewedAt_insert htime t.mappings s addr env.timestamp id
  cases hstep with
  | refreshed client hget _ =>
    simp only [true_and]
    exact RelayCore.renewedAt_refresh htime hget packet.length env.timestamp id
  | reconnected => simpa only [true_and] using hinsert
  | reconnectLimited => rw [if_neg fun h => Bool.false_ne_true h.1]
  | refused => rw [if_neg fun h => Bool.false_ne_true h.1]
  | registered => simpa only [true_and] using hinsert
  | registerLimited => rw [if_neg fun h => Bool.false_ne_true h.1]
  | full => rw [if_neg fun h => Bool.false_ne_true h.1]

theorem lease_senderValid (t : TunnelV3 C A R) (env : Env) (s : UInt32) (packet : Packet)
    (addr : SocketAddr) (id : UInt32) :
    LeaseStep expired env.timestamp
      ((senderValid core rater t env s packet addr).1 = true ∧ id = s) (leaseOf core t id)
      (leaseOf core (senderValid core rater t env s packet addr).2 id) := by
  have hrenewed := renewedAt_senderValid rater htime t env s packet addr id
  by_cases hvalid : (senderValid core rater t env s packet addr).1 = true ∧ id = s
  · rw [if_pos hvalid] at hrenewed
    rw [leaseOf, leaseOf, hrenewed]
    exact .renew _ _ hvalid
  · rw [if_neg hvalid] at hrenewed
    refine .keep hrenewed fun hheld => ?_
    exact (isSome_analyzer_senderValid core rater hvalid).trans hheld

/-- A cleanup touches neither table under an id whose lease is not over. -/
theorem cleanup_kept (hage : Ageing expired) (t : TunnelV3 C A R) (env : Env) {id : UInt32}
    {since : Nat} (hfresh : (leaseOf core t id).Fresh since)
    (hend : expired since env.timestamp = false) :
    (cleanupExpiredMappings core rater t env).mappings.get id = t.mappings.get id ∧
    (cleanupExpiredMappings core rater t env).qualityAnalyzers.get id =
      t.qualityAnalyzers.get id := by
  obtain ⟨client, hget, hlive, hkept⟩ := RelayCore.get_retain_fresh htime hage hfresh hend
  refine ⟨hkept.trans hget.symm, ?_⟩
  unfold cleanupExpiredMappings
  dsimp only
  rw [DashMap.get_retain, hget, Option.all_some, hlive]
  cases t.qualityAnalyzers.get id with
  | none => rfl
  | some a => rfl

theorem lease_executeCommand {renews : Prop} (t : TunnelV3 C A R) (env : Env) (packet : Packet)
    (id : UInt32) :
    LeaseStep expired env.timestamp renews (leaseOf core t id)
      (leaseOf core (executeCommand core rater t env packet) id) := by
  have hstep := executeCommand_step core rater t env packet
  generalize executeCommand core rater t env packet = t' at hstep
  cases hstep with
  | ignored => exact .keep rfl fun h => h
  | noEffect => exact .keep rfl fun h => h
  | toggled _ => exact .keep rfl fun h => h
  | cleaned _ =>
    rw [leaseOf_cleanup rater htime]
    exact .sweep _

/-- **A packet** renews the lease of its id if it is accepted, and sweeps the leases if it is
a command to do so. -/
theorem lease_onReceive (t : TunnelV3 C A R) (env : Env) (packet : Packet) (addr : SocketAddr)
    (batch : LocalMetricsBatch) (id : UInt32) :
    LeaseStep expired env.timestamp
      (Accepts core rater t env packet addr id) (leaseOf core t id)
      (leaseOf core (onReceive core rater t env packet addr batch).1 id) := by
  have hstep := onReceive_step core rater t env packet addr batch
  generalize onReceive core rater t env packet addr batch = out at hstep
  cases hstep with
  | short _ => exact .keep rfl fun h => h
  | command s r _ _ => exact lease_executeCommand rater htime t env packet id
  | dropped _ => exact .keep rfl fun h => h
  | pingLimited _ => exact .keep rfl fun h => h
  | ping _ _ => exact .keep rfl fun h => h
  | forward s r hf =>
    have hsender := lease_senderValid rater htime t env s packet addr id
    have haccepts : (senderValid core rater t env s packet addr).1 = true ∧ id = s →
        Accepts core rater t env packet addr id := by
      rintro ⟨hvalid, rfl⟩
      exact ⟨⟨r, hf⟩, hvalid⟩
    have hmono := hsender.mono haccepts
    unfold handleDataForward
    dsimp only
    split
    · exact hmono
    · rw [leaseOf_relay htime]
      exact hmono

/-! ## Runs -/

namespace Heartbeat

/-- **Every call** is a step on the lease of every id. -/
theorem leased (id : UInt32) :
    Leased (machine core rater) expired (fun h => leaseOf core h.tunnel id)
      Call.time (fun h call => Renews core rater h call id) := by
  intro h call
  cases call with
  | tick env =>
    simp only [machine, tick]
    split
    · rw [leaseOf_cleanup rater htime]
      exact .sweep _
    · exact .keep rfl fun h => h
  | receive env packet addr batch =>
    refine (lease_onReceive rater htime h.tunnel env packet addr batch id).mono ?_
    exact fun haccepts => ⟨env, packet, addr, batch, rfl, haccepts⟩

/-- **A silent id** that has timed out at a tick is gone two ticks later at the latest. -/
theorem expired_gone (hage : Ageing expired) (h : Heartbeat C A R) (env : Env)
    {calls : List Call} {id : UInt32} {c : C}
    (hget : h.tunnel.mappings.get id = some c) (hto : core.isTimedOut c env.timestamp = true)
    (hmono : ((Call.tick env :: calls).map Call.time).Pairwise (· ≤ ·))
    (hsilent : ∀ call ∈ calls, call.sender ≠ some id)
    (hticks : 2 ≤ calls.countP Call.isTick) :
    let h' := (machine core rater).run h (.tick env :: calls)
    id ∉ h'.tunnel.mappings ∧ id ∉ h'.tunnel.qualityAnalyzers := by
  intro h'
  have hlapsed := RelayCore.lapsed_of_isTimedOut htime
    (h.tunnel.qualityAnalyzers.get id).isSome hget hto
  rw [List.map_cons, List.pairwise_cons, List.forall_mem_map] at hmono
  have hquiet : ∀ call ∈ Call.tick env :: calls,
      env.timestamp ≤ call.time ∧ call.sender ≠ some id := by
    rw [List.forall_mem_cons]
    exact ⟨⟨Nat.le_refl _, fun hsender => nomatch hsender⟩,
      fun call hcall => ⟨hmono.1 call hcall, hsilent call hcall⟩⟩
  have hunrenewed := (machine core rater).along_mono
    (D := fun h call => env.timestamp ≤ call.time ∧ ¬ Renews core rater h call id)
    (fun h call hcall => ⟨hcall.1, fun hrenews => hcall.2 (hrenews.sender core rater)⟩)
    ((machine core rater).along_of_mem hquiet h)
  have hskips : skips h.cleanupCounter < (Call.tick env :: calls).countP Call.isTick := by
    rw [List.countP_cons_of_pos (by rfl)]
    exact Nat.lt_of_le_of_lt (skips_le h.cleanupCounter) (Nat.succ_lt_succ hticks)
  obtain ⟨before, env', after, hsplit, hcleans⟩ := exists_cleans core rater hskips
  apply leaseOf_gone core
  show (leaseOf core ((machine core rater).run h (.tick env :: calls)).tunnel id).Gone
  rw [hsplit] at hunrenewed ⊢
  refine (leased rater htime id).gone_run hage hlapsed hunrenewed ?_
  rw [show (machine core rater).step _ (.tick env') = tick core rater _ env' from rfl,
    tick_cleans core rater hcleans]
  exact leaseOf_cleanup rater htime _ env' id

theorem fresh_renews {h : Heartbeat C A R} {call : Call} {id : UInt32}
    (hrenews : Renews core rater h call id) :
    (leaseOf core ((machine core rater).step h call).tunnel id).Fresh call.time := by
  obtain ⟨env, packet, addr, batch, rfl, ⟨r, hreaches⟩, hvalid⟩ := hrenews
  have hrenewed := renewedAt_senderValid rater htime h.tunnel env id packet addr id
  rw [if_pos ⟨hvalid, rfl⟩] at hrenewed
  show (leaseOf core (onReceive core rater h.tunnel env packet addr batch).1 id).Fresh _
  rw [hreaches.onReceive_eq]
  unfold handleDataForward
  dsimp only
  rw [if_neg (by rw [hvalid]; exact Bool.false_ne_true), leaseOf_relay htime]
  exact ⟨env.timestamp, hrenewed, Nat.le_refl _⟩

/-- What a tick or a command may clean it leaves under an id whose lease is not over. -/
theorem cleans_kept (hage : Ageing expired) (h : Heartbeat C A R) {call : Call} {id : UInt32}
    {since : Nat}
    (hcleans : call.cleans) (hfresh : (leaseOf core h.tunnel id).Fresh since)
    (hend : expired since call.time = false) :
    ((machine core rater).step h call).tunnel.mappings.get id = h.tunnel.mappings.get id ∧
    ((machine core rater).step h call).tunnel.qualityAnalyzers.get id =
      h.tunnel.qualityAnalyzers.get id := by
  cases call with
  | tick env =>
    simp only [machine, tick]
    split
    · exact cleanup_kept rater htime hage h.tunnel env hfresh hend
    · exact ⟨rfl, rfl⟩
  | receive env packet addr batch =>
    obtain ⟨s, r, hheader, hcommand⟩ := hcleans
    have hexec : (onReceive core rater h.tunnel env packet addr batch).1 =
        executeCommand core rater h.tunnel env packet := by
      unfold onReceive
      simp only [hheader, if_pos hcommand]
    simp only [machine, hexec]
    have hstep := executeCommand_step core rater h.tunnel env packet
    generalize executeCommand core rater h.tunnel env packet = t' at hstep
    cases hstep with
    | ignored => exact ⟨rfl, rfl⟩
    | noEffect => exact ⟨rfl, rfl⟩
    | toggled _ => exact ⟨rfl, rfl⟩
    | cleaned _ => exact cleanup_kept rater htime hage _ env hfresh hend

/-- **A cleanup** keeps an entry whose time since it was created or refreshed is not over. -/
theorem renewed_kept (hage : Ageing expired) (h : Heartbeat C A R) {call cleanup : Call}
    {calls : List Call} {id : UInt32} (hrenews : Renews core rater h call id)
    (hmono : ((call :: calls ++ [cleanup]).map Call.time).Pairwise (· ≤ ·))
    (hrecent : expired call.time cleanup.time = false)
    (hcleans : cleanup.cleans) :
    let h' := (machine core rater).run h (call :: calls)
    ∃ client, h'.tunnel.mappings.get id = some client ∧
      ((machine core rater).step h' cleanup).tunnel.mappings.get id = some client ∧
      ((machine core rater).step h' cleanup).tunnel.qualityAnalyzers.get id =
        h'.tunnel.qualityAnalyzers.get id := by
  intro h'
  have hfresh : (leaseOf core h'.tunnel id).Fresh call.time :=
    (leased rater htime id).renewed_run hage (fresh_renews rater htime hrenews) hmono hrecent
  obtain ⟨hmappings, hanalyzers⟩ := cleans_kept rater htime hage h' hcleans hfresh hrecent
  obtain ⟨last, hlast, _⟩ := hfresh
  obtain ⟨client, hget, _⟩ := Option.map_eq_some_iff.mp hlast
  exact ⟨client, hget, hmappings.trans hget, hanalyzers⟩

end Heartbeat

end Laws

end CncnetServer.TunnelV3
