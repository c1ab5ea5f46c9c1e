import CncnetServer.V3.Run
import CncnetServer.V2.Run
import CncnetServer.V2.Allocation

/-!
How many clients a tunnel holds when its calls run one after another: never more than its
`max_clients`, which never changes.
-/

namespace CncnetServer

open Runs

variable {C A R : Type} (core : RelayCore C A) (rater : Rater R)

/-! ## V3 -/

namespace TunnelV3

structure Occupancy (capacity : Nat) (t : TunnelV3 C A R) : Prop where
  maxClients : t.maxClients = capacity
  len : t.mappings.len ≤ capacity

section Steps

variable {capacity : Nat} {t t' : TunnelV3 C A R}

theorem Occupancy.of_keys (h : Occupancy capacity t) (hmax : t'.maxClients = t.maxClients)
    (hkeys : ∀ id, id ∈ t'.mappings → id ∈ t.mappings) : Occupancy capacity t' where
  maxClients := hmax.trans h.maxClients
  len := (DashMap.len_le_of_subset hkeys).trans h.len

theorem occupancy_new (sha1 : List UInt8 → List UInt8) (config : ServerConfig) :
    Occupancy config.maxClients (new rater sha1 config : TunnelV3 C A R) := ⟨rfl, Nat.zero_le _⟩

theorem Occupancy.cleanup (h : Occupancy capacity t) (env : Env) :
    Occupancy capacity (cleanupExpiredMappings core rater t env) := by
  refine h.of_keys rfl fun id hid => ?_
  obtain ⟨client, hget, _⟩ := DashMap.mem_retain.mp hid
  exact DashMap.mem_of_get hget

theorem Occupancy.executeCommand (h : Occupancy capacity t) (env : Env) (packet : Packet) :
    Occupancy capacity (executeCommand core rater t env packet) := by
  have hstep := executeCommand_step core rater t env packet
  generalize TunnelV3.executeCommand core rater t env packet = out at hstep ⊢
  cases hstep with
  | ignored => exact h
  | noEffect => exact ⟨h.maxClients, h.len⟩
  | toggled _ => exact ⟨h.maxClients, h.len⟩
  | cleaned _ =>
    have hticked : Occupancy capacity { t with lastCommandTick := env.elapsedSecs } :=
      ⟨h.maxClients, h.len⟩
    exact hticked.cleanup core rater env

/-- Only a registration adds an entry, and it has seen that there is room. -/
theorem Occupancy.senderValid (h : Occupancy capacity t) (env : Env) (id : UInt32) (packet : Packet)
    (addr : SocketAddr) : Occupancy capacity (senderValid core rater t env id packet addr).2 := by
  have hstep := senderValid_step core rater t env id packet addr
  generalize TunnelV3.senderValid core rater t env id packet addr = out at hstep ⊢
  cases hstep with
  | refreshed => exact h.of_keys rfl fun _ hid => DashMap.mem_modify.mp hid
  | reconnected client _ hget =>
    refine h.of_keys rfl fun j hj => ?_
    rcases DashMap.mem_insert.mp hj with rfl | hj
    · exact DashMap.mem_of_get hget
    · exact hj
  | reconnectLimited => exact ⟨h.maxClients, h.len⟩
  | refused => exact h
  | registered _ hroom _ =>
    refine ⟨h.maxClients, ?_⟩
    rw [h.maxClients] at hroom
    exact (DashMap.len_insert_le _ _ _).trans hroom
  | registerLimited => exact ⟨h.maxClients, h.len⟩
  | full => exact ⟨h.maxClients, h.len⟩

theorem Occupancy.relay (h : Occupancy capacity t) (env : Env) (r : UInt32) (packet : Packet)
    (addr : SocketAddr) (batch : LocalMetricsBatch) :
    Occupancy capacity (relay core t env r packet addr batch).1 := by
  unfold TunnelV3.relay
  split
  · split
    · exact h.of_keys rfl fun _ hid => DashMap.mem_modify.mp hid
    · exact ⟨h.maxClients, h.len⟩
  · exact h

theorem Occupancy.onReceive (h : Occupancy capacity t) (env : Env) (packet : Packet) (addr : SocketAddr)
    (batch : LocalMetricsBatch) :
    Occupancy capacity (onReceive core rater t env packet addr batch).1 := by
  have hstep := onReceive_step core rater t env packet addr batch
  generalize TunnelV3.onReceive core rater t env packet addr batch = out at hstep ⊢
  cases hstep with
  | short _ => exact h
  | command s r _ _ => exact h.executeCommand core rater env packet
  | dropped _ => exact h
  | pingLimited _ => exact ⟨h.maxClients, h.len⟩
  | ping _ _ => exact ⟨h.maxClients, h.len⟩
  | forward s r _ =>
    have hsender := h.senderValid core rater env s packet addr
    unfold handleDataForward
    generalize TunnelV3.senderValid core rater t env s packet addr = out at hsender ⊢
    obtain ⟨valid, u⟩ := out
    cases valid with
    | false => exact hsender
    | true => exact hsender.relay core env r packet addr _

end Steps

end TunnelV3

/-! ## V2 -/

namespace TunnelV2

structure Occupancy (capacity : Nat) (t : TunnelV2 C R) : Prop where
  maxClients : t.maxClients = capacity
  len : t.mappings.len ≤ capacity

section Steps

variable {capacity : Nat} {t t' : TunnelV2 C R}

theorem Occupancy.of_keys (h : Occupancy capacity t) (hmax : t'.maxClients = t.maxClients)
    (hkeys : ∀ id, id ∈ t'.mappings → id ∈ t.mappings) : Occupancy capacity t' where
  maxClients := hmax.trans h.maxClients
  len := (DashMap.len_le_of_subset hkeys).trans h.len

theorem occupancy_new (config : ServerConfig) :
    Occupancy config.maxClients (new rater config : TunnelV2 C R) := ⟨rfl, Nat.zero_le _⟩

theorem Occupancy.heartbeat (h : Occupancy capacity t) (env : Env) :
    Occupancy capacity (heartbeat core rater t env) := by
  refine h.of_keys rfl fun id hid => ?_
  obtain ⟨client, hget, _⟩ := DashMap.mem_retain.mp hid
  exact DashMap.mem_of_get hget

theorem Occupancy.acceptSender (h : Occupancy capacity t) {env : Env} {id : Int16} {packet : Packet}
    {addr : SocketAddr} (hacc : acceptSender core t env id packet addr = some t') :
    Occupancy capacity t' := by
  have hstep := acceptSender_step core t env id packet addr
  rw [hacc] at hstep
  have hinsert : ∀ {client c' : C}, t.mappings.get id = some client →
      ∀ j, j ∈ t.mappings.insert id c' → j ∈ t.mappings := by
    intro client c' hget j hj
    rcases DashMap.mem_insert.mp hj with rfl | hj
    · exact DashMap.mem_of_get hget
    · exact hj
  cases hstep with
  | claimed client hget _ => exact h.of_keys rfl (hinsert hget)
  | reconnected client ep hget _ _ _ => exact h.of_keys rfl (hinsert hget)
  | refreshed => exact h.of_keys rfl fun _ hid => DashMap.mem_modify.mp hid

theorem Occupancy.relay (h : Occupancy capacity t) (env : Env) (r : Int16) (packet : Packet)
    (addr : SocketAddr) (batch : LocalMetricsBatch) :
    Occupancy capacity (relay core t env r packet addr batch).1 := by
  unfold TunnelV2.relay
  split
  · split
    · exact h.of_keys rfl fun _ hid => DashMap.mem_modify.mp hid
    · exact h
  · exact h

theorem Occupancy.onUdpReceive (h : Occupancy capacity t) (env : Env) (packet : Packet) (addr : SocketAddr)
    (batch : LocalMetricsBatch) :
    Occupancy capacity (onUdpReceive core rater t env packet addr batch).1 := by
  have hstep := onUdpReceive_step core rater t env packet addr batch
  generalize TunnelV2.onUdpReceive core rater t env packet addr batch = out at hstep ⊢
  cases hstep with
  | short _ => exact h
  | dropped _ => exact h
  | pingLimited _ => exact ⟨h.maxClients, h.len⟩
  | ping _ _ => exact ⟨h.maxClients, h.len⟩
  | forward s r _ =>
    unfold handleDataForward
    split
    · rename_i u hacc
      exact (h.acceptSender core hacc).relay core env r packet addr _
    · exact h

theorem maxClients_handleRequest (t : TunnelV2 C R) (now : Nat) (draws : Nat → Int16)
    (query : Option (List Char)) :
    (handleRequest core t now draws query).2.maxClients = t.maxClients := by
  unfold TunnelV2.handleRequest
  split
  · rfl
  dsimp only
  split
  · rfl
  split
  · rfl
  split <;> rfl

/-- An answer 200 leaves no more than `max_clients` entries, and any other answer no new ones. -/
theorem Occupancy.handleRequest (h : Occupancy capacity t) (now : Nat) (draws : Nat → Int16)
    (query : Option (List Char)) : Occupancy capacity (handleRequest core t now draws query).2 := by
  have hmax := maxClients_handleRequest core t now draws query
  by_cases hok : (TunnelV2.handleRequest core t now draws query).1.status = .ok
  · obtain ⟨ids, hids⟩ := handleRequest_ok core t now draws query hok
    exact ⟨hmax.trans h.maxClients, hids.len.trans_eq h.maxClients⟩
  · refine h.of_keys hmax fun id hid => ?_
    rw [DashMap.mem_iff_get, handleRequest_not_ok core t now draws query hok] at hid
    exact DashMap.mem_iff_get.mpr hid

theorem Occupancy.handleHttpRequest (h : Occupancy capacity t) (now : Nat) (draws : Nat → Int16)
    (req : Request) (addr : SocketAddr) :
    Occupancy capacity (handleHttpRequest core rater t now draws req addr).2 := by
  unfold TunnelV2.handleHttpRequest handleMaintenance
  dsimp only
  split
  · exact ⟨h.maxClients, h.len⟩
  split
  · exact ⟨h.maxClients, h.len⟩
  split
  · refine Occupancy.handleRequest core ?_ now draws req.query
    exact ⟨h.maxClients, h.len⟩
  split
  · split
    · exact ⟨h.maxClients, h.len⟩
    split <;> exact ⟨h.maxClients, h.len⟩
  split <;> exact ⟨h.maxClients, h.len⟩

/-- Every call keeps the tunnel within its capacity. -/
theorem Occupancy.step (h : Occupancy capacity t) (e : Event) :
    Occupancy capacity ((machine core rater).step t e) := by
  cases e with
  | receive env packet addr batch => exact h.onUdpReceive core rater env packet addr batch
  | http env draws req addr => exact h.handleHttpRequest core rater env.timestamp draws req addr
  | heartbeat env => exact h.heartbeat core rater env
  | toggleMaintenance env => exact ⟨h.maxClients, h.len⟩

end Steps

end TunnelV2

end CncnetServer
