import CncnetServer.RelayCore
import CncnetServer.Lib.DashMap
import CncnetServer.Lib.Slots
import Mathlib.Logic.Function.Basic
import Mathlib.Tactic.Common

/-!
The mappings of a tunnel: the two tests that both tunnels make on a packet (each
tunnel has its own copy of them), the mappings seen as a binding table, and the row
step that each change the tunnels make to their mappings is: a client inserted for
the source of a packet, a refresh, an update of statistics, and the pass of `retain`.

`last` reads the last-receive time of a client; statements that need no time
use a constant one and then rely only on `FixedEndpoint`.
-/

namespace CncnetServer.RelayCore

open Slots

variable {C A K : Type} [DecidableEq K] (core : RelayCore C A)

/-- `validate_packet` of both tunnels. -/
def validatePacket [OfNat K 0] (senderId receiverId : K) (addr : SocketAddr) : Bool :=
  if senderId = receiverId ∧ senderId ≠ 0 then false else core.validateAddress addr

/-- `forward_info` of both tunnels: the receiver's endpoint, unless it is the
source of the packet. -/
def forwardInfo (m : DashMap K C) (receiverId : K) (remoteAddr : SocketAddr) :
    Option SocketAddr :=
  match m.get receiverId with
  | some receiver =>
    match core.remoteEp receiver with
    | some ep => if ep = remoteAddr then none else some ep
    | none => none
  | none => none

def slotOf (last : C → Nat) (client : C) : Slot SocketAddr := ⟨core.remoteEp client, last client⟩

/-- The mappings as a binding table. -/
def view (last : C → Nat) (m : DashMap K C) : Slots.Table K SocketAddr :=
  fun id => (m.get id).map (core.slotOf last)

/-- The endpoint an id is bound to. -/
def endpointOf (m : DashMap K C) (id : K) : Option SocketAddr := (m.get id).bind core.remoteEp

theorem validatePacket_eq_true [OfNat K 0] {s r : K} {addr : SocketAddr} :
    core.validatePacket s r addr = true ↔
      (s = r → s = 0) ∧ core.validateAddress addr = true := by
  unfold validatePacket
  split
  · rename_i h
    constructor
    · intro hf; cases hf
    · intro hv; exact absurd (hv.1 h.1) h.2
  · rename_i h
    have hzero : s = r → s = 0 := fun hsr => by_contra fun h0 => h ⟨hsr, h0⟩
    exact ⟨fun hv => ⟨hzero, hv⟩, And.right⟩

theorem forwardInfo_eq_some {m : DashMap K C} {r : K} {addr b : SocketAddr} :
    core.forwardInfo m r addr = some b ↔ core.endpointOf m r = some b ∧ b ≠ addr := by
  unfold forwardInfo endpointOf
  cases m.get r with
  | none => simp
  | some c =>
    cases hep : core.remoteEp c with
    | none => simp [hep]
    | some ep =>
      by_cases h : ep = addr
      · simp only [hep, h, if_true, Option.bind_some, Option.some.injEq]
        constructor
        · intro hb; cases hb
        · rintro ⟨rfl, hne⟩; exact absurd rfl hne
      · simp only [hep, h, if_false, Option.some.injEq, Option.bind_some]
        constructor
        · rintro rfl; exact ⟨rfl, h⟩
        · exact And.left

theorem boundTo_view (last : C → Nat) {m : DashMap K C} {id : K} {e : SocketAddr} :
    BoundTo (core.view last m id) e ↔ core.endpointOf m id = some e := by
  unfold BoundTo view endpointOf slotOf
  cases m.get id with
  | none => simp
  | some c => simp

/-- Equal tables have equal bindings. -/
theorem endpointOf_congr {last : C → Nat} {m m' : DashMap K C}
    (h : core.view last m = core.view last m') : core.endpointOf m = core.endpointOf m' := by
  funext id
  ext e
  rw [← core.boundTo_view last, ← core.boundTo_view last, h]

theorem endpointOf_insert_self (hcore : core.FixedEndpoint) (m : DashMap K C) (id : K)
    (addr : SocketAddr) (now : Nat) :
    core.endpointOf (m.insert id (core.newWithEndpoint addr now)) id = some addr := by
  simp [endpointOf, hcore.remoteEp_newWithEndpoint]

/-- `set_last_receive_tick_at` and `update_stats` of the sender's client. -/
def refresh (received now : Nat) (client : C) : C :=
  core.updateStats (core.setLastReceiveTickAt client now) received 0 now

theorem remoteEp_refresh (hcore : core.FixedEndpoint) (received now : Nat) (c : C) :
    core.remoteEp (core.refresh received now c) = core.remoteEp c := by
  simp [refresh, hcore.remoteEp_updateStats, hcore.remoteEp_setLastReceiveTickAt]

theorem lastReceive_refresh {expired : Nat → Nat → Bool} (htime : core.TimesOutBy expired)
    (received now : Nat) (c : C) :
    core.lastReceive (core.refresh received now c) = now := by
  simp [refresh, htime.lastReceive_updateStats, htime.lastReceive_setLastReceiveTickAt]

/-- What changes no client's endpoint changes no binding. -/
theorem endpointOf_modify {f : C → C} (hf : ∀ c, core.remoteEp (f c) = core.remoteEp c)
    (m : DashMap K C) (id : K) : core.endpointOf (m.modify id f) = core.endpointOf m := by
  funext j
  unfold endpointOf
  rw [DashMap.get_modify]
  by_cases hj : j = id
  · rw [if_pos hj, Option.bind_map]
    exact congrArg _ (funext hf)
  · rw [if_neg hj]

theorem endpointOf_refresh (hcore : core.FixedEndpoint) {m : DashMap K C} {id : K} {client : C}
    {addr : SocketAddr} (hget : m.get id = some client) (hep : core.remoteEp client = some addr)
    (received now : Nat) :
    core.endpointOf (m.modify id (core.refresh received now)) id = some addr := by
  unfold endpointOf
  rw [DashMap.get_modify, if_pos rfl, hget, Option.map_some, Option.bind_some,
    core.remoteEp_refresh hcore, hep]

section Times

variable (hcore : core.FixedEndpoint) {expired : Nat → Nat → Bool} (htime : core.TimesOutBy expired)
include hcore htime

/-- A new client for `addr` takes the slot. -/
theorem view_insert (m : DashMap K C) (id : K) (addr : SocketAddr) (now : Nat) :
    core.view core.lastReceive (m.insert id (core.newWithEndpoint addr now)) =
      Function.update (core.view core.lastReceive m) id (some ⟨some addr, now⟩) := by
  funext j
  unfold view
  rw [DashMap.get_insert, Function.update_apply]
  split
  · simp [slotOf, hcore.remoteEp_newWithEndpoint, htime.lastReceive_newWithEndpoint]
  · rfl

/-- A refresh gives the sender's slot the time of the packet. -/
theorem view_refresh {m : DashMap K C} {id : K} {client : C} {addr : SocketAddr}
    (hget : m.get id = some client) (hep : core.remoteEp client = some addr)
    (received now : Nat) :
    core.view core.lastReceive (m.modify id (core.refresh received now)) =
      Function.update (core.view core.lastReceive m) id (some ⟨some addr, now⟩) := by
  funext j
  unfold view
  rw [DashMap.get_modify, Function.update_apply]
  by_cases hj : j = id
  · subst hj
    simp [hget, slotOf, core.remoteEp_refresh hcore, hep, core.lastReceive_refresh htime]
  · simp [hj]

end Times

/-! ## Row steps -/

variable {last : C → Nat} {dead : Slot SocketAddr → Prop}

/-- A new client for `addr` under a free id. -/
theorem row_insert (hcore : core.FixedEndpoint) (m : DashMap K C) (id : K) (addr : SocketAddr)
    (now : Nat) (hfree : Free dead (core.view last m id)) (j : K) :
    RowStep dead (fun e => j = id ∧ e = addr) (core.view last m j)
      (core.view last (m.insert id (core.newWithEndpoint addr now)) j) := by
  by_cases hj : j = id
  · subst hj
    have hnew : core.view last (m.insert j (core.newWithEndpoint addr now)) j =
        some ⟨some addr, last (core.newWithEndpoint addr now)⟩ := by
      simp [view, slotOf, hcore.remoteEp_newWithEndpoint]
    rw [hnew]
    exact .bind addr _ hfree ⟨rfl, rfl⟩
  · have hsame : core.view last (m.insert id (core.newWithEndpoint addr now)) j =
        core.view last m j := by
      simp [view, DashMap.get_insert_ne _ _ hj]
    rw [hsame]
    exact .keep _

/-- A refresh of the client that `addr` owns. -/
theorem row_refresh (hcore : core.FixedEndpoint) {m : DashMap K C} {id : K} {client : C}
    {addr : SocketAddr} (hget : m.get id = some client) (hep : core.remoteEp client = some addr)
    (received now : Nat) (j : K) :
    RowStep dead (fun e => j = id ∧ e = addr) (core.view last m j)
      (core.view last (m.modify id (core.refresh received now)) j) := by
  unfold view
  rw [DashMap.get_modify]
  by_cases hj : j = id
  · subst hj
    rw [if_pos rfl, hget]
    simp only [Option.map_some, slotOf, core.remoteEp_refresh hcore, hep]
    exact .touch addr _ _ (by simp)
  · rw [if_neg hj]
    exact .keep _

/-- Statistics change no slot. -/
theorem view_updateStats (hcore : core.FixedEndpoint)
    (hlast : ∀ c r s now, last (core.updateStats c r s now) = last c) (m : DashMap K C) (id : K)
    (received sent now : Nat) :
    core.view last (m.modify id fun c => core.updateStats c received sent now) =
      core.view last m := by
  funext j
  unfold view
  rw [DashMap.get_modify]
  by_cases hj : j = id
  · rw [if_pos hj, Option.map_map]
    congr 1
    funext c
    simp [slotOf, hcore.remoteEp_updateStats, hlast]
  · rw [if_neg hj]

/-- The pass of `retain` drops timed-out clients only. -/
theorem row_retain {acc : SocketAddr → Prop} (m : DashMap K C) (now : Nat)
    (hdead : ∀ c, core.isTimedOut c now = true → dead (core.slotOf last c)) (j : K) :
    RowStep dead acc (core.view last m j)
      (core.view last (m.retain fun _ c => !core.isTimedOut c now) j) := by
  unfold view
  rw [DashMap.get_retain]
  cases m.get j with
  | none => exact .keep _
  | some c =>
    cases hto : core.isTimedOut c now with
    | true =>
      simp only [Option.filter_some, hto, Bool.not_true, Option.map_some]
      exact .expire _ (hdead c hto)
    | false =>
      simp only [Option.filter_some, hto, Bool.not_false, Option.map_some]
      exact .keep _

end CncnetServer.RelayCore
