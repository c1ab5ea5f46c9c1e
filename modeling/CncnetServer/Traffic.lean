import CncnetServer.Bindings
import CncnetServer.Metrics
import CncnetServer.Lib.Heap
import CncnetServer.Lib.History
import CncnetServer.Lib.Threads

/-!
The traffic of the workers of a tunnel, under any interleaving: the calls of
`handle_data_forward` that start, and the datagrams that are sent.

* `Authorised`: a datagram is the packet its worker is handling, and goes to an endpoint
  that has itself sent a packet as the receiver;
* `Sourced`: the clients of a map belong to endpoints that have been heard;
* `forwardOf`: what a call of an established client sends, read off a fixed table;
* `Forwarded`: what a worker has sent so far, against that.
-/

namespace CncnetServer

open Threads Runs History

/-- What the workers of a tunnel with ids `K` hear and send. -/
inductive Traffic (K : Type)
  | heard (senderId receiverId : K) (packet : Packet) (addr : SocketAddr)
  | sent (datagram : Datagram)
  deriving DecidableEq

namespace Traffic

variable {K ι : Type}

def datagram? : Traffic K → Option Datagram
  | .heard _ _ _ _ => none
  | .sent d => some d

/-- The calls of a history, in the order in which they start. -/
def calls (tr : List (ι × Traffic K)) : List (Traffic K) :=
  (tr.map Prod.snd).filter fun e => e.datagram?.isNone

/-- The datagrams of a history, in the order in which they are sent. -/
def datagrams (tr : List (ι × Traffic K)) : List Datagram := (tr.map Prod.snd).filterMap datagram?

/-- A packet of `addr` with sender id `id` has been heard. -/
def HeardFrom (tr : List (ι × Traffic K)) (id : K) (addr : SocketAddr) : Prop :=
  ∃ i r packet, (i, .heard id r packet addr) ∈ tr

/-- The last that the worker has shown is the packet it sends now, which came from elsewhere,
and the receiver of the packet has been heard from the endpoint it goes to. -/
def Authorised [DecidableEq ι] (before : List (ι × Traffic K)) : ι × Traffic K → Prop
  | (i, .sent d) => ∃ s r addr, (shownBy i before).getLast? = some (.heard s r d.payload addr) ∧
      d.dest ≠ addr ∧ HeardFrom before r d.dest
  | (_, .heard _ _ _ _) => True

theorem HeardFrom.append {tr : List (ι × Traffic K)} {id : K} {addr : SocketAddr}
    (h : HeardFrom tr id addr) (es : List (ι × Traffic K)) : HeardFrom (tr ++ es) id addr := by
  obtain ⟨i, r, packet, hmem⟩ := h
  exact ⟨i, r, packet, List.mem_append_left es hmem⟩

/-- What a call sends if the endpoints are those of the table: the packet, to the receiver's
endpoint, if it comes from the sender's endpoint and not from the receiver's. -/
def forwardOf (table : K → Option SocketAddr) : Traffic K → Option Datagram
  | .heard s r packet addr =>
    if table s = some addr then
      ((table r).filter fun b => decide (b ≠ addr)).map fun b => ⟨packet, b⟩
    else none
  | .sent _ => none

/-- The datagrams that a worker has sent and the one that it still owes are what its calls
send. -/
def Forwarded (table : K → Option SocketAddr) (shown : List (Traffic K)) (owed : Option Datagram) :
    Prop :=
  shown.filterMap datagram? ++ owed.toList = shown.filterMap (forwardOf table)

section Forwarded

variable {table : K → Option SocketAddr} {shown : List (Traffic K)}

theorem forwarded_nil : Forwarded table [] none := rfl

theorem Forwarded.hear (h : Forwarded table shown none) (s r : K) (packet : Packet) (addr : SocketAddr) :
    Forwarded table (shown ++ [.heard s r packet addr])
      (forwardOf table (.heard s r packet addr)) := by
  unfold Forwarded at h ⊢
  rw [List.filterMap_append, List.filterMap_append, ← h]
  cases hf : forwardOf table (.heard s r packet addr) <;> simp [datagram?, hf]

theorem Forwarded.send {d : Datagram} (h : Forwarded table shown (some d)) :
    Forwarded table (shown ++ [.sent d]) none := by
  unfold Forwarded at h ⊢
  rw [List.filterMap_append, List.filterMap_append, ← h]
  simp [datagram?, forwardOf]

/-- Nothing is owed. -/
theorem Forwarded.settled (h : Forwarded table shown none) :
    shown.filterMap datagram? = shown.filterMap (forwardOf table) := by
  unfold Forwarded at h
  rw [← h, Option.toList_none, List.append_nil]

end Forwarded

/-- Where a packet of the sender's endpoint goes. -/
theorem forwardOf_bound {table : K → Option SocketAddr} {s r : K} {packet : Packet}
    {addr : SocketAddr} (h : table s = some addr) :
    forwardOf table (.heard s r packet addr) =
      ((table r).filter fun b => decide (b ≠ addr)).map fun b => ⟨packet, b⟩ := if_pos h

theorem forwardOf_foreign {table : K → Option SocketAddr} {s r : K} {packet : Packet}
    {addr : SocketAddr} (h : table s ≠ some addr) :
    forwardOf table (.heard s r packet addr) = none := if_neg h

/-- Only calls make datagrams. -/
theorem filterMap_calls (table : K → Option SocketAddr) (tr : List (ι × Traffic K)) :
    (calls tr).filterMap (forwardOf table) = (tr.map Prod.snd).filterMap (forwardOf table) := by
  rw [calls, List.filterMap_filter]
  congr 1
  funext e
  cases e <;> rfl

/-- A call of `handle_data_forward`, made after the one before has returned. -/
structure Turn (K : Type) where
  env : Env
  senderId : K
  receiverId : K
  packet : Packet
  addr : SocketAddr
  batch : LocalMetricsBatch

def Turn.heard (c : Turn K) : Traffic K := .heard c.senderId c.receiverId c.packet c.addr

/-- Where every call sends what the table says and leaves the table as it is, so do the calls
one after another. -/
theorem forwards_trace {σ : Type} {M : Machine σ (Turn K) Datagram}
    (tableOf : σ → K → Option SocketAddr) {P : σ → Turn K → Prop}
    (hturn : ∀ t c, P t c → M.emit t c = (forwardOf (tableOf t) c.heard).toList ∧
      tableOf (M.step t c) = tableOf t)
    {t : σ} {turns : List (Turn K)} (hP : M.Along P t turns) :
    M.trace t turns = (turns.map Turn.heard).filterMap (forwardOf (tableOf t)) := by
  induction turns generalizing t with
  | nil => rfl
  | cons c turns ih =>
    obtain ⟨hemit, hsame⟩ := hturn t c hP.1
    rw [Machine.trace_cons, hemit, ih hP.2, hsame, List.map_cons, List.filterMap_cons]
    cases forwardOf (tableOf t) c.heard <;> rfl

/-- What workers that owe nothing have sent is what their calls send one after another, up to
the order. -/
theorem datagrams_perm [DecidableEq ι] [Fintype ι] {table : K → Option SocketAddr}
    {tr : List (ι × Traffic K)} (h : ∀ i, Forwarded table (shownBy i tr) none)
    {turns : List (Turn K)} (hturns : turns.map Turn.heard = calls tr) :
    (datagrams tr).Perm ((turns.map Turn.heard).filterMap (forwardOf table)) := by
  rw [hturns, filterMap_calls]
  exact perm_of_shownBy fun i => (h i).settled

/-- The interleaving has not mattered: every worker has sent what the table says for its calls,
and all of them together what the calls send one after another. -/
structure OrderFree [DecidableEq ι] {σ : Type} (table : K → Option SocketAddr)
    (tr : List (ι × Traffic K)) (oneByOne : Machine σ (Turn K) Datagram)
    (Established : σ → Turn K → Prop) (t : σ) : Prop where
  byWorker : ∀ i, (shownBy i tr).filterMap datagram? = (shownBy i tr).filterMap (forwardOf table)
  inTurns : ∀ turns : List (Turn K), turns.map Turn.heard = calls tr →
    oneByOne.Along Established t turns → (datagrams tr).Perm (oneByOne.trace t turns)

theorem OrderFree.of_forwarded [DecidableEq ι] [Fintype ι] {σ : Type}
    {table : K → Option SocketAddr} {tr : List (ι × Traffic K)} {M : Machine σ (Turn K) Datagram}
    (tableOf : σ → K → Option SocketAddr) {P : σ → Turn K → Prop} {t : σ}
    (h : ∀ i, Forwarded table (shownBy i tr) none)
    (hturn : ∀ t c, P t c → M.emit t c = (forwardOf (tableOf t) c.heard).toList ∧
      tableOf (M.step t c) = tableOf t) (ht : tableOf t = table) : OrderFree table tr M P t where
  byWorker i := (h i).settled
  inTurns turns hturns hP := by
    rw [forwards_trace tableOf hturn hP, ht]
    exact datagrams_perm h hturns

end Traffic

/-! ## The clients behind the references -/

namespace RelayCore

variable {C A K : Type} [DecidableEq K] (core : RelayCore C A)

/-- The clients that were allocated still have their endpoints. -/
structure KeepsEndpoints (h h' : Heap C) : Prop where
  next : h.next ≤ h'.next
  remoteEp : ∀ r < h.next, core.remoteEp (h'.cell r) = core.remoteEp (h.cell r)

/-- Every entry refers to an allocated client, and its endpoint, where it has one, is among
those that were heard for the id. -/
def Sourced (heard : K → SocketAddr → Prop) (m : DashMap K Ref) (h : Heap C) : Prop :=
  ∀ id r, m.get id = some r → r < h.next ∧ ∀ addr, core.remoteEp (h.cell r) = some addr → heard id addr

/-- The endpoint of the client under an id. -/
def endpointAt (m : DashMap K Ref) (h : Heap C) (id : K) : Option SocketAddr :=
  (m.get id).bind fun r => core.remoteEp (h.cell r)

variable {core} {h h' : Heap C} {m : DashMap K Ref} {heard : K → SocketAddr → Prop}

theorem KeepsEndpoints.refl (h : Heap C) : core.KeepsEndpoints h h :=
  ⟨Nat.le_refl _, fun _ _ => rfl⟩

theorem KeepsEndpoints.alloc (h : Heap C) (c : C) : core.KeepsEndpoints h (h.alloc c) :=
  ⟨Nat.le_succ _, fun r hr => by rw [Heap.cell_alloc_of_lt h c hr]⟩

theorem KeepsEndpoints.modify (h : Heap C) (r : Ref) {f : C → C}
    (hf : ∀ c, core.remoteEp (f c) = core.remoteEp c) : core.KeepsEndpoints h (h.modify r f) :=
  ⟨Nat.le_refl _, fun j _ => Heap.apply_cell_modify core.remoteEp hf h r j⟩

theorem KeepsEndpoints.lt (hkeep : core.KeepsEndpoints h h') {r : Ref} (hr : r < h.next) :
    r < h'.next := Nat.lt_of_lt_of_le hr hkeep.next

theorem Sourced.mono {heard' : K → SocketAddr → Prop} (hs : core.Sourced heard m h)
    (hheard : ∀ id addr, heard id addr → heard' id addr) : core.Sourced heard' m h := by
  intro id r hget
  obtain ⟨hr, hep⟩ := hs id r hget
  exact ⟨hr, fun addr haddr => hheard id addr (hep addr haddr)⟩

theorem Sourced.keep (hs : core.Sourced heard m h) (hkeep : core.KeepsEndpoints h h') :
    core.Sourced heard m h' := by
  intro id r hget
  obtain ⟨hr, hep⟩ := hs id r hget
  refine ⟨hkeep.lt hr, fun addr haddr => hep addr ?_⟩
  rw [← hkeep.remoteEp r hr]
  exact haddr

theorem Sourced.insert (hs : core.Sourced heard m h) {id : K} {r : Ref} (hr : r < h.next)
    (hep : ∀ addr, core.remoteEp (h.cell r) = some addr → heard id addr) :
    core.Sourced heard (m.insert id r) h := by
  intro j r' hget
  by_cases hj : j = id
  · subst hj
    rw [DashMap.get_insert_self] at hget
    cases hget
    exact ⟨hr, hep⟩
  · rw [DashMap.get_insert_ne _ _ hj] at hget
    exact hs j r' hget

theorem Sourced.remove (hs : core.Sourced heard m h) (id : K) :
    core.Sourced heard (m.remove id) h := by
  intro j r hget
  rw [DashMap.get_remove] at hget
  split at hget
  · cases hget
  · exact hs j r hget

theorem endpointOf_mapValues (m : DashMap K Ref) (h : Heap C) :
    core.endpointOf (m.mapValues h.cell) = core.endpointAt m h := by
  funext id
  rw [endpointOf, DashMap.get_mapValues, Option.bind_map]
  rfl

theorem endpointAt_insert (m : DashMap K Ref) (h : Heap C) (id : K) (r : Ref) :
    core.endpointAt (m.insert id r) h =
      Function.update (core.endpointAt m h) id (core.remoteEp (h.cell r)) := by
  funext j
  unfold endpointAt
  rw [DashMap.get_insert, Function.update_apply]
  split <;> rfl

theorem endpointAt_remove (m : DashMap K Ref) (h : Heap C) (id : K) :
    core.endpointAt (m.remove id) h = Function.update (core.endpointAt m h) id none := by
  funext j
  unfold endpointAt
  rw [DashMap.get_remove, Function.update_apply]
  split <;> rfl

/-- The clients in the map keep their endpoints. -/
theorem KeepsEndpoints.endpointAt (hkeep : core.KeepsEndpoints h h')
    (hm : ∀ id r, m.get id = some r → r < h.next) :
    core.endpointAt m h' = core.endpointAt m h := by
  funext id
  unfold RelayCore.endpointAt
  cases hget : m.get id with
  | none => rfl
  | some r => exact hkeep.remoteEp r (hm id r hget)

/-- Where the relay of the sequential tunnel sends a packet of its sender's endpoint. -/
theorem forwardInfo_forwardOf {m m' : DashMap K C} (hsame : core.endpointOf m' = core.endpointOf m)
    {s r : K} {packet : Packet} {addr : SocketAddr} (hbound : core.endpointOf m s = some addr) :
    (core.forwardInfo m' r addr).map (fun b => (⟨packet, b⟩ : Datagram)) =
      Traffic.forwardOf (core.endpointOf m) (.heard s r packet addr) := by
  rw [Traffic.forwardOf_bound hbound]
  congr 1
  ext b
  rw [core.forwardInfo_eq_some, Option.filter_eq_some_iff, decide_eq_true_iff, hsame]

end RelayCore

end CncnetServer
