import CncnetServer.V3.Threads
import Mathlib.Algebra.Order.BigOperators.Group.Finset

/-!
The capacity of the V3 tunnel, under every interleaving of its threads.

The capacity check and the insert are two accesses, and the reconnect path
inserts without a check. Both kinds of handlers hold a pending id in between, and
what the check bounds is the number of ids that are in the map or pending: each
worker but the one that checks can hold one more (`capacity_invariant`). Ids are
32 bits wide, which is the other bound, and the smaller of the two is reached
(`capacity_exact`).
-/

namespace CncnetServer.TunnelV3

open Threads Runs

variable {C A R : Type} (core : RelayCore C A) (rater : Rater R)

/-! ## Pending ids -/

/-- The handler may still insert its sender id. -/
def Pc.pending : Pc → Bool
  | .isTimedOut _ | .tryAcquireReconnect | .newReconnect | .insertReconnect _
  | .tryAcquireFirst | .newFirst | .insertFirst _ => true
  | _ => false

def Thread.pending : Thread → Finset UInt32
  | .handler call pc => if pc.pending then {call.senderId} else ∅
  | _ => ∅

def Thread.handling : Thread → Bool
  | .handler _ _ => true
  | _ => false

theorem card_pending_le (th : Thread) : th.pending.card ≤ 1 := by
  cases th with
  | idle => exact Nat.zero_le 1
  | cleanup _ => exact Nat.zero_le 1
  | handler call pc =>
    show (if pc.pending then {call.senderId} else ∅ : Finset UInt32).card ≤ 1
    split
    · exact (Finset.card_singleton _).le
    · exact Nat.zero_le 1

variable {core rater}

/-- A handler that may insert at its next access found its id in the map, could
insert before, or has just passed the capacity check. -/
theorem pending_next {s : Shared C A R} {call : Call} {sendOk : Bool} {pc next : Pc}
    (hnext : (handle core rater s call sendOk pc).2 = some next) (hp : next.pending = true) :
    call.senderId ∈ s.mappings ∨ pc.pending = true ∨
      (pc = .checkLen ∧ s.mappings.len < s.maxClients) := by
  cases pc with
  | lookup =>
    cases hget : s.mappings.get call.senderId with
    | some r => exact Or.inl (DashMap.mem_of_get hget)
    | none =>
      simp only [handle, hget, Option.some.injEq] at hnext
      subst hnext
      cases hp
  | checkLen =>
    simp only [handle, Option.some.injEq] at hnext
    subst hnext
    split at hp
    · rename_i hlen
      exact Or.inr (Or.inr ⟨rfl, hlen⟩)
    · cases hp
  | forward =>
    simp only [handle] at hnext
    split at hnext
    · split at hnext
      · split at hnext <;> cases hnext
        cases hp
      · cases hnext
    · cases hnext
  | send ep r =>
    simp only [handle, Option.some.injEq] at hnext
    subst hnext
    split at hp <;> cases hp
  | isTimedOut _ => exact Or.inr (Or.inl rfl)
  | tryAcquireReconnect => exact Or.inr (Or.inl rfl)
  | newReconnect => exact Or.inr (Or.inl rfl)
  | insertReconnect _ => exact Or.inr (Or.inl rfl)
  | tryAcquireFirst => exact Or.inr (Or.inl rfl)
  | newFirst => exact Or.inr (Or.inl rfl)
  | insertFirst _ => exact Or.inr (Or.inl rfl)
  | _ => cases hnext <;> cases hp

variable (core rater) in
/-- A handler leaves the keys alone or inserts its pending id. -/
theorem handle_mappings (s : Shared C A R) (call : Call) (sendOk : Bool) (pc : Pc) :
    (handle core rater s call sendOk pc).1.mappings = s.mappings ∨
      (pc.pending = true ∧
        ∃ r, (handle core rater s call sendOk pc).1.mappings = s.mappings.insert call.senderId r) := by
  cases pc with
  | insertReconnect r => exact Or.inr ⟨rfl, r, rfl⟩
  | insertFirst r => exact Or.inr ⟨rfl, r, rfl⟩
  | _ => exact Or.inl rfl

/-- What one step does to the ids in the map or pending. -/
structure Claims (s s' : Shared C A R) (th th' : Thread) : Prop where
  maxClients : s'.maxClients = s.maxClients
  keys : ∀ id, id ∈ s'.mappings → id ∈ s.mappings ∨ id ∈ th.pending
  /-- A pending id is in the map or was pending, unless its handler has just passed
  the capacity check. -/
  pending : (∀ id ∈ th'.pending, id ∈ s.mappings ∨ id ∈ th.pending) ∨
    (s.mappings.len < s.maxClients ∧ s'.mappings = s.mappings ∧ th.handling = true)

/-- A step that leaves the map and the pending ids alone. -/
theorem Claims.quiet {s s' : Shared C A R} {th th' : Thread} (hmax : s'.maxClients = s.maxClients)
    (hm : s'.mappings = s.mappings) (hp : th'.pending ⊆ th.pending) : Claims s s' th th' where
  maxClients := hmax
  keys id hid := Or.inl (by rw [← hm]; exact hid)
  pending := Or.inl fun id hid => Or.inr (hp hid)

theorem handler_claims (s : Shared C A R) (call : Call) (pc : Pc) (sendOk : Bool) :
    Claims s (exec core rater s (.handler call pc) (.go sendOk)).1 (.handler call pc)
      (exec core rater s (.handler call pc) (.go sendOk)).2 := by
  have hpending : ∀ {id}, pc.pending = true → id = call.senderId →
      id ∈ (Thread.handler call pc).pending := by
    rintro id hp rfl
    simp [Thread.pending, hp]
  refine ⟨by cases pc <;> rfl, ?_, ?_⟩
  · intro id hid
    rcases handle_mappings core rater s call sendOk pc with hm | ⟨hp, r, hm⟩
    · exact Or.inl (by rw [← hm]; exact hid)
    · have hid' : id ∈ s.mappings.insert call.senderId r := by rw [← hm]; exact hid
      rcases DashMap.mem_insert.mp hid' with heq | hold
      · exact Or.inr (hpending hp heq)
      · exact Or.inl hold
  · simp only [exec]
    cases hnext : (handle core rater s call sendOk pc).2 with
    | none => exact Or.inl fun id hid => by cases hid
    | some next =>
      cases hp : next.pending with
      | false => exact Or.inl fun id hid => by simp [Thread.pending, hp] at hid
      | true =>
        rcases pending_next hnext hp with hmem | hold | ⟨rfl, hlen⟩
        · refine Or.inl fun id hid => Or.inl ?_
          obtain rfl : id = call.senderId := by simpa [Thread.pending, hp] using hid
          exact hmem
        · refine Or.inl fun id hid => Or.inr (hpending hold ?_)
          simpa [Thread.pending, hp] using hid
        · exact Or.inr ⟨hlen, rfl, rfl⟩

theorem exec_claims (s : Shared C A R) (th : Thread) (a : Input) :
    Claims s (exec core rater s th a).1 th (exec core rater s th a).2 := by
  cases th with
  | idle => cases a <;> exact .quiet rfl rfl subset_rfl
  | handler call pc =>
    cases a with
    | go sendOk => exact handler_claims s call pc sendOk
    | _ => exact .quiet rfl rfl subset_rfl
  | cleanup pc =>
    cases pc with
    | retain =>
      cases a with
      | visit key =>
        have hvisit : (visit core s key).maxClients = s.maxClients ∧
            ∀ id, id ∈ (visit core s key).mappings → id ∈ s.mappings := by
          unfold visit
          split
          · split
            · exact ⟨rfl, fun id hid => (DashMap.mem_remove.mp hid).2⟩
            · exact ⟨rfl, fun _ h => h⟩
          · exact ⟨rfl, fun _ h => h⟩
        exact ⟨hvisit.1, fun id hid => Or.inl (hvisit.2 id hid), Or.inl fun id hid => by cases hid⟩
      | _ => exact .quiet rfl rfl subset_rfl
    | _ => cases a <;> exact .quiet rfl rfl subset_rfl

/-! ## The bound -/

section Bound

variable {ι : Type} [DecidableEq ι]

/-- Only the workers start handlers. -/
def HandledBy (workers : Finset ι) : Action ι Input → Prop
  | .work i (.receive _ _ _ _) => i ∈ workers
  | _ => True

/-- The ids in the map or pending. -/
def claimed (workers : Finset ι) (p : Pool ι (Shared C A R) Thread) : Finset UInt32 :=
  p.shared.mappings.keySet ∪ workers.biUnion fun i => (p.thread i).pending

omit [DecidableEq ι] in
theorem mem_claimed {workers : Finset ι} {p : Pool ι (Shared C A R) Thread} {id : UInt32} :
    id ∈ claimed workers p ↔ id ∈ p.shared.mappings ∨ ∃ i ∈ workers, id ∈ (p.thread i).pending := by
  simp [claimed]

structure WithinCapacity (max : Nat) (workers : Finset ι) (p : Pool ι (Shared C A R) Thread) :
    Prop where
  maxClients : p.shared.maxClients = max
  others : ∀ i ∉ workers, (p.thread i).handling = false
  card : (claimed workers p).card ≤ max + workers.card - 1

theorem pending_of_not_handling {th : Thread} (h : th.handling = false) : th.pending = ∅ := by
  cases th with
  | handler _ _ => cases h
  | idle => rfl
  | cleanup _ => rfl

/-- A thread that handles nothing starts to only on a packet. -/
theorem exec_handling {s : Shared C A R} {th : Thread} {a : Input} (h : th.handling = false)
    (ha : ∀ id r packet addr, a ≠ .receive id r packet addr) :
    (exec core rater s th a).2.handling = false := by
  cases th with
  | handler _ _ => cases h
  | idle =>
    cases a with
    | receive id r packet addr => exact absurd rfl (ha id r packet addr)
    | _ => rfl
  | cleanup pc => cases pc <;> cases a <;> rfl

/-- **The invariant of the capacity**: the ids in the map or pending are at most one
more for each worker but one than the capacity. -/
theorem capacity_step {max : Nat} {workers : Finset ι} {p : Pool ι (Shared C A R) Thread}
    (h : WithinCapacity max workers p) {a : Action ι Input} (ha : HandledBy workers a) :
    WithinCapacity max workers ((threads core rater).machine.step p a) := by
  cases a with
  | tick d => exact ⟨h.maxClients, h.others, h.card⟩
  | work i a =>
    have hstep : Claims p.shared (exec core rater p.shared (p.thread i) a).1 (p.thread i)
      (exec core rater p.shared (p.thread i) a).2 := exec_claims p.shared (p.thread i) a
    have hworker : ∀ id ∈ (p.thread i).pending, i ∈ workers := by
      intro id hid
      by_contra hi
      rw [pending_of_not_handling (h.others i hi)] at hid
      cases hid
    refine ⟨hstep.maxClients.trans h.maxClients, ?_, ?_⟩
    · intro j hj
      simp only [System.step_work]
      by_cases hji : j = i
      · subst hji
        rw [Function.update_self]
        apply exec_handling (h.others j hj)
        rintro id r packet addr rfl
        exact hj ha
      · rw [Function.update_of_ne hji]
        exact h.others j hj
    · rcases hstep.pending with hold | ⟨hlen, hm, hhandling⟩
      · -- nothing new is claimed
        refine Nat.le_trans (Finset.card_le_card fun id hid => ?_) h.card
        have hth : ∀ {id}, id ∈ (p.thread i).pending → id ∈ claimed workers p :=
          fun {id} hid => mem_claimed.mpr (Or.inr ⟨i, hworker id hid, hid⟩)
        rcases mem_claimed.mp hid with hkey | ⟨j, hj, hpend⟩
        · rcases hstep.keys id hkey with hkey | hpend
          · exact mem_claimed.mpr (Or.inl hkey)
          · exact hth hpend
        · simp only [System.step_work] at hpend
          by_cases hji : j = i
          · subst hji
            rw [Function.update_self] at hpend
            rcases hold id hpend with hkey | hpend
            · exact mem_claimed.mpr (Or.inl hkey)
            · exact hth hpend
          · rw [Function.update_of_ne hji] at hpend
            exact mem_claimed.mpr (Or.inr ⟨j, hj, hpend⟩)
      · -- the worker has passed the check: count the keys and one id for each worker
        have hi : i ∈ workers := by
          by_contra hi
          rw [h.others i hi] at hhandling
          cases hhandling
        have hpos : 0 < workers.card := Finset.card_pos.mpr ⟨i, hi⟩
        have hkeys : (exec core rater p.shared (p.thread i) a).1.mappings.keySet.card =
            p.shared.mappings.len := by rw [hm, DashMap.card_keySet]
        have hpend := Finset.card_biUnion_le_card_mul workers
          (fun j => (Function.update p.thread i
            (exec core rater p.shared (p.thread i) a).2 j).pending) 1
          (fun j _ => card_pending_le _)
        have hunion := Finset.card_union_le
          (exec core rater p.shared (p.thread i) a).1.mappings.keySet
          (workers.biUnion fun j => (Function.update p.thread i
            (exec core rater p.shared (p.thread i) a).2 j).pending)
        rw [h.maxClients] at hlen
        show (_ ∪ _ : Finset UInt32).card ≤ _
        simp only [System.step_work]
        exact Nat.le_trans hunion (by omega)

theorem capacity_run {workers : Finset ι} {p : Pool ι (Shared C A R) Thread} (hstart : Started p)
    {as : List (Action ι Input)} (has : ∀ a ∈ as, HandledBy workers a) :
    ((threads core rater).machine.run p as).shared.mappings.len ≤
      p.shared.maxClients + workers.card - 1 := by
  have h0 : WithinCapacity p.shared.maxClients workers p := by
    refine ⟨rfl, fun i _ => by rw [hstart.idle i]; rfl, ?_⟩
    have hempty : claimed workers p = ∅ := by
      rw [Finset.eq_empty_iff_forall_notMem]
      intro id hid
      rcases mem_claimed.mp hid with hkey | ⟨i, _, hpend⟩
      · rw [hstart.mappings] at hkey
        cases hkey
      · rw [hstart.idle i] at hpend
        cases hpend
    rw [hempty]
    exact Nat.zero_le _
  have hinv := (threads core rater).machine.run_induction (P := WithinCapacity _ workers) h0
    (fun _ _ h ha => capacity_step h ha) as ((threads core rater).machine.along_of_mem has p)
  rw [← DashMap.card_keySet]
  exact Nat.le_trans (Finset.card_le_card Finset.subset_union_left) hinv.card

/-- Ids are 32 bits wide. -/
theorem len_le_ids (m : DashMap UInt32 Ref) : m.len ≤ 2 ^ 32 :=
  m.len_le_of_injective (fun _ _ h => UInt32.toNat_inj.mp h) UInt32.toNat_lt

end Bound

/-! ## The bound is reached -/

section Exact

variable (hgrant : ∀ r ip t, (rater.tryAcquire r ip t).1 = true)

def host : SocketAddr := .v4 8 8 8 8 1234

/-- A first contact up to the capacity check, up to the insert, and the rest. -/
def approach (id : UInt32) : List Input := [.receive id (id + 1) [] host, .go true, .go true]
def claim : List Input := [.go true, .go true, .go true]
def finish : List Input := List.replicate 6 (.go true)

theorem solo_approach {s : Shared C A R} {id : UInt32} (hid : s.mappings.get id = none)
    (hlen : s.mappings.len < s.maxClients) :
    (threads core rater).solo s .idle (approach id) =
      (s, .handler ⟨id, id + 1, [], host, s.clock⟩ .tryAcquireFirst) := by
  simp [approach, threads, exec, handle, hid, hlen]

variable (core) in
include hgrant in
theorem solo_claim (s : Shared C A R) (call : Call) :
    ∃ s' r, (threads core rater).solo s (.handler call .tryAcquireFirst) claim =
        (s', .handler call .analyzerFirst) ∧
      s'.mappings = s.mappings.insert call.senderId r ∧ s'.maxClients = s.maxClients := by
  simp [claim, threads, exec, handle, ConnectionRateLimiter.tryAcquire, hgrant]

variable (core rater) in
theorem solo_finish (s : Shared C A R) (call : Call) :
    ∃ s', (threads core rater).solo s (.handler call .analyzerFirst) finish = (s', .idle) ∧
      s'.mappings = s.mappings ∧ s'.maxClients = s.maxClients := by
  cases hget : s.mappings.get call.receiverId with
  | none => simp [finish, List.replicate, threads, exec, handle, hget]
  | some r =>
    cases hep : core.remoteEp (s.heap.cell r) with
    | none => simp [finish, List.replicate, threads, exec, handle, hget, hep]
    | some ep =>
      by_cases heq : ep = call.remoteAddr
      · simp [finish, List.replicate, threads, exec, handle, hget, hep, heq]
      · simp [finish, List.replicate, threads, exec, handle, hget, hep, heq]

variable {W : Nat}

/-- There are `n` clients, with the ids below `n`. -/
structure Filled (max n : Nat) (p : Pool (Fin W) (Shared C A R) Thread) : Prop where
  maxClients : p.shared.maxClients = max
  len : p.shared.mappings.len = n
  ids : ∀ id, id ∈ p.shared.mappings → id.toNat < n

theorem Filled.fresh {max n : Nat} {p : Pool (Fin W) (Shared C A R) Thread} (h : Filled max n p)
    (hn : n < 2 ^ 32) : UInt32.ofNat n ∉ p.shared.mappings := by
  intro hid
  have hlt := h.ids _ hid
  rw [UInt32.toNat_ofNat_of_lt' hn] at hlt
  exact Nat.lt_irrefl _ hlt

theorem Filled.insert {max n : Nat} {p p' : Pool (Fin W) (Shared C A R) Thread}
    (h : Filled max n p) (hn : n < 2 ^ 32) {r : Ref}
    (hm : p'.shared.mappings = p.shared.mappings.insert (UInt32.ofNat n) r)
    (hmax : p'.shared.maxClients = p.shared.maxClients) : Filled max (n + 1) p' where
  maxClients := hmax.trans h.maxClients
  len := by rw [hm, DashMap.len_insert_of_notMem (h.fresh hn), h.len]
  ids id hid := by
    rw [hm] at hid
    rcases DashMap.mem_insert.mp hid with rfl | hid
    · rw [UInt32.toNat_ofNat_of_lt' hn]
      exact Nat.lt_succ_self n
    · exact Nat.lt_succ_of_lt (h.ids id hid)

include hgrant

/-- One worker alone fills the tunnel to its capacity. -/
theorem fill {max : Nat} {p : Pool (Fin W) (Shared C A R) Thread} (i : Fin W)
    (hstart : Started p) (hmax : p.shared.maxClients = max) (n : Nat) (hn : n ≤ max)
    (hids : n ≤ 2 ^ 32) :
    ∃ as, Filled max n ((threads core rater).machine.run p as) ∧
      ∀ j, ((threads core rater).machine.run p as).thread j = .idle := by
  induction n with
  | zero =>
    refine ⟨[], ⟨hmax, ?_, ?_⟩, hstart.idle⟩
    · simp [hstart.mappings]
    · intro id hid
      simp only [Machine.run_nil, hstart.mappings] at hid
      cases hid
  | succ n ih =>
    obtain ⟨as, hfilled, hidle⟩ := ih (by omega) (by omega)
    generalize hq : (threads core rater).machine.run p as = q at hfilled hidle
    have hfresh := DashMap.get_eq_none.mpr (hfilled.fresh (by omega))
    have hroom : q.shared.mappings.len < q.shared.maxClients := by
      rw [hfilled.len, hfilled.maxClients]
      omega
    obtain ⟨s₁, r, hclaim, hm₁, hmax₁⟩ := solo_claim core hgrant q.shared
      ⟨UInt32.ofNat n, UInt32.ofNat n + 1, [], host, q.shared.clock⟩
    obtain ⟨s₂, hfinish, hm₂, hmax₂⟩ := solo_finish core rater s₁
      ⟨UInt32.ofNat n, UInt32.ofNat n + 1, [], host, q.shared.clock⟩
    have hsolo : (threads core rater).solo q.shared (q.thread i)
        (approach (UInt32.ofNat n) ++ claim ++ finish) = (s₂, .idle) := by
      rw [hidle i, System.solo_append, System.solo_append, solo_approach hfresh hroom, hclaim,
        hfinish]
    refine ⟨as ++ (approach (UInt32.ofNat n) ++ claim ++ finish).map (.work i), ?_, ?_⟩
    · rw [Machine.run_append, hq, System.run_solo, hsolo]
      exact hfilled.insert (by omega) (hm₂.trans hm₁) (hmax₂.trans hmax₁)
    · intro j
      rw [Machine.run_append, hq, System.run_solo, hsolo]
      by_cases hj : j = i
      · subst hj
        exact Function.update_self _ _ _
      · exact (Function.update_of_ne hj _ _).trans (hidle j)

variable (core rater) in
omit hgrant in
/-- Any number of workers can pass the capacity check while there is room for one. -/
theorem approach_all {max a : Nat} {p : Pool (Fin W) (Shared C A R) Thread}
    (hfilled : Filled max a p) (hidle : ∀ j, p.thread j = .idle) (k : Nat) (hk : k ≤ W)
    (ha : 0 < k → a < max) (hids : a + k ≤ 2 ^ 32) :
    ∃ as, ((threads core rater).machine.run p as).shared = p.shared ∧
      ∀ j : Fin W, ((threads core rater).machine.run p as).thread j =
        if j.val < k then
          .handler ⟨UInt32.ofNat (a + j), UInt32.ofNat (a + j) + 1, [], host, p.shared.clock⟩
            .tryAcquireFirst
        else .idle := by
  induction k with
  | zero => exact ⟨[], rfl, fun j => by simp [hidle j]⟩
  | succ k ih =>
    obtain ⟨as, hshared, hthread⟩ := ih (by omega) (fun _ => ha (by omega)) (by omega)
    generalize hq : (threads core rater).machine.run p as = q at hshared hthread
    have hk' : k < W := hk
    have hid : q.shared.mappings.get (UInt32.ofNat (a + k)) = none := by
      rw [hshared, DashMap.get_eq_none]
      intro hmem
      have hlt := hfilled.ids _ hmem
      rw [UInt32.toNat_ofNat_of_lt' (show a + k < 2 ^ 32 by omega)] at hlt
      omega
    have hroom : q.shared.mappings.len < q.shared.maxClients := by
      rw [hshared, hfilled.len, hfilled.maxClients]
      exact ha (by omega)
    have hsolo : (threads core rater).solo q.shared (q.thread ⟨k, hk'⟩)
        (approach (UInt32.ofNat (a + k))) = (q.shared, .handler
          ⟨UInt32.ofNat (a + k), UInt32.ofNat (a + k) + 1, [], host, q.shared.clock⟩
          .tryAcquireFirst) := by
      rw [hthread ⟨k, hk'⟩, if_neg (Nat.lt_irrefl k)]
      exact solo_approach hid hroom
    refine ⟨as ++ (approach (UInt32.ofNat (a + k))).map (.work ⟨k, hk'⟩), ?_, ?_⟩
    · rw [Machine.run_append, hq, System.run_solo, hsolo]
      exact hshared
    · intro j
      rw [Machine.run_append, hq, System.run_solo, hsolo]
      by_cases hj : j = ⟨k, hk'⟩
      · subst hj
        simp [hshared]
      · have hne : j.val ≠ k := fun h => hj (Fin.ext h)
        show Function.update _ _ _ j = _
        rw [Function.update_of_ne hj, hthread j]
        by_cases hlt : j.val < k
        · rw [if_pos hlt, if_pos (by omega)]
        · rw [if_neg hlt, if_neg (by omega)]

/-- The workers that have passed the check insert one after another. -/
theorem claim_all {max a b : Nat} {p : Pool (Fin W) (Shared C A R) Thread}
    (hfilled : Filled max a p) (hb : b ≤ W) (hids : a + b ≤ 2 ^ 32)
    (hthread : ∀ j : Fin W, j.val < b → ∃ call : Call, call.senderId = UInt32.ofNat (a + j) ∧
      p.thread j = .handler call .tryAcquireFirst) (k : Nat) (hk : k ≤ b) :
    ∃ as, Filled max (a + k) ((threads core rater).machine.run p as) ∧
      ∀ j : Fin W, k ≤ j.val → ((threads core rater).machine.run p as).thread j = p.thread j := by
  induction k with
  | zero => exact ⟨[], hfilled, fun _ _ => rfl⟩
  | succ k ih =>
    obtain ⟨as, hfilled', hsame⟩ := ih (by omega)
    generalize hq : (threads core rater).machine.run p as = q at hfilled' hsame
    have hk' : k < W := by omega
    obtain ⟨call, hcall, hth⟩ := hthread ⟨k, hk'⟩ (by simp; omega)
    obtain ⟨s', r, hclaim, hm, hmax⟩ := solo_claim core hgrant q.shared call
    have hsolo : (threads core rater).solo q.shared (q.thread ⟨k, hk'⟩) claim =
        (s', .handler call .analyzerFirst) := by
      rw [hsame ⟨k, hk'⟩ (Nat.le_refl k), hth]
      exact hclaim
    refine ⟨as ++ claim.map (.work ⟨k, hk'⟩), ?_, ?_⟩
    · rw [Machine.run_append, hq, System.run_solo, hsolo]
      rw [hcall] at hm
      exact hfilled'.insert (by omega) hm hmax
    · intro j hj
      have hne : j ≠ ⟨k, hk'⟩ := by
        rintro rfl
        simp at hj
      rw [Machine.run_append, hq, System.run_solo]
      exact (Function.update_of_ne hne _ _).trans (hsame j (by omega))

/-- The smaller of the two bounds is reached by `W` workers. -/
theorem capacity_reached {max : Nat} (hW : 0 < W) (hmax : 2 ≤ max)
    {p : Pool (Fin W) (Shared C A R) Thread} (hstart : Started p)
    (hp : p.shared.maxClients = max) :
    ∃ as, ((threads core rater).machine.run p as).shared.mappings.len =
      min (max + W - 1) (2 ^ 32) := by
  -- one worker fills the tunnel up to one free slot, then all workers find it free
  obtain ⟨a, b, ha, hb, hsum, hroom⟩ : ∃ a b, a ≤ max ∧ b ≤ W ∧
      a + b = min (max + W - 1) (2 ^ 32) ∧ (0 < b → a < max) := by
    refine ⟨min (max - 1) (2 ^ 32), min (max + W - 1) (2 ^ 32) - min (max - 1) (2 ^ 32), ?_⟩
    omega
  have hids : a + b ≤ 2 ^ 32 := by omega
  obtain ⟨as, hfilled, hidle⟩ := fill hgrant ⟨0, hW⟩ hstart hp a ha (by omega)
  obtain ⟨bs, hshared, hthread⟩ := approach_all core rater hfilled hidle b hb
    hroom hids
  generalize hq : (threads core rater).machine.run ((threads core rater).machine.run p as) bs = q
    at hshared hthread
  have hfilled' : Filled max a q := ⟨hshared ▸ hfilled.maxClients, hshared ▸ hfilled.len,
    hshared ▸ hfilled.ids⟩
  obtain ⟨cs, hfull, _⟩ := claim_all hgrant hfilled' hb hids (k := b)
    (fun j hj => ⟨_, rfl, (hthread j).trans (if_pos hj)⟩) (Nat.le_refl b)
  refine ⟨as ++ (bs ++ cs), ?_⟩
  rw [Machine.run_append, Machine.run_append, hq, hfull.len, hsum]

end Exact

variable (core rater) in
/-- **Exact capacity.** Whatever the interleaving with cleanups, `W` workers never
put more than `max_clients + W - 1` clients into the map, nor more than there are
ids; and if the connection limiter grants every attempt, some run puts as many
clients there as both bounds allow. -/
theorem capacity_exact :
    (∀ (ι : Type) [DecidableEq ι] (workers : Finset ι) (p : Pool ι (Shared C A R) Thread),
      Started p → ∀ as : List (Action ι Input), (∀ a ∈ as, HandledBy workers a) →
      ((threads core rater).machine.run p as).shared.mappings.len ≤
        min (p.shared.maxClients + workers.card - 1) (2 ^ 32)) ∧
    ((∀ r ip t, (rater.tryAcquire r ip t).1 = true) →
      ∀ (W max : Nat), 1 ≤ W → 2 ≤ max → ∀ p : Pool (Fin W) (Shared C A R) Thread,
      Started p → p.shared.maxClients = max → ∃ as : List (Action (Fin W) Input),
      ((threads core rater).machine.run p as).shared.mappings.len =
        min (max + W - 1) (2 ^ 32)) := by
  constructor
  · intro ι _ workers p hstart as has
    exact le_min (capacity_run hstart has) (len_le_ids _)
  · intro hgrant W max hW hmax p hstart hp
    exact capacity_reached hgrant hW hmax hstart hp

/-- Two workers and a capacity of two: three clients at most, and three in some run. -/
theorem capacity_exact_two_workers :
    let M := (threads (RelayCore.reference timeoutSeconds) Rater.granting).machine
    let p := referencePool (Fin 2) 2 0
    (∀ as, (M.run p as).shared.mappings.len ≤ 3) ∧
      ∃ as, (M.run p as).shared.mappings.len = 3 := by
  have hexact := capacity_exact (RelayCore.reference timeoutSeconds) Rater.granting
  constructor
  · intro as
    refine hexact.1 (Fin 2) Finset.univ _ (referencePool_started (Fin 2) 2 0) as ?_
    rintro (⟨i, a⟩ | d) _
    · cases a <;> first | exact Finset.mem_univ i | trivial
    · trivial
  · exact hexact.2 (fun _ _ _ => rfl) 2 2 (by decide) (by decide) _
      (referencePool_started (Fin 2) 2 0) rfl

/-- With as many workers as there are ids no run reaches `max_clients + W - 1`, not even
for the least capacity that `from_args` accepts. -/
theorem capacity_above_ids :
    let M := (threads (RelayCore.reference timeoutSeconds) Rater.granting).machine
    let p := referencePool (Fin (2 ^ 32)) 2 0
    ¬ ∃ as, (M.run p as).shared.mappings.len = 2 + 2 ^ 32 - 1 := by
  rintro M p ⟨as, hlen⟩
  have hids := len_le_ids (M.run p as).shared.mappings
  omega

end CncnetServer.TunnelV3
