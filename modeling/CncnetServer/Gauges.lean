import CncnetServer.V3.Threads
import CncnetServer.V2.Threads
import CncnetServer.Lib.Gauge

/-!
The gauges `v3_active_clients` and `v2_active_clients` when no call is in progress.

First contacts, requests and cleanups store `mappings.len()` after they have changed the
map, in two accesses, so an older length can be stored over a newer one. Reconnects, slot
claims and roll-backs store nothing, which is right as long as no other call changes the map
under them, or reads its length while ids are in it that are taken back later.

* `gauges_at_rest`: the gauges are right if a call that was disturbed like this ends while
  another call is at work that has yet to see to the gauge;
* `attended_of_one_call`: calls one at a time disturb nobody;
* `gauges_outdated`: the gauges are wrong if a disturbed call ends last.
-/

namespace CncnetServer

open Threads Runs

namespace TunnelV3

variable {C A R : Type} (core : RelayCore C A) (rater : Rater R)

/-- The call is going to read `mappings.len()` and to store it. -/
def Thread.readsLen : Thread → Bool
  | .handler _ .newFirst | .handler _ (.insertFirst _) => true
  | .handler _ .analyzerFirst | .handler _ .activeLen => true
  | .cleanup .retain | .cleanup .activeLen => true
  | _ => false

/-- The length that the call is about to store. -/
def Thread.storesLen : Thread → Option Nat
  | .handler _ (.activeStore len) => some len
  | .cleanup (.activeStore len) => some len
  | _ => none

/-- The id that a reconnect has found and is about to insert. -/
def Thread.reconnects : Thread → Option UInt32
  | .handler call (.isTimedOut _) | .handler call .tryAcquireReconnect => some call.senderId
  | .handler call .newReconnect | .handler call (.insertReconnect _) => some call.senderId
  | _ => none

/-- The insert of a reconnect, and the store of a length. -/
def Thread.settles : Thread → Input → Bool
  | .handler _ (.insertReconnect _), .go _ | .handler _ (.activeStore _), .go _ => true
  | .cleanup (.activeStore _), .go _ => true
  | _, _ => false

/-- The gauge `v3_active_clients`. -/
def activeClients : Gauge UInt32 (Shared C A R) Thread Input where
  value s := s.metrics.v3ActiveClients
  keys s := s.mappings.keySet
  reads := Thread.readsLen
  stores := Thread.storesLen
  found := Thread.reconnects
  missed _ := none
  holds _ := []
  acts := Thread.settles

theorem handler_gaugeStep (s : Shared C A R) (call : Call) (pc : Pc) (b : Bool) :
    activeClients.Step s (.handler call pc) (.go b) (exec core rater s (.handler call pc) (.go b)).1
      (exec core rater s (.handler call pc) (.go b)).2 := by
  -- an access that leaves the map and the gauge alone
  have hkeep : ∀ (s' : Shared C A R) (th' : Thread), s'.metrics.v3ActiveClients =
      s.metrics.v3ActiveClients → s'.mappings = s.mappings →
      (Thread.handler call pc).readsLen = false → (Thread.handler call pc).storesLen = none →
      th'.storesLen = none →
      (∀ k ∈ th'.reconnects, (Thread.handler call pc).reconnects = some k ∨ k ∈ s.mappings.keySet) →
      activeClients.Step s (.handler call pc) (.go b) s' th' :=
    fun s' th' hvalue hm hreads hstores hstores' hfound =>
      .of_bystander hvalue (congrArg DashMap.keySet hm) hreads hstores rfl hstores' rfl hfound
  -- and after which it does not reconnect
  have hplain : ∀ (s' : Shared C A R) (th' : Thread), s'.metrics.v3ActiveClients =
      s.metrics.v3ActiveClients → s'.mappings = s.mappings →
      (Thread.handler call pc).readsLen = false → (Thread.handler call pc).storesLen = none →
      th'.storesLen = none → th'.reconnects = none →
      activeClients.Step s (.handler call pc) (.go b) s' th' :=
    fun s' th' hvalue hm hreads hstores hstores' hnone =>
      hkeep s' th' hvalue hm hreads hstores hstores' (by simp [hnone])
  cases pc with
  | lookup =>
    cases hget : s.mappings.get call.senderId with
    | none =>
      simp only [exec, handle, hget]
      exact hplain _ _ rfl rfl rfl rfl rfl rfl
    | some client =>
      have hmem : call.senderId ∈ s.mappings.keySet :=
        DashMap.mem_keySet.mpr (DashMap.mem_of_get hget)
      cases hep : core.remoteEp (s.heap.cell client) with
      | none =>
        simp only [exec, handle, hget, hep]
        exact hplain _ _ rfl rfl rfl rfl rfl rfl
      | some ep =>
        simp only [exec, handle, hget, hep]
        split
        · exact hkeep _ _ rfl rfl rfl rfl rfl (by rintro _ ⟨⟩; exact Or.inr hmem)
        · exact hplain _ _ rfl rfl rfl rfl rfl rfl
  | isTimedOut client =>
    cases hto : core.isTimedOut (s.heap.cell client) s.clock <;> simp only [exec, handle, hto]
    · exact hplain _ _ rfl rfl rfl rfl rfl rfl
    · exact hkeep _ _ rfl rfl rfl rfl rfl fun _ => Or.inl
  | tryAcquireReconnect =>
    simp only [exec, handle]
    cases (ConnectionRateLimiter.tryAcquire rater s.connectionLimiter call.remoteAddr.ip
      s.clock).1
    · exact hplain _ _ rfl rfl rfl rfl rfl rfl
    · exact hkeep _ _ rfl rfl rfl rfl rfl fun _ => Or.inl
  | newReconnect => exact hkeep _ _ rfl rfl rfl rfl rfl fun _ => Or.inl
  | insertReconnect newClient =>
    exact .reinsert rfl rfl rfl rfl rfl rfl (DashMap.keySet_insert _ _ _) ⟨rfl, rfl, rfl⟩
  | checkLen =>
    by_cases hlen : s.mappings.len < s.maxClients <;> simp only [exec, handle, hlen]
    · exact hplain _ _ rfl rfl rfl rfl rfl rfl
    · exact hplain _ _ rfl rfl rfl rfl rfl rfl
  | tryAcquireFirst =>
    simp only [exec, handle]
    cases (ConnectionRateLimiter.tryAcquire rater s.connectionLimiter call.remoteAddr.ip
      s.clock).1
    · exact hplain _ _ rfl rfl rfl rfl rfl rfl
    · exact hplain _ _ rfl rfl rfl rfl rfl rfl
  | newFirst => exact .going rfl ⟨rfl, rfl, rfl⟩
  | insertFirst client => exact .going rfl ⟨rfl, rfl, rfl⟩
  | analyzerFirst => exact .going rfl ⟨rfl, rfl, rfl⟩
  | activeLen => exact .read rfl (congrArg some (DashMap.card_keySet s.mappings).symm) rfl rfl
  | activeStore len => exact .store rfl rfl rfl rfl ⟨rfl, rfl, rfl⟩
  | forward =>
    cases hget : s.mappings.get call.receiverId with
    | none =>
      simp only [exec, handle, hget]
      exact hplain _ _ rfl rfl rfl rfl rfl rfl
    | some receiver =>
      cases hep : core.remoteEp (s.heap.cell receiver) with
      | none =>
        simp only [exec, handle, hget, hep]
        exact hplain _ _ rfl rfl rfl rfl rfl rfl
      | some ep =>
        by_cases hsame : ep = call.remoteAddr <;> simp only [exec, handle, hget, hep, hsame]
        · exact hplain _ _ rfl rfl rfl rfl rfl rfl
        · exact hplain _ _ rfl rfl rfl rfl rfl rfl
  | send receiverEp receiver => cases b <;> exact hplain _ _ rfl rfl rfl rfl rfl rfl
  | _ => exact hplain _ _ rfl rfl rfl rfl rfl rfl

theorem activeClients_lawful : activeClients.Lawful (threads core rater) where
  value_tick _ _ := rfl
  keys_tick _ _ := rfl
  exec s th a := by
    have hidle : activeClients.Step s th a s th := .refl s th a
    cases th with
    | idle =>
      cases a with
      | clean => exact .going rfl ⟨rfl, rfl, rfl⟩
      | receive _ _ _ _ => exact .of_bystander rfl rfl rfl rfl rfl rfl rfl (fun _ => Or.inl)
      | _ => exact hidle
    | handler call pc =>
      cases a with
      | go sendOk => exact handler_gaugeStep core rater s call pc sendOk
      | _ => exact hidle
    | cleanup pc =>
      cases pc with
      | retain =>
        cases a with
        | visit key => exact .going rfl ⟨rfl, rfl, rfl⟩
        | go sendOk => exact .going rfl ⟨rfl, rfl, rfl⟩
        | _ => exact hidle
      | activeLen =>
        cases a with
        | go sendOk =>
          exact .read rfl (congrArg some (DashMap.card_keySet s.mappings).symm) rfl rfl
        | _ => exact hidle
      | activeStore len =>
        cases a with
        | go sendOk => exact .store rfl rfl rfl rfl ⟨rfl, rfl, rfl⟩
        | _ => exact hidle
      | resetPings =>
        cases a with
        | go sendOk => exact .of_bystander rfl rfl rfl rfl rfl rfl rfl (fun _ => Or.inl)
        | _ => exact hidle

theorem attends_of_rest {th : Thread} (h : th.inProgress = false) :
    (activeClients (C := C) (A := A) (R := R)).attends th = false := by
  cases th with
  | idle => rfl
  | _ => cases h

theorem outside_of_rest {th : Thread} (h : th.inProgress = false) :
    (activeClients.watch (threads core rater)).inside th = false := by
  cases th with
  | idle => rfl
  | _ => cases h

end TunnelV3

namespace TunnelV2

variable {C R A : Type} (core : RelayCore C A) (rater : Rater R)

/-- The call is going to read `mappings.len()` and to store it. -/
def Thread.readsLen : Thread → Bool
  | .request _ (.activeLen _) => true
  | .cleanup .retain | .cleanup .activeLen => true
  | _ => false

/-- The length that the call is about to store. -/
def Thread.storesLen : Thread → Option Nat
  | .request _ (.activeStore _ len) => some len
  | .cleanup (.activeStore len) => some len
  | _ => none

/-- The ids that a request has inserted and may take back. -/
def Thread.mayTakeBack : Thread → List Int16
  | .request _ (.attempt ids _) | .request _ (.newClient ids _ _) => ids
  | .request _ (.insert ids _ _ _) | .request _ (.rollBack ids) => ids
  | _ => []

/-- The insert of a slot claim or a reconnect, the store of a length, and the last removal of
a roll-back. -/
def Thread.settles : Thread → Input → Bool
  | .handler _ (.insertClaim _ _), .go _ | .handler _ (.insertReconnect _ _), .go _ => true
  | .request _ (.rollBack [_]), .draw _ | .request _ (.activeStore _ _), .draw _ => true
  | .cleanup (.activeStore _), .go _ => true
  | _, _ => false

/-- The gauge `v2_active_clients`. -/
def activeClients : Gauge Int16 (Shared C R) Thread Input where
  value s := s.metrics.v2ActiveClients
  keys s := s.mappings.keySet
  reads := Thread.readsLen
  stores := Thread.storesLen
  found := Thread.reconnects
  missed := Thread.picks
  holds := Thread.mayTakeBack
  acts := Thread.settles

/-- After the test of the loop a request reads the length, or may take back its ids. -/
theorem loop_gauge (n clients : Nat) (ids : List Int16) (attempts : Nat) :
    ((Thread.request n (loop clients ids attempts)).readsLen = true ∧
      (activeClients (C := C) (R := R)).Free (.request n (loop clients ids attempts))) ∨
    ((Thread.request n (loop clients ids attempts)).storesLen = none ∧
      (Thread.request n (loop clients ids attempts)).picks = none ∧
      (Thread.request n (loop clients ids attempts)).reconnects = none ∧
      (Thread.request n (loop clients ids attempts)).mayTakeBack = ids) := by
  unfold loop
  split
  · exact Or.inr ⟨rfl, rfl, rfl, rfl⟩
  · split
    · exact Or.inr ⟨rfl, rfl, rfl, rfl⟩
    · exact Or.inl ⟨rfl, rfl, rfl, rfl⟩

/-- An access of a request that leaves the map and the ids alone and picks nothing. -/
theorem request_quiet {s s' : Shared C R} {n : Nat} {pc : RequestPc} {a : Input} {th' : Thread}
    (hvalue : s'.metrics.v2ActiveClients = s.metrics.v2ActiveClients)
    (hm : s'.mappings = s.mappings) (hreads : (Thread.request n pc).readsLen = false)
    (hstores : (Thread.request n pc).storesLen = none)
    (hpicks : (Thread.request n pc).picks = none) (hstores' : th'.storesLen = none)
    (hpicks' : th'.picks = none) (hfound' : th'.reconnects = none)
    (hids : th'.mayTakeBack = (Thread.request n pc).mayTakeBack) :
    activeClients.Step s (.request n pc) a s' th' := by
  refine .quiet hvalue (congrArg DashMap.keySet hm) (fun h => ?_) (hstores'.trans hstores.symm)
    ?_ ?_ ?_ ?_
  · rw [show activeClients.reads (.request n pc) = false from hreads] at h
    cases h
  · show ∀ k ∈ th'.reconnects, _
    simp [hfound']
  · show ∀ k ∈ th'.picks, _
    simp [hpicks']
  · show ∀ k, k ∈ th'.mayTakeBack ↔ k ∈ (Thread.request n pc).mayTakeBack
    simp [hids]
  · show ((Thread.request n pc).picks.isSome || !(Thread.request n pc).mayTakeBack.isEmpty) = true →
      (th'.picks.isSome || !th'.mayTakeBack.isEmpty) = true
    rw [hpicks, hpicks', hids]
    exact id

theorem request_gaugeStep (s : Shared C R) (clients : Nat) (pc : RequestPc) (k : Int16) :
    activeClients.Step s (.request clients pc) (.draw k)
      (exec core rater s (.request clients pc) (.draw k)).1
      (exec core rater s (.request clients pc) (.draw k)).2 := by
  cases pc with
  | maintenance =>
    simp only [exec, allocate]
    split
    · exact request_quiet rfl rfl rfl rfl rfl rfl rfl rfl rfl
    · split <;> exact request_quiet rfl rfl rfl rfl rfl rfl rfl rfl rfl
  | checkLen =>
    simp only [exec, allocate]
    split
    · exact request_quiet rfl rfl rfl rfl rfl rfl rfl rfl rfl
    · rcases loop_gauge clients clients [] 0 with ⟨hreads, hfree⟩ | ⟨hstores, hpicks, hfound, hids⟩
      · exact .going hreads hfree
      · exact request_quiet rfl rfl rfl rfl rfl hstores hpicks hfound hids
  | attempt ids attempts =>
    by_cases hfree : k ≠ 0 ∧ !s.mappings.containsKey k
    · simp only [exec, allocate, if_pos hfree]
      refine .quiet rfl rfl (by rintro ⟨⟩) rfl (by rintro _ ⟨⟩) ?_ (fun _ => Iff.rfl) (fun _ => rfl)
      rintro _ ⟨⟩
      have hnot : k ∉ s.mappings := by simpa [DashMap.containsKey] using hfree.2
      exact Or.inr (mt DashMap.mem_keySet.mp hnot)
    · simp only [exec, allocate, if_neg hfree]
      rcases loop_gauge clients clients ids (attempts + 1) with
        ⟨hreads, hfree⟩ | ⟨hstores, hpicks, hfound, hids⟩
      · exact .going hreads hfree
      · exact request_quiet rfl rfl rfl rfl rfl hstores hpicks hfound hids
  | newClient ids attempts id =>
    exact .quiet rfl rfl (by rintro ⟨⟩) rfl (by rintro _ ⟨⟩) (fun _ => Or.inl) (fun _ => Iff.rfl)
      (fun _ => rfl)
  | insert ids attempts id r =>
    rcases loop_gauge clients clients (ids ++ [id]) attempts with
      ⟨hreads, hfree⟩ | ⟨hstores, hpicks, hfound, hids⟩
    · exact .going hreads hfree
    · refine .hold (k := id) rfl rfl rfl rfl (DashMap.keySet_insert _ _ _) (fun x => ?_) hpicks
        hstores hfound
      show x ∈ (Thread.request clients (loop clients (ids ++ [id]) attempts)).mayTakeBack ↔
        x = id ∨ x ∈ ids
      rw [hids, List.mem_append, List.mem_singleton, or_comm]
  | rollBack ids =>
    cases ids with
    | nil => exact request_quiet rfl rfl rfl rfl rfl rfl rfl rfl rfl
    | cons id ids =>
      simp only [exec, allocate_rollBack]
      refine .takeBack (k := id) rfl rfl rfl (DashMap.keySet_remove _ _)
        (fun _ => List.mem_cons) rfl rfl rfl fun hlast => ?_
      obtain rfl : ids = [] := hlast
      rfl
  | activeLen ids => exact .read rfl (congrArg some (DashMap.card_keySet s.mappings).symm) rfl rfl
  | activeStore ids len => exact .store rfl rfl rfl rfl ⟨rfl, rfl, rfl⟩

theorem handler_gaugeStep (s : Shared C R) (call : Call) (pc : Pc) (b : Bool) :
    activeClients.Step s (.handler call pc) (.go b) (exec core rater s (.handler call pc) (.go b)).1
      (exec core rater s (.handler call pc) (.go b)).2 := by
  -- an access that leaves the map and the gauge alone
  have hkeep : (handle core s call b pc).1.metrics.v2ActiveClients = s.metrics.v2ActiveClients →
      (handle core s call b pc).1.mappings = s.mappings →
      activeClients.Step s (.handler call pc) (.go b)
        (exec core rater s (.handler call pc) (.go b)).1
        (exec core rater s (.handler call pc) (.go b)).2 := by
    intro hvalue hm
    refine .of_bystander hvalue (congrArg DashMap.keySet hm) rfl rfl rfl ?_ ?_ fun k hk => ?_
    · simp only [exec]
      cases (handle core s call b pc).2 <;> rfl
    · simp only [exec]
      cases (handle core s call b pc).2 <;> rfl
    · exact (exec_reconnects core rater hk).2.imp id DashMap.mem_keySet.mpr
  cases pc with
  | insertClaim sender newClient =>
    exact .reinsert rfl rfl rfl rfl rfl rfl (DashMap.keySet_insert _ _ _) ⟨rfl, rfl, rfl⟩
  | insertReconnect sender newClient =>
    exact .reinsert rfl rfl rfl rfl rfl rfl (DashMap.keySet_insert _ _ _) ⟨rfl, rfl, rfl⟩
  | _ => exact hkeep rfl rfl

theorem activeClients_lawful : activeClients.Lawful (threads core rater) where
  value_tick _ _ := rfl
  keys_tick _ _ := rfl
  exec s th a := by
    have hidle : activeClients.Step s th a s th := .refl s th a
    cases th with
    | idle =>
      cases a with
      | clean => exact .going rfl ⟨rfl, rfl, rfl⟩
      | receive _ _ _ _ => exact .of_bystander rfl rfl rfl rfl rfl rfl rfl (by rintro _ ⟨⟩)
      | request query => exact .of_bystander rfl rfl rfl rfl rfl rfl rfl (by rintro _ ⟨⟩)
      | status => exact .of_bystander rfl rfl rfl rfl rfl rfl rfl (by rintro _ ⟨⟩)
      | toggleMaintenance => exact .of_bystander rfl rfl rfl rfl rfl rfl rfl (by rintro _ ⟨⟩)
      | _ => exact hidle
    | status =>
      cases a with
      | go sendOk => exact .of_bystander rfl rfl rfl rfl rfl rfl rfl (by rintro _ ⟨⟩)
      | _ => exact hidle
    | handler call pc =>
      cases a with
      | go sendOk => exact handler_gaugeStep core rater s call pc sendOk
      | _ => exact hidle
    | request clients pc =>
      cases a with
      | draw k => exact request_gaugeStep core rater s clients pc k
      | _ => exact hidle
    | cleanup pc =>
      cases pc with
      | retain =>
        cases a with
        | visit key => exact .going rfl ⟨rfl, rfl, rfl⟩
        | go sendOk => exact .going rfl ⟨rfl, rfl, rfl⟩
        | _ => exact hidle
      | activeLen =>
        cases a with
        | go sendOk =>
          exact .read rfl (congrArg some (DashMap.card_keySet s.mappings).symm) rfl rfl
        | _ => exact hidle
      | activeStore len =>
        cases a with
        | go sendOk => exact .store rfl rfl rfl rfl ⟨rfl, rfl, rfl⟩
        | _ => exact hidle
      | resetPings =>
        cases a with
        | go sendOk => exact .of_bystander rfl rfl rfl rfl rfl rfl rfl (by rintro _ ⟨⟩)
        | _ => exact hidle

theorem attends_of_rest {th : Thread} (h : th.inProgress = false) :
    (activeClients (C := C) (R := R)).attends th = false := by
  cases th with
  | idle => rfl
  | status => rfl
  | _ => cases h

theorem outside_of_rest {th : Thread} (h : th.inProgress = false) :
    (activeClients.watch (threads core rater)).inside th = false := by
  cases th with
  | idle => rfl
  | status => rfl
  | _ => cases h

end TunnelV2

/-! ## The gauges at rest -/

section Rest

variable {ι κ C A R : Type} [DecidableEq ι] [DecidableEq κ] (core : RelayCore C A) (rater : Rater R)

/-- **The gauges at rest.** In every run of either tunnel in which whoever was disturbed acts
only while another call is going to see to the gauge, the gauge is the number of entries of
the map whenever no call is in progress. -/
theorem gauges_at_rest {p : Pool ι (TunnelV3.Shared C A R) TunnelV3.Thread}
    {q : Pool κ (TunnelV2.Shared C R) TunnelV2.Thread} (hp : TunnelV3.Started p)
    (hq : TunnelV2.Started q) (hpmetrics : p.shared.metrics = Metrics.new)
    (hqmetrics : q.shared.metrics = Metrics.new) {as : List (Action ι TunnelV3.Input)}
    {bs : List (Action κ TunnelV2.Input)}
    (has : ((TunnelV3.activeClients.watch (TunnelV3.threads core rater)).machine
      (TunnelV3.threads core rater)).Along TunnelV3.activeClients.Attended p.watched as)
    (hbs : ((TunnelV2.activeClients.watch (TunnelV2.threads core rater)).machine
      (TunnelV2.threads core rater)).Along TunnelV2.activeClients.Attended q.watched bs) :
    let p' := (TunnelV3.threads core rater).machine.run p as
    let q' := (TunnelV2.threads core rater).machine.run q bs
    ((∀ i, (p'.thread i).inProgress = false) →
      p'.shared.metrics.v3ActiveClients = p'.shared.mappings.len) ∧
    ((∀ k, (q'.thread k).inProgress = false) →
      q'.shared.metrics.v2ActiveClients = q'.shared.mappings.len) := by
  intro p' q'
  refine ⟨fun hrest => ?_, fun hrest => ?_⟩
  · rw [← DashMap.card_keySet]
    refine Gauge.value_eq (TunnelV3.activeClients_lawful core rater) ?_
      (fun i => TunnelV3.outside_of_rest core rater (by rw [hp.idle i]; rfl)) has
      (fun i => TunnelV3.attends_of_rest (hrest i))
    show p.shared.metrics.v3ActiveClients = p.shared.mappings.keySet.card
    rw [hpmetrics, hp.mappings]
    rfl
  · rw [← DashMap.card_keySet]
    refine Gauge.value_eq (TunnelV2.activeClients_lawful core rater) ?_
      (fun k => TunnelV2.outside_of_rest core rater (by rw [hq.idle k]; rfl)) hbs
      (fun k => TunnelV2.attends_of_rest (hrest k))
    show q.shared.metrics.v2ActiveClients = q.shared.mappings.keySet.card
    rw [hqmetrics, hq.mappings]
    rfl

/-- One call at a time disturbs nobody. -/
theorem attended_of_one_call {p : Pool ι (TunnelV3.Shared C A R) TunnelV3.Thread}
    {q : Pool κ (TunnelV2.Shared C R) TunnelV2.Thread} {as : List (Action ι TunnelV3.Input)}
    {bs : List (Action κ TunnelV2.Input)}
    (has : (TunnelV3.threads core rater).machine.Along
      (Watch.OneAtATime fun th => !th.inProgress) p as)
    (hbs : (TunnelV2.threads core rater).machine.Along
      (Watch.OneAtATime fun th => !th.inProgress) q bs) :
    ((TunnelV3.activeClients.watch (TunnelV3.threads core rater)).machine
      (TunnelV3.threads core rater)).Along TunnelV3.activeClients.Attended p.watched as ∧
    ((TunnelV2.activeClients.watch (TunnelV2.threads core rater)).machine
      (TunnelV2.threads core rater)).Along TunnelV2.activeClients.Attended q.watched bs :=
  ⟨Gauge.attended_of_oneAtATime
      (fun _ h => TunnelV3.outside_of_rest core rater (by simpa using h)) has,
    Gauge.attended_of_oneAtATime
      (fun _ h => TunnelV2.outside_of_rest core rater (by simpa using h)) hbs⟩

end Rest

/-! ## Concrete runs -/

/-- A thread gets the first packet of an id. -/
def firstContact (i : Bool) (id : UInt8) : Action Bool TunnelV3.Input :=
  .work i (.receive id.toUInt32 9 [id, 0, 0, 0, 9, 0, 0, 0] (.v4 8 8 8 8 1234))

def steps (i : Bool) (n : Nat) : List (Action Bool TunnelV3.Input) :=
  List.replicate n (.work i (.go true))

/-- Two first contacts: the first stores a length that the second has already changed, while
the second is going to read and to store it. -/
def inOrder : List (Action Bool TunnelV3.Input) :=
  [firstContact false 1, firstContact true 2] ++ steps false 7 ++ steps true 6 ++ steps false 2 ++
    steps true 3

/-- Two first contacts, and the one that reads the length first stores it last. -/
def outOfOrder : List (Action Bool TunnelV3.Input) :=
  [firstContact false 1, firstContact true 2] ++ steps false 7 ++ steps true 9 ++ steps false 2

/-- While a request allocates, another one answers and a packet claims its slot 7. -/
def requests : List (Action Bool TunnelV2.Input) :=
  TunnelV2.requestTwo false :: TunnelV2.drawing false [0, 0, 5, 0, 0] ++
    TunnelV2.requestTwo true :: TunnelV2.drawing true [0, 0, 7, 0, 0, 8, 0, 0, 0, 0] ++
    .work true (.receive 7 8 [] (.v4 8 8 8 8 1234)) :: List.replicate 3 (.work true (.go true)) ++
    TunnelV2.drawing false [6, 0, 0, 0] ++ .work true (.go true) :: TunnelV2.drawing false [0]

/-- Two requests for two slots, and the one that reads the length first stores it last. -/
def requestsOutOfOrder : List (Action Bool TunnelV2.Input) :=
  TunnelV2.requestTwo false :: TunnelV2.drawing false [0, 0, 5, 0, 0, 6, 0, 0, 0] ++
    TunnelV2.requestTwo true :: TunnelV2.drawing true [0, 0, 7, 0, 0, 8, 0, 0, 0, 0] ++
    TunnelV2.drawing false [0]

theorem gauges_at_rest_in_order :
    ((TunnelV3.threads (RelayCore.reference 30) Rater.granting).machine.run
        (TunnelV3.referencePool Bool 200 1000) inOrder).shared.metrics.v3ActiveClients =
      ((TunnelV3.threads (RelayCore.reference 30) Rater.granting).machine.run
        (TunnelV3.referencePool Bool 200 1000) inOrder).shared.mappings.len ∧
    ((TunnelV2.threads (RelayCore.reference 30) Rater.granting).machine.run
        (TunnelV2.referencePool Bool 200 1000) requests).shared.metrics.v2ActiveClients =
      ((TunnelV2.threads (RelayCore.reference 30) Rater.granting).machine.run
        (TunnelV2.referencePool Bool 200 1000) requests).shared.mappings.len := by
  have has : ((TunnelV3.activeClients.watch (TunnelV3.threads (RelayCore.reference 30)
      Rater.granting)).machine (TunnelV3.threads (RelayCore.reference 30) Rater.granting)).Along
      TunnelV3.activeClients.Attended (TunnelV3.referencePool Bool 200 1000).watched inOrder := by
    decide +kernel
  have hbs : ((TunnelV2.activeClients.watch (TunnelV2.threads (RelayCore.reference 30)
      Rater.granting)).machine (TunnelV2.threads (RelayCore.reference 30) Rater.granting)).Along
      TunnelV2.activeClients.Attended (TunnelV2.referencePool Bool 200 1000).watched requests := by
    decide +kernel
  have h := gauges_at_rest (RelayCore.reference 30) Rater.granting
    (TunnelV3.referencePool_started Bool 200 1000) (TunnelV2.referencePool_started Bool 200 1000)
    rfl rfl has hbs
  exact ⟨h.1 (by decide +kernel), h.2 (by decide +kernel)⟩

/-- Every call has returned, and the gauges say 1 of 2 and 2 of 4. -/
theorem gauges_outdated :
    let core := RelayCore.reference 30
    let p := (TunnelV3.threads core Rater.granting).machine.run
      (TunnelV3.referencePool Bool 200 1000) outOfOrder
    let q := (TunnelV2.threads core Rater.granting).machine.run
      (TunnelV2.referencePool Bool 200 1000) requestsOutOfOrder
    ((∀ i, (p.thread i).inProgress = false) ∧ p.shared.metrics.v3ActiveClients = 1 ∧
      p.shared.mappings.len = 2) ∧
    (∀ k, (q.thread k).inProgress = false) ∧ q.shared.metrics.v2ActiveClients = 2 ∧
      q.shared.mappings.len = 4 := by
  decide +kernel

end CncnetServer
