import CncnetServer.V2.Threads
import CncnetServer.Lib.Watch

/-!
The capacity of the V2 tunnel, under every interleaving of requests, packets and
cleanups.

A request checks for room once and then inserts its ids one by one; until it has,
it owes them. Two requests that check before either inserts are promised the same
room, and a packet whose entry was removed after its lookup puts the entry back.
In a run without these two (`Roomy`) the map and what is owed fit the capacity
(`slot_capacity`); with the first they need not (`slot_capacity_exceeded`). A run is roomy
if requests check one after another's inserts and no entry is removed between the lookup and
the insert of a packet (`roomy_of_calm`).
-/

namespace CncnetServer.TunnelV2

open Threads Runs

variable {C R A : Type} (core : RelayCore C A) (rater : Rater R) {ι : Type}

/-! ## Owed slots -/

/-- The ids a request may still insert. -/
def RequestPc.owed (clients : Nat) : RequestPc → Nat
  | .attempt ids _ | .newClient ids _ _ | .insert ids _ _ _ => clients - ids.length
  | _ => 0

def Thread.owed : Thread → Nat
  | .request clients pc => pc.owed clients
  | _ => 0

/-- A request that is about to insert still lacks an id. -/
def Thread.Lacking : Thread → Prop
  | .request clients (.attempt ids _) | .request clients (.newClient ids _ _)
  | .request clients (.insert ids _ _ _) => ids.length < clients
  | _ => True

/-- A capacity check that passes leaves room for what the other requests owe, and a
packet inserts no entry that is not there. -/
def RoomyAt (s : Shared C R) (others : Nat) : Thread → Input → Prop
  | .request clients .checkLen, .draw _ =>
    s.mappings.len + clients ≤ s.maxClients → s.mappings.len + clients + others ≤ s.maxClients
  | .handler call (.insertClaim _ _), .go _ | .handler call (.insertReconnect _ _), .go _ =>
    call.senderId ∈ s.mappings
  | _, _ => True

instance (s : Shared C R) (others : Nat) (th : Thread) (a : Input) :
    Decidable (RoomyAt s others th a) := by
  unfold RoomyAt
  split <;> infer_instance

def Roomy [Fintype ι] [DecidableEq ι] (p : Pool ι (Shared C R) Thread) : Action ι Input → Prop
  | .work i a => RoomyAt p.shared (∑ j ∈ Finset.univ.erase i, (p.thread j).owed) (p.thread i) a
  | .tick _ => True

instance [Fintype ι] [DecidableEq ι] (p : Pool ι (Shared C R) Thread) : (a : Action ι Input) →
    Decidable (Roomy p a)
  | .work i a => inferInstanceAs (Decidable (RoomyAt p.shared _ (p.thread i) a))
  | .tick _ => .isTrue trivial

theorem owed_loop (clients : Nat) (ids : List Int16) (attempts : Nat) :
    (loop clients ids attempts).owed clients ≤ clients - ids.length ∧
      (Thread.request clients (loop clients ids attempts)).Lacking := by
  unfold loop
  split
  · rename_i h
    exact ⟨Nat.le_refl _, h.1⟩
  · split <;> exact ⟨Nat.zero_le _, trivial⟩

/-- What one step does to the length of the map and to what its thread owes: no more of
both together, unless it passes the capacity check. -/
structure LenStep (s s' : Shared C R) (th th' : Thread) : Prop where
  maxClients : s'.maxClients = s.maxClients
  lacking : th'.Lacking
  total : s'.mappings.len + th'.owed ≤ s.mappings.len + th.owed ∨
    (∃ clients, th = .request clients .checkLen ∧ s.mappings.len + clients ≤ s.maxClients ∧
      s'.mappings = s.mappings ∧ th'.owed ≤ clients)

variable {core rater}

/-- A step that leaves the map alone and whose thread owes no more. -/
theorem LenStep.quiet {s s' : Shared C R} {th th' : Thread} (hmax : s'.maxClients = s.maxClients)
    (hm : s'.mappings = s.mappings) (hlack : th'.Lacking) (howed : th'.owed ≤ th.owed) :
    LenStep s s' th th' where
  maxClients := hmax
  lacking := hlack
  total := Or.inl (by rw [hm]; omega)

theorem request_lenStep (s : Shared C R) (clients : Nat) (pc : RequestPc) (k : Int16)
    (hlack : (Thread.request clients pc).Lacking) :
    LenStep s (exec core rater s (.request clients pc) (.draw k)).1 (.request clients pc)
      (exec core rater s (.request clients pc) (.draw k)).2 := by
  cases pc with
  | maintenance =>
    simp only [exec, allocate]
    split
    · exact .quiet rfl rfl trivial (Nat.le_refl 0)
    · split <;> exact .quiet rfl rfl trivial (Nat.le_refl 0)
  | checkLen =>
    simp only [exec, allocate]
    split
    · exact .quiet rfl rfl trivial (Nat.le_refl 0)
    · rename_i hlen
      have hloop := owed_loop clients [] 0
      exact ⟨rfl, hloop.2, Or.inr ⟨clients, rfl, by omega, rfl, hloop.1⟩⟩
  | attempt ids attempts =>
    simp only [exec, allocate]
    split
    · exact .quiet rfl rfl hlack (Nat.le_refl _)
    · have hloop := owed_loop clients ids (attempts + 1)
      exact .quiet rfl rfl hloop.2 hloop.1
  | newClient ids attempts id => exact .quiet rfl rfl hlack (Nat.le_refl _)
  | insert ids attempts id r =>
    have hloop := owed_loop clients (ids ++ [id]) attempts
    have hlen := DashMap.len_insert_le s.mappings id r
    have hlt : ids.length < clients := hlack
    refine ⟨rfl, hloop.2, Or.inl ?_⟩
    show (s.mappings.insert id r).len + (loop clients (ids ++ [id]) attempts).owed clients ≤
      s.mappings.len + (clients - ids.length)
    have howed := hloop.1
    rw [List.length_append, List.length_singleton] at howed
    omega
  | rollBack ids =>
    cases ids with
    | nil => exact .quiet rfl rfl trivial (Nat.le_refl 0)
    | cons id ids =>
      simp only [exec, allocate_rollBack]
      have hlen := DashMap.len_remove_le s.mappings id
      exact ⟨rfl, trivial, Or.inl (Nat.add_le_add_right hlen 0)⟩
  | activeLen ids => exact .quiet rfl rfl trivial (Nat.le_refl 0)
  | activeStore ids len => exact .quiet rfl rfl trivial (Nat.le_refl 0)

theorem handler_lenStep (s : Shared C R) (call : Call) (pc : Pc) (b : Bool) {others : Nat}
    (hC : RoomyAt s others (.handler call pc) (.go b)) :
    LenStep s (exec core rater s (.handler call pc) (.go b)).1 (.handler call pc)
      (exec core rater s (.handler call pc) (.go b)).2 := by
  have hnext : ∀ pc, (exec core rater s (.handler call pc) (.go b)).2.Lacking ∧
      (exec core rater s (.handler call pc) (.go b)).2.owed = 0 := by
    intro pc
    show (Thread.handlerAt call (handle core s call b pc).2).Lacking ∧
      (Thread.handlerAt call (handle core s call b pc).2).owed = 0
    cases (handle core s call b pc).2 <;> exact ⟨trivial, rfl⟩
  have hinsert : ∀ r, call.senderId ∈ s.mappings →
      LenStep s { s with mappings := s.mappings.insert call.senderId r } (.handler call pc)
        (.handler call .forward) := by
    intro r hid
    exact ⟨rfl, trivial, Or.inl (Nat.add_le_add_right (DashMap.len_insert_of_mem hid).le 0)⟩
  cases pc with
  | insertClaim _ r => exact hinsert r hC
  | insertReconnect _ r => exact hinsert r hC
  | _ => exact .quiet rfl rfl (hnext _).1 (hnext _).2.le

theorem exec_lenStep (s : Shared C R) (th : Thread) (a : Input) {others : Nat}
    (hC : RoomyAt s others th a) (hlack : th.Lacking) :
    LenStep s (exec core rater s th a).1 th (exec core rater s th a).2 := by
  have hsame : LenStep s s th th := .quiet rfl rfl hlack (Nat.le_refl _)
  cases th with
  | idle => cases a <;> first | exact hsame | exact .quiet rfl rfl trivial (Nat.le_refl 0)
  | status => cases a <;> first | exact hsame | exact .quiet rfl rfl trivial (Nat.le_refl 0)
  | handler call pc =>
    cases a with
    | go b => exact handler_lenStep s call pc b hC
    | _ => exact hsame
  | request clients pc =>
    cases a with
    | draw k => exact request_lenStep s clients pc k hlack
    | _ => exact hsame
  | cleanup pc =>
    cases pc with
    | retain =>
      cases a with
      | visit key =>
        simp only [exec, visit]
        split
        · split
          · exact ⟨rfl, trivial, Or.inl (Nat.add_le_add_right (DashMap.len_remove_le _ key) 0)⟩
          · exact hsame
        · exact hsame
      | _ => exact .quiet rfl rfl trivial (Nat.le_refl 0)
    | _ => cases a <;> first | exact hsame | exact .quiet rfl rfl trivial (Nat.le_refl 0)

/-! ## Runs -/

section Run

variable [Fintype ι] [DecidableEq ι]

/-- The map and what all requests owe fit the capacity. -/
structure Fits (max : Nat) (p : Pool ι (Shared C R) Thread) : Prop where
  maxClients : p.shared.maxClients = max
  lacking : ∀ i, (p.thread i).Lacking
  total : p.shared.mappings.len + ∑ i, (p.thread i).owed ≤ max

/-- **The invariant of a roomy run.** -/
theorem fits_step {max : Nat} {p : Pool ι (Shared C R) Thread} (h : Fits max p)
    {a : Action ι Input} (ha : Roomy p a) :
    Fits max ((threads core rater).machine.step p a) := by
  cases a with
  | tick d => exact ⟨h.maxClients, h.lacking, h.total⟩
  | work i a =>
    have hstep : LenStep p.shared (exec core rater p.shared (p.thread i) a).1 (p.thread i)
      (exec core rater p.shared (p.thread i) a).2 := exec_lenStep p.shared _ a ha (h.lacking i)
    have hsum := sum_update_local Finset.univ (Finset.mem_univ i) Thread.owed p.thread
      (exec core rater p.shared (p.thread i) a).2
    have hothers := Finset.add_sum_erase Finset.univ (fun j => (p.thread j).owed)
      (Finset.mem_univ i)
    have htotal := h.total
    refine ⟨hstep.maxClients.trans h.maxClients, fun j => ?_, ?_⟩
    · by_cases hj : j = i
      · subst hj
        exact (congrArg Thread.Lacking (Function.update_self _ _ _)).mpr hstep.lacking
      · exact (congrArg Thread.Lacking (Function.update_of_ne hj _ _)).mpr (h.lacking j)
    · show (exec core rater p.shared (p.thread i) a).1.mappings.len +
        ∑ j, (Function.update p.thread i (exec core rater p.shared (p.thread i) a).2 j).owed ≤ max
      rcases hstep.total with hle | ⟨clients, hth, hlen, hm, howed⟩
      · omega
      · -- the check has passed: what the others owe was counted, this thread owed nothing
        have hroomy : RoomyAt p.shared (∑ j ∈ Finset.univ.erase i, (p.thread j).owed)
          (p.thread i) a := ha
        have hnone : (p.thread i).owed = 0 := by rw [hth]; rfl
        rw [hth] at hroomy
        rw [h.maxClients] at hlen
        cases a with
        | draw k =>
          have hleft := hroomy (by rw [h.maxClients]; exact hlen)
          rw [h.maxClients] at hleft
          rw [hm]
          omega
        | _ =>
          -- no other input moves a request
          rw [hth] at hsum howed hm ⊢
          have hsame : (Thread.request clients .checkLen).owed = 0 := rfl
          simp only [exec] at hsum ⊢
          omega

theorem slots_of_emit {s : Shared C R} {th : Thread} {a : Input} {free inUse : Nat}
    (h : .slots free inUse ∈ emit core s th a) :
    free = s.maxClients - s.mappings.len ∧ inUse = s.mappings.len := by
  cases th with
  | idle => cases h
  | status =>
    cases a with
    | go _ =>
      have h' : Shown.slots free inUse ∈ [.slots (s.maxClients - s.mappings.len) s.mappings.len] := h
      cases List.mem_singleton.mp h'
      exact ⟨rfl, rfl⟩
    | _ => cases h
  | handler call pc =>
    cases a with
    | go _ => cases pc <;> simp [emit, shown] at h
    | _ => cases h
  | request clients pc =>
    cases a with
    | draw _ =>
      cases pc with
      | rollBack ids => cases ids <;> simp [emit, shownRequest] at h
      | _ => simp [emit, shownRequest] at h
    | _ => cases h
  | cleanup pc =>
    cases pc <;> cases a <;> first | cases h | skip
    simp only [emit] at h
    split at h <;> simp at h

variable (core rater) in
/-- **The capacity holds**, in every roomy run: there are never more clients than
`max_clients`, and the slots `/status` prints add up to it. -/
theorem slot_capacity {p : Pool ι (Shared C R) Thread} (hstart : Started p)
    {as : List (Action ι Input)} (hC : (threads core rater).machine.Along Roomy p as) :
    let M := (threads core rater).machine
    (M.run p as).shared.mappings.len ≤ p.shared.maxClients ∧
    ∀ i free inUse, (i, .slots free inUse) ∈ M.trace p as → free + inUse = p.shared.maxClients := by
  intro M
  have h0 : Fits p.shared.maxClients p := by
    refine ⟨rfl, fun i => by rw [hstart.idle i]; trivial, ?_⟩
    have hzero : ∑ i, (p.thread i).owed = 0 :=
      Finset.sum_eq_zero fun i _ => by rw [hstart.idle i]; rfl
    rw [hzero, hstart.mappings]
    exact Nat.zero_le _
  have hinv := M.run_trace_induction (C := Roomy) (s := p)
    (P := fun tr q => Fits p.shared.maxClients q ∧
      ∀ i free inUse, (i, .slots free inUse) ∈ tr → free + inUse = p.shared.maxClients)
    ⟨h0, fun i free inUse h => by cases h⟩ ?_ as hC
  · exact ⟨Nat.le_trans (Nat.le_add_right _ _) hinv.1.total, hinv.2⟩
  · rintro tr q a ⟨hfits, hslots⟩ ha
    refine ⟨fits_step hfits ha, fun i free inUse hmem => ?_⟩
    rcases List.mem_append.mp hmem with hold | hnew
    · exact hslots i free inUse hold
    · cases a with
      | tick d => cases hnew
      | work j a =>
        obtain ⟨e, he, heq⟩ := List.mem_map.mp hnew
        cases heq
        obtain ⟨rfl, rfl⟩ := slots_of_emit he
        have hlen := Nat.le_trans (Nat.le_add_right _ _) hfits.total
        rw [hfits.maxClients]
        omega

/-! ## Packets and requests that are let alone -/

variable (core rater) in
/-- A packet that has found its entry and has yet to insert its client, which the removal of
the entry by another thread disturbs. -/
def claiming : Watch (Shared C R) Thread Input :=
  .relying (threads core rater) Thread.reconnects (fun s id => id ∈ s.mappings) fun
    | .handler _ (.insertClaim _ _), .go _ | .handler _ (.insertReconnect _ _), .go _ => true
    | _, _ => false

/-- A request checks the capacity only while no other request owes ids. -/
def ChecksAlone (p : Pool ι (Shared C R) Thread) : Action ι Input → Prop
  | .work i _ => ∀ clients, p.thread i = .request clients .checkLen →
      ∀ j, j ≠ i → (p.thread j).owed = 0
  | .tick _ => True

omit [Fintype ι] [DecidableEq ι] in
theorem claiming_keeps : (claiming core rater).Keeps (ι := ι) (threads core rater)
    (fun _ => True) (fun s th => ∀ id ∈ th.reconnects, id ∈ s.mappings) := by
  refine Watch.relying_keeps (fun s th a id hid => ?_) fun _ _ _ h => h
  obtain ⟨hm, hbefore | hthere⟩ := exec_reconnects core rater hid
  · exact Or.inl ⟨hbefore, fun h => hm ▸ h⟩
  · exact Or.inr (hm ▸ hthere)

theorem reconnects_of_acts {th : Thread} {a : Input} (h : (claiming core rater).acts th a = true) :
    th.reconnects.isSome = true := by
  cases th with
  | handler call pc => cases pc <;> first | rfl | (cases a <;> cases h)
  | _ => cases a <;> cases h

theorem roomy_of_calm {p : Pool ι (Shared C R) Thread} (hidle : ∀ i, p.thread i = .idle)
    {as : List (Action ι Input)}
    (hcalm : ((claiming core rater).machine (threads core rater)).Along (claiming core rater).Calm
      p.watched as)
    (hchecks : (threads core rater).machine.Along ChecksAlone p as) :
    (threads core rater).machine.Along Roomy p as := by
  have hthere := claiming_keeps.along
    (C := fun p a => match a with
      | .work i a => (claiming core rater).acts (p.thread i) a = true →
          ∀ id ∈ (p.thread i).reconnects, id ∈ p.shared.mappings
      | .tick _ => True)
    (fun p i a _ hknown => hknown) (fun _ _ => trivial) (fun th a h => reconnects_of_acts h)
    (fun _ _ _ _ => trivial) trivial (fun i => by rw [hidle i]; rfl) hcalm
  refine (threads core rater).machine.along_mono ?_
    (((threads core rater).machine.along_and p as).mpr ⟨hthere, hchecks⟩)
  rintro q (⟨i, a⟩ | d) ⟨hinsert, hcheck⟩
  · show RoomyAt q.shared _ (q.thread i) a
    have hinsert : (claiming core rater).acts (q.thread i) a = true →
        ∀ id ∈ (q.thread i).reconnects, id ∈ q.shared.mappings := hinsert
    have hnone : (∀ clients, q.thread i = .request clients .checkLen →
        ∑ j ∈ Finset.univ.erase i, (q.thread j).owed = 0) := fun clients hth =>
      Finset.sum_eq_zero fun j hj => hcheck clients hth j (Finset.ne_of_mem_erase hj)
    generalize q.thread i = th at hinsert hnone
    cases th with
    | request clients pc =>
      cases pc with
      | checkLen =>
        cases a with
        | draw k =>
          intro hlen
          rw [hnone clients rfl]
          exact hlen
        | _ => trivial
      | _ => cases a <;> trivial
    | handler call pc =>
      cases a with
      | go sendOk =>
        cases pc with
        | insertClaim sender newClient => exact hinsert rfl _ rfl
        | insertReconnect sender newClient => exact hinsert rfl _ rfl
        | _ => trivial
      | _ => cases pc <;> trivial
    | _ => cases a <;> trivial
  · trivial

/-- Calls one at a time are roomy. -/
theorem roomy_of_one_call {p : Pool ι (Shared C R) Thread} (hidle : ∀ i, p.thread i = .idle)
    {as : List (Action ι Input)}
    (hone : (threads core rater).machine.Along (Watch.OneAtATime fun th => !th.inProgress) p as) :
    (threads core rater).machine.Along Roomy p as := by
  refine roomy_of_calm hidle (Watch.calm_of_oneAtATime (fun th hrest => ?_) hone)
    ((threads core rater).machine.along_mono ?_ hone)
  · cases th with
    | idle => rfl
    | status => rfl
    | _ => cases hrest
  · rintro q (⟨i, a⟩ | d) hrest
    · intro clients _ j hj
      have hother := hrest j hj
      generalize q.thread j = th at hother
      cases th with
      | request clients pc => cases hother
      | _ => rfl
    · trivial

end Run

/-- Two requests for two slots allocate at the same time in a tunnel of four, and a packet
claims a slot meanwhile. -/
def twoRequestsAndPacket : List (Action Bool Input) :=
  [requestTwo false, requestTwo true] ++ drawing false [0, 0] ++ drawing true [0, 0] ++
    drawing false [7, 0, 0, 8, 0, 0, 0, 0] ++ drawing true [9, 0, 0] ++
    .work false (.receive 7 8 [] (.v4 8 8 8 8 1234)) :: List.replicate 4 (.work false (.go true)) ++
    drawing true [10, 0, 0, 0, 0] ++ [.work false .status, .work false (.go true)]

theorem slot_capacity_two_requests :
    (false, .slots 0 4) ∈ (threads (RelayCore.reference timeoutSeconds) Rater.granting).machine.trace
        (referencePool Bool 4 1000) twoRequestsAndPacket ∧
    ((threads (RelayCore.reference timeoutSeconds) Rater.granting).machine.run
      (referencePool Bool 4 1000) twoRequestsAndPacket).shared.mappings.len ≤ 4 := by
  refine ⟨by decide +kernel, (slot_capacity (RelayCore.reference timeoutSeconds) Rater.granting
    (referencePool_started Bool 4 1000) ?_).1⟩
  decide +kernel

/-- Two requests for two slots in a tunnel of two: both check before either inserts. -/
theorem slot_capacity_exceeded :
    let M := (threads (RelayCore.reference timeoutSeconds) Rater.granting).machine
    let p := referencePool Bool 2 1000
    let as := [requestTwo false, requestTwo true] ++ drawing false [0, 0] ++ drawing true [0, 0] ++
      drawing false [7, 0, 0, 8, 0, 0] ++ drawing true [9, 0, 0, 10, 0, 0]
    p.shared.maxClients = 2 ∧ (M.run p as).shared.mappings.len = 4 := by
  decide +kernel

end CncnetServer.TunnelV2
