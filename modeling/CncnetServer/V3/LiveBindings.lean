import CncnetServer.V3.Threads
import CncnetServer.Lib.Watch

/-!
Live bindings of the V3 tunnel, under every interleaving of its threads.

A handler acts on the entry it looked up, not on the entry that is there when it
acts. Two accesses go wrong by that: an insert that displaces a client that is
still alive, and a refresh of a client that is no longer in the map. In a run
without such an access (`Undisturbed`) an accepted sender stays bound until its
time is over (`live_bindings_stable`); with one it need not
(`live_bindings_displaced`). A run is undisturbed if no other thread touches the entry of a
handler between its lookup and its insert or refresh (`undisturbed_of_calm`).
-/

namespace CncnetServer.TunnelV3

open Threads Runs

variable {C A R : Type} (core : RelayCore C A) (rater : Rater R)

/-- The time a client lives without a packet. -/
def timeout : Nat := timeoutSeconds * core.second

/-- The access finds what the handler looked up: an insert finds the id free or
its client timed out, a refresh finds its client in place and not fresher. -/
def Undisturbed (s : Shared C A R) : Thread → Input → Prop
  | .handler call (.insertReconnect _), .go _ | .handler call (.insertFirst _), .go _ =>
    (s.mappings.get call.senderId).all (fun r => core.isTimedOut (s.heap.cell r) s.clock) = true
  | .handler call (.setLastReceive client), .go _ =>
    s.mappings.get call.senderId = some client ∧
      core.lastReceive (s.heap.cell client) ≤ call.now
  | _, _ => True

instance (s : Shared C A R) (th : Thread) (a : Input) : Decidable (Undisturbed core s th a) := by
  unfold Undisturbed
  split <;> infer_instance

/-- The id is bound to the endpoint by a client heard from at `t` or later. -/
def Live (s : Shared C A R) (id : UInt32) (addr : SocketAddr) (t : Nat) : Prop :=
  ∃ r, s.mappings.get id = some r ∧ core.remoteEp (s.heap.cell r) = some addr ∧
    t ≤ core.lastReceive (s.heap.cell r)

/-- The binding is live, or the time of the packet that made it is over. -/
def Kept (s : Shared C A R) (id : UInt32) (addr : SocketAddr) (t : Nat) : Prop :=
  Live core s id addr t ∨ t + timeout core < s.clock

/-! ## What an undisturbed step does -/

/-- Every entry refers to an allocated client. -/
def Allocated (s : Shared C A R) : Prop :=
  ∀ id r, s.mappings.get id = some r → r < s.heap.next

/-- A step that only drops timed-out clients and only makes clients fresher. -/
structure Gentle (s s' : Shared C A R) : Prop where
  clock : s'.clock = s.clock
  next : s.heap.next ≤ s'.heap.next
  remoteEp : ∀ r < s.heap.next, core.remoteEp (s'.heap.cell r) = core.remoteEp (s.heap.cell r)
  lastReceive : ∀ r < s.heap.next,
    core.lastReceive (s.heap.cell r) ≤ core.lastReceive (s'.heap.cell r)
  stays : ∀ id r, s.mappings.get id = some r → s'.mappings.get id = some r ∨
    core.isTimedOut (s.heap.cell r) s.clock = true

variable {core}

theorem Gentle.refl (s : Shared C A R) : Gentle core s s where
  clock := rfl
  next := Nat.le_refl _
  remoteEp _ _ := rfl
  lastReceive _ _ := Nat.le_refl _
  stays _ _ h := Or.inl h

/-- Nothing a binding depends on has changed. -/
theorem Gentle.of_eq {s s' : Shared C A R} (hm : s'.mappings = s.mappings) (hh : s'.heap = s.heap)
    (hc : s'.clock = s.clock) : Gentle core s s' where
  clock := hc
  next := by rw [hh]
  remoteEp _ _ := by rw [hh]
  lastReceive _ _ := by rw [hh]
  stays _ _ h := Or.inl (by rw [hm]; exact h)

theorem Gentle.alloc (s : Shared C A R) (c : C) :
    Gentle core s { s with heap := s.heap.alloc c } where
  clock := rfl
  next := Nat.le_succ _
  remoteEp r hr := by rw [Heap.cell_alloc_of_lt _ _ hr]
  lastReceive r hr := by rw [Heap.cell_alloc_of_lt _ _ hr]
  stays _ _ h := Or.inl h

theorem Gentle.modify (s : Shared C A R) (r : Ref) (f : C → C)
    (hep : ∀ c, core.remoteEp (f c) = core.remoteEp c)
    (hlast : core.lastReceive (s.heap.cell r) ≤ core.lastReceive (f (s.heap.cell r))) :
    Gentle core s { s with heap := s.heap.modify r f } where
  clock := rfl
  next := Nat.le_refl _
  remoteEp j _ := Heap.apply_cell_modify core.remoteEp hep s.heap r j
  lastReceive j _ := by
    rw [Heap.cell_modify]
    split
    · rename_i hj; rw [hj]; exact hlast
    · exact Nat.le_refl _
  stays _ _ h := Or.inl h

theorem Gentle.insert (s : Shared C A R) (id : UInt32) (r : Ref)
    (hold : (s.mappings.get id).all (fun r => core.isTimedOut (s.heap.cell r) s.clock) = true) :
    Gentle core s { s with mappings := s.mappings.insert id r } where
  clock := rfl
  next := Nat.le_refl _
  remoteEp _ _ := rfl
  lastReceive _ _ := Nat.le_refl _
  stays j r' h := by
    by_cases hj : j = id
    · subst hj
      rw [h, Option.all_some] at hold
      exact Or.inr hold
    · exact Or.inl (by rw [DashMap.get_insert_ne _ _ hj]; exact h)

theorem Gentle.visit (s : Shared C A R) (key : UInt32) : Gentle core s (visit core s key) := by
  unfold TunnelV3.visit
  split
  · rename_i client hget
    split
    · rename_i hto
      refine ⟨rfl, Nat.le_refl _, fun _ _ => rfl, fun _ _ => Nat.le_refl _, ?_⟩
      intro id r h
      by_cases hid : id = key
      · subst hid
        rw [hget] at h
        cases h
        exact Or.inr hto
      · exact Or.inl (by rw [DashMap.get_remove, if_neg hid]; exact h)
    · exact .refl s
  · exact .refl s

/-- **A gentle step keeps bindings.** -/
theorem Gentle.kept {s s' : Shared C A R} (h : Gentle core s s') (hs : Allocated s)
    (htime : core.TimesOutAfter timeoutSeconds) {id : UInt32} {addr : SocketAddr} {t : Nat}
    (hk : Kept core s id addr t) : Kept core s' id addr t := by
  rcases hk with ⟨r, hget, hep, ht⟩ | hover
  · have hr := hs id r hget
    rcases h.stays id r hget with hstay | hto
    · exact Or.inl ⟨r, hstay, (h.remoteEp r hr).trans hep, Nat.le_trans ht (h.lastReceive r hr)⟩
    · have hdead := (htime.isTimedOut_iff _ _).mp hto
      refine Or.inr ?_
      rw [h.clock]
      unfold timeout
      omega
  · exact Or.inr (by rw [h.clock]; exact hover)

/-! ## The steps are gentle -/

variable (core)

/-- What a handler relies on at its next access: the client it is about to insert
is fresh, the one it is about to refresh is its own, and once it has bound its id
the binding is kept. -/
def KnowsAt (s : Shared C A R) (call : Call) : Pc → Prop
  | .insertReconnect r | .insertFirst r =>
    r < s.heap.next ∧ core.remoteEp (s.heap.cell r) = some call.remoteAddr ∧
      call.now ≤ core.lastReceive (s.heap.cell r)
  | .setLastReceive r => r < s.heap.next ∧ core.remoteEp (s.heap.cell r) = some call.remoteAddr
  | .analyzerReconnect | .updateStats _ | .recordPacket | .analyzerFirst | .activeLen
  | .activeStore _ => Kept core s call.senderId call.remoteAddr call.now
  | _ => True

def Knows (s : Shared C A R) : Thread → Prop
  | .handler call pc => call.now ≤ s.clock ∧ KnowsAt core s call pc
  | _ => True

variable {core}

section Laws

variable (hcore : core.FixedEndpoint) (htime : core.TimesOutAfter timeoutSeconds)
include hcore htime

theorem handle_gentle {s : Shared C A R} {call : Call} {pc : Pc} (sendOk : Bool)
    (hC : Undisturbed core s (.handler call pc) (.go sendOk)) :
    Gentle core s (handle core rater s call sendOk pc).1 := by
  have hstats : ∀ r received sent, Gentle core s
      { s with heap := s.heap.modify r (core.updateStats · received sent call.now) } := by
    intro r received sent
    apply Gentle.modify
    · exact fun c => hcore.remoteEp_updateStats c received sent call.now
    · rw [htime.lastReceive_updateStats]
  cases pc with
  | newReconnect => exact .alloc s _
  | newFirst => exact .alloc s _
  | insertReconnect r => exact .insert s _ r hC
  | insertFirst r => exact .insert s _ r hC
  | setLastReceive r =>
    apply Gentle.modify
    · exact fun c => hcore.remoteEp_setLastReceiveTickAt c call.now
    · rw [htime.lastReceive_setLastReceiveTickAt]
      exact hC.2
  | updateStats r => exact hstats r _ _
  | receiverStats r => exact hstats r _ _
  | _ => exact .of_eq rfl rfl rfl

theorem exec_gentle {s : Shared C A R} {th : Thread} {a : Input} (hC : Undisturbed core s th a) :
    Gentle core s (exec core rater s th a).1 := by
  cases th with
  | idle => cases a <;> exact .refl s
  | handler call pc =>
    cases a with
    | go sendOk => exact handle_gentle rater hcore htime sendOk hC
    | receive _ _ _ _ => exact .refl s
    | clean => exact .refl s
    | visit _ => exact .refl s
  | cleanup pc =>
    cases pc with
    | retain =>
      cases a with
      | visit key => exact .visit s key
      | receive _ _ _ _ => exact .refl s
      | clean => exact .refl s
      | go _ => exact .refl s
    | activeLen => cases a <;> exact .refl s
    | activeStore len => cases a <;> exact .of_eq rfl rfl rfl
    | resetPings => cases a <;> exact .of_eq rfl rfl rfl

omit hcore in
/-- A gentle step leaves what any thread relies on true. -/
theorem Gentle.knows {s s' : Shared C A R} (h : Gentle core s s') (hs : Allocated s) {th : Thread}
    (hk : Knows core s th) : Knows core s' th := by
  have hfresh : ∀ {r addr t}, r < s.heap.next ∧ core.remoteEp (s.heap.cell r) = some addr ∧
      t ≤ core.lastReceive (s.heap.cell r) → r < s'.heap.next ∧
      core.remoteEp (s'.heap.cell r) = some addr ∧ t ≤ core.lastReceive (s'.heap.cell r) := by
    rintro r addr t ⟨hr, hep, ht⟩
    exact ⟨Nat.lt_of_lt_of_le hr h.next, (h.remoteEp r hr).trans hep,
      Nat.le_trans ht (h.lastReceive r hr)⟩
  cases th with
  | idle => trivial
  | cleanup _ => trivial
  | handler call pc =>
    obtain ⟨hnow, hk⟩ := hk
    refine ⟨by rw [h.clock]; exact hnow, ?_⟩
    cases pc with
    | insertReconnect r => exact hfresh hk
    | insertFirst r => exact hfresh hk
    | setLastReceive r =>
      exact ⟨Nat.lt_of_lt_of_le hk.1 h.next, (h.remoteEp r hk.1).trans hk.2⟩
    | analyzerReconnect => exact h.kept hs htime hk
    | updateStats _ => exact h.kept hs htime hk
    | recordPacket => exact h.kept hs htime hk
    | analyzerFirst => exact h.kept hs htime hk
    | activeLen => exact h.kept hs htime hk
    | activeStore _ => exact h.kept hs htime hk
    | _ => trivial

/-! ## What a step establishes -/

omit hcore htime in
/-- Only allocated clients are inserted. -/
theorem exec_allocated {s : Shared C A R} (hs : Allocated s) {th : Thread} (hk : Knows core s th)
    (a : Input) : Allocated (exec core rater s th a).1 := by
  have hinsert : ∀ id r, r < s.heap.next →
      Allocated { s with mappings := s.mappings.insert id r } := by
    intro id r hr j r' hget
    by_cases hj : j = id
    · subst hj
      rw [DashMap.get_insert_self] at hget
      cases hget
      exact hr
    · rw [DashMap.get_insert_ne _ _ hj] at hget
      exact hs j r' hget
  have halloc : ∀ c, Allocated { s with heap := s.heap.alloc c } :=
    fun c id r hget => Nat.lt_succ_of_lt (hs id r hget)
  have hvisit : ∀ key, Allocated (visit core s key) := by
    intro key
    unfold visit
    split
    · split
      · intro id r hget
        rw [DashMap.get_remove] at hget
        split at hget
        · cases hget
        · exact hs id r hget
      · exact hs
    · exact hs
  cases th with
  | idle => cases a <;> exact hs
  | cleanup pc =>
    cases pc with
    | retain =>
      cases a with
      | visit key => exact hvisit key
      | _ => exact hs
    | _ => cases a <;> exact hs
  | handler call pc =>
    cases a with
    | go sendOk =>
      cases pc with
      | insertReconnect r => exact hinsert _ r hk.2.1
      | insertFirst r => exact hinsert _ r hk.2.1
      | newReconnect => exact halloc _
      | newFirst => exact halloc _
      | _ => exact hs
    | _ => exact hs

/-- A handler knows at its next access what it relies on there. -/
theorem handle_knows {s : Shared C A R} (hs : Allocated s) {call : Call} {pc next : Pc}
    (hnow : call.now ≤ s.clock) (hk : KnowsAt core s call pc) {sendOk : Bool}
    (hC : Undisturbed core s (.handler call pc) (.go sendOk))
    (hnext : (handle core rater s call sendOk pc).2 = some next) :
    KnowsAt core (handle core rater s call sendOk pc).1 call next := by
  have hgentle := handle_gentle rater hcore htime sendOk hC
  have hnew : core.remoteEp (core.newWithEndpoint call.remoteAddr s.clock) = some call.remoteAddr ∧
      call.now ≤ core.lastReceive (core.newWithEndpoint call.remoteAddr s.clock) := by
    rw [hcore.remoteEp_newWithEndpoint, htime.lastReceive_newWithEndpoint]
    exact ⟨rfl, hnow⟩
  cases pc with
  | lookup =>
    cases hget : s.mappings.get call.senderId with
    | none =>
      simp only [handle, hget, Option.some.injEq] at hnext
      subst hnext
      trivial
    | some r =>
      cases hep : core.remoteEp (s.heap.cell r) with
      | none => simp [handle, hget, hep] at hnext
      | some ep =>
        simp only [handle, hget, hep, Option.some.injEq] at hnext
        subst hnext
        split
        · trivial
        · rename_i heq
          exact ⟨hs _ r hget, by rw [← not_ne_iff.mp heq]; exact hep⟩
  | isTimedOut r =>
    simp only [handle] at hnext
    split at hnext <;> cases hnext
    trivial
  | tryAcquireReconnect =>
    simp only [handle] at hnext
    split at hnext <;> cases hnext
    trivial
  | newReconnect =>
    cases hnext
    refine ⟨Nat.lt_succ_self _, ?_⟩
    simp only [handle, Heap.cell_alloc_next]
    exact hnew
  | insertReconnect r =>
    cases hnext
    exact Or.inl ⟨r, DashMap.get_insert_self _ _ _, hk.2⟩
  | analyzerReconnect => cases hnext; trivial
  | setLastReceive r =>
    cases hnext
    refine Or.inl ⟨r, hC.1, ?_⟩
    simp only [handle, Heap.cell_modify, if_true, hcore.remoteEp_setLastReceiveTickAt,
      htime.lastReceive_setLastReceiveTickAt]
    exact ⟨hk.2, Nat.le_refl _⟩
  | updateStats r => cases hnext; exact hgentle.kept hs htime hk
  | recordPacket => cases hnext; trivial
  | checkLen =>
    simp only [handle, Option.some.injEq] at hnext
    subst hnext
    split <;> trivial
  | tryAcquireFirst =>
    simp only [handle, Option.some.injEq] at hnext
    subst hnext
    split <;> trivial
  | newFirst =>
    cases hnext
    refine ⟨Nat.lt_succ_self _, ?_⟩
    simp only [handle, Heap.cell_alloc_next]
    exact hnew
  | insertFirst r =>
    cases hnext
    exact Or.inl ⟨r, DashMap.get_insert_self _ _ _, hk.2⟩
  | analyzerFirst => cases hnext; exact hgentle.kept hs htime hk
  | activeLen => cases hnext; exact hk
  | activeStore len => cases hnext; trivial
  | rateLimited => cases hnext
  | full => cases hnext
  | forward =>
    simp only [handle] at hnext
    split at hnext
    · split at hnext
      · split at hnext <;> cases hnext
        trivial
      · cases hnext
    · cases hnext
  | send ep r =>
    simp only [handle, Option.some.injEq] at hnext
    subst hnext
    split <;> trivial
  | receiverStats r => cases hnext
  | recordLost => cases hnext

theorem exec_knows {s : Shared C A R} (hs : Allocated s) {th : Thread} (hk : Knows core s th)
    {a : Input} (hC : Undisturbed core s th a) :
    Knows core (exec core rater s th a).1 (exec core rater s th a).2 := by
  cases th with
  | idle =>
    cases a with
    | receive _ _ _ _ => exact ⟨Nat.le_refl _, trivial⟩
    | _ => trivial
  | cleanup pc => cases pc <;> cases a <;> trivial
  | handler call pc =>
    cases a with
    | receive _ _ _ _ => exact hk
    | clean => exact hk
    | visit _ => exact hk
    | go sendOk =>
      obtain ⟨hnow, hk⟩ := hk
      have hclock := (handle_gentle rater hcore htime sendOk hC).clock
      simp only [exec]
      cases hpc : (handle core rater s call sendOk pc).2 with
      | none => trivial
      | some next =>
        exact ⟨by rw [hclock]; exact hnow, handle_knows rater hcore htime hs hnow hk hC hpc⟩

omit hcore htime in
/-- A sender is accepted only at an access that knows its binding is kept. -/
theorem kept_of_accepted {s : Shared C A R} {th : Thread} (hk : Knows core s th) {a : Input}
    {id : UInt32} {addr : SocketAddr} {t : Nat} (hacc : .accepted id addr t ∈ emit th a) :
    Kept core s id addr t := by
  cases th with
  | idle => cases hacc
  | cleanup _ => cases hacc
  | handler call pc =>
    cases a with
    | receive _ _ _ _ => cases hacc
    | clean => cases hacc
    | visit _ => cases hacc
    | go sendOk =>
      have hmem : Shown.accepted id addr t ∈ shown call pc := hacc
      cases pc with
      | analyzerReconnect =>
        obtain ⟨rfl, rfl, rfl⟩ : id = _ ∧ addr = _ ∧ t = _ := by simpa [shown] using hmem
        exact hk.2
      | recordPacket =>
        obtain ⟨rfl, rfl, rfl⟩ : id = _ ∧ addr = _ ∧ t = _ := by simpa [shown] using hmem
        exact hk.2
      | activeStore len =>
        obtain ⟨rfl, rfl, rfl⟩ : id = _ ∧ addr = _ ∧ t = _ := by simpa [shown] using hmem
        exact hk.2
      | _ => simp [shown] at hmem

omit hcore htime in
theorem kept_tick {s : Shared C A R} {id : UInt32} {addr : SocketAddr} {t : Nat} (d : Nat)
    (hk : Kept core s id addr t) : Kept core { s with clock := s.clock + d } id addr t := by
  rcases hk with hlive | hover
  · exact Or.inl hlive
  · exact Or.inr (Nat.lt_of_lt_of_le hover (Nat.le_add_right _ _))

/-- **The invariant of an undisturbed run**: every entry is allocated, every
handler knows what it relies on, and every accepted binding is kept. -/
theorem undisturbed_invariant (ι : Type) [DecidableEq ι] : (threads core rater).Invariant
    (System.OnWork (ι := ι) (Undisturbed core))
    (fun tr s => Allocated s ∧
      ∀ i id addr t, (i, .accepted id addr t) ∈ tr → Kept core s id addr t)
    (fun _ s _ th => Knows core s th) (fun _ _ => True) where
  exec tr p i a := by
    rintro hC ⟨hs, htr⟩ hk
    have hgentle := exec_gentle rater hcore htime hC
    refine ⟨⟨exec_allocated rater hs hk a, ?_⟩, exec_knows rater hcore htime hs hk hC⟩
    intro j id addr t hmem
    rcases List.mem_append.mp hmem with hold | hnew
    · exact hgentle.kept hs htime (htr j id addr t hold)
    · obtain ⟨_, hemit, heq⟩ := List.mem_map.mp hnew
      cases heq
      exact hgentle.kept hs htime (kept_of_accepted hk hemit)
  interfere tr p i a j := by
    rintro hC ⟨hs, _⟩ _ _ hj _
    exact (exec_gentle rater hcore htime hC).knows htime hs hj
  apart _ _ _ _ _ _ _ _ _ _ _ := trivial
  symm _ _ _ := trivial
  tick tr s d := by
    rintro ⟨hs, htr⟩
    exact ⟨hs, fun i id addr t hmem => kept_tick d (htr i id addr t hmem)⟩
  tick_local tr s d i u := by
    rintro _ hu
    cases u with
    | idle => trivial
    | cleanup _ => trivial
    | handler call pc =>
      refine ⟨Nat.le_trans hu.1 (Nat.le_add_right _ _), ?_⟩
      have hk := hu.2
      cases pc <;> first | exact hk | exact kept_tick d hk

end Laws

variable (core) in
/-- **Live bindings are stable**, in every run whose accesses find what their
handlers looked up: an accepted sender is bound until its time is over, and two
senders accepted for one id within their time are the same endpoint. -/
theorem live_bindings_stable (hcore : core.FixedEndpoint)
    (htime : core.TimesOutAfter timeoutSeconds) {ι : Type} [DecidableEq ι]
    {p : Pool ι (Shared C A R) Thread} (hstart : Started p) {as : List (Action ι Input)}
    (hC : (threads core rater).machine.Along (System.OnWork (Undisturbed core)) p as) :
    let tr := (threads core rater).machine.trace p as
    let s := ((threads core rater).machine.run p as).shared
    (∀ i id addr t, (i, .accepted id addr t) ∈ tr →
      s.clock ≤ t + timeoutSeconds * core.second → s.endpointOf core id = some addr) ∧
    (∀ i i' id addr addr' t t', (i, .accepted id addr t) ∈ tr → (i', .accepted id addr' t') ∈ tr →
      s.clock ≤ t + timeoutSeconds * core.second → s.clock ≤ t' + timeoutSeconds * core.second →
      addr = addr') := by
  intro tr s
  have hinv := (undisturbed_invariant rater hcore htime ι).run (p := p)
    ⟨⟨fun id r h => by simp [hstart.mappings] at h, fun _ _ _ _ h => by cases h⟩,
      fun i => by rw [hstart.idle i]; trivial, fun _ _ _ => trivial⟩ hC
  have hbound : ∀ i id addr t, (i, .accepted id addr t) ∈ tr →
      s.clock ≤ t + timeoutSeconds * core.second → s.endpointOf core id = some addr := by
    intro i id addr t hmem ht
    rcases hinv.shared.2 i id addr t hmem with ⟨r, hget, hep, _⟩ | hover
    · rw [Shared.endpointOf, hget, Option.bind_some, hep]
    · exact absurd hover (Nat.not_lt.mpr ht)
  refine ⟨hbound, fun i i' id addr addr' t t' hmem hmem' ht ht' => ?_⟩
  have heq := (hbound i id addr t hmem ht).symm.trans (hbound i' id addr' t' hmem' ht')
  exact Option.some.inj heq

/-! ## Handlers that are let alone -/

section LetAlone

/-- The id whose entry a handler looks up and has yet to write. -/
def Thread.relies : Thread → Option UInt32
  | .handler call .lookup => some call.senderId
  | .handler call (.isTimedOut _) | .handler call .tryAcquireReconnect => some call.senderId
  | .handler call .newReconnect | .handler call (.insertReconnect _) => some call.senderId
  | .handler call (.setLastReceive _) | .handler call .checkLen => some call.senderId
  | .handler call .tryAcquireFirst | .handler call .newFirst => some call.senderId
  | .handler call (.insertFirst _) => some call.senderId
  | _ => none

/-- The client that a step refreshes. -/
def Thread.refreshes : Thread → Input → Option Ref
  | .handler _ (.setLastReceive client), .go _ => some client
  | _, _ => none

variable (core) in
/-- The step puts another client under the id, removes the one there, or refreshes it. -/
def touches (s : Shared C A R) (th : Thread) (a : Input) (id : UInt32) : Bool :=
  decide ((exec core rater s th a).1.mappings.get id ≠ s.mappings.get id) ||
    (th.refreshes a).any fun r => decide (s.mappings.get id = some r)

variable (core) in
/-- A handler until it writes the entry it looks up, which another thread disturbs when it
touches the entry. -/
def relying : Watch (Shared C A R) Thread Input where
  inside th := th.relies.isSome
  disturbs s th a u := u.relies.any (touches core rater s th a)
  acts
    | .handler _ (.insertReconnect _), .go _ | .handler _ (.insertFirst _), .go _ => true
    | .handler _ (.setLastReceive _), .go _ => true
    | _, _ => false

variable (core) in
/-- An allocated client that was not heard from in the future. -/
def Heard (s : Shared C A R) (r : Ref) : Prop :=
  r < s.heap.next ∧ core.lastReceive (s.heap.cell r) ≤ s.clock

/-- The client that a handler is about to put into the map. -/
def Thread.newClient : Thread → Option Ref
  | .handler _ (.insertReconnect r) | .handler _ (.insertFirst r) => some r
  | _ => none

def Thread.now : Thread → Option Nat
  | .handler call _ => some call.now
  | _ => none

variable (core) in
structure InTime (s : Shared C A R) (th : Thread) : Prop where
  now : ∀ t ∈ th.now, t ≤ s.clock
  newClient : ∀ r ∈ th.newClient, Heard core s r

variable (htime : core.TimesOutAfter timeoutSeconds)

theorem exec_clock (s : Shared C A R) (th : Thread) (a : Input) :
    (exec core rater s th a).1.clock = s.clock := by
  cases th with
  | idle => cases a <;> rfl
  | handler call pc =>
    cases a with
    | go sendOk => cases pc <;> rfl
    | _ => rfl
  | cleanup pc =>
    cases pc <;> cases a <;> first
    | rfl
    | (simp only [exec, visit]
       split
       · split <;> rfl
       · rfl)

include htime in
/-- A step leaves the time of an allocated client, except that a refresh sets it. -/
theorem exec_lastReceive (s : Shared C A R) (th : Thread) (a : Input) {r : Ref}
    (hr : r < s.heap.next) : r < (exec core rater s th a).1.heap.next ∧
      (core.lastReceive ((exec core rater s th a).1.heap.cell r) = core.lastReceive (s.heap.cell r) ∨
        r ∈ th.refreshes a ∧ core.lastReceive ((exec core rater s th a).1.heap.cell r) ∈ th.now) := by
  have halloc : ∀ c : C, r < (s.heap.alloc c).next ∧
      core.lastReceive ((s.heap.alloc c).cell r) = core.lastReceive (s.heap.cell r) := by
    intro c
    rw [Heap.cell_alloc_of_lt _ _ hr]
    exact ⟨Nat.lt_succ_of_lt hr, rfl⟩
  have hstats : ∀ client received sent now, core.lastReceive
      ((s.heap.modify client (core.updateStats · received sent now)).cell r) =
        core.lastReceive (s.heap.cell r) := by
    intro client received sent now
    exact Heap.apply_cell_modify core.lastReceive
      (fun c => htime.lastReceive_updateStats c received sent now) s.heap client r
  cases th with
  | idle => cases a <;> exact ⟨hr, Or.inl rfl⟩
  | cleanup pc =>
    cases pc with
    | retain =>
      cases a with
      | visit key =>
        simp only [exec, visit]
        split
        · split <;> exact ⟨hr, Or.inl rfl⟩
        · exact ⟨hr, Or.inl rfl⟩
      | _ => exact ⟨hr, Or.inl rfl⟩
    | _ => cases a <;> exact ⟨hr, Or.inl rfl⟩
  | handler call pc =>
    cases a with
    | go sendOk =>
      cases pc with
      | newReconnect => exact ⟨(halloc _).1, Or.inl (halloc _).2⟩
      | newFirst => exact ⟨(halloc _).1, Or.inl (halloc _).2⟩
      | updateStats client => exact ⟨hr, Or.inl (hstats client _ _ _)⟩
      | receiverStats client => exact ⟨hr, Or.inl (hstats client _ _ _)⟩
      | setLastReceive client =>
        have hcell : core.lastReceive ((s.heap.modify client
            (core.setLastReceiveTickAt · call.now)).cell r) =
              if r = client then call.now else core.lastReceive (s.heap.cell r) := by
          rw [Heap.cell_modify]
          split
          · exact htime.lastReceive_setLastReceiveTickAt _ _
          · rfl
        by_cases hclient : r = client
        · rw [if_pos hclient] at hcell
          exact ⟨hr, Or.inr ⟨congrArg some hclient.symm, congrArg some hcell.symm⟩⟩
        · rw [if_neg hclient] at hcell
          exact ⟨hr, Or.inl hcell⟩
      | _ => exact ⟨hr, Or.inl rfl⟩
    | _ => exact ⟨hr, Or.inl rfl⟩

/-- What a step puts into the map is the new client of its handler. -/
theorem get_of_exec {s : Shared C A R} {th : Thread} {a : Input} {id : UInt32} {r : Ref}
    (h : (exec core rater s th a).1.mappings.get id = some r) :
    s.mappings.get id = some r ∨ r ∈ th.newClient := by
  have hinsert : ∀ key client, (s.mappings.insert key client).get id = some r →
      s.mappings.get id = some r ∨ client = r := by
    intro key client hget
    rw [DashMap.get_insert] at hget
    split at hget
    · exact Or.inr (Option.some.inj hget)
    · exact Or.inl hget
  cases th with
  | idle => cases a <;> exact Or.inl h
  | cleanup pc =>
    cases pc with
    | retain =>
      cases a with
      | visit key =>
        simp only [exec, visit] at h
        split at h
        · split at h
          · rw [DashMap.get_remove] at h
            split at h
            · cases h
            · exact Or.inl h
          · exact Or.inl h
        · exact Or.inl h
      | _ => exact Or.inl h
    | _ => cases a <;> exact Or.inl h
  | handler call pc =>
    cases a with
    | go sendOk =>
      cases pc with
      | insertReconnect client => exact (hinsert _ _ h).imp_right (congrArg some)
      | insertFirst client => exact (hinsert _ _ h).imp_right (congrArg some)
      | _ => exact Or.inl h
    | _ => exact Or.inl h

/-- The new client of a handler was one before, or was just made. -/
theorem newClient_of_exec {s : Shared C A R} {th : Thread} {a : Input} {r : Ref}
    (h : r ∈ (exec core rater s th a).2.newClient) : r ∈ th.newClient ∨
      (r = s.heap.next ∧ ∃ addr, (exec core rater s th a).1.heap =
        s.heap.alloc (core.newWithEndpoint addr s.clock)) := by
  cases th with
  | idle => cases a <;> cases h
  | cleanup pc => cases pc <;> cases a <;> cases h
  | handler call pc =>
    cases a with
    | go sendOk =>
      have hpc : (handle core rater s call sendOk pc).2 = some (.insertReconnect r) ∨
          (handle core rater s call sendOk pc).2 = some (.insertFirst r) := by
        simp only [exec] at h
        cases hnext : (handle core rater s call sendOk pc).2 with
        | none => rw [hnext] at h; cases h
        | some pc' =>
          rw [hnext] at h
          cases pc' with
          | insertReconnect _ => cases h; exact Or.inl rfl
          | insertFirst _ => cases h; exact Or.inr rfl
          | _ => cases h
      cases pc with
      | newReconnect =>
        simp only [handle, Option.some.injEq, Pc.insertReconnect.injEq, reduceCtorEq,
          or_false] at hpc
        exact Or.inr ⟨hpc.symm, call.remoteAddr, rfl⟩
      | newFirst =>
        simp only [handle, Option.some.injEq, Pc.insertFirst.injEq, reduceCtorEq,
          false_or] at hpc
        exact Or.inr ⟨hpc.symm, call.remoteAddr, rfl⟩
      | _ => exfalso; grind [handle]
    | _ => exact Or.inl h

/-- A handler reads the clock when it gets its packet. -/
theorem now_of_exec {s : Shared C A R} {th : Thread} {a : Input} {t : Nat}
    (h : t ∈ (exec core rater s th a).2.now) : t ∈ th.now ∨ t = s.clock := by
  cases th with
  | idle =>
    cases a with
    | receive _ _ _ _ => cases h; exact Or.inr rfl
    | _ => cases h
  | cleanup pc => cases pc <;> cases a <;> cases h
  | handler call pc =>
    cases a with
    | go sendOk =>
      simp only [exec] at h
      cases hnext : (handle core rater s call sendOk pc).2 with
      | none => rw [hnext] at h; cases h
      | some pc' => rw [hnext] at h; exact Or.inl h
    | _ => exact Or.inl h

include htime in
theorem Heard.exec {s : Shared C A R} {th : Thread} (hth : InTime core s th) (a : Input) {r : Ref}
    (h : Heard core s r) : Heard core (exec core rater s th a).1 r := by
  obtain ⟨hr, hlast⟩ := exec_lastReceive rater htime s th a h.1
  refine ⟨hr, ?_⟩
  rw [exec_clock]
  rcases hlast with hsame | ⟨_, hnow⟩
  · rw [hsame]
    exact h.2
  · exact hth.now _ hnow

include htime in
/-- In every run no client and no handler is ahead of the clock. -/
theorem heard_invariant (ι : Type) [DecidableEq ι] : (threads core rater).Invariant (ι := ι)
    (fun _ _ => True) (fun _ s => ∀ id r, s.mappings.get id = some r → Heard core s r)
    (fun _ s _ th => InTime core s th) (fun _ _ => True) where
  exec tr p i a := by
    rintro _ hmap hth
    refine ⟨fun id r hget => ?_, fun t ht => ?_, fun r hr => ?_⟩
    · rcases get_of_exec rater hget with hbefore | hnew
      · exact (hmap id r hbefore).exec rater htime hth a
      · exact (hth.newClient r hnew).exec rater htime hth a
    · show t ≤ (exec core rater p.shared (p.thread i) a).1.clock
      rw [exec_clock]
      rcases now_of_exec rater ht with hbefore | rfl
      · exact hth.now t hbefore
      · exact Nat.le_refl _
    · rcases newClient_of_exec rater hr with hbefore | ⟨rfl, addr, hheap⟩
      · exact (hth.newClient r hbefore).exec rater htime hth a
      · show Heard core (exec core rater p.shared (p.thread i) a).1 _
        refine ⟨by rw [hheap]; exact Nat.lt_succ_self _, ?_⟩
        rw [hheap, exec_clock, Heap.cell_alloc_next, htime.lastReceive_newWithEndpoint]
  interfere tr p i a j := by
    rintro _ _ hth _ hj _
    refine ⟨fun t ht => ?_, fun r hr => (hj.newClient r hr).exec rater htime hth a⟩
    show t ≤ (exec core rater p.shared (p.thread i) a).1.clock
    rw [exec_clock]
    exact hj.now t ht
  apart _ _ _ _ _ _ _ _ _ _ _ := trivial
  symm _ _ _ := trivial
  tick tr s d h id r hget := ⟨(h id r hget).1, Nat.le_trans (h id r hget).2 (Nat.le_add_right _ _)⟩
  tick_local tr s d i th _ h :=
    ⟨fun t ht => Nat.le_trans (h.now t ht) (Nat.le_add_right _ _),
      fun r hr => ⟨(h.newClient r hr).1, Nat.le_trans (h.newClient r hr).2 (Nat.le_add_right _ _)⟩⟩

variable (core) in
/-- What a handler that is let alone knows of the entry of its id. -/
def ReliesOn (s : Shared C A R) : Thread → Prop
  | .handler call .lookup =>
    ∀ r, s.mappings.get call.senderId = some r → core.lastReceive (s.heap.cell r) ≤ call.now
  | .handler call (.isTimedOut r) => s.mappings.get call.senderId = some r
  | .handler call .tryAcquireReconnect | .handler call .newReconnect
  | .handler call (.insertReconnect _) =>
    ∃ r, s.mappings.get call.senderId = some r ∧ core.isTimedOut (s.heap.cell r) s.clock = true
  | .handler call (.setLastReceive r) =>
    s.mappings.get call.senderId = some r ∧ core.lastReceive (s.heap.cell r) ≤ call.now
  | .handler call .checkLen | .handler call .tryAcquireFirst | .handler call .newFirst
  | .handler call (.insertFirst _) => s.mappings.get call.senderId = none
  | _ => True

theorem undisturbed_of_reliesOn {s : Shared C A R} {th : Thread} {a : Input}
    (h : (relying core rater).acts th a = true → ReliesOn core s th) : Undisturbed core s th a := by
  cases th with
  | handler call pc =>
    cases a with
    | go sendOk =>
      cases pc with
      | insertReconnect r =>
        obtain ⟨old, hget, hto⟩ := h rfl
        show (s.mappings.get call.senderId).all _ = true
        rw [hget, Option.all_some]
        exact hto
      | insertFirst r =>
        have hget : s.mappings.get call.senderId = none := h rfl
        show (s.mappings.get call.senderId).all _ = true
        rw [hget]
        rfl
      | setLastReceive r => exact h rfl
      | _ => trivial
    | _ => cases pc <;> trivial
  | _ => cases a <;> trivial

theorem reliesOn_of_outside {s : Shared C A R} {th : Thread} (h : th.relies = none) :
    ReliesOn core s th := by
  cases th with
  | handler call pc => cases pc <;> trivial
  | _ => trivial

/-- What a handler knows after its own step. -/
theorem exec_reliesOn {s : Shared C A R}
    (hmap : ∀ id r, s.mappings.get id = some r → Heard core s r) {th : Thread}
    (h : ReliesOn core s th) (a : Input) :
    ReliesOn core (exec core rater s th a).1 (exec core rater s th a).2 := by
  cases th with
  | idle =>
    cases a with
    | receive senderId _ _ _ => exact fun r hget => (hmap senderId r hget).2
    | _ => trivial
  | cleanup pc => cases pc <;> cases a <;> trivial
  | handler call pc =>
    cases a with
    | go sendOk =>
      cases pc with
      | lookup =>
        cases hget : s.mappings.get call.senderId with
        | none =>
          simp only [exec, handle, hget]
          exact hget
        | some client =>
          cases hep : core.remoteEp (s.heap.cell client) with
          | none =>
            simp only [exec, handle, hget, hep]
            trivial
          | some ep =>
            simp only [exec, handle, hget, hep]
            split
            · exact hget
            · exact ⟨hget, h client hget⟩
      | isTimedOut client =>
        cases hto : core.isTimedOut (s.heap.cell client) s.clock <;> simp only [exec, handle, hto]
        · trivial
        · exact ⟨client, h, hto⟩
      | tryAcquireReconnect =>
        simp only [exec, handle]
        cases (ConnectionRateLimiter.tryAcquire rater s.connectionLimiter call.remoteAddr.ip
          s.clock).1
        · trivial
        · exact h
      | newReconnect =>
        obtain ⟨r, hget, hto⟩ := h
        refine ⟨r, hget, ?_⟩
        show core.isTimedOut ((s.heap.alloc _).cell r) s.clock = true
        rw [Heap.cell_alloc_of_lt _ _ (hmap _ r hget).1]
        exact hto
      | checkLen =>
        by_cases hlen : s.mappings.len < s.maxClients <;> simp only [exec, handle, hlen]
        · exact h
        · trivial
      | tryAcquireFirst =>
        simp only [exec, handle]
        cases (ConnectionRateLimiter.tryAcquire rater s.connectionLimiter call.remoteAddr.ip
          s.clock).1
        · trivial
        · exact h
      | newFirst => exact h
      | forward =>
        simp only [exec, handle]
        split
        · rename_i next heq
          split at heq
          · split at heq
            · split at heq <;> cases heq
              trivial
            · cases heq
          · cases heq
        · trivial
      | send receiverEp receiver => cases sendOk <;> trivial
      | _ => trivial
    | _ => exact h

include htime in
/-- A step that does not touch its entry leaves what a handler knows true. -/
theorem ReliesOn.untouched {s : Shared C A R}
    (hmap : ∀ id r, s.mappings.get id = some r → Heard core s r) {th u : Thread} {a : Input}
    (hquiet : u.relies.any (touches core rater s th a) = false) (h : ReliesOn core s u) :
    ReliesOn core (exec core rater s th a).1 u := by
  -- the entry refers to the same client, which was not refreshed
  have hentry : ∀ id ∈ u.relies,
      (exec core rater s th a).1.mappings.get id = s.mappings.get id ∧
      ∀ r, s.mappings.get id = some r → core.lastReceive ((exec core rater s th a).1.heap.cell r) =
        core.lastReceive (s.heap.cell r) := by
    intro id hid
    rw [Option.mem_def.mp hid, Option.any_some, touches, Bool.or_eq_false_iff,
      decide_eq_false_iff_not, not_not] at hquiet
    refine ⟨hquiet.1, fun r hget => ?_⟩
    rcases (exec_lastReceive rater htime s th a (hmap id r hget).1).2 with hsame | ⟨hrefresh, _⟩
    · exact hsame
    · rw [Option.mem_def.mp hrefresh, Option.any_some, decide_eq_false_iff_not] at hquiet
      exact absurd hget hquiet.2
  have hdead : ∀ id ∈ u.relies, (∃ r, s.mappings.get id = some r ∧
      core.isTimedOut (s.heap.cell r) s.clock = true) →
      ∃ r, (exec core rater s th a).1.mappings.get id = some r ∧
        core.isTimedOut ((exec core rater s th a).1.heap.cell r)
          (exec core rater s th a).1.clock = true := by
    rintro id hid ⟨r, hget, hto⟩
    refine ⟨r, (hentry id hid).1.trans hget, ?_⟩
    rw [htime.isTimedOut_eq, (hentry id hid).2 r hget, exec_clock, ← htime.isTimedOut_eq]
    exact hto
  cases u with
  | handler call pc =>
    cases pc with
    | lookup =>
      intro r hget
      rw [(hentry _ rfl).1] at hget
      rw [(hentry _ rfl).2 r hget]
      exact h r hget
    | isTimedOut r => exact (hentry _ rfl).1.trans h
    | tryAcquireReconnect => exact hdead _ rfl h
    | newReconnect => exact hdead _ rfl h
    | insertReconnect r => exact hdead _ rfl h
    | setLastReceive r =>
      refine ⟨(hentry _ rfl).1.trans h.1, ?_⟩
      rw [(hentry _ rfl).2 r h.1]
      exact h.2
    | checkLen => exact (hentry _ rfl).1.trans h
    | tryAcquireFirst => exact (hentry _ rfl).1.trans h
    | newFirst => exact (hentry _ rfl).1.trans h
    | insertFirst r => exact (hentry _ rfl).1.trans h
    | _ => trivial
  | _ => trivial

include htime in
/-- A timed-out client stays timed out. -/
theorem ReliesOn.tick {s : Shared C A R} (d : Nat) {u : Thread} (h : ReliesOn core s u) :
    ReliesOn core { s with clock := s.clock + d } u := by
  have hdead : ∀ id, (∃ r, s.mappings.get id = some r ∧
      core.isTimedOut (s.heap.cell r) s.clock = true) →
      ∃ r, s.mappings.get id = some r ∧
        core.isTimedOut (s.heap.cell r) (s.clock + d) = true := by
    rintro id ⟨r, hget, hto⟩
    refine ⟨r, hget, (htime.isTimedOut_iff _ _).mpr ?_⟩
    exact Nat.lt_of_lt_of_le ((htime.isTimedOut_iff _ _).mp hto) (Nat.le_add_right _ _)
  cases u with
  | handler call pc =>
    cases pc with
    | tryAcquireReconnect => exact hdead _ h
    | newReconnect => exact hdead _ h
    | insertReconnect r => exact hdead _ h
    | _ => exact h
  | _ => exact h

variable (core) in
/-- After some history no client and no handler is ahead of the clock. -/
def AllHeard {ι : Type} (p : Pool ι (Shared C A R) Thread) : Prop :=
  ∃ tr : List (ι × Shown), System.Holds
    (fun _ s => ∀ id r, s.mappings.get id = some r → Heard core s r)
    (fun _ s _ th => InTime core s th) (fun _ _ => True) tr p

include htime in
theorem relying_keeps {ι : Type} : (relying core rater).Keeps (ι := ι) (threads core rater)
    (AllHeard core) (ReliesOn core) where
  begins p i a := by
    rintro ⟨_, hheard⟩ houtside _
    refine exec_reliesOn rater hheard.shared (reliesOn_of_outside ?_) a
    exact Option.isNone_iff_eq_none.mp (Option.isSome_eq_false_iff.mp houtside)
  goes p i a := by
    rintro ⟨_, hheard⟩ _ hknown _
    exact exec_reliesOn rater hheard.shared hknown a
  undisturbed p i a j := by
    rintro ⟨_, hheard⟩ _ _ hquiet hknown
    exact hknown.untouched rater htime hheard.shared hquiet
  tick s d u hknown := hknown.tick htime d

include htime in
/-- **A run in which nobody touches the entry** of a handler between its lookup and its
write is undisturbed. -/
theorem undisturbed_of_calm {ι : Type} [DecidableEq ι] {p : Pool ι (Shared C A R) Thread}
    (hstart : Started p) {as : List (Action ι Input)}
    (hcalm : ((relying core rater).machine (threads core rater)).Along (relying core rater).Calm
      p.watched as) :
    (threads core rater).machine.Along (System.OnWork (Undisturbed core)) p as := by
  have hoff : ∀ i, (p.thread i).relies = none := fun i => by rw [hstart.idle i]; rfl
  refine (relying_keeps rater htime).along ?_ (fun _ _ => trivial) ?_ ?_ ?_ (fun i => ?_) hcalm
  · exact fun q i a _ hknown => undisturbed_of_reliesOn rater hknown
  · intro th a hacts
    cases th with
    | handler call pc => cases pc <;> first | rfl | (cases a <;> cases hacts)
    | _ => cases a <;> cases hacts
  · rintro q a ⟨tr, hheard⟩ _
    exact ⟨_, (heard_invariant rater htime ι).step hheard trivial⟩
  · refine ⟨[], fun id r hget => ?_, fun i => ?_, fun _ _ _ => trivial⟩
    · rw [hstart.mappings, DashMap.get_empty] at hget
      cases hget
    · rw [hstart.idle i]
      exact ⟨by rintro _ ⟨⟩, by rintro _ ⟨⟩⟩
  · show (p.thread i).relies.isSome = false
    rw [hoff i]
    rfl

include htime in
/-- Calls one at a time are undisturbed. -/
theorem undisturbed_of_one_call {ι : Type} [DecidableEq ι] {p : Pool ι (Shared C A R) Thread}
    (hstart : Started p) {as : List (Action ι Input)}
    (hone : (threads core rater).machine.Along (Watch.OneAtATime fun th => !th.inProgress) p as) :
    (threads core rater).machine.Along (System.OnWork (Undisturbed core)) p as := by
  refine undisturbed_of_calm rater htime hstart (Watch.calm_of_oneAtATime (fun th hrest => ?_) hone)
  cases th with
  | idle => rfl
  | _ => cases hrest

end LetAlone

/-! ## Runs -/

/-- The eight accesses of a first contact. -/
def firstContact {ι : Type} (i : ι) : List (Action ι Input) :=
  List.replicate 8 (.work i (.go true))

/-- Alice and Bob bind the ids 1 and 2 at the same time, and a cleanup looks at both. Alice
sends again, and a packet for her id from Carol's endpoint is dropped. -/
def twoSenders : List (Action Bool Input) :=
  [.work false (.receive 1 2 [] (.v4 8 8 8 8 1234)), .work true (.receive 2 1 [] (.v4 9 9 9 9 1234)),
      .work false (.go true), .work true (.go true)] ++ firstContact false ++ firstContact true ++
    [.work true (.go true), .work true (.go true), .work true (.go true), .tick 20000,
      .work true .clean, .work true (.visit 1), .work true (.visit 2), .work true (.go true),
      .work true (.go true), .work true (.go true), .work true (.go true),
      .work false (.receive 1 2 [] (.v4 8 8 8 8 1234)),
      .work true (.receive 1 2 [] (.v4 7 7 7 7 1234)),
      .work false (.go true), .work true (.go true), .work false (.go true), .work true (.go true),
      .work false (.go true), .work false (.go true), .tick 30000]

theorem live_bindings_stable_two_senders :
    ((threads (RelayCore.referenceInTicks timeoutSeconds) Rater.granting).machine.run
      (referencePool Bool 200 1000) twoSenders).shared.endpointOf
        (RelayCore.referenceInTicks timeoutSeconds) 1 = some (.v4 8 8 8 8 1234) := by
  have hC : (threads (RelayCore.referenceInTicks timeoutSeconds) Rater.granting).machine.Along
      (System.OnWork (Undisturbed (RelayCore.referenceInTicks timeoutSeconds)))
      (referencePool Bool 200 1000) twoSenders := by
    decide +kernel
  exact (live_bindings_stable (RelayCore.referenceInTicks timeoutSeconds) Rater.granting
    (RelayCore.referenceInTicks_fixedEndpoint _) (RelayCore.referenceInTicks_timesOutAfter _)
    (referencePool_started Bool 200 1000) hC).1 false 1 _ 21000 (by decide +kernel)
    (by decide +kernel)

/-- Two first packets for id 1: both handlers find it unused, both insert a client,
both accept their sender, and the first of them is bound to nothing. -/
theorem live_bindings_displaced :
    let core := RelayCore.referenceInTicks timeoutSeconds
    let alice : SocketAddr := .v4 8 8 8 8 1234
    let bob : SocketAddr := .v4 9 9 9 9 1234
    let as := [.work false (.receive 1 2 [] alice), .work true (.receive 1 2 [] bob),
        .work false (.go true), .work true (.go true)] ++
      firstContact false ++ firstContact true
    let M := (threads core Rater.granting).machine
    let p := referencePool Bool 200 1000
    let s := (M.run p as).shared
    (false, .accepted 1 alice 1000) ∈ M.trace p as ∧ (true, .accepted 1 bob 1000) ∈ M.trace p as ∧
      s.clock ≤ 1000 + timeoutSeconds * core.second ∧
      s.endpointOf core 1 ≠ some alice := by
  decide +kernel

end CncnetServer.TunnelV3
