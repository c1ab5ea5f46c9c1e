import CncnetServer.V3.Threads
import Mathlib.Data.Finset.Basic

/-!
The two tables of the V3 tunnel, `mappings` and `quality_analyzers`, with the accesses that
`retain` makes inside an entry as steps of their own.

A cleanup that finds a timed-out client holds the entry, removes the analyzer and then the
entry; who needs the entry waits. Only the entry is locked here and not the rest of its
shard, so fewer steps wait than in the source.

A handler makes two inserts. Between them the entry must not go, which it could only if the
client in it were timed out: the clock is at most 10 s past the packet, and what is in the
entry has been heard from at most 20 s before the packet.

* `Consistent`, `Knows`: the tables, and what a thread in work knows of them;
* `tables_in_step`: the tables have the same keys whenever no call is in progress.
-/

namespace CncnetServer.TunnelV3.Tables

open Threads Runs

variable {C A R : Type} (core : RelayCore C A) (rater : Rater R)

/-- The tunnel with the entries that some `retain` is inside of. -/
structure Guarded (C A R : Type) extends Shared C A R where
  locked : Finset UInt32

inductive Task
  | outside (th : Thread)
  /-- A cleanup inside the entry of a timed-out client, before `quality_analyzers.remove`. -/
  | expired (key : UInt32)
  /-- The same cleanup before the entry goes. -/
  | emptied (key : UInt32)

/-- The entry of `mappings` that an access needs. -/
def entryOf (call : Call) : Pc → Option UInt32
  | .lookup | .insertReconnect _ | .insertFirst _ => some call.senderId
  | .forward => some call.receiverId
  | _ => none

/-- The access waits for an entry. -/
def waits (locked : Finset UInt32) : Thread → Bool
  | .handler call pc => (entryOf call pc).any fun key => decide (key ∈ locked)
  | _ => false

/-- A cleanup comes to an entry, and stays inside if it has to go. -/
def visitEntry (s : Guarded C A R) (key : UInt32) : Guarded C A R × Task :=
  match s.mappings.get key with
  | some client =>
    if key ∉ s.locked ∧ core.isTimedOut (s.heap.cell client) s.clock = true then
      ({ s with locked := insert key s.locked }, .expired key)
    else (s, .outside (.cleanup .retain))
  | none => (s, .outside (.cleanup .retain))

/-- A step outside the entries that `retain` visits. -/
def execOutside (s : Guarded C A R) (th : Thread) (a : Input) : Guarded C A R × Task :=
  if waits s.locked th then (s, .outside th)
  else ({ s with toShared := (TunnelV3.exec core rater s.toShared th a).1 },
    .outside (TunnelV3.exec core rater s.toShared th a).2)

/-- One step. A step that waits, or an input that does not fit, leaves everything as it is. -/
def exec (s : Guarded C A R) : Task → Input → Guarded C A R × Task
  | .outside (.cleanup .retain), .visit key => visitEntry core s key
  | .outside th, a => execOutside core rater s th a
  | .expired key, .go _ =>
    ({ s with qualityAnalyzers := s.qualityAnalyzers.remove key }, .emptied key)
  | .emptied key, .go _ =>
    ({ s with mappings := s.mappings.remove key, locked := s.locked.erase key },
      .outside (.cleanup .retain))
  | task, _ => (s, task)

def emit (s : Guarded C A R) : Task → Input → List Shown
  | .outside th, a => if waits s.locked th then [] else TunnelV3.emit th a
  | _, _ => []

/-- The threads of the tunnel. -/
def tasks : System (Guarded C A R) Task Input Shown where
  exec := exec core rater
  emit := emit
  tick s d := { s with clock := s.clock + d }

/-- A started tunnel: no client, all threads idle. -/
structure Started {ι : Type} (p : Pool ι (Guarded C A R) Task) : Prop where
  mappings : p.shared.mappings = ∅
  qualityAnalyzers : p.shared.qualityAnalyzers = ∅
  locked : p.shared.locked = ∅
  idle : ∀ i, p.thread i = .outside .idle

/-- The handler has not finished its updates of the two maps. -/
def updating : Pc → Bool
  | .activeLen | .activeStore _ | .rateLimited | .full => false
  | .forward | .send _ _ | .receiverStats _ | .recordLost => false
  | _ => true

/-- A handler updates the maps at most 10 s after it has taken its timestamp. -/
def Timely (s : Guarded C A R) : Task → Input → Prop
  | .outside (.handler call pc), .go _ =>
    updating pc = true → s.clock ≤ call.now + 10 * core.second
  | _, _ => True

instance (s : Guarded C A R) : (t : Task) → (a : Input) → Decidable (Timely core s t a)
  | .outside (.handler call pc), .go _ =>
    inferInstanceAs (Decidable (updating pc = true → s.clock ≤ call.now + 10 * core.second))
  | .outside (.handler _ _), .receive _ _ _ _ | .outside (.handler _ _), .clean => .isTrue trivial
  | .outside (.handler _ _), .visit _ => .isTrue trivial
  | .outside .idle, _ | .outside (.cleanup _), _ => .isTrue trivial
  | .expired _, _ | .emptied _, _ => .isTrue trivial

/-! ## A thread alone -/

/-- A cleanup alone inside an entry does what `visit` does in one step. -/
theorem solo_visit (s : Guarded C A R) {key : UInt32} {client : Ref} (hfree : key ∉ s.locked)
    (hget : s.mappings.get key = some client)
    (hto : core.isTimedOut (s.heap.cell client) s.clock = true) (b b' : Bool) :
    (tasks core rater).solo s (.outside (.cleanup .retain)) [.visit key, .go b, .go b'] =
      ({ toShared := visit core s.toShared key, locked := s.locked },
        .outside (.cleanup .retain)) := by
  have herase : (insert key s.locked).erase key = s.locked := Finset.erase_insert hfree
  simp only [System.solo_cons, System.solo_nil, tasks, exec, visitEntry, hget, hfree, hto,
    not_false_eq_true, and_self, if_true, visit, herase]

/-- Without locks a step is the step of `TunnelV3.threads`. -/
theorem execOutside_unlocked (s : Guarded C A R) (th : Thread) (a : Input)
    (hlocked : s.locked = ∅) :
    execOutside core rater s th a =
      ({ s with toShared := (TunnelV3.exec core rater s.toShared th a).1 },
        .outside (TunnelV3.exec core rater s.toShared th a).2) := by
  have hwaits : waits s.locked th = false := by
    rw [hlocked]
    cases th with
    | handler call pc => cases pc <;> rfl
    | _ => rfl
  unfold execOutside
  rw [hwaits]
  rfl

/-! ## What the threads know -/

/-- The client that a handler is about to put into the map. -/
def puts : Pc → Option Ref
  | .insertReconnect r | .insertFirst r => some r
  | _ => none

/-- A handler between its two inserts. -/
def between : Pc → Bool
  | .analyzerReconnect | .analyzerFirst => true
  | _ => false

/-- The key that a handler stands at between its two inserts, or whose entry a cleanup is
inside of. -/
def stands : Task → Option UInt32
  | .outside (.handler call pc) => if between pc then some call.senderId else none
  | .outside _ => none
  | .expired key | .emptied key => some key

/-- An analyzer has its client, and every client has an endpoint. -/
structure Consistent (s : Guarded C A R) : Prop where
  analyzed : ∀ key, key ∈ s.qualityAnalyzers → key ∈ s.mappings
  bound : ∀ key r, s.mappings.get key = some r →
    r < s.heap.next ∧ (core.remoteEp (s.heap.cell r)).isSome

/-- What a handler knows: that the client it is about to insert has been heard from at most
10 s before its packet, and between its inserts, until 10 s after its packet, that no
cleanup is inside the entry and its client has been heard from at most 20 s before. -/
structure HandlerKnows (s : Guarded C A R) (call : Call) (pc : Pc) : Prop where
  now : call.now ≤ s.clock
  fresh : ∀ r, puts pc = some r → r < s.heap.next ∧ (core.remoteEp (s.heap.cell r)).isSome ∧
    call.now ≤ core.lastReceive (s.heap.cell r) + 10 * core.second
  safe : between pc = true → s.clock ≤ call.now + 10 * core.second →
    call.senderId ∉ s.locked ∧ ∃ r, s.mappings.get call.senderId = some r ∧
      call.now ≤ core.lastReceive (s.heap.cell r) + 20 * core.second

def Knows (s : Guarded C A R) : Task → Prop
  | .outside (.handler call pc) => HandlerKnows core s call pc
  | .outside _ => True
  | .expired key => key ∈ s.locked
  | .emptied key => key ∈ s.locked ∧ key ∉ s.qualityAnalyzers

/-- The entry that a cleanup is inside of. -/
def inside : Task → Option UInt32
  | .outside _ => none
  | .expired key | .emptied key => some key

/-- No two cleanups are inside the same entry. -/
def Apart (t u : Task) : Prop := ∀ key, inside t = some key → inside u ≠ some key

/-! ## What a step does to the clients -/

/-- A step keeps the clock and the endpoints, and a client that it changes the time of has
been heard from at most 10 s ago. -/
structure Refreshes (s s' : Shared C A R) : Prop where
  clock : s'.clock = s.clock
  next : s.heap.next ≤ s'.heap.next
  remoteEp : ∀ r < s.heap.next, core.remoteEp (s'.heap.cell r) = core.remoteEp (s.heap.cell r)
  lastReceive : ∀ r < s.heap.next,
    core.lastReceive (s'.heap.cell r) = core.lastReceive (s.heap.cell r) ∨
      s.clock ≤ core.lastReceive (s'.heap.cell r) + 10 * core.second

theorem Refreshes.of_eq {s s' : Shared C A R} (hheap : s'.heap = s.heap)
    (hclock : s'.clock = s.clock) : Refreshes core s s' where
  clock := hclock
  next := by rw [hheap]
  remoteEp _ _ := by rw [hheap]
  lastReceive _ _ := Or.inl (by rw [hheap])

theorem Refreshes.alloc (s : Shared C A R) (c : C) :
    Refreshes core s { s with heap := s.heap.alloc c } where
  clock := rfl
  next := Nat.le_succ _
  remoteEp r hr := by rw [Heap.cell_alloc_of_lt _ _ hr]
  lastReceive r hr := Or.inl (by rw [Heap.cell_alloc_of_lt _ _ hr])

theorem Refreshes.modify (s : Shared C A R) (r : Ref) (f : C → C)
    (hep : ∀ c, core.remoteEp (f c) = core.remoteEp c)
    (hlast : ∀ c, core.lastReceive (f c) = core.lastReceive c ∨
      s.clock ≤ core.lastReceive (f c) + 10 * core.second) :
    Refreshes core s { s with heap := s.heap.modify r f } where
  clock := rfl
  next := Nat.le_refl _
  remoteEp j _ := Heap.apply_cell_modify core.remoteEp hep s.heap r j
  lastReceive j _ := by
    rw [Heap.cell_modify]
    split
    · exact hlast _
    · exact Or.inl rfl

/-- Only an insert into `mappings` and the allocation before it lead to an insert. -/
theorem handle_next {s : Shared C A R} {call : Call} {pc pc' : Pc} {b : Bool}
    (hputs : puts pc = none) (hreconnect : pc ≠ .newReconnect) (hfirst : pc ≠ .newFirst)
    (h : (handle core rater s call b pc).2 = some pc') :
    puts pc' = none ∧ between pc' = false := by
  cases pc with
  | lookup =>
    simp only [handle] at h
    split at h
    · split at h
      · cases h
        split <;> exact ⟨rfl, rfl⟩
      · cases h
    · cases h
      exact ⟨rfl, rfl⟩
  | isTimedOut client =>
    simp only [handle] at h
    split at h <;> cases h
    exact ⟨rfl, rfl⟩
  | tryAcquireReconnect =>
    simp only [handle] at h
    split at h <;> cases h
    exact ⟨rfl, rfl⟩
  | newReconnect => exact absurd rfl hreconnect
  | newFirst => exact absurd rfl hfirst
  | insertReconnect r => cases hputs
  | insertFirst r => cases hputs
  | checkLen =>
    cases h
    split <;> exact ⟨rfl, rfl⟩
  | tryAcquireFirst =>
    cases h
    split <;> exact ⟨rfl, rfl⟩
  | forward =>
    simp only [handle] at h
    split at h
    · split at h
      · split at h <;> cases h
        exact ⟨rfl, rfl⟩
      · cases h
    · cases h
  | send ep r =>
    cases h
    split <;> exact ⟨rfl, rfl⟩
  | rateLimited => cases h
  | full => cases h
  | receiverStats r => cases h
  | recordLost => cases h
  | _ => cases h; exact ⟨rfl, rfl⟩

/-- Only the two inserts change keys. -/
theorem handle_tables (s : Shared C A R) (call : Call) {pc : Pc} (b : Bool)
    (hputs : puts pc = none) (hbetween : between pc = false) :
    (handle core rater s call b pc).1.mappings = s.mappings ∧
      ∀ key, key ∈ (handle core rater s call b pc).1.qualityAnalyzers ↔
        key ∈ s.qualityAnalyzers := by
  cases pc with
  | insertReconnect r => cases hputs
  | insertFirst r => cases hputs
  | analyzerReconnect => cases hbetween
  | analyzerFirst => cases hbetween
  | recordPacket => exact ⟨rfl, fun _ => DashMap.mem_modify⟩
  | recordLost => exact ⟨rfl, fun _ => DashMap.mem_modify⟩
  | _ => exact ⟨rfl, fun _ => Iff.rfl⟩

/-! ## Everything a step can do to the tables -/

variable (s : Guarded C A R) in
/-- What a step does to the tables and to what its own thread knows. -/
inductive TableStep : Task → Guarded C A R → Task → Prop
  | quiet {t s' t'} : s'.mappings = s.mappings →
      (∀ key, key ∈ s'.qualityAnalyzers ↔ key ∈ s.qualityAnalyzers) → s'.locked = s.locked →
      Refreshes core s.toShared s'.toShared → (Knows core s t → Knows core s' t') →
      t' = t ∨ stands t = none ∧ stands t' = none → TableStep t s' t'
  | inserted {call pc pc' r} : s.clock ≤ call.now + 10 * core.second → puts pc = some r →
      call.senderId ∉ s.locked → puts pc' = none → between pc' = true →
      TableStep (.outside (.handler call pc))
        { s with mappings := s.mappings.insert call.senderId r } (.outside (.handler call pc'))
  | analyzed {call pc pc'} : s.clock ≤ call.now + 10 * core.second → between pc = true →
      puts pc' = none → between pc' = false →
      TableStep (.outside (.handler call pc))
        { s with qualityAnalyzers := s.qualityAnalyzers.insert call.senderId core.newAnalyzer }
        (.outside (.handler call pc'))
  | entered {key client} : key ∉ s.locked → s.mappings.get key = some client →
      core.isTimedOut (s.heap.cell client) s.clock = true →
      TableStep (.outside (.cleanup .retain)) { s with locked := insert key s.locked }
        (.expired key)
  | emptied {key} : TableStep (.expired key)
      { s with qualityAnalyzers := s.qualityAnalyzers.remove key } (.emptied key)
  | removed {key} : TableStep (.emptied key)
      { s with mappings := s.mappings.remove key, locked := s.locked.erase key }
      (.outside (.cleanup .retain))

section Laws

variable (hcore : core.FixedEndpoint) (htime : core.TimesOutAfter timeoutSeconds)
include hcore htime

theorem handle_refreshes (s : Shared C A R) (call : Call) (pc : Pc) (b : Bool)
    (htimely : updating pc = true → s.clock ≤ call.now + 10 * core.second) :
    Refreshes core s (handle core rater s call b pc).1 := by
  have hstats : ∀ (r : Ref) (received sent : Nat), Refreshes core s
      { s with heap := s.heap.modify r (core.updateStats · received sent call.now) } :=
    fun r received sent => .modify core s r _ (fun c => hcore.remoteEp_updateStats c _ _ _)
      fun c => Or.inl (htime.lastReceive_updateStats c _ _ _)
  cases pc with
  | newReconnect => exact .alloc core s _
  | newFirst => exact .alloc core s _
  | setLastReceive client =>
    refine .modify core s client _ (fun c => hcore.remoteEp_setLastReceiveTickAt c _) fun c => ?_
    rw [htime.lastReceive_setLastReceiveTickAt]
    exact Or.inr (htimely rfl)
  | updateStats client => exact hstats client _ _
  | receiverStats receiver => exact hstats receiver _ _
  | _ => exact .of_eq core rfl rfl

omit hcore htime in
/-- A handler that knows the time and is not between inserts knows all it has to. -/
theorem HandlerKnows.plain {s : Guarded C A R} {call : Call} {pc : Pc} (hnow : call.now ≤ s.clock)
    (hputs : puts pc = none) (hbetween : between pc = false) : HandlerKnows core s call pc where
  now := hnow
  fresh r hr := by rw [hputs] at hr; cases hr
  safe h := by rw [hbetween] at h; cases h

/-- The steps of a handler that are no insert. -/
theorem handler_quiet {s : Guarded C A R} {call : Call} {pc : Pc} {b : Bool}
    (htimely : updating pc = true → s.clock ≤ call.now + 10 * core.second)
    (hputs : puts pc = none) (hbetween : between pc = false) :
    TableStep core s (.outside (.handler call pc))
      { s with toShared := (TunnelV3.exec core rater s.toShared (.handler call pc) (.go b)).1 }
      (.outside (TunnelV3.exec core rater s.toShared (.handler call pc) (.go b)).2) := by
  obtain ⟨hmappings, hanalyzers⟩ := handle_tables core rater s.toShared call b hputs hbetween
  have hrefreshes := handle_refreshes core rater hcore htime s.toShared call pc b htimely
  have hstands : ∀ pc', between pc' = false →
      stands (.outside (.handler call pc')) = none := by
    intro pc' h
    simp [stands, h]
  -- where the handler goes
  cases hnext : (handle core rater s.toShared call b pc).2 with
  | none =>
    have hthread : (TunnelV3.exec core rater s.toShared (.handler call pc) (.go b)).2 = .idle := by
      simp [TunnelV3.exec, hnext]
    rw [hthread]
    exact .quiet hmappings hanalyzers rfl hrefreshes (fun _ => trivial)
      (Or.inr ⟨hstands pc hbetween, rfl⟩)
  | some pc' =>
    have hthread : (TunnelV3.exec core rater s.toShared (.handler call pc) (.go b)).2 =
        .handler call pc' := by
      simp [TunnelV3.exec, hnext]
    rw [hthread]
    by_cases hnew : pc = .newReconnect ∨ pc = .newFirst
    · have hclient : (core.remoteEp (core.newWithEndpoint call.remoteAddr s.clock)).isSome := by
        rw [hcore.remoteEp_newWithEndpoint]
        rfl
      have hcreated : ∀ (r : Ref) (s' : Guarded C A R), s'.clock = s.clock →
          s'.heap = s.heap.alloc (core.newWithEndpoint call.remoteAddr s.clock) →
          call.now ≤ s.clock → puts pc' = some r → r = s.heap.next → between pc' = false →
          HandlerKnows core s' call pc' := by
        intro r s' hclock hheap hnow hputs' hr hbetween'
        refine ⟨by rw [hclock]; exact hnow, fun r' hr' => ?_, fun h => ?_⟩
        · rw [hputs'] at hr'
          cases hr'
          rw [hheap, hr, Heap.cell_alloc_next, htime.lastReceive_newWithEndpoint]
          exact ⟨Nat.lt_succ_self _, hclient, by omega⟩
        · rw [hbetween'] at h
          cases h
      rcases hnew with rfl | rfl
      · cases hnext
        exact .quiet rfl (fun _ => Iff.rfl) rfl hrefreshes
          (fun h => hcreated _ _ rfl rfl h.now rfl rfl rfl) (Or.inr ⟨rfl, rfl⟩)
      · cases hnext
        exact .quiet rfl (fun _ => Iff.rfl) rfl hrefreshes
          (fun h => hcreated _ _ rfl rfl h.now rfl rfl rfl) (Or.inr ⟨rfl, rfl⟩)
    · rw [not_or] at hnew
      obtain ⟨hputs', hbetween'⟩ := handle_next core rater hputs hnew.1 hnew.2 hnext
      refine .quiet hmappings hanalyzers rfl hrefreshes (fun h => ?_)
        (Or.inr ⟨hstands pc hbetween, hstands pc' hbetween'⟩)
      have hnow : call.now ≤ s.clock := h.now
      exact .plain core (Nat.le_trans hnow (Nat.le_of_eq hrefreshes.clock.symm)) hputs' hbetween'

theorem handler_tableStep {s : Guarded C A R} {call : Call} {pc : Pc} {b : Bool}
    (htimely : updating pc = true → s.clock ≤ call.now + 10 * core.second)
    (hwaits : waits s.locked (.handler call pc) = false) :
    TableStep core s (.outside (.handler call pc))
      { s with toShared := (TunnelV3.exec core rater s.toShared (.handler call pc) (.go b)).1 }
      (.outside (TunnelV3.exec core rater s.toShared (.handler call pc) (.go b)).2) := by
  have hfree : entryOf call pc = some call.senderId → call.senderId ∉ s.locked := by
    intro hentry
    have hany : (entryOf call pc).any (fun key => decide (key ∈ s.locked)) = false := hwaits
    rw [hentry, Option.any_some, decide_eq_false_iff_not] at hany
    exact hany
  cases pc with
  | insertReconnect r => exact .inserted (htimely rfl) rfl (hfree rfl) rfl rfl
  | insertFirst r => exact .inserted (htimely rfl) rfl (hfree rfl) rfl rfl
  | analyzerReconnect => exact .analyzed (htimely rfl) rfl rfl rfl
  | analyzerFirst => exact .analyzed (htimely rfl) rfl rfl rfl
  | _ => exact handler_quiet core rater hcore htime htimely rfl rfl

/-- **One step.** -/
theorem exec_tableStep {s : Guarded C A R} {t : Task} {a : Input} (htimely : Timely core s t a) :
    TableStep core s t (exec core rater s t a).1 (exec core rater s t a).2 := by
  have hsame : TableStep core s t s t :=
    .quiet rfl (fun _ => Iff.rfl) rfl (.of_eq core rfl rfl) id (Or.inl rfl)
  -- a thread that handles no packet, and makes no access inside an entry
  have hother : ∀ {s' : Shared C A R} {th'}, s'.mappings = s.mappings →
      s'.qualityAnalyzers = s.qualityAnalyzers → s'.heap = s.heap → s'.clock = s.clock →
      Knows core { s with toShared := s' } (.outside th') → stands t = none →
      stands (.outside th') = none →
      TableStep core s t { s with toShared := s' } (.outside th') := by
    intro s' th' hmappings hanalyzers hheap hclock hknows ht ht'
    exact .quiet hmappings (fun _ => by rw [hanalyzers]) rfl (.of_eq core hheap hclock)
      (fun _ => hknows) (Or.inr ⟨ht, ht'⟩)
  cases t with
  | expired key =>
    cases a with
    | go b => exact .emptied
    | _ => exact hsame
  | emptied key =>
    cases a with
    | go b => exact .removed
    | _ => exact hsame
  | outside th =>
    cases th with
    | idle =>
      cases a with
      | receive senderId receiverId packet remoteAddr =>
        refine hother rfl rfl rfl rfl ?_ rfl rfl
        exact .plain core (Nat.le_refl _) rfl rfl
      | clean => exact hother rfl rfl rfl rfl trivial rfl rfl
      | _ => exact hsame
    | handler call pc =>
      cases a with
      | go b =>
        simp only [exec, execOutside]
        split
        · exact hsame
        · rename_i hwaits
          rw [Bool.not_eq_true] at hwaits
          exact handler_tableStep core rater hcore htime htimely hwaits
      | _ =>
        simp only [exec, execOutside, ite_self, TunnelV3.exec]
        exact hsame
    | cleanup pc =>
      cases pc with
      | retain =>
        cases a with
        | visit key =>
          simp only [exec, visitEntry]
          split
          · rename_i client hget
            split
            · rename_i hgo
              exact .entered hgo.1 hget hgo.2
            · exact hsame
          · exact hsame
        | go b => exact hother rfl rfl rfl rfl trivial rfl rfl
        | _ => exact hsame
      | activeLen =>
        cases a with
        | go b => exact hother rfl rfl rfl rfl trivial rfl rfl
        | _ => exact hsame
      | activeStore len =>
        cases a with
        | go b => exact hother rfl rfl rfl rfl trivial rfl rfl
        | _ => exact hsame
      | resetPings =>
        cases a with
        | go b => exact hother rfl rfl rfl rfl trivial rfl rfl
        | _ => exact hsame

end Laws

/-! ## The invariant -/

section Invariant

variable {core}
variable {s s' : Guarded C A R} {t t' u : Task}

/-- A step keeps the tables consistent. -/
theorem TableStep.consistent (hstep : TableStep core s t s' t') (hI : Consistent core s)
    (hL : Knows core s t) : Consistent core s' := by
  cases hstep with
  | quiet hmappings hanalyzers hlocked hrefreshes hknows hstands =>
    refine ⟨fun key hkey => ?_, fun key r hget => ?_⟩
    · rw [hmappings]
      exact hI.analyzed key ((hanalyzers key).mp hkey)
    · rw [hmappings] at hget
      obtain ⟨hr, hep⟩ := hI.bound key r hget
      rw [hrefreshes.remoteEp r hr]
      exact ⟨Nat.lt_of_lt_of_le hr hrefreshes.next, hep⟩
  | inserted htimely hputs hfree _ _ =>
    refine ⟨fun key hkey => DashMap.mem_insert.mpr (Or.inr (hI.analyzed key hkey)),
      fun key r hget => ?_⟩
    rw [DashMap.get_insert] at hget
    split at hget
    · cases hget
      obtain ⟨hr, hep, _⟩ := hL.fresh _ hputs
      exact ⟨hr, hep⟩
    · exact hI.bound key r hget
  | analyzed htimely hbetween _ _ =>
    refine ⟨fun key hkey => ?_, hI.bound⟩
    rcases DashMap.mem_insert.mp hkey with rfl | hold
    · obtain ⟨_, r, hget, _⟩ := hL.safe hbetween htimely
      exact DashMap.mem_of_get hget
    · exact hI.analyzed key hold
  | entered _ _ _ => exact ⟨hI.analyzed, hI.bound⟩
  | emptied => exact ⟨fun key hkey => hI.analyzed key (DashMap.mem_remove.mp hkey).2, hI.bound⟩
  | removed =>
    refine ⟨fun key hkey => DashMap.mem_remove.mpr ⟨fun heq => ?_, hI.analyzed key hkey⟩,
      fun key r hget => ?_⟩
    · subst heq
      exact hL.2 hkey
    · rw [DashMap.get_remove] at hget
      split at hget
      · cases hget
      · exact hI.bound key r hget

/-- What the thread knows after its step. -/
theorem TableStep.knows (hstep : TableStep core s t s' t') (hL : Knows core s t) :
    Knows core s' t' := by
  cases hstep with
  | quiet _ _ _ _ hknows _ => exact hknows hL
  | inserted htimely hputs hfree hputs' hbetween' =>
    refine ⟨hL.now, fun r hr => ?_, fun _ _ => ⟨hfree, _, DashMap.get_insert_self _ _ _, ?_⟩⟩
    · rw [hputs'] at hr
      cases hr
    · obtain ⟨_, _, hlast⟩ := hL.fresh _ hputs
      show _ ≤ core.lastReceive (s.heap.cell _) + _
      omega
  | analyzed _ _ hputs' hbetween' => exact .plain core hL.now hputs' hbetween'
  | entered _ _ _ => exact Finset.mem_insert_self _ _
  | emptied => exact ⟨hL, fun hkey => (DashMap.mem_remove.mp hkey).1 rfl⟩
  | removed => trivial

/-- A handler between its inserts keeps its entry, whatever another thread does. -/
theorem TableStep.keeps_safe (htime : core.TimesOutAfter timeoutSeconds)
    (hstep : TableStep core s t s' t') (hI : Consistent core s) (hL : Knows core s t) {call : Call}
    {r : Ref} (hclock : s.clock ≤ call.now + 10 * core.second) (hnow : call.now ≤ s.clock)
    (hfree : call.senderId ∉ s.locked) (hget : s.mappings.get call.senderId = some r)
    (hlast : call.now ≤ core.lastReceive (s.heap.cell r) + 20 * core.second) :
    call.senderId ∉ s'.locked ∧ ∃ r', s'.mappings.get call.senderId = some r' ∧
      call.now ≤ core.lastReceive (s'.heap.cell r') + 20 * core.second := by
  cases hstep with
  | quiet hmappings _ hlocked hrefreshes _ _ =>
    rw [hmappings, hlocked]
    refine ⟨hfree, r, hget, ?_⟩
    rcases hrefreshes.lastReceive r (hI.bound _ r hget).1 with hsame | hlate
    · rw [hsame]
      exact hlast
    · omega
  | @inserted call' pc pc' r' htimely hputs _ _ _ =>
    refine ⟨hfree, ?_⟩
    by_cases hid : call.senderId = call'.senderId
    · obtain ⟨_, _, hfresh⟩ := hL.fresh _ hputs
      refine ⟨r', by rw [hid]; exact DashMap.get_insert_self _ _ _, ?_⟩
      show _ ≤ core.lastReceive (s.heap.cell r') + _
      omega
    · exact ⟨r, by rw [DashMap.get_insert_ne _ _ hid]; exact hget, hlast⟩
  | analyzed _ _ _ _ => exact ⟨hfree, r, hget, hlast⟩
  | @entered key client _ hget' hto =>
    refine ⟨fun hmem => ?_, r, hget, hlast⟩
    rcases Finset.mem_insert.mp hmem with hkey | hmem
    · -- the client would have to be timed out
      rw [← hkey, hget] at hget'
      cases hget'
      have hlate := (htime.isTimedOut_iff _ _).mp hto
      have hthirty : timeoutSeconds = 30 := rfl
      rw [hthirty] at hlate
      omega
    · exact hfree hmem
  | emptied => exact ⟨hfree, r, hget, hlast⟩
  | @removed key =>
    have hne : call.senderId ≠ key := by
      intro hkey
      rw [hkey] at hfree
      exact hfree hL.1
    refine ⟨fun hmem => hfree (Finset.mem_of_mem_erase hmem), r, ?_, hlast⟩
    rw [DashMap.get_remove, if_neg hne]
    exact hget

theorem TableStep.refreshes (hstep : TableStep core s t s' t') :
    Refreshes core s.toShared s'.toShared := by
  cases hstep with
  | quiet _ _ _ hrefreshes _ _ => exact hrefreshes
  | _ => exact .of_eq core rfl rfl

/-- What another handler knows stays true. -/
theorem TableStep.keeps_handler (htime : core.TimesOutAfter timeoutSeconds)
    (hstep : TableStep core s t s' t') (hI : Consistent core s) (hL : Knows core s t) {call : Call}
    {pc : Pc} (h : HandlerKnows core s call pc) : HandlerKnows core s' call pc := by
  have hrefreshes := hstep.refreshes
  refine ⟨?_, fun r hr => ?_, fun hbetween hclock => ?_⟩
  · rw [hrefreshes.clock]
    exact h.now
  · obtain ⟨hlt, hep, hlast⟩ := h.fresh r hr
    rw [hrefreshes.remoteEp r hlt]
    refine ⟨Nat.lt_of_lt_of_le hlt hrefreshes.next, hep, ?_⟩
    rcases hrefreshes.lastReceive r hlt with hsame | hlate
    · rw [hsame]
      exact hlast
    · exact Nat.le_trans h.now hlate
  · rw [hrefreshes.clock] at hclock
    obtain ⟨hfree, r, hget, hlast⟩ := h.safe hbetween hclock
    exact hstep.keeps_safe htime hI hL hclock h.now hfree hget hlast

/-- An entry that another cleanup is inside of stays locked, and without an analyzer. -/
theorem TableStep.keeps_inside (hstep : TableStep core s t s' t') (hL : Knows core s t)
    {key : UInt32} (happart : inside t ≠ some key) (hlocked : key ∈ s.locked) :
    key ∈ s'.locked ∧ (key ∉ s.qualityAnalyzers → key ∉ s'.qualityAnalyzers) := by
  cases hstep with
  | quiet _ hanalyzers hlocked' _ _ _ =>
    rw [hlocked', hanalyzers]
    exact ⟨hlocked, id⟩
  | inserted _ _ _ _ _ => exact ⟨hlocked, id⟩
  | analyzed htimely hbetween _ _ =>
    refine ⟨hlocked, fun hnot hkey => ?_⟩
    rcases DashMap.mem_insert.mp hkey with rfl | hold
    · exact (hL.safe hbetween htimely).1 hlocked
    · exact hnot hold
  | entered _ _ _ => exact ⟨Finset.mem_insert_of_mem hlocked, id⟩
  | emptied => exact ⟨hlocked, fun hnot hkey => hnot (DashMap.mem_remove.mp hkey).2⟩
  | removed =>
    refine ⟨Finset.mem_erase.mpr ⟨fun hkey => happart ?_, hlocked⟩, id⟩
    rw [hkey]
    rfl

theorem TableStep.keeps_knows (htime : core.TimesOutAfter timeoutSeconds)
    (hstep : TableStep core s t s' t') (hI : Consistent core s) (hL : Knows core s t)
    (hu : Knows core s u) (happart : Apart t u) : Knows core s' u := by
  have hother : ∀ {key}, inside u = some key → inside t ≠ some key :=
    fun hkey ht => happart _ ht hkey
  cases u with
  | outside th =>
    cases th with
    | handler call pc => exact hstep.keeps_handler htime hI hL hu
    | idle => trivial
    | cleanup pc => trivial
  | expired key => exact (hstep.keeps_inside hL (hother rfl) hu).1
  | emptied key =>
    obtain ⟨hlocked, hanalyzers⟩ := hstep.keeps_inside hL (hother rfl) hu.1
    exact ⟨hlocked, hanalyzers hu.2⟩

theorem locked_of_inside {key : UInt32} (h : Knows core s u) (hu : inside u = some key) :
    key ∈ s.locked := by
  cases u with
  | outside th => cases hu
  | expired key' => cases hu; exact h
  | emptied key' => cases hu; exact h.1

theorem inside_of_stands (h : stands t = none) : inside t = none := by
  cases t with
  | outside th => rfl
  | expired key => cases h
  | emptied key => cases h

theorem TableStep.apart (hstep : TableStep core s t s' t') (hu : Knows core s u)
    (happart : Apart t u) : Apart t' u := by
  intro key hkey
  cases hstep with
  | quiet _ _ _ _ _ hstands =>
    rcases hstands with rfl | ⟨_, hnone⟩
    · exact happart key hkey
    · rw [inside_of_stands hnone] at hkey
      cases hkey
  | inserted _ _ _ _ _ => cases hkey
  | analyzed _ _ _ _ => cases hkey
  | entered hfree _ _ =>
    cases hkey
    exact fun hin => hfree (locked_of_inside hu hin)
  | emptied => exact happart key hkey
  | removed => cases hkey

/-- Time only makes a handler know less. -/
theorem HandlerKnows.tick {call : Call} {pc : Pc} (h : HandlerKnows core s call pc) (d : Nat) :
    HandlerKnows core { s with clock := s.clock + d } call pc where
  now := Nat.le_add_right_of_le h.now
  fresh := h.fresh
  safe hbetween hclock := h.safe hbetween (Nat.le_of_add_right_le hclock)

end Invariant

theorem invariant {ι : Type} [DecidableEq ι] (hcore : core.FixedEndpoint)
    (htime : core.TimesOutAfter timeoutSeconds) :
    (tasks core rater).Invariant (System.OnWork (ι := ι) (Timely core))
      (fun _ s => Consistent core s) (fun _ s _ t => Knows core s t) Apart where
  exec _ p i a hC hI hL :=
    have hstep := exec_tableStep core rater hcore htime hC
    ⟨hstep.consistent hI hL, hstep.knows hL⟩
  interfere _ p i a j hC hI hL _ hu happart :=
    (exec_tableStep core rater hcore htime hC).keeps_knows htime hI hL hu happart
  apart _ p i a j hC _ _ _ hu happart :=
    (exec_tableStep core rater hcore htime hC).apart hu happart
  symm t u h key hu ht := h key ht hu
  tick _ s d hI := ⟨hI.analyzed, hI.bound⟩
  tick_local _ s d i t _ hL := by
    cases t with
    | outside th =>
      cases th with
      | handler call pc => exact HandlerKnows.tick hL d
      | idle => trivial
      | cleanup pc => trivial
    | expired key => exact hL
    | emptied key => exact hL

/-! ## Runs -/

section Runs

variable {ι : Type} [DecidableEq ι]

/-- A client without an analyzer has a thread that stands at its key. -/
def Attended (p : Pool ι (Guarded C A R) Task) : Prop :=
  ∀ key, key ∈ p.shared.mappings → key ∈ p.shared.qualityAnalyzers ∨
    ∃ i, stands (p.thread i) = some key

variable {core} in
/-- Whoever leaves a key without an analyzer stands at it. -/
theorem TableStep.attends {s s' : Guarded C A R} {t t' : Task} (hstep : TableStep core s t s' t')
    {key : UInt32} (hkey : key ∈ s'.mappings) (hnot : key ∉ s'.qualityAnalyzers) :
    stands t' = some key ∨
      (key ∈ s.mappings ∧ key ∉ s.qualityAnalyzers ∧ stands t ≠ some key) := by
  cases hstep with
  | quiet hmappings hanalyzers _ _ _ hstands =>
    rw [hmappings] at hkey
    rw [hanalyzers] at hnot
    by_cases ht : stands t = some key
    · rcases hstands with rfl | ⟨hnone, _⟩
      · exact Or.inl ht
      · rw [hnone] at ht
        cases ht
    · exact Or.inr ⟨hkey, hnot, ht⟩
  | @inserted call pc pc' r _ hputs _ _ hbetween' =>
    rcases DashMap.mem_insert.mp hkey with rfl | hold
    · left
      simp [stands, hbetween']
    · have hnone : stands (.outside (.handler call pc)) = none := by
        cases pc <;> first | rfl | cases hputs
      exact Or.inr ⟨hold, hnot, by rw [hnone]; simp⟩
  | @analyzed call pc pc' _ hbetween _ _ =>
    rw [DashMap.mem_insert, not_or] at hnot
    refine Or.inr ⟨hkey, hnot.2, fun ht => hnot.1 ?_⟩
    simp only [stands, hbetween, if_true, Option.some.injEq] at ht
    exact ht.symm
  | entered _ _ _ => exact Or.inr ⟨hkey, hnot, by simp [stands]⟩
  | @emptied key' =>
    by_cases heq : key = key'
    · left
      rw [heq]
      rfl
    · rw [DashMap.mem_remove, not_and] at hnot
      exact Or.inr ⟨hkey, hnot heq, fun ht => heq (Option.some.inj ht).symm⟩
  | removed =>
    obtain ⟨hne, hold⟩ := DashMap.mem_remove.mp hkey
    exact Or.inr ⟨hold, hnot, fun ht => hne (Option.some.inj ht).symm⟩

section Laws

variable (hcore : core.FixedEndpoint) (htime : core.TimesOutAfter timeoutSeconds)
include hcore htime

theorem attended_step {p : Pool ι (Guarded C A R) Task} (h : Attended p) (a : Action ι Input)
    (htimely : System.OnWork (Timely core) p a) :
    Attended ((tasks core rater).machine.step p a) := by
  cases a with
  | tick d => exact h
  | work i a =>
    have hstep := exec_tableStep core rater hcore htime htimely
    intro key hkey
    by_cases hanalyzer :
        key ∈ ((tasks core rater).machine.step p (.work i a)).shared.qualityAnalyzers
    · exact Or.inl hanalyzer
    · right
      rcases hstep.attends hkey hanalyzer with hself | ⟨hold, hnot, hi⟩
      · refine ⟨i, ?_⟩
        show stands (Function.update p.thread i _ i) = some key
        rw [Function.update_self]
        exact hself
      · obtain ⟨j, hj⟩ := (h key hold).resolve_left hnot
        refine ⟨j, ?_⟩
        have hji : j ≠ i := by
          rintro rfl
          exact hi hj
        show stands (Function.update p.thread i _ j) = some key
        rw [Function.update_of_ne hji]
        exact hj

/-- **Tables in step.** In every run in which handlers update the maps within 10 s: every
analyzer has its client; a client is without an analyzer only while a handler stands between
its two inserts for the key or a cleanup inside the entry; when no call is in progress the
two maps have the same keys; and every client has an endpoint, so that no lookup of a sender
takes the branch without one. -/
theorem tables_in_step {p : Pool ι (Guarded C A R) Task} (hstart : Started p)
    {as : List (Action ι Input)}
    (htimely : (tasks core rater).machine.Along (System.OnWork (Timely core)) p as) :
    let q := (tasks core rater).machine.run p as
    (∀ key, key ∈ q.shared.qualityAnalyzers → key ∈ q.shared.mappings) ∧
    (∀ key, key ∈ q.shared.mappings → key ∈ q.shared.qualityAnalyzers ∨
      ∃ i, stands (q.thread i) = some key) ∧
    ((∀ i, q.thread i = .outside .idle) →
      ∀ key, key ∈ q.shared.qualityAnalyzers ↔ key ∈ q.shared.mappings) ∧
    (∀ key client, q.shared.mappings.get key = some client →
      (core.remoteEp (q.shared.heap.cell client)).isSome) ∧
    (∀ call b, call.senderId ∈ q.shared.mappings →
      (handle core rater q.shared.toShared call b .lookup).2.isSome) := by
  intro q
  have hinitial : System.Holds (fun (_ : List (ι × Shown)) s => Consistent core s)
      (fun _ s _ t => Knows core s t) Apart [] p := by
    refine ⟨⟨fun key hkey => ?_, fun key r hget => ?_⟩, fun i => ?_, fun i j _ key hkey => ?_⟩
    · rw [hstart.qualityAnalyzers] at hkey
      cases hkey
    · rw [hstart.mappings] at hget
      cases hget
    · rw [hstart.idle i]
      trivial
    · rw [hstart.idle i] at hkey
      cases hkey
  have hconsistent : Consistent core q.shared :=
    ((invariant core rater hcore htime).run hinitial htimely).shared
  have hattended : Attended q := by
    refine (tasks core rater).machine.run_induction (P := Attended) (fun key hkey => ?_)
      (fun _ a h hc => attended_step core rater hcore htime h a hc) as htimely
    rw [hstart.mappings] at hkey
    cases hkey
  refine ⟨hconsistent.analyzed, hattended,
    fun hrest key => ⟨hconsistent.analyzed key, fun hkey => ?_⟩,
    fun key client hget => (hconsistent.bound key client hget).2, fun call b hmem => ?_⟩
  · refine (hattended key hkey).resolve_right fun ⟨i, hi⟩ => ?_
    rw [hrest i] at hi
    cases hi
  · obtain ⟨client, hget⟩ := DashMap.mem_iff_get.mp hmem
    obtain ⟨ep, hep⟩ := Option.isSome_iff_exists.mp (hconsistent.bound _ client hget).2
    simp only [handle, hget, hep]
    rfl

end Laws

end Runs

/-! ## A concrete run -/

/-- A started tunnel over the concrete crates. -/
def guardedPool : Pool Bool (Guarded RelayCore.ReferenceClient (List Bool) Unit) Task where
  shared := { (referencePool Bool 200 1000).shared with locked := ∅ }
  thread _ := .outside .idle

/-- Id 1 connects, is silent for 31 s, and a cleanup is inside its entry. -/
def silent : List (Action Bool Input) :=
  .work false (.receive 1 2 [1, 0, 0, 0, 2, 0, 0, 0] (.v4 8 8 8 8 1234)) ::
    List.replicate 9 (.work false (.go true)) ++
    [.tick 31000, .work true .clean, .work true (.visit 1), .work true (.go true)]

theorem tables_in_step_silent :
    ∃ i, stands (((tasks (RelayCore.referenceInTicks timeoutSeconds) Rater.granting).machine.run
      guardedPool silent).thread i) = some 1 := by
  have htimely : (tasks (RelayCore.referenceInTicks timeoutSeconds) Rater.granting).machine.Along
      (System.OnWork (Timely (RelayCore.referenceInTicks timeoutSeconds))) guardedPool silent := by
    decide +kernel
  have h := tables_in_step (RelayCore.referenceInTicks timeoutSeconds) Rater.granting
    (RelayCore.referenceInTicks_fixedEndpoint _) (RelayCore.referenceInTicks_timesOutAfter _)
    (⟨rfl, rfl, rfl, fun _ => rfl⟩ : Started guardedPool) htimely
  exact (h.2.1 1 (by decide +kernel)).resolve_left (by decide +kernel)

end CncnetServer.TunnelV3.Tables
