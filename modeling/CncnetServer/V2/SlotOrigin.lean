import CncnetServer.V2.Threads
import CncnetServer.Lib.History

/-!
Where the V2 slots come from, under every interleaving of requests, packets and
cleanups.

A packet handler puts its new client under the id it looked up, whatever has
become of the id since. The ids come from requests only in exactly those runs in
which nothing but packets touches an id between the lookup of a handler and its
insert (`slots_from_requests`). Otherwise a packet can bring back an id that a
cleanup removed (`slot_from_packet`).
-/

namespace CncnetServer.TunnelV2

open Threads Runs History

variable {C R A : Type} (core : RelayCore C A) (rater : Rater R) {ι : Type}

/-! ## What is shown of an id -/

def Allocates (id : Int16) (e : ι × Shown) : Prop := e.2 = .allocated id

/-- A cleanup or a roll-back removes the id. -/
def Removes (id : Int16) (e : ι × Shown) : Prop := e.2 = .expired id ∨ e.2 = .rolledBack id

/-- The packet handler of thread `i` looks the id up. -/
def LooksUp (i : ι) (id : Int16) (e : ι × Shown) : Prop := e = (i, .lookedUp id)

instance (id : Int16) : DecidablePred (Allocates (ι := ι) id) :=
  fun e => inferInstanceAs (Decidable (e.2 = _))

instance (id : Int16) : DecidablePred (Removes (ι := ι) id) :=
  fun e => inferInstanceAs (Decidable (e.2 = _ ∨ e.2 = _))

/-- A handler that binds an id: since its lookup no request, roll-back or cleanup has
touched the id. -/
def Undisturbed (before : List (ι × Shown)) : ι × Shown → Prop
  | (i, .bound id _) => ¬ Since (fun e => Allocates id e ∨ Removes id e) (LooksUp i id) before
  | _ => True

instance [DecidableEq ι] (before : List (ι × Shown)) : ∀ e, Decidable (Undisturbed before e)
  | (i, .bound id _) =>
    have : DecidablePred (LooksUp i id) := fun e => inferInstanceAs (Decidable (e = _))
    inferInstanceAs (Decidable (¬ Since _ _ before))
  | (_, .lookedUp _) | (_, .allocated _) | (_, .rolledBack _) | (_, .expired _)
  | (_, .answered _) | (_, .slots _ _) | (_, .sent _) => .isTrue trivial

/-- A handler that binds an id: the id has not been handed out since its lookup. -/
def BoundAsLookedUp (before : List (ι × Shown)) : ι × Shown → Prop
  | (i, .bound id _) => ¬ Since (Allocates id) (LooksUp i id) before
  | _ => True

/-- The slots of a run come from requests only. -/
structure FromRequests [DecidableEq ι] (p : Pool ι (Shared C R) Thread)
    (as : List (Action ι Input)) : Prop where
  /-- A key is not 0, and a request inserted it after it was last removed. -/
  keys : ∀ pre post, as = pre ++ post →
    ∀ id ∈ ((threads core rater).machine.run p pre).shared.mappings,
      id ≠ 0 ∧ Since (Allocates id) (Removes id) ((threads core rater).machine.trace p pre)
  /-- A removed id stays out until a request allocates it. -/
  removed : ∀ pre post, as = pre ++ post →
    ∀ id, Since (Removes id) (Allocates id) ((threads core rater).machine.trace p pre) →
      id ∉ ((threads core rater).machine.run p pre).shared.mappings
  /-- A step of a packet handler adds no key. -/
  packet : ∀ pre i a post call pc, as = pre ++ .work i a :: post →
    ((threads core rater).machine.run p pre).thread i = .handler call pc →
    ∀ id ∈ ((threads core rater).machine.run p (pre ++ [.work i a])).shared.mappings,
      id ∈ ((threads core rater).machine.run p pre).shared.mappings
  bound : Always BoundAsLookedUp ((threads core rater).machine.trace p as)

/-! ## The invariant -/

/-- The id a packet handler has looked up and may still insert. -/
def Thread.looking : Thread → Option Int16
  | .handler call (.newClaim _) | .handler call (.insertClaim _ _)
  | .handler call (.isTimedOut _) | .handler call (.newReconnect _)
  | .handler call (.insertReconnect _ _) => some call.senderId
  | _ => none

/-- The id a request is about to insert. -/
def Thread.drawn : Thread → Option Int16
  | .request _ (.newClient _ _ id) | .request _ (.insert _ _ id _) => some id
  | _ => none

@[simp] theorem drawn_loop (clients : Nat) (ids : List Int16) (attempts : Nat) :
    (Thread.request clients (loop clients ids attempts)).drawn = none := by
  unfold loop
  split
  · rfl
  · split <;> rfl

theorem looking_of_inserts {call : Call} {pc : Pc} {r : Ref} (h : pc.inserts = some r) :
    (Thread.handler call pc).looking = some call.senderId := by
  cases pc <;> first | rfl | cases h

/-- How a step changes what its thread has looked up and has drawn. -/
structure LookStep (s s' : Shared C R) (th th' : Thread) (es : List Shown) : Prop where
  /-- A lookup finds its id, and nothing is shown between it and the insert. -/
  looking : ∀ id, th'.looking = some id →
    (th.looking = some id ∧ s'.mappings = s.mappings ∧ es = []) ∨ (s' = s ∧ id ∈ s.mappings)
  /-- An id to insert is not 0. -/
  drawn : ∀ id, th'.drawn = some id → th.drawn = some id ∨ id ≠ 0

variable {core rater}

theorem LookStep.same (s : Shared C R) (th : Thread) : LookStep s s th th [] where
  looking _ h := Or.inl ⟨h, rfl, rfl⟩
  drawn _ h := Or.inl h

/-- A step after which its thread holds nothing. -/
theorem LookStep.none {s s' : Shared C R} {th th' : Thread} {es : List Shown}
    (hlooking : th'.looking = none) (hdrawn : th'.drawn = none) : LookStep s s' th th' es where
  looking _ h := by rw [hlooking] at h; cases h
  drawn _ h := by rw [hdrawn] at h; cases h

theorem handler_lookStep (s : Shared C R) (call : Call) (pc : Pc) (b : Bool) :
    LookStep s (exec core rater s (.handler call pc) (.go b)).1 (.handler call pc)
      (exec core rater s (.handler call pc) (.go b)).2 (shown call pc) := by
  have hdrawn : ∀ pc', (Thread.handlerAt call pc').drawn = none := by
    intro pc'
    cases pc' <;> rfl
  -- on the way to the insert the handler touches the heap only
  have hway : ∀ (s' : Shared C R) pc', (Thread.handler call pc).looking = some call.senderId →
      shown call pc = [] → s'.mappings = s.mappings →
      LookStep s s' (.handler call pc) (.handler call pc') (shown call pc) := by
    intro s' pc' hlook hshown hm
    refine ⟨fun id h => Or.inl ⟨?_, hm, hshown⟩, fun id h => ?_⟩
    · rw [hlook]
      cases pc' <;> first | exact h | cases h
    · cases h
  cases pc with
  | lookup =>
    cases hget : s.mappings.get call.senderId with
    | none =>
      simp only [exec, handle, hget]
      exact .none rfl rfl
    | some r =>
      refine ⟨fun id h => Or.inr ⟨rfl, ?_⟩, fun id h => ?_⟩
      · have hid : call.senderId = id := by
          simp only [exec, handle, hget] at h
          split at h
          · split at h <;> first | exact Option.some.inj h | cases h
          · exact Option.some.inj h
        rw [← hid]
        exact DashMap.mem_of_get hget
      · cases (hdrawn (handle core s call b .lookup).2).symm.trans h
  | newClaim r => exact hway _ _ rfl rfl rfl
  | newReconnect r => exact hway _ _ rfl rfl rfl
  | isTimedOut r =>
    simp only [exec, handle]
    split
    · exact hway _ _ rfl rfl rfl
    · exact .none rfl rfl
  | forward =>
    refine .none ?_ (hdrawn _)
    simp only [exec, handle]
    split
    · split
      · split <;> rfl
      · rfl
    · rfl
  | send ep r => cases b <;> exact .none rfl rfl
  | _ => exact .none rfl rfl

theorem request_lookStep (s : Shared C R) (clients : Nat) (pc : RequestPc) (k : Int16) :
    LookStep s (exec core rater s (.request clients pc) (.draw k)).1 (.request clients pc)
      (exec core rater s (.request clients pc) (.draw k)).2 (shownRequest pc) := by
  cases pc with
  | maintenance =>
    simp only [exec, allocate]
    split
    · exact .none rfl rfl
    · split <;> exact .none rfl rfl
  | checkLen =>
    simp only [exec, allocate]
    split
    · exact .none rfl rfl
    · exact .none rfl (drawn_loop _ _ _)
  | attempt ids attempts =>
    simp only [exec, allocate]
    split
    · rename_i hfree
      refine ⟨fun id h => (by cases h), fun id h => Or.inr ?_⟩
      cases h
      exact hfree.1
    · exact .none rfl (drawn_loop _ _ _)
  | newClient ids attempts id => exact ⟨fun id h => (by cases h), fun id h => Or.inl h⟩
  | insert ids attempts id r => exact .none rfl (drawn_loop _ _ _)
  | rollBack ids =>
    cases ids with
    | nil => exact .none rfl rfl
    | cons id ids =>
      simp only [exec, allocate_rollBack]
      exact .none rfl rfl
  | activeLen ids => exact .none rfl rfl
  | activeStore ids len => exact .none rfl rfl

theorem exec_lookStep (s : Shared C R) (th : Thread) (a : Input) :
    LookStep s (exec core rater s th a).1 th (exec core rater s th a).2 (emit core s th a) := by
  cases th with
  | idle => cases a <;> exact .none rfl rfl
  | status => cases a <;> exact .none rfl rfl
  | handler call pc =>
    cases a with
    | go b => exact handler_lookStep s call pc b
    | _ => exact .same s _
  | request clients pc =>
    cases a with
    | draw k => exact request_lookStep s clients pc k
    | _ => exact .same s _
  | cleanup pc => cases pc <;> cases a <;> exact .none rfl rfl

/-- What a thread knows: the id it looked up is still there, or has been removed since. -/
structure Looks (tr : List (ι × Shown)) (s : Shared C R) (i : ι) (th : Thread) : Prop where
  looking : ∀ id, th.looking = some id → id ∈ s.mappings ∨ Since (Removes id) (LooksUp i id) tr
  drawn : ∀ id, th.drawn = some id → id ≠ 0

/-- The keys of an undisturbed history come from requests. -/
def Requested (tr : List (ι × Shown)) (s : Shared C R) : Prop :=
  Always Undisturbed tr → ∀ id ∈ s.mappings, id ≠ 0 ∧ Since (Allocates id) (Removes id) tr

/-- Undisturbed, the id a handler is about to bind is still where it found it. -/
theorem Looks.undisturbed {tr : List (ι × Shown)} {s : Shared C R} {i : ι} {call : Call} {pc : Pc}
    {r : Ref} {addr : SocketAddr} (h : Looks tr s i (.handler call pc)) (hpc : pc.inserts = some r)
    (hfree : Undisturbed tr (i, .bound call.senderId addr)) : call.senderId ∈ s.mappings := by
  rcases h.looking _ (looking_of_inserts hpc) with hid | hremoved
  · exact hid
  · exact absurd (hremoved.mono fun _ => Or.inr) hfree

section Step

variable {tr : List (ι × Shown)} {s s' : Shared C R} {th th' u : Thread} {a : Input}
variable {es : List Shown} {i j : ι}

/-- A key that was there stays requested when the step removes nothing. -/
theorem since_allocates_append {id : Int16} (h : Since (Allocates id) (Removes id) tr)
    (hes : ∀ e ∈ es, e ≠ .expired id ∧ e ≠ .rolledBack id) :
    Since (Allocates id) (Removes id) (tr ++ es.map (Prod.mk i)) := by
  refine (since_append tr _).mpr (Or.inr ⟨h, fun e he hrem => ?_⟩)
  obtain ⟨x, hx, rfl⟩ := List.mem_map.mp he
  rcases hrem with heq | heq
  · exact (hes x hx).1 heq
  · exact (hes x hx).2 heq

theorem requested_step (hstep : MapStep core s th a s' th' es) (hI : Requested tr s)
    (hL : Looks tr s i th) : Requested (tr ++ es.map (Prod.mk i)) s' := by
  intro halways id hid
  have hsplit := (always_append tr _).mp halways
  have hold : ∀ j ∈ s.mappings, (∀ e ∈ es, e ≠ .expired j ∧ e ≠ .rolledBack j) →
      j ≠ 0 ∧ Since (Allocates j) (Removes j) (tr ++ es.map (Prod.mk i)) := by
    intro j hj hes
    have hreq := hI hsplit.1 j hj
    exact ⟨hreq.1, since_allocates_append hreq.2 hes⟩
  cases hstep with
  | quiet hm _ hes =>
    rw [hm] at hid
    refine hold id hid fun e he => ⟨?_, ?_⟩ <;> rintro rfl <;> cases hes _ he
  | @bound call pc r b s' hpc hm =>
    rw [hm] at hid
    refine hold id ?_ (by simp)
    rcases DashMap.mem_insert.mp hid with rfl | hid
    · have hfree := (always_singleton _).mp hsplit.2
      rw [List.append_nil] at hfree
      exact hL.undisturbed hpc hfree
    · exact hid
  | @allocated clients ids attempts key r k s' hm =>
    rw [hm] at hid
    rcases DashMap.mem_insert.mp hid with rfl | hid
    · exact ⟨hL.drawn id rfl, (since_append tr _).mpr (Or.inl ((since_singleton _).mpr rfl))⟩
    · exact hold id hid (by simp)
  | rolledBack hm =>
    rw [hm] at hid
    obtain ⟨hne, hid⟩ := DashMap.mem_remove.mp hid
    refine hold id hid fun e he => ?_
    cases List.mem_singleton.mp he
    exact ⟨by simp, by simpa using Ne.symm hne⟩
  | answered hm =>
    rw [hm] at hid
    exact hold id hid (by simp)
  | expired _ _ hm =>
    rw [hm] at hid
    obtain ⟨hne, hid⟩ := DashMap.mem_remove.mp hid
    refine hold id hid fun e he => ?_
    cases List.mem_singleton.mp he
    exact ⟨by simpa using Ne.symm hne, by simp⟩

theorem looks_step (hstep : LookStep s s' th th' es) (hL : Looks tr s i th) :
    Looks (tr ++ es.map (Prod.mk i)) s' i th' where
  looking id hlook := by
    rcases hstep.looking id hlook with ⟨hold, hm, rfl⟩ | ⟨rfl, hid⟩
    · rw [hm, List.map_nil, List.append_nil]
      exact hL.looking id hold
    · exact Or.inl hid
  drawn id hdrawn := by
    rcases hstep.drawn id hdrawn with hold | hne
    · exact hL.drawn id hold
    · exact hne

/-- What another thread looked up is still there after the step, or removed by it. -/
theorem looks_other (hstep : MapStep core s th a s' th' es) (hu : Looks tr s j u) (hj : j ≠ i) :
    Looks (tr ++ es.map (Prod.mk i)) s' j u := by
  refine ⟨fun id hlook => ?_, hu.drawn⟩
  rcases hu.looking id hlook with hid | hsince
  · have hremoved : ∀ key e, es = [e] → (e = .expired key ∨ e = .rolledBack key) →
        s'.mappings = s.mappings.remove key →
        id ∈ s'.mappings ∨ Since (Removes id) (LooksUp j id) (tr ++ es.map (Prod.mk i)) := by
      rintro key e rfl he hm
      rw [hm]
      by_cases hkey : id = key
      · subst hkey
        exact Or.inr ((since_append tr _).mpr (Or.inl ((since_singleton _).mpr he)))
      · exact Or.inl (DashMap.mem_remove.mpr ⟨hkey, hid⟩)
    cases hstep with
    | quiet hm _ _ =>
      rw [hm]
      exact Or.inl hid
    | bound _ hm =>
      rw [hm]
      exact Or.inl (DashMap.mem_insert.mpr (Or.inr hid))
    | allocated hm =>
      rw [hm]
      exact Or.inl (DashMap.mem_insert.mpr (Or.inr hid))
    | rolledBack hm => exact hremoved _ _ rfl (Or.inr rfl) hm
    | answered hm =>
      rw [hm]
      exact Or.inl hid
    | expired _ _ hm => exact hremoved _ _ rfl (Or.inl rfl) hm
  · refine Or.inr ((since_append tr _).mpr (Or.inr ⟨hsince, fun e he hlook => ?_⟩))
    obtain ⟨x, _, rfl⟩ := List.mem_map.mp he
    cases hlook
    exact hj rfl

end Step

variable (core rater) in
/-- **The invariant of every run**: what its handlers looked up is there or has been
removed since; and if it is undisturbed, every key comes from a request. -/
theorem origin_invariant (ι : Type) [DecidableEq ι] :
    (threads core rater).Invariant (fun (_ : Pool ι (Shared C R) Thread) _ => True)
    Requested Looks (fun _ _ => True) where
  exec _ p _ a _ hI hL :=
    ⟨requested_step (exec_mapStep core rater p.shared _ a) hI hL,
      looks_step (exec_lookStep p.shared _ a) hL⟩
  interfere _ p _ a _ _ _ _ hj hu _ :=
    looks_other (exec_mapStep core rater p.shared _ a) hu hj
  apart _ _ _ _ _ _ _ _ _ _ _ := trivial
  symm _ _ _ := trivial
  tick _ _ _ h := h
  tick_local _ _ _ _ _ _ h := ⟨h.looking, h.drawn⟩

/-! ## Runs -/

/-- A handler that binds an id has put it into the map. -/
theorem mem_of_bound {s s' : Shared C R} {th th' : Thread} {a : Input} {es : List Shown}
    (hstep : MapStep core s th a s' th' es) {id : Int16} {addr : SocketAddr}
    (he : .bound id addr ∈ es) :
    es = [.bound id addr] ∧ (∃ call pc, th = .handler call pc) ∧ id ∈ s'.mappings := by
  cases hstep with
  | quiet _ _ hes => cases hes _ he
  | bound _ hm =>
    cases List.mem_singleton.mp he
    refine ⟨rfl, ⟨_, _, rfl⟩, ?_⟩
    rw [hm]
    exact DashMap.mem_insert.mpr (Or.inl rfl)
  | _ => cases List.mem_singleton.mp he

/-- The only key a packet handler can add is the one it binds. -/
theorem mem_of_handler {s s' : Shared C R} {th th' : Thread} {a : Input} {es : List Shown}
    (hstep : MapStep core s th a s' th' es) {call : Call} {pc : Pc} (hth : th = .handler call pc)
    {id : Int16} (hid : id ∈ s'.mappings) :
    id ∈ s.mappings ∨ (id = call.senderId ∧ es = [.bound call.senderId call.remoteAddr] ∧
      ∃ r, pc.inserts = some r) := by
  cases hstep with
  | quiet hm _ _ =>
    rw [hm] at hid
    exact Or.inl hid
  | bound hpc hm =>
    cases hth
    rw [hm] at hid
    rcases DashMap.mem_insert.mp hid with rfl | hid
    · exact Or.inr ⟨rfl, rfl, _, hpc⟩
    · exact Or.inl hid
  | _ => cases hth

section Run

variable [DecidableEq ι] {p : Pool ι (Shared C R) Thread}

theorem origin_run (hstart : Started p) (as : List (Action ι Input)) :
    System.Holds Requested Looks (fun _ _ => True) ((threads core rater).machine.trace p as)
      ((threads core rater).machine.run p as) := by
  refine (origin_invariant core rater ι).run ⟨fun _ id hid => ?_, fun i => ?_, fun _ _ _ => trivial⟩
    ((threads core rater).machine.along_of_forall (fun _ _ => trivial) p as)
  · rw [hstart.mappings] at hid
    exact absurd hid (AList.notMem_empty id)
  · rw [hstart.idle i]
    exact ⟨fun id h => (by cases h), fun id h => (by cases h)⟩

theorem fromRequests_of_undisturbed (hstart : Started p) {as : List (Action ι Input)}
    (halways : Always Undisturbed ((threads core rater).machine.trace p as)) :
    FromRequests core rater p as := by
  let M := (threads core rater).machine (ι := ι)
  have hpre : ∀ pre post, as = pre ++ post → Always Undisturbed (M.trace p pre) := by
    rintro pre post rfl
    rw [Machine.trace_append] at halways
    exact ((always_append _ _).mp halways).1
  refine ⟨fun pre post heq => (origin_run hstart pre).shared (hpre pre post heq), ?_, ?_, ?_⟩
  · intro pre post heq id hremoved hid
    refine hremoved.not_swap ?_ ((origin_run hstart pre).shared (hpre pre post heq) id hid).2
    rintro ⟨i, x⟩ hrem halloc
    cases halloc
    rcases hrem with h | h <;> cases h
  · rintro pre i a post call pc heq hth id hid
    have hstep := exec_mapStep core rater (M.run p pre).shared ((M.run p pre).thread i) a
    have hholds : System.Holds Requested Looks (fun _ _ => True) (M.trace p pre) (M.run p pre) :=
      origin_run hstart pre
    have hlooks := hholds.thread i
    have hfree := hpre (pre ++ [.work i a]) post (by simp [heq])
    rw [Machine.run_snoc] at hid
    rw [Machine.trace_snoc] at hfree
    rcases mem_of_handler hstep hth hid with hold | ⟨rfl, hes, r, hpc⟩
    · exact hold
    · have hemit : M.emit (M.run p pre) (.work i a) =
          [(i, .bound call.senderId call.remoteAddr)] := congrArg (List.map (Prod.mk i)) hes
      rw [hemit, always_snoc] at hfree
      rw [hth] at hlooks
      exact hlooks.undisturbed hpc hfree.2
  · rintro before ⟨i, x⟩ after heq
    have hfree := halways before (i, x) after heq
    cases x with
    | bound id addr => exact fun h => hfree (h.mono fun _ => Or.inl)
    | _ => trivial

theorem undisturbed_of_fromRequests {as : List (Action ι Input)}
    (hreq : FromRequests core rater p as) :
    Always Undisturbed ((threads core rater).machine.trace p as) := by
  let M := (threads core rater).machine (ι := ι)
  rintro before ⟨i, x⟩ after heq
  cases x with
  | bound id addr =>
    intro hsince
    have hremoved := hsince.last (hreq.bound before (i, .bound id addr) after heq)
    obtain ⟨pre, b, post, es, es', rfl, hemit, rfl⟩ := Machine.trace_split _ heq
    have hmem : (i, Shown.bound id addr) ∈ M.emit (M.run p pre) b := by
      rw [show M.emit (M.run p pre) b = _ from hemit]
      simp
    cases b with
    | tick d => cases hmem
    | work j a =>
      obtain ⟨x, hx, heq⟩ := List.mem_map.mp hmem
      cases heq
      -- the step has shown nothing else, and it has put the removed id into the map
      obtain ⟨honly, ⟨call, pc, hth⟩, hin⟩ := mem_of_bound (exec_mapStep core rater _ _ a) hx
      have hes : es = [] := by
        have hone : M.emit (M.run p pre) (.work i a) = [(i, .bound id addr)] :=
          congrArg (List.map (Prod.mk i)) honly
        have hlen := congrArg List.length (hone.symm.trans hemit)
        simp only [List.length_append, List.length_cons, List.length_nil] at hlen
        exact List.length_eq_zero_iff.mp (by omega)
      rw [hes, List.append_nil] at hremoved
      refine hreq.removed pre _ rfl id hremoved (hreq.packet pre i a post call pc rfl hth id ?_)
      rw [Machine.run_snoc]
      exact hin
  | _ => trivial

variable (core rater) in
/-- **V2 slots come from requests only**, in exactly the runs in which no request,
roll-back or cleanup touches an id between the lookup of a packet handler and its
insert. -/
theorem slots_from_requests (hstart : Started p) (as : List (Action ι Input)) :
    FromRequests core rater p as ↔
      Always Undisturbed ((threads core rater).machine.trace p as) :=
  ⟨undisturbed_of_fromRequests, fromRequests_of_undisturbed hstart⟩

end Run

/-- A request for two slots, and a player who looks the first of them up. -/
def requestThenLookUp : List (Action Bool Input) :=
  requestTwo false :: drawing false [0, 0, 7, 0, 0, 8, 0, 0, 0, 0] ++
    [.work true (.receive 7 8 [0, 7, 0, 8] (.v4 9 9 9 9 1234)), .work true (.go true)]

/-- The player's client is made and put under the id. -/
def claim : List (Action Bool Input) := [.work true (.go true), .work true (.go true)]

/-- A player claims an id that a request handed out. -/
theorem slots_from_requests_claim :
    let core := RelayCore.reference timeoutSeconds
    let M := (threads core Rater.granting).machine
    let p := referencePool Bool 200 1000
    let as := requestThenLookUp ++ claim
    FromRequests core Rater.granting p as ∧ (true, .bound 7 (.v4 9 9 9 9 1234)) ∈ M.trace p as := by
  intro core M p as
  refine ⟨(slots_from_requests core Rater.granting (referencePool_started Bool 200 1000) as).mpr ?_,
    ?_⟩
  · decide +kernel
  · decide +kernel

/-- A cleanup removes the id between the lookup of a packet handler and its insert, and
the packet brings it back. -/
theorem slot_from_packet :
    let M := (threads (RelayCore.reference timeoutSeconds) Rater.granting).machine
    let p := referencePool Bool 200 1000
    let as := requestThenLookUp ++ [.work false .clean, .tick 100000, .work false (.visit 7)]
    7 ∉ (M.run p as).shared.mappings ∧ 7 ∈ (M.run p (as ++ claim)).shared.mappings ∧
      Since (Removes 7) (Allocates 7) (M.trace p (as ++ claim)) := by
  decide +kernel

end CncnetServer.TunnelV2
