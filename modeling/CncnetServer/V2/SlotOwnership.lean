import CncnetServer.V2.Threads
import CncnetServer.Lib.History
import CncnetServer.Lib.Watch

/-!
Who owns a V2 slot, under every interleaving of requests, packets and cleanups.

A request owns the ids it holds until it answers or takes them back; after the
answer they belong to the client until a cleanup removes them. Two requests can
come to hold one id, when both find it free before either inserts it, and a
cleanup can remove an id from under a request that takes longer than the timeout.
In a run without these two (`Exclusive`) ownership is exclusive
(`slot_ownership`); with the first it is not (`slot_answered_twice`). A run is exclusive if
nobody inserts an id between the `contains_key` and the insert of a request that draws it,
and no cleanup removes an id that a request holds (`exclusive_of_calm`).
-/

namespace CncnetServer.TunnelV2

open Threads Runs History

variable {C R A : Type} (core : RelayCore C A) (rater : Rater R) {ι : Type}

/-- An answer of 200 that returns the id. -/
def Answers (id : Int16) (e : ι × Shown) : Prop := ∃ ids, e.2 = .answered ids ∧ id ∈ ids

/-- The removal of the id by a cleanup, as timed out. -/
def Expires (id : Int16) (e : ι × Shown) : Prop := e.2 = .expired id

/-- The id has been returned, and no cleanup has removed it since. -/
def Returned (id : Int16) (tr : List (ι × Shown)) : Prop := Since (Answers id) (Expires id) tr

/-- The id that a request inserts in this step. -/
def Thread.inserts : Thread → Input → Option Int16
  | .request _ (.insert _ _ id _), .draw _ => some id
  | _, _ => none

/-- The entry that a cleanup visits in this step. -/
def Thread.visits : Thread → Input → Option Int16
  | .cleanup .retain, .visit key => some key
  | _, _ => none

/-- The access inserts no id that is there already, and removes no id as timed out
that a request holds. -/
def ExclusiveAt (s : Shared C R) (held : Int16 → Prop) (th : Thread) (a : Input) : Prop :=
  (∀ id ∈ th.inserts a, id ∉ s.mappings) ∧
    ∀ key ∈ th.visits a,
      (s.mappings.get key).any (fun r => core.isTimedOut (s.heap.cell r) s.clock) = true → ¬ held key

instance (s : Shared C R) (held : Int16 → Prop) [DecidablePred held] (th : Thread) (a : Input) :
    Decidable (ExclusiveAt core s held th a) :=
  @instDecidableAnd _ _ (Option.decidableForallMem (th.inserts a))
    (Option.decidableForallMem (th.visits a))

def Exclusive (p : Pool ι (Shared C R) Thread) : Action ι Input → Prop
  | .work i a => ExclusiveAt core p.shared (fun id => ∃ j, id ∈ (p.thread j).held) (p.thread i) a
  | .tick _ => True

instance [Fintype ι] (p : Pool ι (Shared C R) Thread) : (a : Action ι Input) →
    Decidable (Exclusive core p a)
  | .work i a => inferInstanceAs (Decidable (ExclusiveAt core p.shared _ (p.thread i) a))
  | .tick _ => .isTrue trivial

/-! ## The invariant -/

/-- What a request knows of the ids it holds: they are distinct, they are in the
map, and they are not some client's. -/
structure Owns (tr : List (ι × Shown)) (s : Shared C R) (th : Thread) : Prop where
  nodup : th.held.Nodup
  present : ∀ id ∈ th.held, id ∈ s.mappings
  unreturned : ∀ id ∈ th.held, ¬ Returned id tr

variable {core rater}

theorem returned_append (id : Int16) (tr es : List (ι × Shown)) :
    Returned id (tr ++ es) ↔
      Since (Answers id) (Expires id) es ∨ (Returned id tr ∧ ∀ e ∈ es, ¬ Expires id e) :=
  since_append tr es

/-- A step that answers no id returns none. -/
theorem Returned.before {id : Int16} {i : ι} {tr : List (ι × Shown)} {es : List Shown}
    (h : Returned id (tr ++ es.map (Prod.mk i)))
    (hes : ∀ e ∈ es, ∀ ids, e ≠ .answered ids) :
    Returned id tr ∧ Shown.expired id ∉ es := by
  obtain ⟨hold, hoff⟩ := h.of_append fun e he hon => by
    obtain ⟨x, hx, rfl⟩ := List.mem_map.mp he
    obtain ⟨ids, heq, _⟩ := hon
    exact hes x hx ids heq
  exact ⟨hold, fun hx => hoff _ (List.mem_map_of_mem hx) rfl⟩

/-- What a thread holds stays its own when a step keeps the map and answers nothing of it. -/
theorem Owns.mono {tr : List (ι × Shown)} {s s' : Shared C R} {th th' : Thread} {i : ι}
    {es : List Shown} (h : Owns tr s th) (hheld : th'.held = th.held)
    (hm : ∀ id ∈ th.held, id ∈ s.mappings → id ∈ s'.mappings)
    (hes : ∀ e ∈ es, ∀ ids, e = .answered ids → ∀ id ∈ th.held, id ∉ ids) :
    Owns (tr ++ es.map (Prod.mk i)) s' th' where
  nodup := by rw [hheld]; exact h.nodup
  present id hid := by
    rw [hheld] at hid
    exact hm id hid (h.present id hid)
  unreturned id hid hret := by
    rw [hheld] at hid
    rcases (returned_append id tr _).mp hret with ⟨before, e, after, heq, hon, _⟩ | hold
    · obtain ⟨x, hx, rfl⟩ := List.mem_map.mp (show e ∈ es.map (Prod.mk i) by rw [heq]; simp)
      obtain ⟨ids, hans, hin⟩ := hon
      exact hes x hx ids hans id hid hin
    · exact h.unreturned id hid hold.1

theorem owns_nothing {tr : List (ι × Shown)} {s : Shared C R} {th : Thread} (h : th.held = []) :
    Owns tr s th where
  nodup := by rw [h]; exact List.nodup_nil
  present id hid := by rw [h] at hid; cases hid
  unreturned id hid := by rw [h] at hid; cases hid

theorem not_answered_of_quiet {es : List Shown} (h : ∀ e ∈ es, e.changes = false) :
    ∀ e ∈ es, ∀ ids, e ≠ .answered ids := by
  rintro e he ids rfl
  exact absurd (h _ he) (by simp [Shown.changes])

section Step

variable {tr : List (ι × Shown)} {s s' : Shared C R} {th th' u : Thread} {a : Input}
variable {es : List Shown} {held : Int16 → Prop}

/-- A step keeps what was returned in the map, and its own thread owning what it holds. -/
theorem owns_step (hstep : MapStep core s th a s' th' es) (hC : ExclusiveAt core s held th a)
    (hI : ∀ id, Returned id tr → id ∈ s.mappings) (hL : Owns tr s th) (i : ι) :
    (∀ id, Returned id (tr ++ es.map (Prod.mk i)) → id ∈ s'.mappings) ∧
      Owns (tr ++ es.map (Prod.mk i)) s' th' := by
  cases hstep with
  | quiet hm hheld hes =>
    have hnone := not_answered_of_quiet hes
    refine ⟨fun id hret => ?_, hL.mono hheld (fun id _ h => by rw [hm]; exact h)
      fun e he ids heq => absurd heq (hnone e he ids)⟩
    rw [hm]
    exact hI id (hret.before hnone).1
  | bound hpc hm =>
    refine ⟨fun id hret => ?_, hL.mono rfl (fun id _ h => ?_) (by simp)⟩
    · rw [hm]
      exact DashMap.mem_insert.mpr (Or.inr (hI id (hret.before (by simp)).1))
    · rw [hm]
      exact DashMap.mem_insert.mpr (Or.inr h)
  | @allocated clients ids attempts id r k _ hm =>
    have hnew : id ∉ s.mappings := hC.1 id rfl
    have hkeep : ∀ j, j ∈ s.mappings → j ∈ s'.mappings := by
      intro j hj
      rw [hm]
      exact DashMap.mem_insert.mpr (Or.inr hj)
    have hheld : (Thread.request clients (loop clients (ids ++ [id]) attempts)).held =
        ids ++ [id] := held_loop clients (ids ++ [id]) attempts
    have hmem : ∀ j, j ∈ (Thread.request clients (loop clients (ids ++ [id]) attempts)).held →
        j ∈ ids ∨ j = id := by
      intro j hj
      rwa [hheld, List.mem_append, List.mem_singleton] at hj
    refine ⟨fun j hret => hkeep j (hI j (hret.before (by simp)).1), ?_, fun j hj => ?_,
      fun j hj hret => ?_⟩
    · rw [hheld, List.nodup_append]
      refine ⟨hL.nodup, List.nodup_singleton id, ?_⟩
      rintro j hj _ hid rfl
      rw [List.mem_singleton] at hid
      subst hid
      exact hnew (hL.present j hj)
    · rcases hmem j hj with hj | rfl
      · exact hkeep j (hL.present j hj)
      · rw [hm]
        exact DashMap.mem_insert.mpr (Or.inl rfl)
    · have hold := (hret.before (by simp)).1
      rcases hmem j hj with hj | rfl
      · exact hL.unreturned j hj hold
      · exact hnew (hI j hold)
  | @rolledBack clients id ids k _ hm =>
    have hnodup : (id :: ids).Nodup := hL.nodup
    refine ⟨fun j hret => ?_, (List.nodup_cons.mp hnodup).2, fun j hj => ?_, fun j hj hret => ?_⟩
    · have hold := (hret.before (by simp)).1
      rw [hm]
      refine DashMap.mem_remove.mpr ⟨?_, hI j hold⟩
      rintro rfl
      exact hL.unreturned j List.mem_cons_self hold
    · rw [hm]
      refine DashMap.mem_remove.mpr ⟨?_, hL.present j (List.mem_cons_of_mem id hj)⟩
      rintro rfl
      exact (List.nodup_cons.mp hnodup).1 hj
    · exact hL.unreturned j (List.mem_cons_of_mem id hj) (hret.before (by simp)).1
  | @answered clients ids len k _ hm =>
    refine ⟨fun j hret => ?_, owns_nothing rfl⟩
    rw [hm]
    rcases (returned_append j tr _).mp hret with hnew | hold
    · obtain ⟨ids', heq, hj⟩ := (since_singleton _).mp hnew
      cases heq
      exact hL.present j hj
    · exact hI j hold.1
  | @expired key r _ hget hto hm =>
    refine ⟨fun j hret => ?_, owns_nothing rfl⟩
    obtain ⟨hold, hne⟩ := hret.before (by simp)
    rw [hm]
    refine DashMap.mem_remove.mpr ⟨?_, hI j hold⟩
    rintro rfl
    exact hne (List.mem_singleton.mpr rfl)

/-- A step leaves what any other thread holds its own. -/
theorem owns_other (hstep : MapStep core s th a s' th' es) (hC : ExclusiveAt core s held th a)
    (hu : Owns tr s u) (hapart : ∀ id ∈ th.held, id ∉ u.held) (hheld : ∀ id ∈ u.held, held id)
    (i : ι) : Owns (tr ++ es.map (Prod.mk i)) s' u := by
  cases hstep with
  | quiet hm _ hes =>
    exact hu.mono rfl (fun id _ h => by rw [hm]; exact h)
      fun e he ids heq => absurd heq (not_answered_of_quiet hes e he ids)
  | bound _ hm =>
    refine hu.mono rfl (fun id _ h => ?_) (by simp)
    rw [hm]
    exact DashMap.mem_insert.mpr (Or.inr h)
  | allocated hm =>
    refine hu.mono rfl (fun id _ h => ?_) (by simp)
    rw [hm]
    exact DashMap.mem_insert.mpr (Or.inr h)
  | rolledBack hm =>
    refine hu.mono rfl (fun id hid h => ?_) (by simp)
    rw [hm]
    refine DashMap.mem_remove.mpr ⟨?_, h⟩
    rintro rfl
    exact hapart id List.mem_cons_self hid
  | @answered clients ids len k _ hm =>
    refine hu.mono rfl (fun id _ h => by rw [hm]; exact h) ?_
    rintro e he ids' rfl id hid hin
    cases List.mem_singleton.mp he
    exact hapart id hin hid
  | @expired key r _ hget hto hm =>
    refine hu.mono rfl (fun id hid h => ?_) (by simp)
    rw [hm]
    refine DashMap.mem_remove.mpr ⟨?_, h⟩
    rintro rfl
    exact hC.2 id rfl (by rw [hget, Option.any_some]; exact hto) (hheld id hid)

/-- A step takes no id that another thread holds. -/
theorem held_step (hstep : MapStep core s th a s' th' es) (hC : ExclusiveAt core s held th a)
    (hu : Owns tr s u) (hapart : ∀ id ∈ th.held, id ∉ u.held) : ∀ id ∈ th'.held, id ∉ u.held := by
  intro id hid
  cases hstep with
  | quiet _ hheld _ =>
    rw [hheld] at hid
    exact hapart id hid
  | bound _ _ => cases hid
  | @allocated clients ids attempts id' r k _ _ =>
    have hheld : (Thread.request clients (loop clients (ids ++ [id']) attempts)).held =
        ids ++ [id'] := held_loop clients (ids ++ [id']) attempts
    rw [hheld, List.mem_append, List.mem_singleton] at hid
    rcases hid with hid | rfl
    · exact hapart id hid
    · intro hu'
      exact hC.1 id rfl (hu.present id hu')
  | rolledBack _ => exact hapart id (List.mem_cons_of_mem _ hid)
  | answered _ => cases hid
  | expired _ _ _ => cases hid

end Step

variable (core rater) in
/-- **The invariant of an exclusive run**: what was returned is in the map, requests
hold ids of their own, and no two of them the same. -/
theorem exclusive_invariant (ι : Type) [DecidableEq ι] :
    (threads core rater).Invariant (Exclusive (ι := ι) core)
    (fun tr s => ∀ id, Returned id tr → id ∈ s.mappings)
    (fun tr s _ th => Owns tr s th)
    (fun t u => ∀ id ∈ t.held, id ∉ u.held) where
  exec _ p i a hC hI hL := owns_step (exec_mapStep core rater p.shared _ a) hC hI hL i
  interfere _ p i a j hC _ _ _ hj hD :=
    owns_other (exec_mapStep core rater p.shared _ a) hC hj hD (fun _ hid => ⟨j, hid⟩) i
  apart _ p _ a _ hC _ _ _ hj hD := held_step (exec_mapStep core rater p.shared _ a) hC hj hD
  symm _ _ h := fun id hid hid' => h id hid' hid
  tick _ _ _ h := h
  tick_local _ _ _ _ _ _ h := ⟨h.nodup, h.present, h.unreturned⟩

/-! ## Requests that are let alone -/

variable (core rater) in
/-- A request that has found an id free and has yet to insert it, which the insert of that
id by another thread disturbs. -/
def picking : Watch (Shared C R) Thread Input :=
  .relying (threads core rater) Thread.picks (fun s id => id ∉ s.mappings)
    fun th a => (th.inserts a).isSome

variable (core) in
/-- No cleanup removes an id that a request holds. -/
def SparesHeld (p : Pool ι (Shared C R) Thread) : Action ι Input → Prop
  | .work i a => ∀ key ∈ (p.thread i).visits a,
      (p.shared.mappings.get key).any (fun r => core.isTimedOut (p.shared.heap.cell r)
        p.shared.clock) = true → ¬ ∃ j, key ∈ (p.thread j).held
  | .tick _ => True

theorem picks_of_inserts {th : Thread} {a : Input} {id : Int16} (h : id ∈ th.inserts a) :
    id ∈ th.picks := by
  cases th with
  | request clients pc =>
    cases pc with
    | insert ids attempts clientId client =>
      cases a with
      | draw k => exact h
      | _ => cases h
    | _ => cases a <;> cases h
  | _ => cases a <;> cases h

theorem picking_keeps : (picking core rater).Keeps (ι := ι) (threads core rater) (fun _ => True)
    (fun s th => ∀ id ∈ th.picks, id ∉ s.mappings) := by
  refine Watch.relying_keeps (fun s th a id hid => ?_) fun _ _ _ h => h
  obtain ⟨hm, hbefore | hfree⟩ := exec_picks core rater hid
  · exact Or.inl ⟨hbefore, fun h => hm ▸ h⟩
  · exact Or.inr (hm ▸ hfree)

theorem exclusive_of_calm [DecidableEq ι] {p : Pool ι (Shared C R) Thread}
    (hidle : ∀ i, p.thread i = .idle) {as : List (Action ι Input)}
    (hcalm : ((picking core rater).machine (threads core rater)).Along (picking core rater).Calm
      p.watched as)
    (hspares : (threads core rater).machine.Along (SparesHeld core) p as) :
    (threads core rater).machine.Along (Exclusive core) p as := by
  have hfree := picking_keeps.along (C := System.OnWork fun s th a => ∀ id ∈ th.inserts a,
      id ∉ s.mappings)
    (fun p i a _ hknown id hid => hknown (Option.isSome_of_mem hid) id (picks_of_inserts hid))
    (fun _ _ => trivial)
    (fun th a h => by
      obtain ⟨id, hid⟩ := Option.isSome_iff_exists.mp h
      exact Option.isSome_of_mem (picks_of_inserts hid))
    (fun _ _ _ _ => trivial) trivial
    (fun i => by rw [hidle i]; rfl) hcalm
  refine (threads core rater).machine.along_mono ?_
    (((threads core rater).machine.along_and p as).mpr ⟨hfree, hspares⟩)
  rintro q (⟨i, a⟩ | d) ⟨hinsert, hvisit⟩
  · exact ⟨hinsert, hvisit⟩
  · trivial

/-- Calls one at a time are exclusive. -/
theorem exclusive_of_one_call [DecidableEq ι] {p : Pool ι (Shared C R) Thread}
    (hidle : ∀ i, p.thread i = .idle) {as : List (Action ι Input)}
    (hone : (threads core rater).machine.Along (Watch.OneAtATime fun th => !th.inProgress) p as) :
    (threads core rater).machine.Along (Exclusive core) p as := by
  refine exclusive_of_calm hidle (Watch.calm_of_oneAtATime (fun th hrest => ?_) hone)
    ((threads core rater).machine.along_mono ?_ hone)
  · cases th with
    | idle => rfl
    | status => rfl
    | _ => cases hrest
  · rintro q (⟨i, a⟩ | d) hrest
    · rintro key hkey _ ⟨j, hj⟩
      by_cases hji : j = i
      · -- a thread that visits an entry is a cleanup, and holds nothing
        subst hji
        generalize q.thread j = th at hkey hj
        cases th with
        | request clients pc => cases a <;> cases hkey
        | _ => cases hj
      · have hother := hrest j hji
        generalize q.thread j = th at hother hj
        cases th with
        | request clients pc => cases hother
        | _ => cases hj
    · trivial

/-! ## Runs -/

/-- A request answers with the ids it holds, and takes back an id it holds. -/
theorem held_of_shown {s s' : Shared C R} {th th' : Thread} {a : Input} {es : List Shown}
    (hstep : MapStep core s th a s' th' es) {e : Shown} (he : e ∈ es) :
    (∀ ids, e = .answered ids → ids = th.held) ∧ (∀ id, e = .rolledBack id → id ∈ th.held) := by
  cases hstep with
  | quiet _ _ hes =>
    constructor
    · rintro ids rfl
      exact absurd (hes _ he) (by simp [Shown.changes])
    · rintro id rfl
      exact absurd (hes _ he) (by simp [Shown.changes])
  | rolledBack _ =>
    cases List.mem_singleton.mp he
    refine ⟨fun ids h => (by cases h), fun id h => ?_⟩
    cases h
    exact List.mem_cons_self
  | answered _ =>
    cases List.mem_singleton.mp he
    refine ⟨fun ids h => ?_, fun id h => by cases h⟩
    cases h
    rfl
  | _ =>
    cases List.mem_singleton.mp he
    exact ⟨fun ids h => (by cases h), fun id h => (by cases h)⟩

variable (core rater) in
/-- **Slots are owned exclusively**, in every exclusive run: an id that was returned is
in the map until a cleanup removes it as timed out, and until then no request returns
it again and no roll-back removes it. -/
theorem slot_ownership [DecidableEq ι] {p : Pool ι (Shared C R) Thread} (hstart : Started p)
    {as : List (Action ι Input)}
    (hC : (threads core rater).machine.Along (Exclusive core) p as) :
    let M := (threads core rater).machine
    (∀ id, Returned id (M.trace p as) → id ∈ (M.run p as).shared.mappings) ∧
    (∀ a, ∀ e ∈ M.emit (M.run p as) a, ∀ id, Answers id e ∨ e.2 = .rolledBack id →
      ¬ Returned id (M.trace p as)) := by
  intro M
  have hinv := (exclusive_invariant core rater ι).run (p := p)
    ⟨fun id h => absurd h since_nil, fun i => by rw [hstart.idle i]; exact owns_nothing rfl,
      fun i j _ id hid => by rw [hstart.idle i] at hid; cases hid⟩ hC
  refine ⟨hinv.shared, ?_⟩
  rintro (⟨i, a⟩ | d) e he id hshown
  · obtain ⟨x, hx, rfl⟩ := List.mem_map.mp he
    have hheld := held_of_shown (exec_mapStep core rater _ _ a) hx
    have hid : id ∈ ((M.run p as).thread i).held := by
      rcases hshown with ⟨ids, heq, hin⟩ | heq
      · rw [← hheld.1 ids heq]
        exact hin
      · exact hheld.2 id heq
    exact (hinv.thread i).unreturned id hid
  · cases he

/-- Two requests allocate at the same time, and the second draws the 7 of the first too. -/
def twoRequests : List (Action Bool Input) :=
  [requestTwo false, requestTwo true] ++ drawing false [0, 0, 7] ++ drawing true [0, 0, 9] ++
    drawing false [0, 0] ++ drawing true [0, 0, 7, 8] ++ drawing false [10] ++
    drawing true [0, 0, 0, 0] ++ drawing false [0, 0, 0, 0]

/-- Both answer, and the last answer is in the map. -/
theorem slot_ownership_two_requests :
    (threads (RelayCore.reference timeoutSeconds) Rater.granting).machine.trace
        (referencePool Bool 200 1000) twoRequests =
      [(false, .allocated 7), (true, .allocated 9), (true, .allocated 8),
        (true, .answered [9, 8]), (false, .allocated 10), (false, .answered [7, 10])] ∧
    7 ∈ ((threads (RelayCore.reference timeoutSeconds) Rater.granting).machine.run
      (referencePool Bool 200 1000) twoRequests).shared.mappings := by
  have hlast : (threads (RelayCore.reference timeoutSeconds) Rater.granting).machine.trace
      (referencePool Bool 200 1000) twoRequests =
        [(false, .allocated 7), (true, .allocated 9), (true, .allocated 8),
          (true, .answered [9, 8]), (false, .allocated 10)] ++ [(false, .answered [7, 10])] := by
    decide +kernel
  have hC : (threads (RelayCore.reference timeoutSeconds) Rater.granting).machine.Along
      (Exclusive (RelayCore.reference timeoutSeconds)) (referencePool Bool 200 1000)
      twoRequests := by
    decide +kernel
  refine ⟨hlast, (slot_ownership (RelayCore.reference timeoutSeconds) Rater.granting
    (referencePool_started Bool 200 1000) hC).1 7 ?_⟩
  exact ⟨_, _, [], hlast, ⟨[7, 10], rfl, by decide⟩, by simp⟩

/-- Two requests draw 7 at the same time: both find it free, both insert it, and both
answer with it. -/
theorem slot_answered_twice :
    let M := (threads (RelayCore.reference timeoutSeconds) Rater.granting).machine
    let p := referencePool Bool 200 1000
    let as := [requestTwo false, requestTwo true] ++ drawing false [0, 0, 7] ++
      drawing true [0, 0, 7] ++ drawing false [0, 0, 8, 0, 0, 0, 0] ++
      drawing true [0, 0, 9, 0, 0, 0, 0]
    (false, .answered [7, 8]) ∈ M.trace p as ∧ (true, .answered [7, 9]) ∈ M.trace p as ∧
      ∀ e ∈ M.trace p as, e.2 ≠ .expired 7 := by
  decide +kernel

end CncnetServer.TunnelV2
