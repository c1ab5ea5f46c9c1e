import CncnetServer.Lib.Threads
import Mathlib.Tactic.Common

/-!
`shutdown.rs`: any number of tasks that call `shutdown` and `recv` of one coordinator, in any
order of their accesses.

* `shutdown_reaches_all`: one call sends, and when no call is under way any more, every
  receiver returns, whenever it has subscribed.
-/

namespace CncnetServer

open Threads Runs

/-- `ShutdownCoordinator`: the flag, and the value of the watch channel. -/
structure Coordinator where
  isShuttingDown : Bool
  value : Bool
  deriving DecidableEq

namespace Coordinator

def new : Coordinator := ⟨false, false⟩

/-- `is_shutting_down.swap(true)`. -/
def swap (c : Coordinator) : Bool × Coordinator :=
  (c.isShuttingDown, { c with isShuttingDown := true })

/-- `sender.send_replace(true)`. -/
def sendReplace (c : Coordinator) : Coordinator := { c with value := true }

/-! ## Tasks -/

/-- Where a task is: outside, in `shutdown` behind the `swap`, or in `recv`. -/
inductive Thread
  | idle | replacing | receiving
  deriving DecidableEq

/-- What a task does next. A task that is in a call has only to go on. -/
inductive Input
  | shutdown | recv | go

inductive Shown
  /-- A call of `shutdown` has begun. -/
  | called
  /-- `send_replace`. -/
  | sent
  /-- `recv` has returned. -/
  | woken
  deriving DecidableEq

def exec (c : Coordinator) : Thread → Input → Coordinator × Thread
  | .idle, .shutdown => (c.swap.2, if c.swap.1 then .idle else .replacing)
  | .idle, .recv => (c, .receiving)
  | .replacing, .go => (c.sendReplace, .idle)
  | .receiving, .go => (c, if c.value then .idle else .receiving)
  | th, _ => (c, th)

def emit (c : Coordinator) : Thread → Input → List Shown
  | .idle, .shutdown => [.called]
  | .replacing, .go => [.sent]
  | .receiving, .go => if c.value then [.woken] else []
  | _, _ => []

def system : System Coordinator Thread Input Shown := ⟨exec, emit, fun c _ => c⟩

variable {ι : Type}

/-- A new coordinator, and nobody in a call. -/
def start (ι : Type) : Pool ι Coordinator Thread := ⟨new, fun _ => .idle⟩

/-- The flag is up from the first call on, the value is sent once, and in between there is one
task that is about to send it. -/
structure Firing (tr : List (ι × Shown)) (p : Pool ι Coordinator Thread) : Prop where
  called : (∃ i, (i, .called) ∈ tr) ↔ p.shared.isShuttingDown = true
  sent : (tr.map Prod.snd).count .sent = p.shared.value.toNat
  woken : ∀ i, (i, .woken) ∈ tr → p.shared.value = true
  replacing : ∀ i, p.thread i = .replacing →
    p.shared = ⟨true, false⟩ ∧ ∀ j, p.thread j = .replacing → j = i
  pending : p.shared = ⟨true, false⟩ → ∃ i, p.thread i = .replacing
  flagged : p.shared.value = true → p.shared.isShuttingDown = true

theorem firing_start : Firing [] (start ι) where
  called := by simp [start, new]
  sent := rfl
  woken := by simp
  replacing i h := nomatch h
  pending h := nomatch h
  flagged h := nomatch h

/-- A step that neither raises the flag nor sends. -/
theorem Firing.quiet {tr : List (ι × Shown)} {p p' : Pool ι Coordinator Thread} (h : Firing tr p)
    (i : ι) {shown : List Shown} (hshared : p'.shared = p.shared)
    (hthread : ∀ j, p'.thread j = .replacing ↔ p.thread j = .replacing)
    (hcalled : .called ∈ shown → p.shared.isShuttingDown = true) (hsent : .sent ∉ shown)
    (hwoken : .woken ∈ shown → p.shared.value = true) :
    Firing (tr ++ shown.map (Prod.mk i)) p' where
  called := by
    rw [hshared, ← h.called]
    constructor
    · rintro ⟨j, hj⟩
      rcases List.mem_append.mp hj with hj | hj
      · exact ⟨j, hj⟩
      · obtain ⟨e, he, heq⟩ := List.mem_map.mp hj
        cases heq
        exact h.called.mpr (hcalled he)
    · rintro ⟨j, hj⟩
      exact ⟨j, List.mem_append_left _ hj⟩
  sent := by
    have hnone : (shown.map (Prod.mk i)).map Prod.snd = shown := by simp
    rw [hshared, ← h.sent, List.map_append, hnone, List.count_append,
      List.count_eq_zero_of_not_mem hsent, Nat.add_zero]
  woken j hj := by
    rw [hshared]
    rcases List.mem_append.mp hj with hj | hj
    · exact h.woken j hj
    · obtain ⟨e, he, heq⟩ := List.mem_map.mp hj
      cases heq
      exact hwoken he
  replacing j hj := by
    rw [hshared]
    obtain ⟨heq, honly⟩ := h.replacing j ((hthread j).mp hj)
    exact ⟨heq, fun k hk => honly k ((hthread k).mp hk)⟩
  pending heq := by
    obtain ⟨j, hj⟩ := h.pending (hshared ▸ heq)
    exact ⟨j, (hthread j).mpr hj⟩
  flagged hvalue := by
    rw [hshared] at hvalue ⊢
    exact h.flagged hvalue

variable [DecidableEq ι]

/-- The first call raises the flag, and its task is the one about to send. -/
theorem Firing.first {tr : List (ι × Shown)} {p : Pool ι Coordinator Thread} (h : Firing tr p)
    (i : ι) (hflag : p.shared.isShuttingDown = false) :
    Firing (tr ++ [(i, .called)])
      ⟨p.shared.swap.2, Function.update p.thread i .replacing⟩ := by
  have hvalue : p.shared.value = false := by
    cases hv : p.shared.value with
    | false => rfl
    | true => rw [h.flagged hv] at hflag; cases hflag
  have hnobody : ∀ j, p.thread j ≠ .replacing := by
    intro j hj
    rw [(h.replacing j hj).1] at hflag
    cases hflag
  have hshared : p.shared.swap.2 = ⟨true, false⟩ := by rw [swap, hvalue]
  refine ⟨?_, ?_, ?_, ?_, ?_, ?_⟩
  · rw [hshared]
    exact ⟨fun _ => rfl, fun _ => ⟨i, List.mem_append_right _ List.mem_cons_self⟩⟩
  · rw [hshared, List.map_append, List.count_append, h.sent, hvalue]
    rfl
  · intro j hj
    rcases List.mem_append.mp hj with hj | hj
    · rw [h.woken j hj] at hvalue
      cases hvalue
    · simp at hj
  · intro j hj
    have honly : ∀ k, Function.update p.thread i .replacing k = .replacing → k = i := by
      intro k hk
      by_contra hne
      rw [Function.update_of_ne hne] at hk
      exact hnobody k hk
    refine ⟨hshared, fun k hk => ?_⟩
    rw [honly k hk, honly j hj]
  · intro _
    exact ⟨i, Function.update_self ..⟩
  · rw [hshared]
    exact fun hv => nomatch hv

/-- The task that has raised the flag sends the value. -/
theorem Firing.send {tr : List (ι × Shown)} {p : Pool ι Coordinator Thread} (h : Firing tr p)
    {i : ι} (hi : p.thread i = .replacing) :
    Firing (tr ++ [(i, .sent)]) ⟨p.shared.sendReplace, Function.update p.thread i .idle⟩ := by
  obtain ⟨heq, honly⟩ := h.replacing i hi
  have hshared : p.shared.sendReplace = ⟨true, true⟩ := by rw [heq]; rfl
  refine ⟨?_, ?_, ?_, ?_, ?_, ?_⟩
  · rw [hshared]
    obtain ⟨j, hj⟩ := h.called.mpr (by rw [heq])
    exact ⟨fun _ => rfl, fun _ => ⟨j, List.mem_append_left _ hj⟩⟩
  · rw [hshared, List.map_append, List.count_append, h.sent, heq]
    rfl
  · rw [hshared]
    exact fun _ _ => rfl
  · intro j hj
    have hne : j ≠ i := by
      rintro rfl
      simp at hj
    exact absurd (honly j (by simpa [Function.update_of_ne hne] using hj)) hne
  · rw [hshared]
    exact fun hc => nomatch hc
  · rw [hshared]
    exact fun _ => rfl

theorem firing_step {tr : List (ι × Shown)} {p : Pool ι Coordinator Thread} (h : Firing tr p)
    (a : Action ι Input) :
    Firing (tr ++ system.machine.emit p a) (system.machine.step p a) := by
  cases a with
  | tick d =>
    rw [System.emit_tick, List.append_nil]
    exact h
  | work i a =>
    have hframe : ∀ {th : Thread}, (th = .replacing ↔ p.thread i = .replacing) → ∀ j,
        Function.update p.thread i th j = .replacing ↔ p.thread j = .replacing := by
      intro th hth j
      by_cases hj : j = i
      · subst hj
        rw [Function.update_self, hth]
      · rw [Function.update_of_ne hj]
    rw [System.step_work, System.emit_work]
    simp only [system]
    cases hth : p.thread i with
    | idle =>
      cases a with
      | shutdown =>
        cases hflag : p.shared.isShuttingDown with
        | false =>
          simp only [exec, emit, swap, hflag, Bool.false_eq_true, if_false]
          exact h.first i hflag
        | true =>
          refine h.quiet i ?_ (hframe ?_) (fun _ => hflag) (by simp [emit]) (by simp [emit])
          · simp [exec, swap, ← hflag]
          · simp [exec, swap, hflag, hth]
      | recv =>
        refine h.quiet i rfl (hframe ?_) (by simp [emit]) (by simp [emit]) (by simp [emit])
        simp [exec, hth]
      | go =>
        refine h.quiet i rfl (hframe ?_) (by simp [emit]) (by simp [emit]) (by simp [emit])
        simp [exec, hth]
    | replacing =>
      cases a with
      | go => exact h.send hth
      | shutdown =>
        refine h.quiet i rfl (hframe ?_) (by simp [emit]) (by simp [emit]) (by simp [emit])
        simp [exec, hth]
      | recv =>
        refine h.quiet i rfl (hframe ?_) (by simp [emit]) (by simp [emit]) (by simp [emit])
        simp [exec, hth]
    | receiving =>
      cases a with
      | go =>
        refine h.quiet i rfl (hframe ?_) ?_ ?_ ?_
        · simp only [exec, hth]
          split <;> simp
        · simp only [emit]
          split <;> simp
        · simp only [emit]
          split <;> simp
        · simp only [emit]
          split <;> simp [*]
      | shutdown =>
        refine h.quiet i rfl (hframe ?_) (by simp [emit]) (by simp [emit]) (by simp [emit])
        simp [exec, hth]
      | recv =>
        refine h.quiet i rfl (hframe ?_) (by simp [emit]) (by simp [emit]) (by simp [emit])
        simp [exec, hth]

theorem value_run {p : Pool ι Coordinator Thread} (h : p.shared.value = true)
    (as : List (Action ι Input)) : (system.machine.run p as).shared.value = true := by
  refine system.machine.invariant (P := fun p => p.shared.value = true) h ?_ as
  intro q a hq
  cases a with
  | tick d => exact hq
  | work i a =>
    rw [System.step_work]
    simp only [system]
    cases q.thread i <;> cases a <;> first | exact hq | rfl

/-- **Shutdown.** In any interleaving of any number of tasks: the value is sent at most once;
nobody returns from `recv` before it is; and once a call has begun and none is between its
two accesses, every `recv` returns when its task goes on, now or later, whenever it began. -/
theorem shutdown_reaches_all (as : List (Action ι Input)) :
    let tr := system.machine.trace (start ι) as
    let p := system.machine.run (start ι) as
    (tr.map Prod.snd).count .sent ≤ 1 ∧
    (∀ i, (i, .woken) ∈ tr → .sent ∈ tr.map Prod.snd) ∧
    ((∃ i, (i, .called) ∈ tr) → (∀ j, p.thread j ≠ .replacing) → ∀ as' i,
      let p' := system.machine.run p as'
      p'.thread i = .receiving →
        system.machine.emit p' (.work i .go) = [(i, .woken)] ∧
        (system.machine.step p' (.work i .go)).thread i = .idle) := by
  intro tr p
  have h : Firing tr p := system.machine.trace_invariant (P := Firing) firing_start
    (fun _ _ a h => firing_step h a) as
  refine ⟨?_, ?_, ?_⟩
  · rw [h.sent]
    exact Bool.toNat_le _
  · intro i hi
    have hcount := h.sent
    rw [h.woken i hi] at hcount
    exact List.count_pos_iff.mp (hcount ▸ Nat.one_pos)
  · intro hcalled hnone as' i p' hi
    have hvalue : p.shared.value = true := by
      by_contra hv
      rw [Bool.not_eq_true] at hv
      have hflag := h.called.mp hcalled
      have hshared : p.shared = ⟨true, false⟩ := by
        cases hp : p.shared
        rw [hp] at hflag hv
        cases hflag
        cases hv
        rfl
      obtain ⟨j, hj⟩ := h.pending hshared
      exact hnone j hj
    have hlater : p'.shared.value = true := value_run hvalue as'
    constructor
    · simp [System.emit_work, system, hi, emit, hlater]
    · simp [System.step_work, system, hi, exec, hlater]

/-- Of two calls the second returns before the first has sent; then a receiver is not woken,
and after the first has gone on it is. -/
theorem shutdown_reaches_all_two_calls :
    let calls : List (Action (Fin 3) Input) :=
      [.work 0 .shutdown, .work 1 .shutdown, .work 2 .recv, .work 2 .go]
    let p := system.machine.run (start (Fin 3)) calls
    p.thread 1 = .idle ∧ p.thread 2 = .receiving ∧
      let p' := system.machine.run (start (Fin 3)) (calls ++ [.work 0 .go])
      (system.machine.step p' (.work 2 .go)).thread 2 = .idle := by
  intro calls p
  refine ⟨by decide, by decide, ?_⟩
  exact ((shutdown_reaches_all (calls ++ [.work 0 .go])).2.2 ⟨0, by decide⟩ (by decide) [] 2
    (by decide)).2

end Coordinator

end CncnetServer
