import CncnetServer.Shutdown

/-!
`async_main` from the moment its tasks are spawned: the signal, the shutdown, the 30 seconds in
which the services are awaited, and the end of the health server. The tasks go on in any order
and at any time.

* `Phase`: what holds while `async_main` is where it is;
* `reached_run`: what holds after any run;
* `due_run`, `told_run`, `returned_run`: what brings `async_main` to its end;
* `async_main_returns`: what it says of the services, and when it returns.
-/

namespace CncnetServer

open Threads Runs

namespace Lifecycle

/-- What `async_main` spawns: the health server, and the tasks in `service_handles`. -/
inductive Spawned
  | health | p2p8054 | p2p3478 | tunnelV3 | tunnelV2
  deriving DecidableEq, Repr

/-- `service_handles`, in the order of the pushes. -/
def serviceHandles (noP2p : Bool) : List Spawned :=
  (if noP2p then [] else [.p2p8054, .p2p3478]) ++ [.tunnelV3, .tunnelV2]

/-- The timeout of the last phase, in milliseconds. -/
def drainTimeout : Nat := 30000

/-- What the tasks share. -/
structure Program where
  coordinator : Coordinator
  clock : Nat
  /-- The tasks that are over, or have been aborted. -/
  ended : Spawned → Bool

/-- Where `async_main` is. -/
inductive MainPc
  | shutdownHandler
  /-- In `shutdown`, before and behind the `swap`. -/
  | swap
  | sendReplace
  | timeout
  /-- In the loop over the handles that are left, under the timeout. -/
  | drain (handles : List Spawned) (deadline : Nat)
  /-- Behind the timeout: whether all services have stopped. -/
  | abort (stopped : Bool)
  | returned (stopped : Bool)
  deriving DecidableEq

inductive Task
  | main | spawned (x : Spawned)
  deriving DecidableEq

/-- The local state of a task; a spawned one has none. -/
inductive Thread
  | main (pc : MainPc)
  | spawned (x : Spawned)
  deriving DecidableEq

/-- A signal, or the task goes on; a spawned one may find that its own work is over: its `start`
has returned, or it has panicked. -/
inductive Input
  | signal
  | poll (finished : Bool)
  deriving DecidableEq

inductive Shown
  | sent (time : Nat)
  /-- The timeout begins. -/
  | armed (time : Nat)
  | finished
  deriving DecidableEq

/-- `async_main` goes on, by one handle in the loop. -/
def mainStep (noP2p : Bool) (s : Program) : MainPc → Input → Program × MainPc
  | .shutdownHandler, .signal => (s, .swap)
  | .swap, .poll _ =>
    ({ s with coordinator := s.coordinator.swap.2 },
      if s.coordinator.swap.1 then .timeout else .sendReplace)
  | .sendReplace, .poll _ => ({ s with coordinator := s.coordinator.sendReplace }, .timeout)
  | .timeout, .poll _ => (s, .drain (serviceHandles noP2p) (s.clock + drainTimeout))
  | .drain [] _, .poll _ => (s, .abort true)
  | .drain (x :: handles) deadline, .poll _ =>
    -- `timeout` looks at the handle first, and at the clock when it is not over
    (s, if s.ended x then .drain handles deadline
      else if deadline ≤ s.clock then .abort false
      else .drain (x :: handles) deadline)
  | .abort stopped, .poll _ =>
    ({ s with ended := Function.update s.ended .health true }, .returned stopped)
  | pc, _ => (s, pc)

/-- The `select!` of a spawned task: its own work is over, or `recv` returns. -/
def spawnedStep (s : Program) (x : Spawned) : Input → Program
  | .poll finished =>
    if finished || s.coordinator.value then
      { s with ended := Function.update s.ended x true }
    else s
  | .signal => s

def exec (noP2p : Bool) (s : Program) : Thread → Input → Program × Thread
  | .main pc, a => ((mainStep noP2p s pc a).1, .main (mainStep noP2p s pc a).2)
  | .spawned x, a => (spawnedStep s x a, .spawned x)

def emit (s : Program) : Thread → Input → List Shown
  | .main .sendReplace, .poll _ => [.sent s.clock]
  | .main .timeout, .poll _ => [.armed s.clock]
  | .spawned x, .poll true => if s.ended x then [] else [.finished]
  | _, _ => []

def system (noP2p : Bool) : System Program Thread Input Shown :=
  ⟨exec noP2p, emit, fun s d => { s with clock := s.clock + d }⟩

/-- All tasks have been spawned. -/
def start (clock : Nat) : Pool Task Program Thread where
  shared := ⟨.new, clock, fun _ => false⟩
  thread
    | .main => .main .shutdownHandler
    | .spawned x => .spawned x

/-! ## What holds in each phase -/

section Phases

variable {noP2p : Bool}

/-- The value was sent at or before this time. -/
def SentBefore (tr : List (Task × Shown)) (time : Nat) : Prop :=
  ∃ t, (.main, .sent t) ∈ tr ∧ t ≤ time

/-- The value was sent, and the timeout began 30 seconds before the deadline. -/
def ArmedFor (tr : List (Task × Shown)) (deadline : Nat) : Prop :=
  ∃ t, (.main, .armed t) ∈ tr ∧ SentBefore tr t ∧ deadline = t + drainTimeout

/-- All services of the loop so far are over. -/
def Drained (noP2p : Bool) (s : Program) (handles : List Spawned) : Prop :=
  ∃ done, serviceHandles noP2p = done ++ handles ∧ ∀ x ∈ done, s.ended x = true

/-- How the loop has ended. -/
def Outcome (noP2p : Bool) (tr : List (Task × Shown)) (s : Program) (stopped : Bool) : Prop :=
  ∃ deadline, ArmedFor tr deadline ∧ if stopped then Drained noP2p s [] else deadline ≤ s.clock

def Phase (noP2p : Bool) (tr : List (Task × Shown)) (s : Program) : MainPc → Prop
  | .shutdownHandler | .swap => s.coordinator = .new
  | .sendReplace => s.coordinator = ⟨true, false⟩
  | .timeout => s.coordinator.value = true ∧ SentBefore tr s.clock
  | .drain handles deadline =>
    s.coordinator.value = true ∧ ArmedFor tr deadline ∧ Drained noP2p s handles
  | .abort stopped => s.coordinator.value = true ∧ Outcome noP2p tr s stopped
  | .returned stopped =>
    s.coordinator.value = true ∧ Outcome noP2p tr s stopped ∧ s.ended .health = true

/-- What other tasks do, and time. -/
structure Passes (tr tr' : List (Task × Shown)) (s s' : Program) : Prop where
  history : tr ⊆ tr'
  coordinator : s'.coordinator = s.coordinator
  clock : s.clock ≤ s'.clock
  ended : ∀ x, s.ended x = true → s'.ended x = true

theorem Passes.refl (tr tr' : List (Task × Shown)) (s : Program) : Passes tr (tr ++ tr') s s :=
  ⟨List.subset_append_left _ _, rfl, Nat.le_refl _, fun _ h => h⟩

section Kept

variable {tr tr' : List (Task × Shown)} {s s' : Program}

theorem SentBefore.passes (htr : tr ⊆ tr') {time time' : Nat} (hle : time ≤ time')
    (hs : SentBefore tr time) : SentBefore tr' time' := by
  obtain ⟨t, ht, hbefore⟩ := hs
  exact ⟨t, htr ht, hbefore.trans hle⟩

theorem ArmedFor.passes (htr : tr ⊆ tr') {deadline : Nat} (ha : ArmedFor tr deadline) :
    ArmedFor tr' deadline := by
  obtain ⟨t, ht, hsent, heq⟩ := ha
  exact ⟨t, htr ht, hsent.passes htr (Nat.le_refl _), heq⟩

theorem Drained.passes (h : Passes tr tr' s s') {handles : List Spawned}
    (hd : Drained noP2p s handles) : Drained noP2p s' handles := by
  obtain ⟨done, hsplit, hended⟩ := hd
  exact ⟨done, hsplit, fun x hx => h.ended x (hended x hx)⟩

theorem Outcome.passes (h : Passes tr tr' s s') {stopped : Bool}
    (ho : Outcome noP2p tr s stopped) : Outcome noP2p tr' s' stopped := by
  obtain ⟨deadline, harmed, hend⟩ := ho
  refine ⟨deadline, harmed.passes h.history, ?_⟩
  cases stopped with
  | true => exact Drained.passes h hend
  | false => exact Nat.le_trans hend h.clock

theorem Phase.passes (h : Passes tr tr' s s') {pc : MainPc} (hp : Phase noP2p tr s pc) :
    Phase noP2p tr' s' pc := by
  cases pc with
  | shutdownHandler => exact h.coordinator.trans hp
  | swap => exact h.coordinator.trans hp
  | sendReplace => exact h.coordinator.trans hp
  | timeout => exact ⟨h.coordinator ▸ hp.1, hp.2.passes h.history h.clock⟩
  | drain handles deadline =>
    exact ⟨h.coordinator ▸ hp.1, hp.2.1.passes h.history, hp.2.2.passes h⟩
  | abort stopped => exact ⟨h.coordinator ▸ hp.1, hp.2.passes h⟩
  | returned stopped => exact ⟨h.coordinator ▸ hp.1, hp.2.1.passes h, h.ended _ hp.2.2⟩

/-- Once the value is there, it has been sent. -/
theorem Phase.sent {pc : MainPc} (hp : Phase noP2p tr s pc) (hvalue : s.coordinator.value = true) :
    ∃ t, (.main, .sent t) ∈ tr := by
  have hnew : s.coordinator ≠ .new := by
    intro hc
    rw [hc] at hvalue
    cases hvalue
  have hsent : ∀ {deadline}, ArmedFor tr deadline → ∃ t, (.main, .sent t) ∈ tr :=
    fun ⟨_, _, ⟨t, ht, _⟩, _⟩ => ⟨t, ht⟩
  cases pc with
  | shutdownHandler => exact absurd hp hnew
  | swap => exact absurd hp hnew
  | sendReplace =>
    rw [show s.coordinator = ⟨true, false⟩ from hp] at hvalue
    cases hvalue
  | timeout => exact hp.2.imp fun _ h => h.1
  | drain handles deadline => exact hsent hp.2.1
  | abort stopped => exact hsent hp.2.choose_spec.1
  | returned stopped => exact hsent hp.2.1.choose_spec.1

end Kept

variable (noP2p) in
/-- `async_main` itself ends the health server only, with the value sent. -/
theorem mainStep_shared (s : Program) (pc : MainPc) (a : Input) :
    (s.coordinator.value = true → (mainStep noP2p s pc a).1.coordinator.value = true) ∧
      (mainStep noP2p s pc a).1.clock = s.clock ∧
      ∀ x, s.ended x = true → (mainStep noP2p s pc a).1.ended x = true := by
  unfold mainStep
  split <;> simp [Coordinator.swap, Coordinator.sendReplace]
  rename_i stopped _
  intro x hx
  simp [Function.update_apply, hx]

theorem ended_mainStep {tr : List (Task × Shown)} {s : Program} {pc : MainPc}
    (hp : Phase noP2p tr s pc) (a : Input) {x : Spawned}
    (hx : (mainStep noP2p s pc a).1.ended x = true) :
    s.ended x = true ∨ ∃ t, (.main, .sent t) ∈ tr := by
  unfold mainStep at hx
  split at hx
  case h_7 => exact Or.inr (hp.sent hp.1)
  all_goals exact Or.inl hx

/-- One handle further in the loop, or out of it. -/
theorem phase_drain {tr : List (Task × Shown)} {s : Program} {handles : List Spawned}
    {deadline : Nat} (hp : Phase noP2p tr s (.drain handles deadline)) (finished : Bool) :
    Phase noP2p tr (mainStep noP2p s (.drain handles deadline) (.poll finished)).1
      (mainStep noP2p s (.drain handles deadline) (.poll finished)).2 := by
  obtain ⟨hvalue, harmed, done, hsplit, hended⟩ := hp
  cases handles with
  | nil => exact ⟨hvalue, deadline, harmed, done, hsplit, hended⟩
  | cons x handles =>
    simp only [mainStep]
    split
    · rename_i hx
      refine ⟨hvalue, harmed, done ++ [x], by simp [hsplit], fun y hy => ?_⟩
      rcases List.mem_append.mp hy with hy | hy
      · exact hended y hy
      · rw [List.mem_singleton.mp hy]
        exact hx
    · split
      · rename_i hlate
        exact ⟨hvalue, deadline, harmed, hlate⟩
      · exact ⟨hvalue, harmed, done, hsplit, hended⟩

/-- A step of `async_main` leads from phase to phase. -/
theorem phase_mainStep {tr : List (Task × Shown)} {s : Program} {pc : MainPc}
    (hp : Phase noP2p tr s pc) (a : Input) :
    Phase noP2p (tr ++ (emit s (.main pc) a).map (Prod.mk .main)) (mainStep noP2p s pc a).1
      (mainStep noP2p s pc a).2 := by
  have hstay : Phase noP2p (tr ++ [].map (Prod.mk Task.main)) s pc := by
    rw [List.map_nil, List.append_nil]
    exact hp
  cases a with
  | signal =>
    cases pc with
    | drain handles deadline => cases handles <;> exact hstay
    | _ => exact hstay
  | poll finished =>
    cases pc with
    | shutdownHandler => exact hstay
    | swap =>
      have hnew : s.coordinator = .new := hp
      simp only [mainStep, hnew, Coordinator.swap, Coordinator.new, Bool.false_eq_true, if_false]
      rfl
    | sendReplace =>
      exact ⟨rfl, s.clock, List.mem_append_right _ List.mem_cons_self, Nat.le_refl _⟩
    | timeout =>
      refine ⟨hp.1, ⟨s.clock, List.mem_append_right _ List.mem_cons_self, ?_, rfl⟩, [], rfl,
        List.forall_mem_nil _⟩
      exact hp.2.passes (List.subset_append_left _ _) (Nat.le_refl _)
    | drain handles deadline =>
      rw [show emit s (.main (.drain handles deadline)) (.poll finished) = [] by
        cases handles <;> rfl, List.map_nil, List.append_nil]
      exact phase_drain hp finished
    | abort stopped =>
      have hpasses : Passes tr (tr ++ []) s
          (mainStep noP2p s (.abort stopped) (.poll finished)).1 :=
        ⟨List.subset_append_left _ _, rfl, Nat.le_refl _,
          (mainStep_shared noP2p s (.abort stopped) (.poll finished)).2.2⟩
      exact ⟨hp.1, hp.2.passes hpasses, by simp [mainStep]⟩
    | returned stopped => exact hstay

/-- The state that any run from the start comes to. -/
structure Reached (noP2p : Bool) (tr : List (Task × Shown)) (p : Pool Task Program Thread) :
    Prop where
  main : ∃ pc, p.thread .main = .main pc ∧ Phase noP2p tr p.shared pc
  spawned : ∀ x, p.thread (.spawned x) = .spawned x
  ended : ∀ x, p.shared.ended x = true →
    (∃ t, (.main, .sent t) ∈ tr) ∨ (.spawned x, .finished) ∈ tr

theorem reached_start (clock : Nat) : Reached noP2p [] (start clock) where
  main := ⟨_, rfl, rfl⟩
  spawned _ := rfl
  ended _ h := nomatch h

theorem ended_spawnedStep (s : Program) (x y : Spawned) (a : Input) :
    (spawnedStep s x a).ended y = true ↔ s.ended y = true ∨
      (y = x ∧ ∃ r, a = .poll r ∧ (r = true ∨ s.coordinator.value = true)) := by
  cases a with
  | signal => simp [spawnedStep]
  | poll finished =>
    simp only [spawnedStep]
    split
    · rename_i hends
      show Function.update s.ended x true y = true ↔ _
      by_cases hyx : y = x
      · subst hyx
        simpa using Or.inr hends
      · simp [hyx]
    · rename_i hwaits
      simp only [Bool.or_eq_true, not_or] at hwaits
      simp [hwaits]

theorem passes_spawnedStep (tr tr' : List (Task × Shown)) (s : Program) (x : Spawned) (a : Input) :
    Passes tr (tr ++ tr') s (spawnedStep s x a) where
  history := List.subset_append_left _ _
  coordinator := by
    unfold spawnedStep
    split
    · split <;> rfl
    · rfl
  clock := by
    unfold spawnedStep
    split
    · split <;> exact Nat.le_refl _
    · exact Nat.le_refl _
  ended y hy := (ended_spawnedStep s x y a).mpr (Or.inl hy)

section Steps

variable {p : Pool Task Program Thread}

theorem main_step {pc : MainPc} (hmain : p.thread .main = .main pc) (a : Input) :
    (system noP2p).machine.step p (.work .main a) =
      ⟨(mainStep noP2p p.shared pc a).1,
        Function.update p.thread .main (.main (mainStep noP2p p.shared pc a).2)⟩ := by
  rw [System.step_work]
  simp only [system, hmain, exec]

theorem main_step_thread {pc : MainPc} (hmain : p.thread .main = .main pc) (a : Input) :
    ((system noP2p).machine.step p (.work .main a)).thread .main =
      .main (mainStep noP2p p.shared pc a).2 := by
  rw [main_step hmain]
  exact Function.update_self Task.main _ p.thread

theorem spawned_step (hspawned : ∀ x, p.thread (.spawned x) = .spawned x) (x : Spawned)
    (a : Input) :
    (system noP2p).machine.step p (.work (.spawned x) a) =
      ⟨spawnedStep p.shared x a, p.thread⟩ := by
  have hsame : Function.update p.thread (.spawned x) (.spawned x) = p.thread := by
    rw [Function.update_eq_self_iff, hspawned]
  rw [System.step_work]
  simp only [system, hspawned, exec, hsame]

variable (noP2p) in
/-- Whatever another task does, and time, leaves `async_main` where it is. -/
theorem passes_step (tr : List (Task × Shown))
    (hspawned : ∀ x, p.thread (.spawned x) = .spawned x)
    {a : Action Task Input} (hother : ∀ input, a ≠ .work .main input) :
    ((system noP2p).machine.step p a).thread = p.thread ∧
      Passes tr (tr ++ (system noP2p).machine.emit p a) p.shared
        ((system noP2p).machine.step p a).shared := by
  cases a with
  | tick d =>
    exact ⟨rfl, { Passes.refl tr _ p.shared with clock := Nat.le_add_right _ _ }⟩
  | work i a =>
    cases i with
    | main => exact absurd rfl (hother a)
    | spawned x =>
      rw [spawned_step hspawned]
      exact ⟨rfl, passes_spawnedStep _ _ _ _ _⟩

/-- A task that ends has been told to, or its own work is over. -/
theorem ends_step {tr : List (Task × Shown)} (h : Reached noP2p tr p) (a : Action Task Input)
    {x : Spawned} (hx : ((system noP2p).machine.step p a).shared.ended x = true) :
    p.shared.ended x = true ∨ (∃ t, (.main, .sent t) ∈ tr) ∨
      (.spawned x, .finished) ∈ (system noP2p).machine.emit p a := by
  obtain ⟨pc, hmain, hphase⟩ := h.main
  cases a with
  | tick d => exact Or.inl hx
  | work i a =>
    cases i with
    | main =>
      rw [main_step hmain] at hx
      exact (ended_mainStep hphase a hx).imp_right Or.inl
    | spawned y =>
      rw [spawned_step h.spawned] at hx
      by_cases hbefore : p.shared.ended x = true
      · exact Or.inl hbefore
      · rcases (ended_spawnedStep p.shared y x a).mp hx with hx | ⟨rfl, r, rfl, hr | hvalue⟩
        · exact Or.inl hx
        · subst hr
          refine Or.inr (Or.inr ?_)
          rw [System.emit_work]
          simp [system, h.spawned, emit, hbefore]
        · exact Or.inr (Or.inl (hphase.sent hvalue))

theorem reached_step {tr : List (Task × Shown)} (h : Reached noP2p tr p)
    (a : Action Task Input) :
    Reached noP2p (tr ++ (system noP2p).machine.emit p a) ((system noP2p).machine.step p a) := by
  obtain ⟨pc, hmain, hphase⟩ := h.main
  have hended : ∀ x, ((system noP2p).machine.step p a).shared.ended x = true →
      (∃ t, (.main, .sent t) ∈ tr ++ (system noP2p).machine.emit p a) ∨
        (.spawned x, .finished) ∈ tr ++ (system noP2p).machine.emit p a := by
    intro x hx
    rcases ends_step h a hx with hbefore | ⟨t, ht⟩ | hmem
    · exact (h.ended x hbefore).imp (Exists.imp fun t => List.mem_append_left _)
        (List.mem_append_left _)
    · exact Or.inl ⟨t, List.mem_append_left _ ht⟩
    · exact Or.inr (List.mem_append_right _ hmem)
  by_cases hwork : ∃ input, a = .work .main input
  · obtain ⟨input, rfl⟩ := hwork
    refine ⟨⟨_, main_step_thread hmain input, ?_⟩, fun x => ?_, hended⟩
    · rw [main_step hmain, System.emit_work]
      simp only [system, hmain]
      exact phase_mainStep hphase input
    · rw [main_step hmain]
      simpa using h.spawned x
  · obtain ⟨hthread, hpasses⟩ := passes_step noP2p tr h.spawned
      (fun input heq => hwork ⟨input, heq⟩)
    exact ⟨⟨pc, hthread ▸ hmain, hphase.passes hpasses⟩, hthread ▸ h.spawned, hended⟩

end Steps

theorem reached_run (clock : Nat) (as : List (Action Task Input)) :
    Reached noP2p ((system noP2p).machine.trace (start clock) as)
      ((system noP2p).machine.run (start clock) as) :=
  (system noP2p).machine.trace_invariant (P := Reached noP2p) (reached_start clock)
    (fun _ _ a h => reached_step h a) as

/-! ## When `async_main` returns -/

/-- In the last phase, with some of the handles still to come. -/
def Draining (handles : List Spawned) (deadline : Nat) : MainPc → Prop
  | .drain left deadline' => left <:+ handles ∧ deadline' = deadline
  | .abort _ | .returned _ => True
  | _ => False

/-- How many polls `async_main` needs if none of them has to wait. -/
def rank : MainPc → Nat
  | .drain handles _ => handles.length + 2
  | .abort _ => 1
  | _ => 0

/-- A poll of `async_main` does not have to wait: the deadline has passed, or the services that
are left are over. -/
def Due (s : Program) : MainPc → Prop
  | .drain handles deadline => deadline ≤ s.clock ∨ ∀ x ∈ handles, s.ended x = true
  | .abort _ | .returned _ => True
  | _ => False

def isMainPoll : Action Task Input → Bool
  | .work .main (.poll _) => true
  | _ => false

theorem draining_mainStep {s : Program} {handles : List Spawned} {deadline : Nat} {pc : MainPc}
    (h : Draining handles deadline pc) (a : Input) :
    Draining handles deadline (mainStep noP2p s pc a).2 := by
  cases a with
  | signal =>
    cases pc with
    | drain left d => cases left <;> exact h
    | abort stopped => exact h
    | returned stopped => exact h
    | _ => exact h.elim
  | poll finished =>
    cases pc with
    | drain left d =>
      cases left with
      | nil => trivial
      | cons x left =>
        simp only [mainStep]
        split
        · exact ⟨(List.suffix_cons x left).trans h.1, h.2⟩
        · split
          · trivial
          · exact h
    | abort stopped => trivial
    | returned stopped => trivial
    | _ => exact h.elim

variable (noP2p) in
/-- A poll that does not have to wait comes nearer to the end. -/
theorem due_mainStep {s : Program} {pc : MainPc} (h : Due s pc) (a : Input) :
    Due (mainStep noP2p s pc a).1 (mainStep noP2p s pc a).2 ∧
      rank (mainStep noP2p s pc a).2 ≤ rank pc - if a = .signal then 0 else 1 := by
  cases a with
  | signal =>
    cases pc with
    | drain left deadline => cases left <;> exact ⟨h, Nat.le_refl _⟩
    | abort stopped => exact ⟨h, Nat.le_refl _⟩
    | returned stopped => exact ⟨h, Nat.le_refl _⟩
    | _ => exact h.elim
  | poll finished =>
    cases pc with
    | drain left deadline =>
      cases left with
      | nil => exact ⟨trivial, Nat.le_refl _⟩
      | cons x left =>
        simp only [mainStep]
        split
        · refine ⟨?_, Nat.le_refl _⟩
          exact h.imp_right fun hall y hy => hall y (List.mem_cons_of_mem x hy)
        · rename_i hx
          have hlate : deadline ≤ s.clock :=
            h.resolve_right fun hall => hx (hall x List.mem_cons_self)
          rw [if_pos hlate]
          refine ⟨trivial, ?_⟩
          simp [rank]
    | abort stopped => exact ⟨trivial, Nat.le_refl _⟩
    | returned stopped => exact ⟨trivial, Nat.le_refl _⟩
    | _ => exact h.elim

theorem Due.passes {tr tr' : List (Task × Shown)} {s s' : Program} (h : Passes tr tr' s s')
    {pc : MainPc} (hdue : Due s pc) : Due s' pc := by
  cases pc with
  | drain left deadline =>
    exact hdue.imp (fun hlate => hlate.trans h.clock) fun hall x hx => h.ended x (hall x hx)
  | abort stopped => trivial
  | returned stopped => trivial
  | _ => exact hdue.elim

section Runs

variable {tr : List (Task × Shown)} {p : Pool Task Program Thread}

theorem reached_from (h : Reached noP2p tr p) (as : List (Action Task Input)) :
    ∃ tr', Reached noP2p tr' ((system noP2p).machine.run p as) :=
  (system noP2p).machine.invariant (P := fun q => ∃ tr, Reached noP2p tr q) ⟨tr, h⟩
    (fun _ a hq => ⟨_, reached_step hq.choose_spec a⟩) as

/-- What every step from a reached state keeps holds after every run. -/
theorem kept_run {P : Pool Task Program Thread → Prop} (h : Reached noP2p tr p) (hp : P p)
    (hstep : ∀ tr q a, Reached noP2p tr q → P q → P ((system noP2p).machine.step q a))
    (as : List (Action Task Input)) : P ((system noP2p).machine.run p as) :=
  ((system noP2p).machine.invariant (P := fun q => (∃ tr, Reached noP2p tr q) ∧ P q)
    ⟨⟨tr, h⟩, hp⟩ (fun q a hq => ⟨⟨_, reached_step hq.1.choose_spec a⟩,
      hstep _ q a hq.1.choose_spec hq.2⟩) as).2

/-- Every poll of `async_main` that does not have to wait counts. -/
theorem due_run (h : Reached noP2p tr p) {pc : MainPc} (hmain : p.thread .main = .main pc)
    (hdue : Due p.shared pc) (as : List (Action Task Input)) :
    ∃ pc', ((system noP2p).machine.run p as).thread .main = .main pc' ∧
      Due ((system noP2p).machine.run p as).shared pc' ∧
      rank pc' ≤ rank pc - as.countP isMainPoll := by
  induction as generalizing p tr pc with
  | nil => exact ⟨pc, hmain, hdue, Nat.le_refl _⟩
  | cons a as ih =>
    have hnext := reached_step h a
    rw [Machine.run_cons, List.countP_cons]
    by_cases hwork : ∃ input, a = .work .main input
    · obtain ⟨input, rfl⟩ := hwork
      obtain ⟨hdue', hrank⟩ := due_mainStep noP2p hdue input
      have hshared : Due ((system noP2p).machine.step p (.work .main input)).shared
          (mainStep noP2p p.shared pc input).2 := by
        rw [main_step hmain]
        exact hdue'
      obtain ⟨pc', hlast, hend, hle⟩ := ih hnext (main_step_thread hmain input) hshared
      refine ⟨pc', hlast, hend, hle.trans ?_⟩
      cases input with
      | signal =>
        simp only [isMainPoll, if_true] at hrank ⊢
        simpa using Nat.sub_le_sub_right hrank _
      | poll r =>
        simp only [isMainPoll, reduceCtorEq, if_false, if_true] at hrank ⊢
        omega
    · have hnot : isMainPoll a = false := by
        cases a with
        | tick d => rfl
        | work i input =>
          cases i with
          | main => exact absurd ⟨input, rfl⟩ hwork
          | spawned x => rfl
      obtain ⟨hthread, hpasses⟩ := passes_step noP2p tr h.spawned
        (fun input heq => hwork ⟨input, heq⟩)
      rw [hnot]
      simpa using ih hnext (hthread ▸ hmain) (hdue.passes hpasses)

/-- Once in the last phase, `async_main` stays there. -/
theorem draining_run (h : Reached noP2p tr p) {handles : List Spawned} {deadline : Nat}
    {pc : MainPc} (hmain : p.thread .main = .main pc) (hdrain : Draining handles deadline pc)
    (as : List (Action Task Input)) :
    ∃ pc', ((system noP2p).machine.run p as).thread .main = .main pc' ∧
      Draining handles deadline pc' := by
  refine kept_run (P := fun q => ∃ pc', q.thread .main = .main pc' ∧
    Draining handles deadline pc') h ⟨pc, hmain, hdrain⟩ ?_ as
  rintro tr q a hq ⟨pc', hpc, hd⟩
  by_cases hwork : ∃ input, a = .work .main input
  · obtain ⟨input, rfl⟩ := hwork
    exact ⟨_, main_step_thread hpc input, draining_mainStep hd input⟩
  · obtain ⟨hthread, _⟩ := passes_step noP2p tr hq.spawned
      (fun input heq => hwork ⟨input, heq⟩)
    exact ⟨pc', hthread ▸ hpc, hd⟩

/-- What is over stays over, and the value stays. -/
theorem shared_step (h : Reached noP2p tr p) (a : Action Task Input) :
    (∀ x, p.shared.ended x = true → ((system noP2p).machine.step p a).shared.ended x = true) ∧
      (p.shared.coordinator.value = true →
        ((system noP2p).machine.step p a).shared.coordinator.value = true) := by
  obtain ⟨pc, hmain, _⟩ := h.main
  by_cases hwork : ∃ input, a = .work .main input
  · obtain ⟨input, rfl⟩ := hwork
    obtain ⟨hvalue, _, hended⟩ := mainStep_shared noP2p p.shared pc input
    rw [main_step hmain]
    exact ⟨hended, hvalue⟩
  · obtain ⟨_, hpasses⟩ := passes_step noP2p tr h.spawned
      (fun input heq => hwork ⟨input, heq⟩)
    exact ⟨hpasses.ended, fun hv => by rw [hpasses.coordinator]; exact hv⟩

/-- After the value is sent, a task that goes on is over. -/
theorem told_run (h : Reached noP2p tr p) (hvalue : p.shared.coordinator.value = true)
    {x : Spawned} {as : List (Action Task Input)}
    (hpolled : ∃ r, .work (.spawned x) (.poll r) ∈ as) :
    ((system noP2p).machine.run p as).shared.ended x = true := by
  obtain ⟨r, hmem⟩ := hpolled
  obtain ⟨as₁, as₂, rfl⟩ := List.append_of_mem hmem
  obtain ⟨tr₁, h₁⟩ := reached_from h as₁
  have hv := kept_run (P := fun q => q.shared.coordinator.value = true) h hvalue
    (fun _ _ a hq => (shared_step hq a).2) as₁
  rw [Machine.run_append, Machine.run_cons]
  refine kept_run (P := fun q => q.shared.ended x = true) (reached_step h₁ _) ?_
    (fun _ _ a hq => (shared_step hq a).1 x) as₂
  rw [spawned_step h₁.spawned]
  exact (ended_spawnedStep _ x x (.poll r)).mpr (Or.inr ⟨rfl, r, rfl, Or.inr hv⟩)

/-- Out of the loop, when the deadline has passed or the services that were left have been
polled, and behind it. -/
theorem returned_run (h : Reached noP2p tr p) {handles : List Spawned} {deadline : Nat}
    (hmain : p.thread .main = .main (.drain handles deadline))
    (hvalue : p.shared.coordinator.value = true) {as₁ as₂ : List (Action Task Input)}
    (hready : deadline ≤ ((system noP2p).machine.run p as₁).shared.clock ∨
      ∀ x ∈ handles, ∃ r, .work (.spawned x) (.poll r) ∈ as₁)
    (hpolls : handles.length + 2 ≤ as₂.countP isMainPoll) :
    ∃ stopped, ((system noP2p).machine.run p (as₁ ++ as₂)).thread .main =
      .main (.returned stopped) := by
  obtain ⟨pc₁, hmain₁, hdrain⟩ := draining_run h hmain
    (show Draining handles deadline (.drain handles deadline) from ⟨List.suffix_rfl, rfl⟩) as₁
  obtain ⟨tr₁, h₁⟩ := reached_from h as₁
  have hdue : Due ((system noP2p).machine.run p as₁).shared pc₁ ∧
      rank pc₁ ≤ handles.length + 2 := by
    cases pc₁ with
    | drain left deadline' =>
      obtain ⟨hsuffix, rfl⟩ := hdrain
      refine ⟨hready.imp_right fun hall x hx => ?_, ?_⟩
      · exact told_run h hvalue (hall x (hsuffix.subset hx))
      · exact Nat.add_le_add_right hsuffix.length_le 2
    | abort stopped => exact ⟨trivial, by simp [rank]⟩
    | returned stopped => exact ⟨trivial, by simp [rank]⟩
    | _ => exact hdrain.elim
  obtain ⟨pc₂, hmain₂, hdue₂, hrank⟩ := due_run h₁ hmain₁ hdue.1 as₂
  rw [Machine.run_append]
  have hzero : rank pc₂ = 0 := by omega
  cases pc₂ with
  | returned stopped => exact ⟨stopped, hmain₂⟩
  | drain left deadline' => simp [rank] at hzero
  | abort stopped => simp [rank] at hzero
  | _ => exact hdue₂.elim

end Runs

end Phases

/-- **The life of the server.** In any interleaving of its tasks:

* before the value is sent, a task is over only because its own work is;
* when `async_main` has returned, the health server is over, and all services are, unless the
  value was sent 30 seconds ago or more;
* from the last phase on it returns once it has been polled often enough, after the deadline has
  passed or after every service that is left has been polled once. -/
theorem async_main_returns (noP2p : Bool) (clock : Nat) (as : List (Action Task Input)) :
    let M := (system noP2p).machine
    let p := M.run (start clock) as
    let tr := M.trace (start clock) as
    ((∀ t, (.main, .sent t) ∉ tr) →
      ∀ x, p.shared.ended x = true → (.spawned x, .finished) ∈ tr) ∧
    (∀ stopped, p.thread .main = .main (.returned stopped) → p.shared.ended .health = true ∧
      if stopped then ∀ x ∈ serviceHandles noP2p, p.shared.ended x = true
      else ∃ t, (.main, .sent t) ∈ tr ∧ t + 30000 ≤ p.shared.clock) ∧
    ∀ handles deadline, p.thread .main = .main (.drain handles deadline) →
      (∃ t, (.main, .armed t) ∈ tr ∧ deadline = t + 30000) ∧
      ∀ as₁ as₂, (deadline ≤ (M.run p as₁).shared.clock ∨
          ∀ x ∈ handles, ∃ r, .work (.spawned x) (.poll r) ∈ as₁) →
        handles.length + 2 ≤ as₂.countP isMainPoll →
        ∃ stopped, (M.run p (as₁ ++ as₂)).thread .main = .main (.returned stopped) := by
  intro M p tr
  have h : Reached noP2p tr p := reached_run clock as
  obtain ⟨pc, hmain, hphase⟩ := h.main
  refine ⟨?_, ?_, ?_⟩
  · intro hnot x hx
    exact (h.ended x hx).resolve_left fun ⟨t, ht⟩ => hnot t ht
  · intro stopped hpc
    obtain rfl : pc = .returned stopped := Thread.main.inj (hmain.symm.trans hpc)
    obtain ⟨_, ⟨deadline, ⟨_, _, ⟨t, ht, hle⟩, rfl⟩, hend⟩, hhealth⟩ := hphase
    refine ⟨hhealth, ?_⟩
    cases stopped with
    | true =>
      obtain ⟨done, hsplit, hended⟩ := hend
      rw [List.append_nil] at hsplit
      simp only [if_true]
      rw [hsplit]
      exact hended
    | false =>
      simp only [Bool.false_eq_true, if_false] at hend ⊢
      exact ⟨t, ht, (Nat.add_le_add_right hle _).trans hend⟩
  · intro handles deadline hpc
    obtain rfl : pc = .drain handles deadline := Thread.main.inj (hmain.symm.trans hpc)
    obtain ⟨hvalue, ⟨t, ht, _, hdeadline⟩, _⟩ := hphase
    exact ⟨⟨t, ht, hdeadline⟩, fun as₁ as₂ hready hpolls =>
      returned_run h hmain hvalue hready hpolls⟩

-- a service that hangs: `async_main` gives up at the deadline, and not a moment earlier
example :
    let M := (system true).machine
    let as := [.work .main .signal, .work .main (.poll false), .work .main (.poll false),
      .work .main (.poll false), .work (.spawned .tunnelV3) (.poll false), .tick 29999,
      .work .main (.poll false), .work .main (.poll false)]
    (M.run (start 0) as).thread .main = .main (.drain [.tunnelV2] 30000) ∧
      (M.run (start 0) (as ++ [.tick 1, .work .main (.poll false)])).thread .main =
        .main (.abort false) := by
  decide

end Lifecycle

end CncnetServer
