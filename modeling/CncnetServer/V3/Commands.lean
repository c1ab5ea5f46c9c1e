import CncnetServer.TunnelV3
import CncnetServer.Lib.Spacing
import CncnetServer.Lib.Watch

/-!
The V3 receive workers inside `execute_command`, one access a step: the reading of
the clock, the load and the store of `last_command_tick`, the comparison of the
password, and what an accepted command then does.

The store does not know whether the tick it overwrites is still the one that was
loaded. In a run in which no other worker stores between the load and the store of a
command (`overtaking`) the check spaces the stores, and comparisons are a minute apart
(`commands_rate_limited`); two workers that load the same tick break that
(`commands_overtaken`).
-/

namespace CncnetServer.TunnelV3.Commands

open Threads Runs Spacing

/-- What the workers share, with `boot_instant.elapsed().as_secs()`. -/
structure Shared (C A R : Type) extends TunnelV3 C A R where
  elapsedSecs : Nat

/-- Where a command is: the access it makes next, and its `elapsed_secs`. -/
inductive Pc
  | clock
  | load (elapsedSecs : Nat)
  | store (elapsedSecs : Nat)
  | compare (elapsedSecs : Nat)
  | toggle (elapsedSecs : Nat)
  | cleanup (elapsedSecs : Nat)
  deriving DecidableEq

inductive Thread
  | idle
  | command (packet : Packet) (pc : Pc)
  deriving DecidableEq

/-- What a step does not determine: the command an idle worker receives, and the clock
that `is_timed_out` reads. -/
inductive Input
  | receive (packet : Packet)
  | go (timestamp : Nat)

/-- What a step shows, with the `elapsed_secs` of its command. -/
inductive Shown
  | compared (elapsedSecs : Nat)
  | toggled (elapsedSecs : Nat)
  deriving DecidableEq

variable {C A R : Type} (core : RelayCore C A) (rater : Rater R)

/-! ## Steps -/

/-- Where a command goes after the comparison. -/
def dispatch (s : Shared C A R) (packet : Packet) (elapsedSecs : Nat) : Thread :=
  if s.maintenancePasswordSha1 = some ((packet.take 29).drop 9) then
    match packet.getD 8 0 with
    | 0 => .command packet (.toggle elapsedSecs)
    | 1 => .command packet (.cleanup elapsedSecs)
    | _ => .idle
  else .idle

/-- One step of a worker. An input that does not fit leaves everything as it is. -/
def exec (s : Shared C A R) : Thread → Input → Shared C A R × Thread
  | .idle, .receive packet => (s, .command packet .clock)
  | .command packet .clock, .go _ => (s, .command packet (.load s.elapsedSecs))
  | .command packet (.load elapsedSecs), .go _ =>
    (s, if elapsedSecs - s.lastCommandTick < commandRateLimitSecs
        ∨ s.maintenancePasswordSha1.isNone then .idle
      else .command packet (.store elapsedSecs))
  | .command packet (.store elapsedSecs), .go _ =>
    ({ s with lastCommandTick := elapsedSecs }, .command packet (.compare elapsedSecs))
  | .command packet (.compare elapsedSecs), .go _ => (s, dispatch s packet elapsedSecs)
  | .command _ (.toggle _), .go _ => ({ s with maintenanceMode := !s.maintenanceMode }, .idle)
  | .command _ (.cleanup _), .go timestamp =>
    ({ s with
        toTunnelV3 := cleanupExpiredMappings core rater s.toTunnelV3
          ⟨timestamp, s.elapsedSecs, true⟩ }, .idle)
  | thread, _ => (s, thread)

def emit : Thread → Input → List Shown
  | .command _ (.compare elapsedSecs), .go _ => [.compared elapsedSecs]
  | .command _ (.toggle elapsedSecs), .go _ => [.toggled elapsedSecs]
  | _, _ => []

/-- The receive workers. -/
def workers : System (Shared C A R) Thread Input Shown where
  exec := exec core rater
  emit _ := emit
  tick s d := { s with elapsedSecs := s.elapsedSecs + d }

/-- A worker alone executes the command as `execute_command` does. -/
theorem solo_command (s : Shared C A R) (packet : Packet) (timestamp : Nat) (sendOk : Bool) :
    (workers core rater).solo s .idle (.receive packet :: List.replicate 5 (.go timestamp)) =
      ({ s with
          toTunnelV3 := executeCommand core rater s.toTunnelV3
            ⟨timestamp, s.elapsedSecs, sendOk⟩ packet }, .idle) := by
  unfold executeCommand
  simp only [List.replicate, System.solo_cons, System.solo_nil, workers, exec]
  by_cases hlimit : s.elapsedSecs - s.lastCommandTick < commandRateLimitSecs
      ∨ s.maintenancePasswordSha1.isNone
  · simp only [hlimit, if_true]
  · simp only [hlimit, if_false, dispatch]
    by_cases hpw : s.maintenancePasswordSha1 = some ((packet.take 29).drop 9)
    · simp only [hpw, if_true]
      generalize packet.getD 8 0 = command
      by_cases h0 : command = 0
      · subst h0; rfl
      by_cases h1 : command = 1
      · subst h1; rfl
      simp
    · simp only [hpw, if_false]

/-! ## What one step does -/

/-- The tick a command has stored. -/
def Thread.stored : Thread → Option Nat
  | .command _ (.compare e) | .command _ (.toggle e) | .command _ (.cleanup e) => some e
  | _ => none

/-- The tick of the comparison a command is about to make. -/
def Thread.comparing : Thread → Option Nat
  | .command _ (.compare e) => some e
  | _ => none

/-- Everything a step can do to the tick and the mode, and what it shows then. -/
inductive CommandStep (s : Shared C A R) :
    Thread → Input → Shared C A R → Thread → List Shown → Prop
  | quiet {th a s' th'} : s'.lastCommandTick = s.lastCommandTick →
      s'.maintenanceMode = s.maintenanceMode → th' = th ∨ th'.stored = none →
      CommandStep s th a s' th' []
  | stored {packet e n} : CommandStep s (.command packet (.store e)) (.go n)
      { s with lastCommandTick := e } (.command packet (.compare e)) []
  | compared {packet e n th'} : th'.comparing = none → (∀ x ∈ th'.stored, x = e) →
      CommandStep s (.command packet (.compare e)) (.go n) s th' [.compared e]
  | toggled {packet e n} : CommandStep s (.command packet (.toggle e)) (.go n)
      { s with maintenanceMode := !s.maintenanceMode } .idle [.toggled e]

theorem exec_step (s : Shared C A R) (th : Thread) (a : Input) :
    CommandStep s th a (exec core rater s th a).1 (exec core rater s th a).2 (emit th a) := by
  have hsame : CommandStep s th a s th [] := .quiet rfl rfl (Or.inl rfl)
  cases th with
  | idle => cases a <;> first | exact hsame | exact .quiet rfl rfl (Or.inr rfl)
  | command packet pc =>
    cases a with
    | receive _ => cases pc <;> exact hsame
    | go n =>
      cases pc with
      | clock => exact .quiet rfl rfl (Or.inr rfl)
      | load e =>
        refine .quiet rfl rfl (Or.inr ?_)
        simp only [exec]
        split <;> rfl
      | store e => exact .stored
      | compare e =>
        refine .compared ?_ ?_
        · simp only [exec, dispatch]
          split
          · split <;> rfl
          · rfl
        · simp only [exec, dispatch]
          split
          · split <;> simp [Thread.stored]
          · simp [Thread.stored]
      | toggle e => exact .toggled
      | cleanup e => exact .quiet rfl rfl (Or.inr rfl)

/-! ## A minute apart -/

/-- The tick that a step stores. -/
def Thread.stores : Thread → Input → Option Nat
  | .command _ (.store e), .go _ => some e
  | _, _ => none

/-- A store overwrites a tick that is at least a minute old. -/
def Spaced (s : Shared C A R) (th : Thread) (a : Input) : Prop :=
  ∀ e ∈ th.stores a, s.lastCommandTick + commandRateLimitSecs ≤ e

def comparisons {ι : Type} (tr : List (ι × Shown)) : List Nat :=
  tr.filterMap fun e => match e.2 with
    | .compared t => some t
    | .toggled _ => none

def toggles {ι : Type} (tr : List (ι × Shown)) : List Nat :=
  tr.filterMap fun e => match e.2 with
    | .compared _ => none
    | .toggled t => some t

theorem comparisons_compared {ι : Type} (tr : List (ι × Shown)) (i : ι) (e : Nat) :
    comparisons (tr ++ [Shown.compared e].map (Prod.mk i)) = comparisons tr ++ [e] := by
  simp [comparisons]

theorem comparisons_toggled {ι : Type} (tr : List (ι × Shown)) (i : ι) (e : Nat) :
    comparisons (tr ++ [Shown.toggled e].map (Prod.mk i)) = comparisons tr := by
  simp [comparisons]

theorem toggles_compared {ι : Type} (tr : List (ι × Shown)) (i : ι) (e : Nat) :
    toggles (tr ++ [Shown.compared e].map (Prod.mk i)) = toggles tr := by
  simp [toggles]

theorem toggles_toggled {ι : Type} (tr : List (ι × Shown)) (i : ι) (e : Nat) :
    toggles (tr ++ [Shown.toggled e].map (Prod.mk i)) = toggles tr ++ [e] := by
  simp [toggles]

/-- Ticks that are a minute apart, none of them later than `tick`. -/
structure Spread (ticks : List Nat) (tick : Nat) : Prop where
  le : ∀ x ∈ ticks, x ≤ tick
  pairwise : ticks.Pairwise (Apart commandRateLimitSecs)

theorem Spread.mono {ticks : List Nat} {tick tick' : Nat} (h : Spread ticks tick)
    (hle : tick ≤ tick') : Spread ticks tick' :=
  ⟨fun x hx => Nat.le_trans (h.le x hx) hle, h.pairwise⟩

/-- A tick a minute later than all of them is apart from all of them. -/
theorem Spread.apart {ticks : List Nat} {tick e : Nat} (h : Spread ticks tick)
    (he : tick + commandRateLimitSecs ≤ e) : ∀ x ∈ ticks, Apart commandRateLimitSecs e x :=
  fun x hx => apart_of_le (h.le x hx) he

theorem Spread.snoc {ticks : List Nat} {tick e : Nat} (h : Spread ticks tick) (he : e ≤ tick)
    (hapart : ∀ x ∈ ticks, Apart commandRateLimitSecs e x) : Spread (ticks ++ [e]) tick where
  le x hx := by
    rcases List.mem_append.mp hx with hx | hx
    · exact h.le x hx
    · obtain rfl := List.mem_singleton.mp hx
      exact he
  pairwise := pairwise_append_singleton h.pairwise hapart

/-- What a command that has stored its tick knows of it. -/
structure Holds {ι : Type} (tr : List (ι × Shown)) (s : Shared C A R) (th : Thread) : Prop where
  le : ∀ e ∈ th.stored, e ≤ s.lastCommandTick
  compared : ∀ e ∈ th.comparing, ∀ x ∈ comparisons tr, Apart commandRateLimitSecs e x
  toggled : ∀ e ∈ th.stored, ∀ x ∈ toggles tr, Apart commandRateLimitSecs e x

theorem Holds.of_stored_none {ι : Type} {tr : List (ι × Shown)} {s : Shared C A R} {th : Thread}
    (h : th.stored = none) : Holds tr s th := by
  have hcomparing : th.comparing = none := by
    cases th with
    | idle => rfl
    | command packet pc => cases pc <;> first | rfl | cases h
  exact ⟨by simp [h], by simp [hcomparing], by simp [h]⟩

theorem comparing_subset {th : Thread} {e : Nat} (h : e ∈ th.comparing) : e ∈ th.stored := by
  cases th with
  | idle => cases h
  | command packet pc => cases pc <;> first | exact h | cases h

/-- **The invariant of a spaced run**: what has been compared and toggled is spread, every
stored tick is apart from it, and no two commands hold ticks that are close. -/
theorem spaced_invariant (ι : Type) [DecidableEq ι] : (workers core rater).Invariant
    (System.OnWork (ι := ι) Spaced)
    (fun tr s => Spread (comparisons tr) s.lastCommandTick ∧ Spread (toggles tr) s.lastCommandTick)
    (fun tr s _ th => Holds tr s th)
    (fun th u => ∀ e ∈ th.stored, ∀ x ∈ u.stored, Apart commandRateLimitSecs e x) where
  exec tr p i a := by
    rintro hC ⟨hcompared, htoggled⟩ hholds
    have hstep := exec_step core rater p.shared (p.thread i) a
    simp only [workers]
    generalize (exec core rater p.shared (p.thread i) a).1 = s' at hstep ⊢
    generalize (exec core rater p.shared (p.thread i) a).2 = th' at hstep ⊢
    generalize emit (p.thread i) a = es at hstep ⊢
    change Spaced p.shared (p.thread i) a at hC
    generalize p.thread i = th at hstep hholds hC
    cases hstep with
    | quiet htick _ hth =>
      simp only [List.map_nil, List.append_nil, htick]
      refine ⟨⟨hcompared, htoggled⟩, ?_⟩
      rcases hth with rfl | hnone
      · exact ⟨by rw [htick]; exact hholds.le, hholds.compared, hholds.toggled⟩
      · exact .of_stored_none hnone
    | @stored packet e n =>
      have he := hC e rfl
      have hle : p.shared.lastCommandTick ≤ e := by omega
      simp only [List.map_nil, List.append_nil]
      refine ⟨⟨hcompared.mono hle, htoggled.mono hle⟩, ?_, ?_, ?_⟩
      · rintro _ ⟨⟩; exact Nat.le_refl _
      · rintro _ ⟨⟩; exact hcompared.apart he
      · rintro _ ⟨⟩; exact htoggled.apart he
    | @compared packet e n th' hnone hth =>
      rw [comparisons_compared, toggles_compared]
      refine ⟨⟨hcompared.snoc (hholds.le e rfl) (hholds.compared e rfl), htoggled⟩, ?_, ?_, ?_⟩
      · intro x hx
        rw [hth x hx]
        exact hholds.le e rfl
      · simp [hnone]
      · intro x hx
        rw [toggles_compared, hth x hx]
        exact hholds.toggled e rfl
    | @toggled packet e n =>
      rw [comparisons_toggled, toggles_toggled]
      exact ⟨⟨hcompared, htoggled.snoc (hholds.le e rfl) (hholds.toggled e rfl)⟩,
        .of_stored_none rfl⟩
  interfere tr p i a j := by
    rintro hC _ _ _ hj hD
    have hstep := exec_step core rater p.shared (p.thread i) a
    simp only [workers]
    generalize (exec core rater p.shared (p.thread i) a).1 = s' at hstep ⊢
    generalize (exec core rater p.shared (p.thread i) a).2 = th' at hstep
    generalize emit (p.thread i) a = es at hstep ⊢
    change Spaced p.shared (p.thread i) a at hC
    generalize p.thread i = th at hstep hD hC
    cases hstep with
    | quiet htick _ _ =>
      simp only [List.map_nil, List.append_nil]
      exact ⟨by rw [htick]; exact hj.le, hj.compared, hj.toggled⟩
    | @stored packet e n =>
      have he := hC e rfl
      simp only [List.map_nil, List.append_nil]
      exact ⟨fun x hx => Nat.le_trans (hj.le x hx) (by dsimp only; omega), hj.compared, hj.toggled⟩
    | @compared packet e n th' _ _ =>
      refine ⟨hj.le, ?_, by rw [toggles_compared]; exact hj.toggled⟩
      intro x hx y hy
      rw [comparisons_compared, List.mem_append, List.mem_singleton] at hy
      rcases hy with hy | rfl
      · exact hj.compared x hx y hy
      · exact (hD y rfl x (comparing_subset hx)).symm
    | @toggled packet e n =>
      refine ⟨hj.le, by rw [comparisons_toggled]; exact hj.compared, ?_⟩
      intro x hx y hy
      rw [toggles_toggled, List.mem_append, List.mem_singleton] at hy
      rcases hy with hy | rfl
      · exact hj.toggled x hx y hy
      · exact (hD y rfl x hx).symm
  apart tr p i a j := by
    rintro hC _ _ _ hj hD
    have hstep := exec_step core rater p.shared (p.thread i) a
    simp only [workers]
    generalize (exec core rater p.shared (p.thread i) a).1 = s' at hstep
    generalize (exec core rater p.shared (p.thread i) a).2 = th' at hstep ⊢
    generalize emit (p.thread i) a = es at hstep
    change Spaced p.shared (p.thread i) a at hC
    generalize p.thread i = th at hstep hD hC
    cases hstep with
    | quiet _ _ hth =>
      rcases hth with rfl | hnone
      · exact hD
      · simp [hnone]
    | @stored packet e n =>
      rintro _ ⟨⟩ x hx
      exact apart_of_le (hj.le x hx) (hC e rfl)
    | @compared packet e n th' _ hth =>
      intro x hx
      rw [hth x hx]
      exact hD e rfl
    | toggled =>
      rintro _ ⟨⟩
  symm th u := by
    intro h e he x hx
    exact (h x hx e he).symm
  tick tr s d h := h
  tick_local tr s d i u := by
    rintro _ ⟨hle, hcompared, htoggled⟩
    exact ⟨hle, hcompared, htoggled⟩

/-- In a spaced step the tick does not decrease. -/
theorem spaced_tick_le {s : Shared C A R} {th : Thread} {a : Input} (hC : Spaced s th a) :
    s.lastCommandTick ≤ (exec core rater s th a).1.lastCommandTick := by
  have hstep := exec_step core rater s th a
  generalize (exec core rater s th a).1 = s' at hstep ⊢
  generalize (exec core rater s th a).2 = th' at hstep
  generalize emit th a = es at hstep
  cases hstep with
  | quiet htick _ _ => rw [htick]
  | @stored packet e n =>
    have he := hC e rfl
    dsimp only
    omega
  | compared => exact Nat.le_refl _
  | toggled => exact Nat.le_refl _

theorem spaced_run_tick_le {ι : Type} [DecidableEq ι] {p : Pool ι (Shared C A R) Thread}
    {as : List (Action ι Input)}
    (hC : (workers core rater).machine.Along (System.OnWork Spaced) p as) :
    p.shared.lastCommandTick ≤
      ((workers core rater).machine.run p as).shared.lastCommandTick := by
  refine (workers core rater).machine.run_induction (C := System.OnWork Spaced)
    (P := fun q => p.shared.lastCommandTick ≤ q.shared.lastCommandTick) (Nat.le_refl _) ?_ as hC
  rintro q (⟨i, a⟩ | d) hle hc
  · exact Nat.le_trans hle (spaced_tick_le core rater hc)
  · exact hle

/-- The mode changes only with the toggles that are shown. -/
theorem maintenanceMode_run {ι : Type} [DecidableEq ι] (p : Pool ι (Shared C A R) Thread)
    (as : List (Action ι Input)) :
    ((workers core rater).machine.run p as).shared.maintenanceMode = p.shared.maintenanceMode ↔
      (toggles ((workers core rater).machine.trace p as)).length % 2 = 0 := by
  refine (workers core rater).machine.trace_invariant
    (P := fun tr q => q.shared.maintenanceMode = p.shared.maintenanceMode ↔
      (toggles tr).length % 2 = 0) (iff_of_true rfl rfl) ?_ as
  rintro tr q (⟨i, a⟩ | d) hiff
  · have hstep := exec_step core rater q.shared (q.thread i) a
    simp only [System.step_work, System.emit_work, workers]
    generalize (exec core rater q.shared (q.thread i) a).1 = s' at hstep ⊢
    generalize (exec core rater q.shared (q.thread i) a).2 = th' at hstep
    generalize emit (q.thread i) a = es at hstep ⊢
    generalize q.thread i = th at hstep
    cases hstep with
    | quiet _ hmode _ =>
      simp only [List.map_nil, List.append_nil, hmode]
      exact hiff
    | stored =>
      simp only [List.map_nil, List.append_nil]
      exact hiff
    | @compared packet e n th' _ _ =>
      rw [toggles_compared]
      exact hiff
    | @toggled packet e n =>
      have hflip : (!q.shared.maintenanceMode) = p.shared.maintenanceMode ↔
          ¬ q.shared.maintenanceMode = p.shared.maintenanceMode := by
        cases q.shared.maintenanceMode <;> cases p.shared.maintenanceMode <;> decide
      rw [toggles_toggled, hflip, hiff, List.length_append, List.length_singleton]
      omega
  · simp only [System.step_tick, System.emit_tick, List.append_nil]
    exact hiff

/-! ## The check -/

/-- The tick a command is about to store. -/
def Thread.storing : Thread → Option Nat
  | .command _ (.store e) => some e
  | _ => none

/-- A worker between its load and its store, which the store of another worker disturbs. -/
def overtaking : Watch (Shared C A R) Thread Input where
  inside th := th.storing.isSome
  disturbs _ th a _ := (th.stores a).isSome
  acts th a := (th.stores a).isSome

theorem storing_of_stores {th : Thread} {a : Input} {e : Nat} (h : th.stores a = some e) :
    th.storing = some e := by
  cases th with
  | idle => cases h
  | command packet pc =>
    cases a with
    | receive _ => cases pc <;> cases h
    | go _ =>
      cases pc with
      | store elapsedSecs => exact h
      | _ => cases h

/-- A worker is about to store because its check has passed, or because it already was. -/
theorem exec_storing {s : Shared C A R} {th : Thread} {a : Input} {e : Nat}
    (h : (exec core rater s th a).2.storing = some e) :
    (exec core rater s th a).1 = s ∧
      (th.storing = some e ∨ s.lastCommandTick + commandRateLimitSecs ≤ e) := by
  cases th with
  | idle => cases a <;> cases h
  | command packet pc =>
    cases a with
    | receive _ => cases pc <;> exact ⟨rfl, Or.inl h⟩
    | go n =>
      cases pc with
      | load elapsedSecs =>
        refine ⟨rfl, Or.inr ?_⟩
        simp only [exec] at h
        split at h
        · cases h
        · rename_i hcheck
          cases h
          have hpositive : 0 < commandRateLimitSecs := by decide
          omega
      | compare elapsedSecs =>
        simp only [exec, dispatch] at h
        split at h
        · split at h <;> cases h
        · cases h
      | _ => cases h

/-- A step that is not a store leaves the tick. -/
theorem exec_tick {s : Shared C A R} {th : Thread} {a : Input} (h : th.stores a = none) :
    (exec core rater s th a).1.lastCommandTick = s.lastCommandTick := by
  have hstep := exec_step core rater s th a
  generalize (exec core rater s th a).1 = s' at hstep ⊢
  generalize (exec core rater s th a).2 = th' at hstep
  generalize emit th a = es at hstep
  cases hstep with
  | quiet htick _ _ => exact htick
  | stored => cases h
  | compared => rfl
  | toggled => rfl

/-- What the check has found still holds until another worker stores. -/
theorem overtaking_keeps (ι : Type) : overtaking.Keeps (ι := ι) (workers core rater) (fun _ => True)
    (fun s th => ∀ e ∈ th.storing, s.lastCommandTick + commandRateLimitSecs ≤ e) where
  begins p i a := by
    intro _ hbefore _ e he
    obtain ⟨hs, hstoring | hcheck⟩ := exec_storing core rater he
    · have hinside : (p.thread i).storing.isSome = false := hbefore
      rw [hstoring] at hinside
      cases hinside
    · rw [show ((workers core rater).exec p.shared (p.thread i) a).1 = p.shared from hs]
      exact hcheck
  goes p i a := by
    intro _ _ hknown _ e he
    obtain ⟨hs, hstoring | hcheck⟩ := exec_storing core rater he
    · rw [show ((workers core rater).exec p.shared (p.thread i) a).1 = p.shared from hs]
      exact hknown e hstoring
    · rw [show ((workers core rater).exec p.shared (p.thread i) a).1 = p.shared from hs]
      exact hcheck
  undisturbed p i a j := by
    intro _ _ _ hquiet hknown e he
    have hnone : (p.thread i).stores a = none :=
      Option.isNone_iff_eq_none.mp (Option.isSome_eq_false_iff.mp hquiet)
    rw [show ((workers core rater).exec p.shared (p.thread i) a).1.lastCommandTick =
      p.shared.lastCommandTick from exec_tick core rater hnone]
    exact hknown e he
  tick s d u h := h

theorem not_inside_of_idle {th : Thread} (h : th = .idle) :
    (overtaking (C := C) (A := A) (R := R)).inside th = false := by
  rw [h]
  rfl

/-- **The check spaces the stores** of a run in which nobody is overtaken. -/
theorem spaced_of_calm {ι : Type} [DecidableEq ι] {p : Pool ι (Shared C A R) Thread}
    (hidle : ∀ i, p.thread i = .idle) {as : List (Action ι Input)}
    (hcalm : (overtaking.machine (workers core rater)).Along overtaking.Calm p.watched as) :
    (workers core rater).machine.Along (System.OnWork Spaced) p as := by
  refine (overtaking_keeps core rater ι).along ?_ (fun _ _ => trivial) ?_ (fun _ _ _ _ => trivial)
    trivial (fun i => not_inside_of_idle (hidle i)) hcalm
  · intro p i a _ hknown e he
    exact hknown (Option.isSome_of_mem he) e (storing_of_stores he)
  · intro th a hstores
    obtain ⟨e, he⟩ := Option.isSome_iff_exists.mp hstores
    exact Option.isSome_of_mem (storing_of_stores he)

/-- Commands that are executed one at a time overtake nobody. -/
theorem calm_of_one_command {ι : Type} [DecidableEq ι] {p : Pool ι (Shared C A R) Thread}
    {as : List (Action ι Input)}
    (hone : (workers core rater).machine.Along (Watch.OneAtATime (· = .idle)) p as) :
    (overtaking.machine (workers core rater)).Along overtaking.Calm p.watched as :=
  Watch.calm_of_oneAtATime (fun _ h => not_inside_of_idle (of_decide_eq_true h)) hone

/-- **Rate limit.** In a run in which no worker stores between another's load and store, any
two comparisons belong to `elapsed_secs` values a minute apart, so at most `T / 60 + 1` of
them to any `T` seconds; the same holds of the toggles of the maintenance mode, and
`last_command_tick` never decreases. -/
theorem commands_rate_limited {ι : Type} [DecidableEq ι] {p : Pool ι (Shared C A R) Thread}
    (hidle : ∀ i, p.thread i = .idle) {as : List (Action ι Input)}
    (hcalm : (overtaking.machine (workers core rater)).Along overtaking.Calm p.watched as) :
    let M := (workers core rater).machine
    let tr := M.trace p as
    (comparisons tr).Pairwise (Apart 60) ∧
    (∀ start T, ((comparisons tr).filter fun e => start ≤ e ∧ e ≤ start + T).length ≤ T / 60 + 1) ∧
    (∀ before after, as = before ++ after →
      (M.run p before).shared.lastCommandTick ≤ (M.run p as).shared.lastCommandTick) ∧
    (toggles tr).Pairwise (Apart 60) ∧
    ((M.run p as).shared.maintenanceMode = p.shared.maintenanceMode ↔
      (toggles tr).length % 2 = 0) := by
  intro M tr
  have hC := spaced_of_calm core rater hidle hcalm
  have hempty : Spread [] p.shared.lastCommandTick := ⟨by simp, List.Pairwise.nil⟩
  have hinv := (spaced_invariant core rater ι).run (p := p)
    ⟨⟨hempty, hempty⟩, fun i => .of_stored_none (by rw [hidle i]; rfl),
      fun i j _ => by simp [hidle i, Thread.stored]⟩ hC
  obtain ⟨hcompared, htoggled⟩ := hinv.shared
  refine ⟨hcompared.pairwise, length_window_le (by decide) hcompared.pairwise, ?_,
    htoggled.pairwise, maintenanceMode_run core rater p as⟩
  rintro before after rfl
  have hafter := (((workers core rater).machine.along_append _ p before after).mp hC).2
  have hle := spaced_run_tick_le core rater hafter
  rw [← (workers core rater).machine.run_append] at hle
  exact hle

/-! ## Runs -/

/-- A tunnel with a maintenance password, all workers idle, after `elapsedSecs` seconds. -/
def guardedPool (elapsedSecs : Nat) :
    Pool Bool (Shared RelayCore.ReferenceClient (List Bool) Unit) Thread where
  shared := { TunnelV3.new (C := RelayCore.ReferenceClient) (A := List Bool) Rater.granting
      (fun _ => List.replicate 20 7) ⟨50001, 50000, 200, "secret", 8, 4⟩ with
    elapsedSecs := elapsedSecs }
  thread _ := .idle

/-- The command that toggles the mode, with the right digest. -/
def toggleCommand : Packet := [0, 0, 0, 0, 255, 255, 255, 255, 0] ++ List.replicate 20 7

def receiveToggle (worker : Bool) : Action Bool Input := .work worker (.receive toggleCommand)

def steps (worker : Bool) (n : Nat) : List (Action Bool Input) :=
  List.replicate n (.work worker (.go 0))

/-- Two workers get the command: the second loads after the first has stored and is turned
away, and its next command is compared a minute later. -/
theorem commands_rate_limited_two_minutes :
    let core := RelayCore.reference timeoutSeconds
    let as := [receiveToggle false, receiveToggle true] ++ steps false 2 ++ steps true 1 ++
      steps false 2 ++ steps true 1 ++ steps false 1 ++ [.tick 60, receiveToggle true] ++
      steps true 5
    let tr := (workers core Rater.granting).machine.trace (guardedPool 60) as
    comparisons tr = [60, 120] ∧ (comparisons tr).Pairwise (Apart 60) := by
  intro core as tr
  have hcalm : (overtaking.machine (workers core Rater.granting)).Along overtaking.Calm
      (guardedPool 60).watched as := by decide +kernel
  exact ⟨by decide +kernel, (commands_rate_limited core Rater.granting (fun _ => rfl) hcalm).1⟩

/-- Two workers load the same tick: both compare in second 60, and both toggle. And one
that stalls before its store puts the tick back from 120 to 60. -/
theorem commands_overtaken :
    let core := RelayCore.reference timeoutSeconds
    let M := (workers core Rater.granting).machine
    let p := guardedPool 60
    let both := [receiveToggle false, receiveToggle true] ++ steps false 2 ++ steps true 2
    let stalled := both ++ [.tick 60] ++ steps true 3 ++ [receiveToggle true] ++ steps true 5
    comparisons (M.trace p (both ++ steps false 3 ++ steps true 3)) = [60, 60] ∧
      toggles (M.trace p (both ++ steps false 3 ++ steps true 3)) = [60, 60] ∧
      (M.run p stalled).shared.lastCommandTick = 120 ∧
      (M.run p (stalled ++ steps false 1)).shared.lastCommandTick = 60 := by
  decide +kernel

end CncnetServer.TunnelV3.Commands
