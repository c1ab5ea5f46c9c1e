import Mathlib.Data.List.Induction

/-!
Runs of a deterministic machine driven by a list of actions.

Everything that is not determined by the state (scheduling, clock readings,
random draws, results of system calls) is part of the action, so one list of
actions is one interleaving and quantifying over all lists quantifies over all
interleavings. `trace` collects what the steps emit, in order: it is the
history variable of a run, and no state has to carry it.

* `run_trace_induction`: a property of the state and of the history that holds
  at the start and is kept by every step holds after every run;
* `Along`: a condition on the state before each step of a run;
* `trace_split`: the step of a run that has shown a given event;
* `along_append`, `run_append`, `trace_append`: how runs compose;
* `invariant`, `trace_invariant`: the run rules for what every step keeps;
* `along_of_step`: a condition along a run from another one and an invariant;
* `along_iff`, `along_congr`: when two conditions on the steps of a run are the same;
* `unwinding`: a run and the same run without some of its actions;
* `lockstep`: one run of two machines.
-/

namespace Runs

structure Machine (σ α ε : Type*) where
  step : σ → α → σ
  emit : σ → α → List ε

namespace Machine

variable {σ α ε : Type*} (M : Machine σ α ε)

/-- The state after a list of actions. -/
def run (s : σ) : List α → σ
  | [] => s
  | a :: as => run (M.step s a) as

/-- What the steps of a run emit, oldest first. -/
def trace (s : σ) : List α → List ε
  | [] => []
  | a :: as => M.emit s a ++ trace (M.step s a) as

/-- `C` holds of the state and the action before every step of the run. -/
def Along (C : σ → α → Prop) (s : σ) : List α → Prop
  | [] => True
  | a :: as => C s a ∧ Along C (M.step s a) as

@[simp] theorem run_nil (s : σ) : M.run s [] = s := rfl
@[simp] theorem run_cons (s : σ) (a : α) (as : List α) :
    M.run s (a :: as) = M.run (M.step s a) as := rfl
@[simp] theorem trace_nil (s : σ) : M.trace s [] = [] := rfl
@[simp] theorem trace_cons (s : σ) (a : α) (as : List α) :
    M.trace s (a :: as) = M.emit s a ++ M.trace (M.step s a) as := rfl
@[simp] theorem along_nil (C : σ → α → Prop) (s : σ) : M.Along C s [] := trivial
@[simp] theorem along_cons (C : σ → α → Prop) (s : σ) (a : α) (as : List α) :
    M.Along C s (a :: as) ↔ C s a ∧ M.Along C (M.step s a) as := Iff.rfl

instance decidableAlong (C : σ → α → Prop) [∀ s a, Decidable (C s a)] :
    ∀ s as, Decidable (M.Along C s as)
  | _, [] => .isTrue trivial
  | s, a :: as =>
    have := decidableAlong C (M.step s a) as
    inferInstanceAs (Decidable (_ ∧ _))

theorem run_append (s : σ) (as bs : List α) :
    M.run s (as ++ bs) = M.run (M.run s as) bs := by
  induction as generalizing s with
  | nil => rfl
  | cons a as ih => exact ih (M.step s a)

theorem trace_append (s : σ) (as bs : List α) :
    M.trace s (as ++ bs) = M.trace s as ++ M.trace (M.run s as) bs := by
  induction as generalizing s with
  | nil => rfl
  | cons a as ih =>
    simp only [List.cons_append, trace_cons, run_cons, List.append_assoc]
    rw [ih]

theorem along_append (C : σ → α → Prop) (s : σ) (as bs : List α) :
    M.Along C s (as ++ bs) ↔ M.Along C s as ∧ M.Along C (M.run s as) bs := by
  induction as generalizing s with
  | nil => simp
  | cons a as ih =>
    simp only [List.cons_append, along_cons, run_cons, ih, and_assoc]

theorem run_snoc (s : σ) (as : List α) (a : α) :
    M.run s (as ++ [a]) = M.step (M.run s as) a := by
  rw [run_append]
  rfl

theorem trace_snoc (s : σ) (as : List α) (a : α) :
    M.trace s (as ++ [a]) = M.trace s as ++ M.emit (M.run s as) a := by
  rw [trace_append, trace_cons, trace_nil, List.append_nil]

/-- An event of a run was shown by one of its steps. -/
theorem trace_split {s : σ} {as : List α} {before after : List ε} {e : ε}
    (h : M.trace s as = before ++ e :: after) :
    ∃ pre a post es es', as = pre ++ a :: post ∧
      M.emit (M.run s pre) a = es ++ e :: es' ∧ before = M.trace s pre ++ es := by
  induction as generalizing s before with
  | nil => simp at h
  | cons a as ih =>
    rw [trace_cons] at h
    rcases List.append_eq_append_iff.mp h with ⟨mid, rfl, hrest⟩ | ⟨mid, hemit, hafter⟩
    · obtain ⟨pre, b, post, es, es', rfl, hb, rfl⟩ := ih hrest
      exact ⟨a :: pre, b, post, es, es', rfl, hb, by simp⟩
    · rcases mid with _ | ⟨x, mid⟩
      · rw [List.append_nil] at hemit
        have hrest : M.trace (M.step s a) as = [] ++ e :: after := hafter.symm
        obtain ⟨pre, b, post, es, es', rfl, hb, heq⟩ := ih hrest
        refine ⟨a :: pre, b, post, es, es', rfl, hb, ?_⟩
        rw [trace_cons, List.append_assoc, ← heq, List.append_nil, hemit]
      · cases hafter
        exact ⟨[], a, as, before, mid, rfl, hemit, rfl⟩

theorem along_of_forall {C : σ → α → Prop} (h : ∀ s a, C s a) (s : σ) (as : List α) :
    M.Along C s as := by
  induction as generalizing s with
  | nil => trivial
  | cons a as ih => exact ⟨h s a, ih _⟩

theorem along_mono {C D : σ → α → Prop} (h : ∀ s a, C s a → D s a) {s : σ} {as : List α}
    (hC : M.Along C s as) : M.Along D s as := by
  induction as generalizing s with
  | nil => trivial
  | cons a as ih => exact ⟨h s a hC.1, ih hC.2⟩

theorem along_congr {C D : σ → α → Prop} (h : ∀ s a, C s a ↔ D s a) (s : σ) (as : List α) :
    M.Along C s as ↔ M.Along D s as :=
  ⟨M.along_mono fun s a => (h s a).mp, M.along_mono fun s a => (h s a).mpr⟩

theorem along_and {C D : σ → α → Prop} (s : σ) (as : List α) :
    M.Along (fun s a => C s a ∧ D s a) s as ↔ M.Along C s as ∧ M.Along D s as := by
  induction as generalizing s with
  | nil => simp
  | cons a as ih =>
    rw [along_cons, along_cons, along_cons, ih]
    exact and_and_and_comm

/-- Steps that meet `C` meet `D` wherever `P` holds, and `P` goes on holding. -/
theorem along_of_step {P : σ → Prop} {C D : σ → α → Prop}
    (hstep : ∀ s a, P s → C s a → D s a ∧ P (M.step s a)) {s : σ} (hs : P s) {as : List α}
    (hC : M.Along C s as) : M.Along D s as := by
  induction as generalizing s with
  | nil => trivial
  | cons a as ih =>
    obtain ⟨hD, hnext⟩ := hstep s a hs hC.1
    exact ⟨hD, ih hnext hC.2⟩

theorem along_of_mem {C : α → Prop} {as : List α} (h : ∀ a ∈ as, C a) (s : σ) :
    M.Along (fun _ a => C a) s as := by
  induction as generalizing s with
  | nil => trivial
  | cons a as ih =>
    rw [List.forall_mem_cons] at h
    exact ⟨h.1, ih h.2 _⟩

/-- Two conditions that agree wherever `P` holds are the same condition on a run that
starts in `P`, if the steps that meet the first one keep `P`. -/
theorem along_iff {P : σ → Prop} {C D : σ → α → Prop} (hiff : ∀ s a, P s → (C s a ↔ D s a))
    (hstep : ∀ s a, P s → C s a → P (M.step s a)) {s : σ} (hs : P s) (as : List α) :
    M.Along C s as ↔ M.Along D s as := by
  induction as generalizing s with
  | nil => exact Iff.rfl
  | cons a as ih =>
    rw [along_cons, along_cons, ← hiff s a hs]
    exact and_congr_right fun hC => ih (hstep s a hs hC)

/-- **Run rule with history.** What holds at the start with the empty history
and is kept by every step that meets `C` holds after every such run. -/
theorem run_trace_induction {C : σ → α → Prop} {P : List ε → σ → Prop} {s : σ}
    (h0 : P [] s)
    (hstep : ∀ tr t a, P tr t → C t a → P (tr ++ M.emit t a) (M.step t a)) :
    ∀ as, M.Along C s as → P (M.trace s as) (M.run s as) := by
  -- the history grows to the right, so the run is taken apart at its last step
  intro as
  induction as using List.reverseRecOn with
  | nil => intro _; exact h0
  | append_singleton as a ih =>
    intro h
    rw [run_snoc, trace_snoc]
    have hsplit := (M.along_append C s as [a]).mp h
    exact hstep _ _ _ (ih hsplit.1) hsplit.2.1

/-- **Run rule.** A state property that every step keeps holds after every run. -/
theorem run_induction {C : σ → α → Prop} {P : σ → Prop} {s : σ} (h0 : P s)
    (hstep : ∀ t a, P t → C t a → P (M.step t a)) :
    ∀ as, M.Along C s as → P (M.run s as) :=
  M.run_trace_induction (P := fun _ t => P t) h0 (fun _ t a => hstep t a)

/-- What every step keeps of the state and of the history holds after every run. -/
theorem trace_invariant {P : List ε → σ → Prop} {s : σ} (h0 : P [] s)
    (hstep : ∀ tr t a, P tr t → P (tr ++ M.emit t a) (M.step t a)) (as : List α) :
    P (M.trace s as) (M.run s as) :=
  M.run_trace_induction (C := fun _ _ => True) h0 (fun tr t a h _ => hstep tr t a h) as
    (M.along_of_forall (fun _ _ => trivial) s as)

theorem invariant {P : σ → Prop} {s : σ} (h0 : P s) (hstep : ∀ t a, P t → P (M.step t a))
    (as : List α) : P (M.run s as) :=
  M.trace_invariant (P := fun _ t => P t) h0 (fun _ t a => hstep t a) as

/-- **Unwinding.** Two runs of one machine, the second without the actions that
`keep` rejects, stay related if a kept action keeps the relation when both take
it, and a dropped one when only the first takes it. -/
theorem unwinding {keep : α → Bool} {C : σ → α → Prop} {Sim : σ → σ → Prop}
    (hkeep : ∀ s t a, Sim s t → C s a → keep a = true → Sim (M.step s a) (M.step t a))
    (hdrop : ∀ s t a, Sim s t → C s a → keep a = false → Sim (M.step s a) t)
    {s t : σ} {as : List α} (h : Sim s t) (hC : M.Along C s as) :
    Sim (M.run s as) (M.run t (as.filter keep)) := by
  induction as generalizing s t with
  | nil => exact h
  | cons a as ih =>
    cases hk : keep a with
    | true =>
      rw [List.filter_cons_of_pos hk]
      exact ih (hkeep s t a h hC.1 hk) hC.2
    | false =>
      rw [List.filter_cons_of_neg (by simp [hk])]
      exact ih (hdrop s t a h hC.1 hk) hC.2

/-- **Lockstep.** Two machines that take the same actions show the same and stay
related, if one step of both shows the same and keeps the relation. -/
theorem lockstep {σ' : Type*} (N : Machine σ' α ε) {C : σ' → α → Prop} {P : σ → σ' → Prop}
    (hstep : ∀ s t a, P s t → C t a → M.emit s a = N.emit t a ∧ P (M.step s a) (N.step t a))
    {s : σ} {t : σ'} (h : P s t) {as : List α} (hC : N.Along C t as) :
    M.trace s as = N.trace t as ∧ P (M.run s as) (N.run t as) := by
  induction as generalizing s t with
  | nil => exact ⟨rfl, h⟩
  | cons a as ih =>
    obtain ⟨hemit, hsim⟩ := hstep s t a h hC.1
    obtain ⟨htrace, hrun⟩ := ih hsim hC.2
    rw [trace_cons, trace_cons, hemit, htrace]
    exact ⟨rfl, hrun⟩

end Machine

end Runs
