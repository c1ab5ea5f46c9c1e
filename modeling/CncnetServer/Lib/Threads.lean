import CncnetServer.Lib.Run
import Mathlib.Algebra.BigOperators.Group.Finset.Piecewise

/-!
Threads over shared state, interleaved in any order.

A thread is a local state; one atomic step of it is a function of the shared
state, its local state and an input, which holds everything the step does not
determine. Time is an action of no thread.

* `System.Invariant.run`: the rule of interference freedom. What every step keeps of
  the shared state, of its own thread and of what any other thread relies on holds
  after every run;
* `shownBy_work`: the same for what each thread knows of what it has shown itself;
* `sum_shownBy`, `perm_of_shownBy`: a total over the history is one over the threads;
* `sum_update_local`: how a total over the threads changes when one of them steps.
-/

namespace Threads

open Runs

/-- `exec` is one atomic step of a thread, `tick` what passing time does to the
shared state. -/
structure System (σ τ α ε : Type*) where
  exec : σ → τ → α → σ × τ
  emit : σ → τ → α → List ε
  tick : σ → Nat → σ

structure Pool (ι σ τ : Type*) where
  shared : σ
  thread : ι → τ

inductive Action (ι α : Type*)
  | work (i : ι) (input : α)
  | tick (d : Nat)

namespace System

variable {ι σ τ α ε : Type*} [DecidableEq ι] (S : System σ τ α ε)

/-- The interleavings of the threads; what a step shows is tagged with its thread. -/
def machine : Machine (Pool ι σ τ) (Action ι α) (ι × ε) where
  step p
    | .work i a => ⟨(S.exec p.shared (p.thread i) a).1,
        Function.update p.thread i (S.exec p.shared (p.thread i) a).2⟩
    | .tick d => { p with shared := S.tick p.shared d }
  emit p
    | .work i a => (S.emit p.shared (p.thread i) a).map (Prod.mk i)
    | .tick _ => []

@[simp] theorem step_work (p : Pool ι σ τ) (i : ι) (a : α) :
    S.machine.step p (.work i a) = ⟨(S.exec p.shared (p.thread i) a).1,
      Function.update p.thread i (S.exec p.shared (p.thread i) a).2⟩ := rfl

@[simp] theorem step_tick (p : Pool ι σ τ) (d : Nat) :
    S.machine.step p (.tick d) = { p with shared := S.tick p.shared d } := rfl

@[simp] theorem emit_work (p : Pool ι σ τ) (i : ι) (a : α) :
    S.machine.emit p (.work i a) = (S.emit p.shared (p.thread i) a).map (Prod.mk i) := rfl

@[simp] theorem emit_tick (p : Pool ι σ τ) (d : Nat) : S.machine.emit p (.tick d) = [] := rfl

/-- A thread alone. -/
def solo (s : σ) (t : τ) : List α → σ × τ
  | [] => (s, t)
  | a :: as => solo (S.exec s t a).1 (S.exec s t a).2 as

@[simp] theorem solo_nil (s : σ) (t : τ) : S.solo s t [] = (s, t) := rfl

@[simp] theorem solo_cons (s : σ) (t : τ) (a : α) (as : List α) :
    S.solo s t (a :: as) = S.solo (S.exec s t a).1 (S.exec s t a).2 as := rfl

theorem solo_append (s : σ) (t : τ) (as bs : List α) :
    S.solo s t (as ++ bs) = S.solo (S.solo s t as).1 (S.solo s t as).2 bs := by
  induction as generalizing s t with
  | nil => rfl
  | cons a as ih => exact ih _ _

theorem run_solo (p : Pool ι σ τ) (i : ι) (as : List α) :
    S.machine.run p (as.map (.work i)) = ⟨(S.solo p.shared (p.thread i) as).1,
      Function.update p.thread i (S.solo p.shared (p.thread i) as).2⟩ := by
  induction as generalizing p with
  | nil => simp
  | cons a as ih => simp [ih]

/-- A condition on the steps of threads, as a condition on the actions. -/
def OnWork (C : σ → τ → α → Prop) (p : Pool ι σ τ) : Action ι α → Prop
  | .work i a => C p.shared (p.thread i) a
  | .tick _ => True

instance (C : σ → τ → α → Prop) [∀ s t a, Decidable (C s t a)] (p : Pool ι σ τ) :
    (a : Action ι α) → Decidable (OnWork C p a)
  | .work i a => inferInstanceAs (Decidable (C p.shared (p.thread i) a))
  | .tick _ => .isTrue trivial

/-- What a proof about all interleavings of steps that meet `C` needs: `I` holds of
the history and the shared state, `L` is what each thread knows of them, and `D`
keeps the local states of any two threads apart. -/
structure Invariant (C : Pool ι σ τ → Action ι α → Prop) (I : List (ι × ε) → σ → Prop)
    (L : List (ι × ε) → σ → ι → τ → Prop) (D : τ → τ → Prop) : Prop where
  /-- A step keeps the shared invariant and establishes what its thread knows next. -/
  exec : ∀ tr p i a, C p (.work i a) → I tr p.shared → L tr p.shared i (p.thread i) →
    I (tr ++ (S.emit p.shared (p.thread i) a).map (Prod.mk i))
        (S.exec p.shared (p.thread i) a).1 ∧
      L (tr ++ (S.emit p.shared (p.thread i) a).map (Prod.mk i))
        (S.exec p.shared (p.thread i) a).1 i (S.exec p.shared (p.thread i) a).2
  /-- A step leaves what any other thread knows true. -/
  interfere : ∀ tr p i a j, C p (.work i a) → I tr p.shared → L tr p.shared i (p.thread i) →
    j ≠ i → L tr p.shared j (p.thread j) → D (p.thread i) (p.thread j) →
    L (tr ++ (S.emit p.shared (p.thread i) a).map (Prod.mk i))
      (S.exec p.shared (p.thread i) a).1 j (p.thread j)
  /-- A thread stays apart from any other thread. -/
  apart : ∀ tr p i a j, C p (.work i a) → I tr p.shared → L tr p.shared i (p.thread i) →
    j ≠ i → L tr p.shared j (p.thread j) → D (p.thread i) (p.thread j) →
    D (S.exec p.shared (p.thread i) a).2 (p.thread j)
  symm : ∀ t u, D t u → D u t
  tick : ∀ tr s d, I tr s → I tr (S.tick s d)
  tick_local : ∀ tr s d i u, I tr s → L tr s i u → L tr (S.tick s d) i u

/-- The state an invariant describes. -/
structure Holds (I : List (ι × ε) → σ → Prop) (L : List (ι × ε) → σ → ι → τ → Prop)
    (D : τ → τ → Prop) (tr : List (ι × ε)) (p : Pool ι σ τ) : Prop where
  shared : I tr p.shared
  thread : ∀ i, L tr p.shared i (p.thread i)
  apart : ∀ i j, j ≠ i → D (p.thread i) (p.thread j)

variable {S}

theorem Invariant.step {C : Pool ι σ τ → Action ι α → Prop} {I : List (ι × ε) → σ → Prop}
    {L : List (ι × ε) → σ → ι → τ → Prop} {D : τ → τ → Prop} (h : S.Invariant C I L D)
    {tr : List (ι × ε)} {p : Pool ι σ τ} (hp : Holds I L D tr p) {a : Action ι α} (hc : C p a) :
    Holds I L D (tr ++ S.machine.emit p a) (S.machine.step p a) := by
  obtain ⟨hI, hL, hD⟩ := hp
  rcases a with ⟨i, a⟩ | d
  · have hstep := h.exec tr p i a hc hI (hL i)
    have hself : (S.machine.step p (.work i a)).thread i =
        (S.exec p.shared (p.thread i) a).2 := Function.update_self _ _ _
    have hother : ∀ j, j ≠ i → (S.machine.step p (.work i a)).thread j = p.thread j :=
      fun j hj => Function.update_of_ne hj _ _
    refine ⟨hstep.1, fun j => ?_, fun j k hjk => ?_⟩
    · by_cases hj : j = i
      · subst hj
        rw [hself]
        exact hstep.2
      · rw [hother j hj]
        exact h.interfere tr p i a j hc hI (hL i) hj (hL j) (hD i j hj)
    · have hnew : ∀ l, l ≠ i → D (S.exec p.shared (p.thread i) a).2 (p.thread l) :=
        fun l hl => h.apart tr p i a l hc hI (hL i) hl (hL l) (hD i l hl)
      by_cases hj : j = i
      · subst hj
        rw [hself, hother k hjk]
        exact hnew k hjk
      · rw [hother j hj]
        by_cases hk : k = i
        · subst hk
          rw [hself]
          exact h.symm _ _ (hnew j hj)
        · rw [hother k hk]
          exact hD j k hjk
  · simp only [step_tick, emit_tick, List.append_nil]
    exact ⟨h.tick tr p.shared d hI, fun j => h.tick_local tr p.shared d j _ hI (hL j), hD⟩

/-- **Interference freedom.** The invariants hold after every interleaving. -/
theorem Invariant.run {C : Pool ι σ τ → Action ι α → Prop} {I : List (ι × ε) → σ → Prop}
    {L : List (ι × ε) → σ → ι → τ → Prop} {D : τ → τ → Prop} (h : S.Invariant C I L D)
    {p : Pool ι σ τ} (h0 : Holds I L D [] p) {as : List (Action ι α)}
    (hC : S.machine.Along C p as) :
    Holds I L D (S.machine.trace p as) (S.machine.run p as) :=
  S.machine.run_trace_induction (C := C) h0 (fun _ _ _ hp hc => h.step hp hc) as hC

end System

/-! ## What one thread shows -/

section ShownBy

variable {ι ε : Type*} [DecidableEq ι]

/-- The part of the history that a thread has shown. -/
def shownBy (i : ι) (tr : List (ι × ε)) : List ε := (tr.filter fun e => e.1 = i).map Prod.snd

theorem shownBy_append (i : ι) (tr tr' : List (ι × ε)) :
    shownBy i (tr ++ tr') = shownBy i tr ++ shownBy i tr' := by
  unfold shownBy
  rw [List.filter_append, List.map_append]

theorem shownBy_self (i : ι) (es : List ε) : shownBy i (es.map (Prod.mk i)) = es := by
  unfold shownBy
  rw [List.filter_eq_self.mpr (by simp), List.map_map]
  exact List.map_id es

theorem shownBy_of_ne {i j : ι} (h : j ≠ i) (es : List ε) :
    shownBy j (es.map (Prod.mk i)) = [] := by
  unfold shownBy
  rw [List.filter_eq_nil_iff.mpr (by simp [h.symm])]
  rfl

/-- A sum over the history is the sum over the threads. -/
theorem sum_shownBy {M : Type*} [AddCommMonoid M] [Fintype ι] (f : ε → M) (tr : List (ι × ε)) :
    ∑ i, ((shownBy i tr).map f).sum = ((tr.map Prod.snd).map f).sum := by
  induction tr with
  | nil => simp [shownBy]
  | cons e tr ih =>
    have hcons : ∀ i, ((shownBy i (e :: tr)).map f).sum =
        (if e.1 = i then f e.2 else 0) + ((shownBy i tr).map f).sum := by
      intro i
      unfold shownBy
      by_cases h : e.1 = i <;> simp [h]
    rw [Finset.sum_congr rfl fun i _ => hcons i, Finset.sum_add_distrib, ih,
      Finset.sum_ite_eq Finset.univ e.1, if_pos (Finset.mem_univ _)]
    rfl

/-- What agrees for every thread by itself agrees for all of them, up to the order. -/
theorem perm_of_shownBy {δ : Type*} [DecidableEq δ] [Fintype ι] {f g : ε → Option δ}
    {tr : List (ι × ε)} (h : ∀ i, (shownBy i tr).filterMap f = (shownBy i tr).filterMap g) :
    ((tr.map Prod.snd).filterMap f).Perm ((tr.map Prod.snd).filterMap g) := by
  have hcount : ∀ (d : δ) (k : ε → Option δ) (es : List ε),
      (es.filterMap k).count d = (es.map fun e => if k e = some d then 1 else 0).sum := by
    intro d k es
    induction es with
    | nil => rfl
    | cons e es ih =>
      rw [List.map_cons, List.sum_cons, ← ih, List.filterMap_cons]
      cases hk : k e with
      | none => simp
      | some x =>
        by_cases hx : x = d
        · simp [hx, Nat.add_comm]
        · simp [hx]
  rw [List.perm_iff_count]
  intro d
  rw [hcount, hcount, ← sum_shownBy, ← sum_shownBy]
  refine Finset.sum_congr rfl fun i _ => ?_
  rw [← hcount, ← hcount, h i]

end ShownBy

section Steps

variable {ι σ τ α ε : Type*} [DecidableEq ι] (S : System σ τ α ε)

theorem map_snd_emit (p : Pool ι σ τ) (i : ι) (a : α) :
    (S.machine.emit p (.work i a)).map Prod.snd = S.emit p.shared (p.thread i) a := by
  rw [System.emit_work, List.map_map]
  exact List.map_id _

/-- What holds of every thread and what it has shown still holds after a step of a thread
that keeps it. -/
theorem shownBy_work {L : ι → List ε → τ → Prop} {tr : List (ι × ε)} {p : Pool ι σ τ}
    (h : ∀ j, L j (shownBy j tr) (p.thread j)) {i : ι} {a : α}
    (hstep : L i (shownBy i tr ++ S.emit p.shared (p.thread i) a)
      (S.exec p.shared (p.thread i) a).2) (j : ι) :
    L j (shownBy j (tr ++ S.machine.emit p (.work i a)))
      ((S.machine.step p (.work i a)).thread j) := by
  rw [System.emit_work, System.step_work, shownBy_append]
  dsimp only
  by_cases hj : j = i
  · subst hj
    rw [shownBy_self, Function.update_self]
    exact hstep
  · rw [shownBy_of_ne hj, Function.update_of_ne hj, List.append_nil]
    exact h j

end Steps

/-! ## Totals over the threads -/

variable {ι τ : Type*} [DecidableEq ι]

theorem sum_update_local {M : Type*} [AddCommMonoid M] (s : Finset ι) {i : ι} (hi : i ∈ s)
    (f : τ → M) (th : ι → τ) (t : τ) :
    (∑ j ∈ s, f (Function.update th i t j)) + f (th i) = (∑ j ∈ s, f (th j)) + f t := by
  have hrest : ∑ j ∈ s.erase i, f (Function.update th i t j) = ∑ j ∈ s.erase i, f (th j) := by
    apply Finset.sum_congr rfl
    intro j hj
    rw [Function.update_of_ne (Finset.ne_of_mem_erase hj)]
  rw [← Finset.add_sum_erase s _ hi, ← Finset.add_sum_erase s (fun j => f (th j)) hi, hrest,
    Function.update_self, add_right_comm, add_comm (f t), add_right_comm, add_comm (f (th i))]

end Threads
