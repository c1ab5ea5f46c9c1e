import CncnetServer.Lib.Threads

/-!
Sections of a thread, and the steps of other threads that disturb them.

A thread that reads something and acts on it later is in a section in between. The
watch marks it when another thread takes a step there that it says disturbs it; the
mark is a history variable, so a watched run is a run (`run_watched`, `along_watched`).

* `Calm`: no thread acts on what it read in a section that was disturbed;
* `Keeps.along`: what a thread knows when its section begins it still knows in a section
  that nobody has disturbed, so a condition that follows from it holds along a calm run;
* `relying`: a thread that has looked a key up, and relies on what it has found;
* `along_oneAtATime`: nobody is disturbed in a run of one call at a time.
-/

namespace Threads

open Runs

/-- Which local states are inside a section, which step of a thread disturbs another one
there, and which step of a section acts on what the section began with. -/
structure Watch (σ τ α : Type*) where
  inside : τ → Bool
  disturbs : σ → τ → α → τ → Bool
  acts : τ → α → Bool

/-- The threads, and which of them have been disturbed in the section they are in. -/
structure Watched (ι σ τ : Type*) extends Pool ι σ τ where
  disturbed : ι → Bool

def Pool.watched {ι σ τ : Type*} (p : Pool ι σ τ) : Watched ι σ τ := { p with disturbed _ := false }

namespace Watch

variable {ι σ τ α ε : Type*} [DecidableEq ι] (W : Watch σ τ α) (S : System σ τ α ε)

/-- The marks after a step of a thread. -/
def mark (q : Watched ι σ τ) (i : ι) (a : α) (j : ι) : Bool :=
  if j = i then q.disturbed i && W.inside (S.exec q.shared (q.thread i) a).2
  else q.disturbed j || (W.inside (q.thread j) && W.disturbs q.shared (q.thread i) a (q.thread j))

/-- The interleavings of the threads, watched. -/
def machine : Machine (Watched ι σ τ) (Action ι α) (ι × ε) where
  step q a := ⟨S.machine.step q.toPool a, match a with
    | .work i a => W.mark S q i a
    | .tick _ => q.disturbed⟩
  emit q a := S.machine.emit q.toPool a

/-- The thread after its step. -/
theorem thread_self (q : Watched ι σ τ) (i : ι) (a : α) :
    ((W.machine S).step q (.work i a)).thread i = (S.exec q.shared (q.thread i) a).2 :=
  Function.update_self _ _ _

theorem thread_other (q : Watched ι σ τ) {i j : ι} (hj : j ≠ i) (a : α) :
    ((W.machine S).step q (.work i a)).thread j = q.thread j :=
  Function.update_of_ne hj _ _

/-! ## A watched run is a run -/

theorem run_watched (q : Watched ι σ τ) (as : List (Action ι α)) :
    ((W.machine S).run q as).toPool = S.machine.run q.toPool as := by
  induction as generalizing q with
  | nil => rfl
  | cons a as ih => exact ih _

theorem along_watched (C : Pool ι σ τ → Action ι α → Prop) (q : Watched ι σ τ)
    (as : List (Action ι α)) :
    (W.machine S).Along (fun q a => C q.toPool a) q as ↔ S.machine.Along C q.toPool as := by
  induction as generalizing q with
  | nil => exact Iff.rfl
  | cons a as ih => exact and_congr_right fun _ => ih _

/-! ## Calm runs -/

/-- A thread that acts on what it read has not been disturbed since. -/
def Calm (q : Watched ι σ τ) : Action ι α → Prop
  | .work i a => W.acts (q.thread i) a = true → q.disturbed i = false
  | .tick _ => True

instance (q : Watched ι σ τ) : (a : Action ι α) → Decidable (W.Calm q a)
  | .work i a => inferInstanceAs (Decidable (W.acts (q.thread i) a = true → q.disturbed i = false))
  | .tick _ => .isTrue trivial

/-- What each thread knows inside its sections, if `I` holds of all of them: it learns it
when the section begins, and a step that does not disturb it leaves it true. -/
structure Keeps (I : Pool ι σ τ → Prop) (L : σ → τ → Prop) : Prop where
  begins : ∀ p i a, I p → W.inside (p.thread i) = false →
    W.inside (S.exec p.shared (p.thread i) a).2 = true →
    L (S.exec p.shared (p.thread i) a).1 (S.exec p.shared (p.thread i) a).2
  goes : ∀ p i a, I p → W.inside (p.thread i) = true → L p.shared (p.thread i) →
    W.inside (S.exec p.shared (p.thread i) a).2 = true →
    L (S.exec p.shared (p.thread i) a).1 (S.exec p.shared (p.thread i) a).2
  undisturbed : ∀ p i a j, I p → j ≠ i → W.inside (p.thread j) = true →
    W.disturbs p.shared (p.thread i) a (p.thread j) = false → L p.shared (p.thread j) →
    L (S.exec p.shared (p.thread i) a).1 (p.thread j)
  tick : ∀ s d u, L s u → L (S.tick s d) u

/-- Whoever is in a section that nobody has disturbed knows what it knew. -/
def Aware (L : σ → τ → Prop) (q : Watched ι σ τ) : Prop :=
  ∀ j, W.inside (q.thread j) = true → q.disturbed j = false → L q.shared (q.thread j)

variable {W S}

theorem Keeps.aware_step {I : Pool ι σ τ → Prop} {L : σ → τ → Prop} (h : W.Keeps S I L)
    {q : Watched ι σ τ} (hI : I q.toPool) (hL : W.Aware L q) (a : Action ι α) :
    W.Aware L ((W.machine S).step q a) := by
  cases a with
  | tick d => exact fun j hin hmark => h.tick _ d _ (hL j hin hmark)
  | work i a =>
    intro j hin hmark
    by_cases hj : j = i
    · subst hj
      rw [thread_self] at hin ⊢
      have hmark' : W.mark S q j a j = false := hmark
      rw [mark, if_pos rfl, hin, Bool.and_true] at hmark'
      by_cases hbefore : W.inside (q.thread j) = true
      · exact h.goes q.toPool j a hI hbefore (hL j hbefore hmark') hin
      · exact h.begins q.toPool j a hI (Bool.eq_false_of_not_eq_true hbefore) hin
    · rw [thread_other W S q hj] at hin ⊢
      have hmark' : W.mark S q i a j = false := hmark
      rw [mark, if_neg hj, hin, Bool.true_and, Bool.or_eq_false_iff] at hmark'
      exact h.undisturbed q.toPool i a j hI hj hin hmark'.2 (hL j hin hmark'.1)

/-- **The rule of a calm run**: what follows from the knowledge of whoever acts holds along
it. -/
theorem Keeps.along {I : Pool ι σ τ → Prop} {L : σ → τ → Prop} (h : W.Keeps S I L)
    {C : Pool ι σ τ → Action ι α → Prop}
    (hact : ∀ p i a, I p → (W.acts (p.thread i) a = true → L p.shared (p.thread i)) →
      C p (.work i a))
    (htick : ∀ p d, C p (.tick d)) (hacts : ∀ u a, W.acts u a = true → W.inside u = true)
    (hI : ∀ p a, I p → C p a → I (S.machine.step p a)) {p : Pool ι σ τ} (h0 : I p)
    (hbegin : ∀ i, W.inside (p.thread i) = false) {as : List (Action ι α)}
    (hcalm : (W.machine S).Along W.Calm p.watched as) : S.machine.Along C p as := by
  refine (W.along_watched S C p.watched as).mp ?_
  refine (W.machine S).along_of_step (P := fun q => I q.toPool ∧ W.Aware L q) ?_
    ⟨h0, fun j hin => absurd ((hbegin j).symm.trans hin) Bool.false_ne_true⟩ hcalm
  rintro q a ⟨hq, hL⟩ hc
  have hC : C q.toPool a := by
    cases a with
    | tick d => exact htick _ d
    | work i a => exact hact _ i a hq fun hact => hL i (hacts _ _ hact) (hc hact)
  exact ⟨hC, hI _ a hq hC, h.aware_step hq hL a⟩

/-! ## Looked-up keys -/

section Relying

variable {K : Type*} (S) (looks : τ → Option K) (holds : σ → K → Prop)
variable [∀ s k, Decidable (holds s k)]

/-- A thread has looked a key up and relies on what it has found (`holds`), which a step of
another thread disturbs when it ends it. -/
def relying (acts : τ → α → Bool) : Watch σ τ α where
  inside th := (looks th).isSome
  disturbs s th a u := (looks u).any fun k => decide (holds s k ∧ ¬ holds (S.exec s th a).1 k)
  acts

variable {S looks holds}

omit [DecidableEq ι] in
/-- What a thread has found still holds until another thread ends it. -/
theorem relying_keeps {acts : τ → α → Bool}
    (hown : ∀ s th a k, k ∈ looks (S.exec s th a).2 →
      (k ∈ looks th ∧ (holds s k → holds (S.exec s th a).1 k)) ∨ holds (S.exec s th a).1 k)
    (htick : ∀ s d k, holds s k → holds (S.tick s d) k) :
    (relying S looks holds acts).Keeps (ι := ι) S (fun _ => True)
      (fun s th => ∀ k ∈ looks th, holds s k) where
  begins p i a := by
    intro _ houtside _ k hk
    rcases hown p.shared (p.thread i) a k hk with ⟨hbefore, _⟩ | hnew
    · exact absurd ((Option.isSome_of_mem hbefore).symm.trans houtside) (by decide)
    · exact hnew
  goes p i a := by
    intro _ _ hknown _ k hk
    rcases hown p.shared (p.thread i) a k hk with ⟨hbefore, hkeep⟩ | hnew
    · exact hkeep (hknown k hbefore)
    · exact hnew
  undisturbed p i a j := by
    intro _ _ _ hquiet hknown k hk
    have hstays : decide (holds p.shared k ∧ ¬ holds (S.exec p.shared (p.thread i) a).1 k) =
        false := by
      have h : (looks (p.thread j)).any _ = false := hquiet
      rwa [Option.mem_def.mp hk, Option.any_some] at h
    by_contra hended
    exact of_decide_eq_false hstays ⟨hknown k hk, hended⟩
  tick s d u hknown k hk := htick s d k (hknown k hk)

end Relying

/-! ## One call at a time -/

/-- A thread takes a step only while all others are at rest. -/
def OneAtATime (rest : τ → Bool) (p : Pool ι σ τ) : Action ι α → Prop
  | .work i _ => ∀ j, j ≠ i → rest (p.thread j) = true
  | .tick _ => True

/-- Nobody is ever disturbed in a run of one call at a time. -/
theorem along_oneAtATime {rest : τ → Bool} (hrest : ∀ u, rest u = true → W.inside u = false)
    {p : Pool ι σ τ} {as : List (Action ι α)} (has : S.machine.Along (OneAtATime rest) p as) :
    (W.machine S).Along (fun q _ => ∀ j, q.disturbed j = false) p.watched as := by
  refine (W.machine S).along_of_step (P := fun q => ∀ j, q.disturbed j = false) ?_
    (fun _ => rfl) ((W.along_watched S (OneAtATime rest) p.watched as).mpr has)
  intro q a hq hone
  refine ⟨hq, fun j => ?_⟩
  cases a with
  | tick d => exact hq j
  | work i a =>
    show W.mark S q i a j = false
    unfold mark
    split
    · rw [hq i, Bool.false_and]
    · rename_i hj
      rw [hq j, hrest _ (hone j hj), Bool.false_and, Bool.or_false]

theorem calm_of_oneAtATime {rest : τ → Bool} (hrest : ∀ u, rest u = true → W.inside u = false)
    {p : Pool ι σ τ} {as : List (Action ι α)} (has : S.machine.Along (OneAtATime rest) p as) :
    (W.machine S).Along W.Calm p.watched as := by
  refine (W.machine S).along_mono ?_ (along_oneAtATime hrest has)
  rintro q (⟨i, a⟩ | d) hq
  · exact fun _ => hq i
  · trivial

end Watch

end Threads
