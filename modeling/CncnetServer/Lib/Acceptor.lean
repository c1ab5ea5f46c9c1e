import CncnetServer.Lib.Run

/-!
Loops that take connections, seen as machines.

An acceptor is a view of a machine: the states in which the loop is at work, the actions
that offer a connection and those that end the loop, and what it means that an offered
connection is taken. If the loop takes what it is offered for as long as it is at work
(`Lawful`), then a run takes every connection exactly if none is offered after the end
(`takes_all_iff`).
-/

namespace Runs

structure Acceptor (σ α : Type*) where
  listening : σ → Prop
  offers : α → Prop
  ends : α → Prop
  takes : σ → α → Prop

namespace Acceptor

variable {σ α ε : Type*} (L : Acceptor σ α) (M : Machine σ α ε)

/-- If the step is offered a connection, it takes it. -/
def TakesOffered (s : σ) (a : α) : Prop := L.offers a → L.takes s a

/-- No connection is offered after the end of the loop. -/
def OffersBeforeEnd (as : List α) : Prop := as.Pairwise fun a b => L.ends a → ¬ L.offers b

structure Lawful : Prop where
  takes_iff : ∀ s a, L.offers a → (L.takes s a ↔ L.listening s)
  listening_step : ∀ s a, L.listening (M.step s a) ↔ L.listening s ∧ ¬ L.ends a

variable {L M}

/-- A loop that has ended takes nothing. -/
theorem Lawful.takes_none (h : L.Lawful M) {s : σ} (hs : ¬ L.listening s) (as : List α) :
    M.Along L.TakesOffered s as ↔ ∀ a ∈ as, ¬ L.offers a := by
  induction as generalizing s with
  | nil => simp
  | cons a as ih =>
    have hnext : ¬ L.listening (M.step s a) := fun hnext => hs ((h.listening_step s a).mp hnext).1
    have htakes : L.TakesOffered s a ↔ ¬ L.offers a := by
      refine ⟨fun ht ha => ?_, fun hno ha => absurd ha hno⟩
      exact hs ((h.takes_iff s a ha).mp (ht ha))
    rw [Machine.along_cons, htakes, ih hnext, List.forall_mem_cons]

/-- **The connections of a run** are all taken exactly if none is offered after the end. -/
theorem Lawful.takes_all_iff (h : L.Lawful M) {s : σ} (hs : L.listening s) (as : List α) :
    M.Along L.TakesOffered s as ↔ L.OffersBeforeEnd as := by
  induction as generalizing s with
  | nil => simp [OffersBeforeEnd]
  | cons a as ih =>
    have htakes : L.TakesOffered s a := fun ha => (h.takes_iff s a ha).mpr hs
    unfold OffersBeforeEnd at ih ⊢
    rw [Machine.along_cons, List.pairwise_cons]
    by_cases hend : L.ends a
    · have hstopped : ¬ L.listening (M.step s a) := by
        rw [h.listening_step]
        exact fun hnext => hnext.2 hend
      rw [h.takes_none hstopped]
      constructor
      · rintro ⟨_, hnone⟩
        refine ⟨fun b hb _ => hnone b hb, ?_⟩
        exact List.pairwise_of_forall_mem_list fun b _ c hc _ => hnone c hc
      · rintro ⟨hnone, _⟩
        exact ⟨htakes, fun b hb => hnone b hb hend⟩
    · have hnext : L.listening (M.step s a) := (h.listening_step s a).mpr ⟨hs, hend⟩
      rw [ih hnext]
      constructor
      · rintro ⟨_, hrest⟩
        exact ⟨fun b _ hea => absurd hea hend, hrest⟩
      · rintro ⟨_, hrest⟩
        exact ⟨htakes, hrest⟩

end Acceptor

end Runs
