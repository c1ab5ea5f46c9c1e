import CncnetServer.Lib.Watch
import Mathlib.Data.Finset.Card
import Mathlib.Data.Finset.Filter

/-!
A gauge that the threads set to the number of keys of a map.

A thread that changes the keys reads their number afterwards and stores it, in two
steps. Three kinds of threads rely on what they have seen instead: one that has read the
number and has yet to store it, one that has found a key and is about to put a new value
under it, and an allocation, which inserts keys that it has not found and which may take
them all back without a store. What another thread does in between can make each of them
leave a wrong gauge behind (`disturbs`).

* `Attended`: whoever was disturbed ends only while another thread is going to see to the
  gauge;
* `settled_run`: in such a run the gauge has the number of keys, allocations in progress
  apart, or some thread is going to see to it;
* `attended_of_oneAtATime`: a run of one call at a time is such a run.
-/

namespace Threads

open Runs

/-- What there is to know about a gauge: its value, the keys it counts, which threads are
going to read their number and to store it, and what the others rely on. -/
structure Gauge (K σ τ α : Type*) where
  value : σ → Nat
  keys : σ → Finset K
  reads : τ → Bool
  /-- The number that the thread has read and has yet to store. -/
  stores : τ → Option Nat
  /-- The key that the thread has found and is about to put a new value under. -/
  found : τ → Option K
  /-- The key that an allocation has not found and is about to insert. -/
  missed : τ → Option K
  /-- The keys that an allocation has inserted. -/
  holds : τ → List K
  /-- The store, the new value under a key, and the last removal of an allocation. -/
  acts : τ → α → Bool

namespace Gauge

variable {K ι σ τ α ε : Type*} [DecidableEq K] (G : Gauge K σ τ α)

/-- An allocation is in progress. -/
def allocates (th : τ) : Bool := (G.missed th).isSome || !(G.holds th).isEmpty

/-- The thread is going to settle the gauge, or to leave that to another one. -/
def attends (th : τ) : Bool := G.reads th || (G.stores th).isSome || G.allocates th

/-- What a step, from `s` and `th` to `s'` and `th'`, does to another thread: between its
reading and its store the keys change; the key it has found is removed; or, during its
allocation, the keys change, their number is read or stored, or another allocation ends. -/
def upsets (s : σ) (th : τ) (s' : σ) (th' u : τ) : Bool :=
  ((G.stores u).isSome && decide (G.keys s' ≠ G.keys s)) ||
    (G.found u).any (fun k => decide (k ∈ G.keys s ∧ k ∉ G.keys s')) ||
    (G.allocates u && (decide (G.keys s' ≠ G.keys s) ||
      ((G.stores th).isSome != (G.stores th').isSome) ||
      (G.allocates th && !G.allocates th')))

/-- Who relies on what it has seen, and who disturbs it. -/
def watch (S : System σ τ α ε) : Watch σ τ α where
  inside th := (G.stores th).isSome || (G.found th).isSome || G.allocates th
  disturbs s th a u := G.upsets s th (S.exec s th a).1 (S.exec s th a).2 u
  acts := G.acts

/-- A thread that was disturbed acts only while another one is going to see to the gauge. -/
def Attended (q : Watched ι σ τ) : Action ι α → Prop
  | .work i a => G.acts (q.thread i) a = true → q.disturbed i = true →
      ∃ j, j ≠ i ∧ G.attends (q.thread j) = true
  | .tick _ => True

instance [Fintype ι] [DecidableEq ι] (q : Watched ι σ τ) :
    (a : Action ι α) → Decidable (G.Attended q a)
  | .work i a => inferInstanceAs (Decidable (G.acts (q.thread i) a = true →
      q.disturbed i = true → ∃ j, j ≠ i ∧ G.attends (q.thread j) = true))
  | .tick _ => .isTrue trivial

/-! ## Steps -/

/-- What a thread relies on, besides the keys of its allocation. -/
structure Knows (s : σ) (th : τ) : Prop where
  stores : ∀ n ∈ G.stores th, n = (G.keys s).card
  found : ∀ k ∈ G.found th, k ∈ G.keys s
  missed : ∀ k ∈ G.missed th, k ∉ G.keys s

/-- The thread relies on nothing. -/
structure Free (th : τ) : Prop where
  stores : G.stores th = none
  found : G.found th = none
  allocates : G.allocates th = false

/-- What one step can do. -/
inductive Step (s : σ) (th : τ) (a : α) (s' : σ) (th' : τ) : Prop
  /-- Nothing that concerns the gauge, except that a key is looked up. -/
  | quiet : G.value s' = G.value s → G.keys s' = G.keys s →
      (G.reads th = true → G.reads th' = true) → G.stores th' = G.stores th →
      (∀ k ∈ G.found th', G.found th = some k ∨ k ∈ G.keys s) →
      (∀ k ∈ G.missed th', G.missed th = some k ∨ k ∉ G.keys s) →
      (∀ k, k ∈ G.holds th' ↔ k ∈ G.holds th) → (G.allocates th = true → G.allocates th' = true) →
      Step s th a s' th'
  | going : G.reads th' = true → G.Free th' → Step s th a s' th'
  | read : G.keys s' = G.keys s → G.stores th' = some (G.keys s).card → G.found th' = none →
      G.allocates th' = false → Step s th a s' th'
  | store {n} : G.stores th = some n → G.acts th a = true → G.value s' = n →
      G.keys s' = G.keys s → G.Free th' → Step s th a s' th'
  | reinsert {k} : G.found th = some k → G.reads th = false → G.stores th = none →
      G.allocates th = false → G.acts th a = true → G.value s' = G.value s →
      G.keys s' = insert k (G.keys s) → G.Free th' → Step s th a s' th'
  | hold {k} : G.missed th = some k → G.reads th = false → G.stores th = none →
      G.value s' = G.value s → G.keys s' = insert k (G.keys s) →
      (∀ x, x ∈ G.holds th' ↔ x = k ∨ x ∈ G.holds th) → G.missed th' = none →
      G.stores th' = none → G.found th' = none → Step s th a s' th'
  | takeBack {k} : G.reads th = false → G.stores th = none → G.value s' = G.value s →
      G.keys s' = (G.keys s).erase k → (∀ x, x ∈ G.holds th ↔ x = k ∨ x ∈ G.holds th') →
      G.missed th' = none → G.stores th' = none → G.found th' = none →
      (G.holds th' = [] → G.acts th a = true) → Step s th a s' th'

/-- Every step of a system is one of these, and time changes nothing. -/
structure Lawful (S : System σ τ α ε) : Prop where
  exec : ∀ s th a, G.Step s th a (S.exec s th a).1 (S.exec s th a).2
  value_tick : ∀ s d, G.value (S.tick s d) = G.value s
  keys_tick : ∀ s d, G.keys (S.tick s d) = G.keys s

variable {G}

theorem Step.refl (s : σ) (th : τ) (a : α) : G.Step s th a s th :=
  .quiet rfl rfl id rfl (fun _ => Or.inl) (fun _ => Or.inl) (fun _ => Iff.rfl) id

omit [DecidableEq K] in
theorem allocates_eq_false {th : τ} :
    G.allocates th = false ↔ G.missed th = none ∧ G.holds th = [] := by
  unfold allocates
  rw [Bool.or_eq_false_iff, Option.isSome_eq_false_iff, Option.isNone_iff_eq_none,
    Bool.not_eq_false', List.isEmpty_iff]

omit [DecidableEq K] in
theorem not_mem_holds {th : τ} (h : G.allocates th = false) (k : K) : k ∉ G.holds th := by
  rw [(allocates_eq_false.mp h).2]
  exact List.not_mem_nil

/-- A step of a thread that neither reads nor stores nor allocates, before and after it. -/
theorem Step.of_bystander {s s' : σ} {th th' : τ} {a : α} (hvalue : G.value s' = G.value s)
    (hkeys : G.keys s' = G.keys s) (hreads : G.reads th = false) (hstores : G.stores th = none)
    (hallocates : G.allocates th = false) (hstores' : G.stores th' = none)
    (hallocates' : G.allocates th' = false)
    (hfound : ∀ k ∈ G.found th', G.found th = some k ∨ k ∈ G.keys s) : G.Step s th a s' th' := by
  rw [allocates_eq_false] at hallocates hallocates'
  refine .quiet hvalue hkeys (by simp [hreads]) (hstores'.trans hstores.symm) hfound ?_ ?_ ?_
  · simp [hallocates'.1]
  · simp [hallocates.2, hallocates'.2]
  · simp [allocates, hallocates.1, hallocates.2]

omit [DecidableEq K] in
theorem Free.knows {th : τ} (h : G.Free th) (s : σ) : G.Knows s th where
  stores := by simp [h.stores]
  found := by simp [h.found]
  missed := by simp [(allocates_eq_false.mp h.allocates).1]

omit [DecidableEq K] in
theorem allocates_of_mem {th : τ} {k : K} (h : k ∈ G.holds th) : G.allocates th = true := by
  by_contra hnot
  exact not_mem_holds (Bool.eq_false_of_not_eq_true hnot) k h

/-- A thread that has been let alone knows after its step what it then relies on. -/
theorem Step.knows {s s' : σ} {th th' : τ} {a : α} (h : G.Step s th a s' th')
    (hknows : G.Knows s th) : G.Knows s' th' := by
  cases h with
  | quiet _ hkeys _ hstores hfound hmissed _ _ =>
    refine ⟨fun n hn => ?_, fun k hk => ?_, fun k hk => ?_⟩
    · rw [hkeys]
      exact hknows.stores n (hstores ▸ hn)
    · rw [hkeys]
      exact (hfound k hk).elim (fun h => hknows.found k h) id
    · rw [hkeys]
      exact (hmissed k hk).elim (fun h => hknows.missed k h) id
  | going _ hfree => exact hfree.knows s'
  | read hkeys hstores hfound hallocates =>
    refine ⟨fun n hn => ?_, by simp [hfound], by simp [(allocates_eq_false.mp hallocates).1]⟩
    rw [hstores] at hn
    rw [hkeys]
    exact (Option.some.inj hn).symm
  | store _ _ _ _ hfree => exact hfree.knows s'
  | reinsert _ _ _ _ _ _ _ hfree => exact hfree.knows s'
  | hold _ _ _ _ _ _ hmissed hstores hfound =>
    exact ⟨by simp [hstores], by simp [hfound], by simp [hmissed]⟩
  | takeBack _ _ _ _ _ hmissed hstores hfound _ =>
    exact ⟨by simp [hstores], by simp [hfound], by simp [hmissed]⟩

/-- A step that does not upset a thread leaves what it knows true. -/
theorem Knows.of_not_upset {s s' : σ} {th th' u : τ} (h : G.Knows s u)
    (hupset : G.upsets s th s' th' u = false) : G.Knows s' u := by
  unfold upsets at hupset
  simp only [Bool.or_eq_false_iff] at hupset
  obtain ⟨⟨hstores, hfound⟩, hallocates⟩ := hupset
  refine ⟨fun n hn => ?_, fun k hk => ?_, fun k hk => ?_⟩
  · have hsome : (G.stores u).isSome = true := Option.isSome_of_mem hn
    rw [hsome, Bool.true_and, decide_eq_false_iff_not, not_not] at hstores
    rw [hstores]
    exact h.stores n hn
  · rw [Option.mem_def.mp hk, Option.any_some, decide_eq_false_iff_not] at hfound
    by_contra hgone
    exact hfound ⟨h.found k hk, hgone⟩
  · have hsome : G.allocates u = true := by
      unfold allocates
      rw [Option.isSome_of_mem hk, Bool.true_or]
    rw [hsome, Bool.true_and, Bool.or_eq_false_iff, Bool.or_eq_false_iff,
      decide_eq_false_iff_not, not_not] at hallocates
    rw [hallocates.1.1]
    exact h.missed k hk

theorem watch_keeps {S : System σ τ α ε} (hG : G.Lawful S) :
    (G.watch S).Keeps (ι := ι) S (fun _ => True) G.Knows where
  begins p i a := by
    intro _ houtside _
    refine (hG.exec p.shared (p.thread i) a).knows (Free.knows ?_ p.shared)
    have houtside : ((G.stores (p.thread i)).isSome || (G.found (p.thread i)).isSome ||
      G.allocates (p.thread i)) = false := houtside
    simp only [Bool.or_eq_false_iff, Option.isSome_eq_false_iff,
      Option.isNone_iff_eq_none] at houtside
    exact ⟨houtside.1.1, houtside.1.2, houtside.2⟩
  goes p i a _ _ hknows _ := (hG.exec p.shared (p.thread i) a).knows hknows
  undisturbed p i a j _ _ _ hupset hknows := hknows.of_not_upset hupset
  tick s d u hknows := by
    refine ⟨?_, ?_, ?_⟩ <;> rw [hG.keys_tick]
    · exact hknows.stores
    · exact hknows.found
    · exact hknows.missed

/-! ## Settled gauges -/

open Classical in
/-- The keys that no allocation in progress has inserted. -/
noncomputable def settledKeys (G : Gauge K σ τ α) (p : Pool ι σ τ) : Finset K :=
  (G.keys p.shared).filter fun k => ∀ i, k ∉ G.holds (p.thread i)

omit [DecidableEq K] in
theorem mem_settledKeys {p : Pool ι σ τ} {k : K} :
    k ∈ G.settledKeys p ↔ k ∈ G.keys p.shared ∧ ∀ i, k ∉ G.holds (p.thread i) := by
  classical
  simp [settledKeys]

omit [DecidableEq K] in
/-- While nobody allocates, all keys are settled. -/
theorem settledKeys_eq {p : Pool ι σ τ} (h : ∀ i, G.allocates (p.thread i) = false) :
    G.settledKeys p = G.keys p.shared := by
  ext k
  rw [mem_settledKeys]
  exact and_iff_left fun i => not_mem_holds (h i) k

/-- The gauge has the number of settled keys, or some thread is going to see to it: one that
reads the number, one that stores it, or an allocation that has been disturbed. -/
inductive Settled (G : Gauge K σ τ α) (q : Watched ι σ τ) : Prop
  | reads {i} : G.reads (q.thread i) = true → Settled G q
  | stores {i} : (G.stores (q.thread i)).isSome = true → Settled G q
  | allocates {i} : G.allocates (q.thread i) = true → q.disturbed i = true → Settled G q
  | right : G.value q.shared = (G.settledKeys q.toPool).card → Settled G q

variable [DecidableEq ι] {S : System σ τ α ε}

section Step

variable {q : Watched ι σ τ} {i : ι} {a : α}

/-- What is so of a thread stays so, if a step of that thread leaves it so. -/
theorem thread_keeps {P : τ → Prop}
    (hself : P (q.thread i) → P (S.exec q.shared (q.thread i) a).2) {j : ι}
    (h : P (q.thread j)) : P ((((G.watch S).machine S).step q (.work i a)).thread j) := by
  by_cases hj : j = i
  · subst hj
    rw [Watch.thread_self]
    exact hself h
  · rw [Watch.thread_other _ _ _ hj]
    exact h

/-- An allocation that a step upsets is disturbed. -/
theorem disturbed_of_upset {j : ι} (hj : j ≠ i) (hallocates : G.allocates (q.thread j) = true)
    (h : G.keys (S.exec q.shared (q.thread i) a).1 ≠ G.keys q.shared ∨
      (G.stores (q.thread i)).isSome ≠ (G.stores (S.exec q.shared (q.thread i) a).2).isSome ∨
      (G.allocates (q.thread i) = true ∧
        G.allocates (S.exec q.shared (q.thread i) a).2 = false)) :
    (((G.watch S).machine S).step q (.work i a)).disturbed j = true := by
  show (G.watch S).mark S q i a j = true
  have hupset : G.upsets q.shared (q.thread i) (S.exec q.shared (q.thread i) a).1
      (S.exec q.shared (q.thread i) a).2 (q.thread j) = true := by
    unfold upsets
    rw [hallocates]
    rcases h with h | h | ⟨h, h'⟩
    · simp [h]
    · simp [bne_iff_ne.mpr h]
    · simp [h, h']
  rw [Watch.mark, if_neg hj]
  show (q.disturbed j || (_ && G.upsets _ _ _ _ _)) = true
  rw [hupset]
  simp [watch, hallocates]

/-- A thread that is disturbed and whose section goes on stays disturbed. -/
theorem disturbed_self (hmark : q.disturbed i = true)
    (hallocates : G.allocates (S.exec q.shared (q.thread i) a).2 = true) :
    (((G.watch S).machine S).step q (.work i a)).disturbed i = true := by
  show (G.watch S).mark S q i a i = true
  rw [Watch.mark, if_pos rfl, hmark, Bool.true_and]
  simp [watch, hallocates]

theorem disturbed_other {j : ι} (hj : j ≠ i) (hmark : q.disturbed j = true) :
    (((G.watch S).machine S).step q (.work i a)).disturbed j = true := by
  show (G.watch S).mark S q i a j = true
  rw [Watch.mark, if_neg hj, hmark, Bool.true_or]

/-- The settled keys after a step that takes the keys of its thread with it. -/
theorem settledKeys_step (h : ∀ k,
    (k ∈ G.keys (S.exec q.shared (q.thread i) a).1 ∧
      k ∉ G.holds (S.exec q.shared (q.thread i) a).2) ↔
    (k ∈ G.keys q.shared ∧ k ∉ G.holds (q.thread i))) :
    G.settledKeys (((G.watch S).machine S).step q (.work i a)).toPool =
      G.settledKeys q.toPool := by
  ext k
  rw [mem_settledKeys, mem_settledKeys]
  constructor
  · rintro ⟨hk, hfree⟩
    have hi := hfree i
    rw [Watch.thread_self] at hi
    obtain ⟨hk, hi⟩ := (h k).mp ⟨hk, hi⟩
    refine ⟨hk, fun j => ?_⟩
    by_cases hj : j = i
    · subst hj
      exact hi
    · have hother := hfree j
      rwa [Watch.thread_other _ _ _ hj] at hother
  · rintro ⟨hk, hfree⟩
    obtain ⟨hk, hi⟩ := (h k).mpr ⟨hk, hfree i⟩
    exact ⟨hk, fun j => thread_keeps (P := fun u => k ∉ G.holds u) (fun _ => hi) (hfree j)⟩

/-- A step after which the gauge and the settled keys are what they were, and its thread
still sees to the gauge if it was going to. -/
theorem Settled.persist (h : G.Settled q)
    (hreads : G.reads (q.thread i) = true → G.reads (S.exec q.shared (q.thread i) a).2 = true)
    (hstores : (G.stores (q.thread i)).isSome = true →
      (G.stores (S.exec q.shared (q.thread i) a).2).isSome = true)
    (hallocates : G.allocates (q.thread i) = true → q.disturbed i = true →
      G.allocates (S.exec q.shared (q.thread i) a).2 = true)
    (hvalue : G.value (S.exec q.shared (q.thread i) a).1 = G.value q.shared)
    (hkeys : ∀ k, (k ∈ G.keys (S.exec q.shared (q.thread i) a).1 ∧
        k ∉ G.holds (S.exec q.shared (q.thread i) a).2) ↔
      (k ∈ G.keys q.shared ∧ k ∉ G.holds (q.thread i))) :
    G.Settled (((G.watch S).machine S).step q (.work i a)) := by
  cases h with
  | reads hj => exact .reads (thread_keeps (P := fun u => G.reads u = true) hreads hj)
  | stores hj => exact .stores (thread_keeps (P := fun u => (G.stores u).isSome = true) hstores hj)
  | @allocates j hj hmark =>
    by_cases hji : j = i
    · subst hji
      refine .allocates ?_ (disturbed_self hmark (hallocates hj hmark))
      rw [Watch.thread_self]
      exact hallocates hj hmark
    · refine .allocates ?_ (disturbed_other hji hmark)
      rw [Watch.thread_other _ _ _ hji]
      exact hj
  | right heq =>
    refine .right ?_
    rw [settledKeys_step hkeys]
    exact hvalue.trans heq

/-- When a disturbed thread acts, another one is going to see to the gauge. -/
theorem Settled.of_disturbed (hattended : G.Attended q (.work i a))
    (hacts : G.acts (q.thread i) a = true) (hmark : q.disturbed i = true)
    (hupset : G.keys (S.exec q.shared (q.thread i) a).1 ≠ G.keys q.shared ∨
      (G.stores (q.thread i)).isSome ≠ (G.stores (S.exec q.shared (q.thread i) a).2).isSome ∨
      (G.allocates (q.thread i) = true ∧
        G.allocates (S.exec q.shared (q.thread i) a).2 = false)) :
    G.Settled (((G.watch S).machine S).step q (.work i a)) := by
  obtain ⟨j, hj, hattends⟩ := hattended hacts hmark
  have hthread := Watch.thread_other (G.watch S) S q hj a
  unfold attends at hattends
  rw [Bool.or_eq_true, Bool.or_eq_true] at hattends
  rcases hattends with (hreads | hstores) | hallocates
  · exact .reads (hthread ▸ hreads)
  · exact .stores (hthread ▸ hstores)
  · exact .allocates (hthread ▸ hallocates) (disturbed_of_upset hj hallocates hupset)

/-- The store of a number that is right, as far as nobody allocates. -/
theorem Settled.of_store {n : Nat} (hstores : G.stores (q.thread i) = some n)
    (hvalue : G.value (S.exec q.shared (q.thread i) a).1 = n)
    (hkeys : G.keys (S.exec q.shared (q.thread i) a).1 = G.keys q.shared)
    (hfree : G.Free (S.exec q.shared (q.thread i) a).2) (hn : n = (G.keys q.shared).card) :
    G.Settled (((G.watch S).machine S).step q (.work i a)) := by
  by_cases hother : ∃ j, j ≠ i ∧ G.allocates (q.thread j) = true
  · obtain ⟨j, hj, hallocates⟩ := hother
    refine .allocates (Watch.thread_other (G.watch S) S q hj a ▸ hallocates)
      (disturbed_of_upset hj hallocates (Or.inr (Or.inl ?_)))
    rw [hstores, hfree.stores]
    simp
  · refine .right ?_
    rw [settledKeys_eq fun j => ?_]
    · show G.value (S.exec q.shared (q.thread i) a).1 =
        (G.keys (S.exec q.shared (q.thread i) a).1).card
      rw [hvalue, hn, hkeys]
    · by_cases hj : j = i
      · subst hj
        rw [Watch.thread_self]
        exact hfree.allocates
      · rw [Watch.thread_other _ _ _ hj]
        exact Bool.eq_false_of_not_eq_true fun hallocates => hother ⟨j, hj, hallocates⟩

end Step

theorem Settled.tick (hG : G.Lawful S) {q : Watched ι σ τ} (h : G.Settled q) (d : Nat) :
    G.Settled (((G.watch S).machine S).step q (.tick d)) := by
  cases h with
  | reads hi => exact .reads hi
  | stores hi => exact .stores hi
  | allocates hi hmark => exact .allocates hi hmark
  | right heq =>
    refine .right ?_
    show G.value (S.tick q.shared d) = _
    rw [hG.value_tick, heq]
    congr 1
    ext k
    rw [mem_settledKeys, mem_settledKeys]
    show _ ↔ k ∈ G.keys (S.tick q.shared d) ∧ _
    rw [hG.keys_tick]
    rfl

/-- **An attended step keeps the gauge settled.** -/
theorem Settled.step (hG : G.Lawful S) {q : Watched ι σ τ} (h : G.Settled q)
    (haware : (G.watch S).Aware G.Knows q) (i : ι) (a : α)
    (hattended : G.Attended q (.work i a)) :
    G.Settled (((G.watch S).machine S).step q (.work i a)) := by
  -- what an undisturbed thread relies on is true
  have hknows : ((G.stores (q.thread i)).isSome || (G.found (q.thread i)).isSome ||
      G.allocates (q.thread i)) = true → q.disturbed i = false →
      G.Knows q.shared (q.thread i) := haware i
  have hself := Watch.thread_self (G.watch S) S q i a
  cases hG.exec q.shared (q.thread i) a with
  | quiet hvalue hkeys hreads hstores _ _ hholds hallocates =>
    refine h.persist hreads (fun hs => hstores ▸ hs) (fun ha _ => hallocates ha) hvalue fun k => ?_
    rw [hkeys, hholds]
  | going hreads hfree => exact .reads (hself ▸ hreads)
  | read hkeys hstores _ _ =>
    refine .stores (i := i) ?_
    rw [hself, hstores]
    rfl
  | @store n hstores hacts hvalue hkeys hfree =>
    cases hmark : q.disturbed i with
    | true =>
      refine .of_disturbed hattended hacts hmark (Or.inr (Or.inl ?_))
      rw [hstores, hfree.stores]
      simp
    | false =>
      have hknown := hknows (by simp [hstores]) hmark
      exact .of_store hstores hvalue hkeys hfree (hknown.stores n hstores)
  | @reinsert k hfound hreads hstores hallocates hacts hvalue hkeys hfree =>
    by_cases hmem : k ∈ G.keys q.shared
    · refine h.persist (by simp [hreads]) (by simp [hstores]) (by simp [hallocates]) hvalue
        fun x => ?_
      rw [hkeys, Finset.insert_eq_of_mem hmem]
      simp [not_mem_holds hallocates, not_mem_holds hfree.allocates]
    · cases hmark : q.disturbed i with
      | true =>
        refine .of_disturbed hattended hacts hmark (Or.inl ?_)
        rw [hkeys]
        exact fun heq => hmem (heq ▸ Finset.mem_insert_self k _)
      | false => exact absurd ((hknows (by simp [hfound]) hmark).found k hfound) hmem
  | @hold k hmissed hreads hstores hvalue hkeys hholds _ _ _ =>
    have hallocates : G.allocates (S.exec q.shared (q.thread i) a).2 = true :=
      allocates_of_mem ((hholds k).mpr (Or.inl rfl))
    cases hmark : q.disturbed i with
    | true => exact .allocates (hself ▸ hallocates) (disturbed_self hmark hallocates)
    | false =>
      have hfresh := (hknows (by simp [Gauge.allocates, hmissed]) hmark).missed k hmissed
      refine h.persist (by simp [hreads]) (by simp [hstores]) (fun _ _ => hallocates) hvalue
        fun x => ?_
      rw [hkeys, hholds, Finset.mem_insert]
      constructor
      · rintro ⟨hx | hx, hnot⟩
        · exact absurd (Or.inl hx) hnot
        · exact ⟨hx, fun hmem => hnot (Or.inr hmem)⟩
      · rintro ⟨hx, hnot⟩
        refine ⟨Or.inr hx, ?_⟩
        rintro (rfl | hmem)
        · exact hfresh hx
        · exact hnot hmem
  | @takeBack k hreads hstores hvalue hkeys hholds hmissed _ _ hlast =>
    have hallocates : G.allocates (q.thread i) = true :=
      allocates_of_mem ((hholds k).mpr (Or.inl rfl))
    -- unless it is the last removal of a disturbed allocation
    have hpersist (hgoes : q.disturbed i = true →
        G.allocates (S.exec q.shared (q.thread i) a).2 = true) :
        G.Settled (((G.watch S).machine S).step q (.work i a)) := by
      refine h.persist (by simp [hreads]) (by simp [hstores]) (fun _ => hgoes) hvalue fun x => ?_
      rw [hkeys, hholds, Finset.mem_erase]
      tauto
    cases hafter : G.allocates (S.exec q.shared (q.thread i) a).2 with
    | true => exact hpersist fun _ => hafter
    | false =>
      cases hmark : q.disturbed i with
      | true =>
        exact .of_disturbed hattended (hlast (allocates_eq_false.mp hafter).2) hmark
          (Or.inr (Or.inr ⟨hallocates, hafter⟩))
      | false => exact hpersist fun h => absurd (hmark.symm.trans h) Bool.false_ne_true

/-- **A run whose disturbed threads are attended.** -/
theorem settled_run (hG : G.Lawful S) {p : Pool ι σ τ}
    (hstart : G.value p.shared = (G.keys p.shared).card)
    (hbegin : ∀ i, (G.watch S).inside (p.thread i) = false) {as : List (Action ι α)}
    (hattended : ((G.watch S).machine S).Along G.Attended p.watched as) :
    G.Settled (((G.watch S).machine S).run p.watched as) := by
  refine (((G.watch S).machine S).run_induction (C := G.Attended)
    (P := fun q => G.Settled q ∧ (G.watch S).Aware G.Knows q) ?_ ?_ as hattended).1
  · refine ⟨.right ?_, fun i hin => ?_⟩
    · exact hstart.trans (congrArg Finset.card
        (settledKeys_eq fun i => (Bool.or_eq_false_iff.mp (hbegin i)).2).symm)
    · exact absurd ((hbegin i).symm.trans hin) Bool.false_ne_true
  · rintro q a ⟨hq, haware⟩ hc
    refine ⟨?_, (watch_keeps hG).aware_step trivial haware a⟩
    cases a with
    | work i a => exact hq.step hG haware i a hc
    | tick d => exact hq.tick hG d

/-- When no thread is going to see to it, the gauge has the number of keys. -/
theorem value_eq (hG : G.Lawful S) {p : Pool ι σ τ}
    (hstart : G.value p.shared = (G.keys p.shared).card)
    (hbegin : ∀ i, (G.watch S).inside (p.thread i) = false) {as : List (Action ι α)}
    (hattended : ((G.watch S).machine S).Along G.Attended p.watched as)
    (hrest : ∀ i, G.attends ((S.machine.run p as).thread i) = false) :
    G.value (S.machine.run p as).shared = (G.keys (S.machine.run p as).shared).card := by
  have hsettled := settled_run hG hstart hbegin hattended
  have hrun := (G.watch S).run_watched S p.watched as
  generalize ((G.watch S).machine S).run p.watched as = q at hsettled hrun
  have hpool : q.toPool = S.machine.run p as := hrun
  rw [← hpool] at hrest ⊢
  have hno : ∀ i, (G.reads (q.thread i) = false ∧ (G.stores (q.thread i)).isSome = false) ∧
      G.allocates (q.thread i) = false := by
    intro i
    have h := hrest i
    unfold attends at h
    rwa [Bool.or_eq_false_iff, Bool.or_eq_false_iff] at h
  cases hsettled with
  | @reads i hi => exact absurd hi (by simp [(hno i).1.1])
  | @stores i hi => exact absurd hi (by simp [(hno i).1.2])
  | @allocates i hi _ => exact absurd hi (by simp [(hno i).2])
  | right heq => rw [heq, settledKeys_eq fun i => (hno i).2]

/-- A run of one call at a time is attended: nobody is disturbed in it. -/
theorem attended_of_oneAtATime {rest : τ → Bool}
    (hrest : ∀ u, rest u = true → (G.watch S).inside u = false) {p : Pool ι σ τ}
    {as : List (Action ι α)} (has : S.machine.Along (Watch.OneAtATime rest) p as) :
    ((G.watch S).machine S).Along G.Attended p.watched as := by
  refine ((G.watch S).machine S).along_mono ?_ (Watch.along_oneAtATime hrest has)
  rintro q (⟨i, a⟩ | d) hq
  · intro _ hmark
    rw [hq i] at hmark
    cases hmark
  · trivial

end Gauge

end Threads
