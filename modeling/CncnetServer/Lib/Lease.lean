import CncnetServer.Lib.Run

/-!
Leases: entries that go if nobody renews them for a time, but only when somebody sweeps.

A lease is the time of its last renewal and whether anything else is held under its name;
`expired t now` says that a lease renewed at `t` is over at `now`, and later it is not less
over (`Ageing`). `LeaseStep` says what a step at some time may do to a lease; for any machine
whose steps do no more (`Leased`):

* `fresh_run`: a lease that has been renewed outlives every run that is over before its
  time is;
* `gone_run`: a lease that has lapsed and is not renewed is gone, and nothing is held for
  it, after any run with a sweep.
-/

namespace Leases

open Runs

/-- What is over stays over, and so is what was renewed before it. -/
def Ageing (expired : Nat → Nat → Bool) : Prop :=
  ∀ ⦃t t' now now'⦄, t' ≤ t → now ≤ now' → expired t now = true → expired t' now' = true

theorem Ageing.not_expired {expired : Nat → Nat → Bool} (h : Ageing expired) {t t' now now' : Nat}
    (ht : t ≤ t') (hnow : now' ≤ now) (hlive : expired t now = false) :
    expired t' now' = false := by
  rw [Bool.eq_false_iff] at hlive ⊢
  exact fun hover => hlive (h ht hnow hover)

structure Lease where
  renewed : Option Nat
  held : Bool

namespace Lease

/-- Drop the lease, and what is held for it, if it is over. -/
def sweep (expired : Nat → Nat → Bool) (now : Nat) (l : Lease) : Lease where
  renewed := l.renewed.filter fun t => !expired t now
  held := l.held && l.renewed.all fun t => !expired t now

def Gone (l : Lease) : Prop := l.renewed = none ∧ l.held = false

/-- At `now` the lease is over, or is gone already. -/
def Lapsed (expired : Nat → Nat → Bool) (now : Nat) (l : Lease) : Prop :=
  l.Gone ∨ ∃ t, l.renewed = some t ∧ expired t now = true

/-- The lease was renewed at `since` or later. -/
def Fresh (since : Nat) (l : Lease) : Prop := ∃ t, l.renewed = some t ∧ since ≤ t

variable {expired : Nat → Nat → Bool} (hage : Ageing expired)
include hage

theorem Lapsed.sweep_gone {start now : Nat} {l : Lease} (h : l.Lapsed expired start)
    (hle : start ≤ now) : (l.sweep expired now).Gone := by
  rcases h with ⟨hnone, hheld⟩ | ⟨t, ht, hold⟩
  · simp [Gone, sweep, hnone, hheld]
  · have hlate : expired t now = true := hage (Nat.le_refl t) hle hold
    simp [Gone, sweep, ht, hlate]

theorem Fresh.sweep_eq {since now : Nat} {l : Lease} (h : l.Fresh since)
    (hlive : expired since now = false) : l.sweep expired now = l := by
  obtain ⟨t, ht, hsince⟩ := h
  have hstill : expired t now = false := hage.not_expired hsince (Nat.le_refl now) hlive
  obtain ⟨renewed, held⟩ := l
  obtain rfl : renewed = some t := ht
  simp [sweep, hstill]

end Lease

/-- What a step at `now` may do to a lease. -/
inductive LeaseStep (expired : Nat → Nat → Bool) (now : Nat) (renews : Prop) : Lease → Lease → Prop
  | keep {l l' : Lease} : l'.renewed = l.renewed → (l.held = false → l'.held = false) →
      LeaseStep expired now renews l l'
  | sweep (l : Lease) : LeaseStep expired now renews l (l.sweep expired now)
  | renew (l : Lease) (held : Bool) : renews → LeaseStep expired now renews l ⟨some now, held⟩

namespace LeaseStep

variable {expired : Nat → Nat → Bool} {now : Nat} {renews : Prop} {l l' : Lease}

theorem mono {renews' : Prop} (h : LeaseStep expired now renews l l') (hr : renews → renews') :
    LeaseStep expired now renews' l l' := by
  cases h with
  | keep hrenewed hheld => exact .keep hrenewed hheld
  | sweep => exact .sweep _
  | renew _ hrenews => exact .renew _ _ (hr hrenews)

variable (hage : Ageing expired)
include hage

theorem lapsed {start : Nat} (h : LeaseStep expired now renews l l') (hno : ¬ renews)
    (hle : start ≤ now) (hl : l.Lapsed expired start) : l'.Lapsed expired start := by
  cases h with
  | keep hrenewed hheld =>
    rcases hl with ⟨hnone, hnot⟩ | ⟨t, ht, hold⟩
    · exact Or.inl ⟨hrenewed.trans hnone, hheld hnot⟩
    · exact Or.inr ⟨t, hrenewed.trans ht, hold⟩
  | sweep => exact Or.inl (hl.sweep_gone hage hle)
  | renew _ hrenews => exact absurd hrenews hno

theorem gone (h : LeaseStep expired now renews l l') (hno : ¬ renews) (hl : l.Gone) :
    l'.Gone := by
  cases h with
  | keep hrenewed hheld => exact ⟨hrenewed.trans hl.1, hheld hl.2⟩
  | sweep =>
    have hlapsed : l.Lapsed expired now := Or.inl hl
    exact hlapsed.sweep_gone hage (Nat.le_refl _)
  | renew _ hrenews => exact absurd hrenews hno

theorem fresh {since : Nat} (h : LeaseStep expired now renews l l') (hstart : since ≤ now)
    (hend : expired since now = false) (hl : l.Fresh since) : l'.Fresh since := by
  cases h with
  | keep hrenewed _ =>
    obtain ⟨t, ht, hsince⟩ := hl
    exact ⟨t, hrenewed.trans ht, hsince⟩
  | sweep =>
    rw [hl.sweep_eq hage hend]
    exact hl
  | renew => exact ⟨now, rfl, hstart⟩

end LeaseStep

/-! ## Machines -/

variable {σ α ε : Type*} (M : Machine σ α ε) (expired : Nat → Nat → Bool) (lease : σ → Lease)
variable (time : α → Nat) (renews : σ → α → Prop)

/-- Every step of the machine is a step on the lease. -/
def Leased : Prop := ∀ s a, LeaseStep expired (time a) (renews s a) (lease s) (lease (M.step s a))

namespace Leased

variable {M expired lease time renews} (hage : Ageing expired)
include hage

theorem fresh_run (h : Leased M expired lease time renews) {since : Nat} {s : σ} {as : List α}
    (hs : (lease s).Fresh since)
    (htimes : ∀ a ∈ as, since ≤ time a ∧ expired since (time a) = false) :
    (lease (M.run s as)).Fresh since := by
  refine M.run_induction (P := fun s => (lease s).Fresh since) hs ?_ as (M.along_of_mem htimes s)
  intro t a ht ha
  exact (h t a).fresh hage ha.1 ha.2 ht

/-- From its renewal until its time is over, a lease outlives the steps before another one. -/
theorem renewed_run (h : Leased M expired lease time renews) {s : σ} {a b : α} {as : List α}
    (hs : (lease (M.step s a)).Fresh (time a))
    (hmono : ((a :: as ++ [b]).map time).Pairwise (· ≤ ·))
    (hend : expired (time a) (time b) = false) :
    (lease (M.run s (a :: as))).Fresh (time a) := by
  rw [List.cons_append, List.map_cons, List.pairwise_cons, List.map_append,
    List.pairwise_append] at hmono
  obtain ⟨hafter, _, _, hbefore⟩ := hmono
  refine h.fresh_run hage (s := M.step s a) hs ?_
  intro c hc
  have hmem : time c ∈ as.map time := List.mem_map_of_mem hc
  have hle : time c ≤ time b := hbefore _ hmem _ (List.mem_singleton_self _)
  exact ⟨hafter _ (List.mem_append_left _ hmem), hage.not_expired (Nat.le_refl _) hle hend⟩

/-- A lease that has lapsed is gone after a run with a sweep, if no step renews it. -/
theorem gone_run (h : Leased M expired lease time renews) {start : Nat} {s : σ}
    {before after : List α} {a : α} (hs : (lease s).Lapsed expired start)
    (hquiet : M.Along (fun t b => start ≤ time b ∧ ¬ renews t b) s (before ++ a :: after))
    (hsweep : lease (M.step (M.run s before) a) = (lease (M.run s before)).sweep expired (time a)) :
    (lease (M.run s (before ++ a :: after))).Gone := by
  rw [M.along_append, M.along_cons] at hquiet
  obtain ⟨hbefore, ha, hafter⟩ := hquiet
  have hlapsed : (lease (M.run s before)).Lapsed expired start := by
    refine M.run_induction (P := fun t => (lease t).Lapsed expired start) hs ?_ before hbefore
    intro t b ht hb
    exact (h t b).lapsed hage hb.2 hb.1 ht
  have hgone : (lease (M.step (M.run s before) a)).Gone := by
    rw [hsweep]
    exact hlapsed.sweep_gone hage ha.1
  rw [M.run_append, M.run_cons]
  refine M.run_induction (P := fun t => (lease t).Gone) hgone ?_ after hafter
  intro t b ht hb
  exact (h t b).gone hage hb.2 ht

end Leased

end Leases
