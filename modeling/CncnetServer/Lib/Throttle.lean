import CncnetServer.Lib.Run
import Mathlib.Data.List.Count
import Mathlib.Tactic.Common

/-!
What a run can spend from a level that refills with time, and what it can count on.

A step costs something, or tops the level up; between the steps the level rises with the
clock, or is filled up at intervals.

* `total_le`: a run spends no more than it had, was given and has gained;
* `affords`: a level that is filled up to `n` at intervals is never found empty, if it is asked
  for no more than `n` times in any window as long as an interval.
-/

namespace Runs.Machine

variable {σ α ε : Type*} (M : Machine σ α ε)

/-- What the steps of a run cost. -/
def total (cost : σ → α → Nat) (s : σ) : List α → Nat
  | [] => 0
  | a :: as => cost s a + total cost (M.step s a) as

/-- The clock does not go back between `start` and `finish`. -/
def Clocked (time : σ → α → Nat) (finish : Nat) (start : Nat) (s : σ) : List α → Prop
  | [] => start ≤ finish
  | a :: as => start ≤ time s a ∧ Clocked time finish (time s a) (M.step s a) as

instance decidableClocked (time : σ → α → Nat) (finish : Nat) :
    ∀ start s as, Decidable (M.Clocked time finish start s as)
  | _, _, [] => inferInstanceAs (Decidable (_ ≤ _))
  | _, s, a :: as =>
    have := decidableClocked time finish (time s a) (M.step s a) as
    inferInstanceAs (Decidable (_ ∧ _))

variable {M} {time : σ → α → Nat}

theorem Clocked.le {finish start : Nat} {s : σ} {as : List α}
    (h : M.Clocked time finish start s as) : start ≤ finish := by
  induction as generalizing start s with
  | nil => exact h
  | cons a as ih => exact Nat.le_trans h.1 (ih h.2)

theorem total_mono {cost cost' : σ → α → Nat} (h : ∀ s a, cost s a ≤ cost' s a) (s : σ)
    (as : List α) : M.total cost s as ≤ M.total cost' s as := by
  induction as generalizing s with
  | nil => exact Nat.le_refl _
  | cons a as ih => exact Nat.add_le_add (h s a) (ih _)

theorem total_mul (cost : σ → α → Nat) (n : Nat) (s : σ) (as : List α) :
    M.total (fun s a => cost s a * n) s as = M.total cost s as * n := by
  induction as generalizing s with
  | nil => exact (Nat.zero_mul n).symm
  | cons a as ih =>
    unfold total
    rw [ih, Nat.add_mul]

/-- **Spending.** `P` is what the steps keep of the state. -/
theorem total_le {P : σ → Prop} (level : σ → Nat → Nat) (cost gain : σ → α → Nat) (rate : Nat)
    (hrefill : ∀ s t t', P s → t ≤ t' → level s t' ≤ level s t + rate * (t' - t))
    (hstep : ∀ s a, P s →
      cost s a + level (M.step s a) (time s a) ≤ level s (time s a) + gain s a)
    (hP : ∀ s a, P s → P (M.step s a)) {s : σ} (hs : P s) {start finish : Nat} {as : List α}
    (hclock : M.Clocked time finish start s as) :
    M.total cost s as + level (M.run s as) finish ≤
      level s start + M.total gain s as + rate * (finish - start) := by
  induction as generalizing s start with
  | nil =>
    have hlast := hrefill s start finish hs hclock
    simp only [total, run_nil]
    omega
  | cons a as ih =>
    obtain ⟨hstart, hclock⟩ := hclock
    have hnow := hstep s a hs
    have hpast := hrefill s start (time s a) hs hstart
    have hrest := ih (hP s a hs) hclock
    have hle := hclock.le
    have hsplit : rate * (finish - start) =
        rate * (time s a - start) + rate * (finish - time s a) := by
      rw [← Nat.mul_add]
      congr 1
      omega
    simp only [total, run_cons]
    omega

/-! ## Windows -/

/-- At most `n` of the points lie in any window of length `W`. -/
def AtMostPer (n W : Nat) (ts : List Nat) : Prop :=
  ∀ u, ts.countP (fun x => decide (u ≤ x ∧ x < u + W)) ≤ n

theorem AtMostPer.sublist {n W : Nat} {ts ts' : List Nat} (h : AtMostPer n W ts)
    (hsub : ts'.Sublist ts) : AtMostPer n W ts' :=
  fun u => Nat.le_trans (List.Sublist.countP_le hsub) (h u)

variable (M)

/-- When the steps of a run ask for the price. -/
def asked (time : σ → α → Nat) (asks : σ → α → Bool) (s : σ) : List α → List Nat
  | [] => []
  | a :: as =>
    if asks s a then time s a :: asked time asks (M.step s a) as else asked time asks (M.step s a) as

variable {M} {asks : σ → α → Bool}

section Affords

/-! `level` is filled up to `n` at intervals of length `W`, last at `since`. -/

variable {P : σ → Nat → Prop} (level since : σ → Nat → Nat) {n W : Nat} (hW : 0 < W)
variable (hfill : ∀ s t t', P s t → t ≤ t' →
  n ≤ level s t' ∨ (level s t ≤ level s t' ∧ since s t' = since s t))
variable (hstep : ∀ s a, P s (time s a) →
  n ≤ level (M.step s a) (time s a) + (asks s a).toNat ∨
    (level s (time s a) ≤ level (M.step s a) (time s a) + (asks s a).toNat ∧
      since (M.step s a) (time s a) = since s (time s a)))
variable (hback : ∀ s t, P s t → since s t ≤ t)
variable (hfresh : ∀ s t, P s t → n ≤ level s t ∨ t < since s t + W)
variable (hP : ∀ s a, P s (time s a) → P (M.step s a) (time s a))
variable (hlater : ∀ s t t', P s t → t ≤ t' → P s t')
include hW hfill hstep hback hfresh hP hlater

/-- `recent` are times the price was asked for since the level was filled up last: what is
missing they have taken. -/
theorem affords_since {s : σ} {start finish : Nat} (hs : P s start) (recent : List Nat)
    (hrecent : ∀ x ∈ recent, since s start ≤ x ∧ x ≤ start)
    (hlevel : n ≤ level s start + recent.length) {as : List α}
    (hclock : M.Clocked time finish start s as)
    (hrare : AtMostPer n W (recent ++ M.asked time asks s as)) :
    M.Along (fun s a => asks s a = true → 0 < level s (time s a)) s as := by
  induction as generalizing s start recent with
  | nil => trivial
  | cons a as ih =>
    obtain ⟨hstart, hclock⟩ := hclock
    have hnow := hlater s start (time s a) hs hstart
    have hnext := hP s a hnow
    -- the level has been filled up in the meantime, and nothing is missing, or it has not
    obtain ⟨taken, hsub, htaken, hmissing⟩ : ∃ taken : List Nat, taken.Sublist recent ∧
        (∀ x ∈ taken, since s (time s a) ≤ x ∧ x ≤ time s a) ∧
        n ≤ level s (time s a) + taken.length := by
      rcases hfill s start (time s a) hs hstart with hfull | ⟨hkept, hsame⟩
      · exact ⟨[], List.nil_sublist _, by simp, by simpa using hfull⟩
      · refine ⟨recent, List.Sublist.refl _, fun x hx => ?_, by omega⟩
        rw [hsame]
        exact ⟨(hrecent x hx).1, Nat.le_trans (hrecent x hx).2 hstart⟩
    have hrare : AtMostPer n W (taken ++ M.asked time asks s (a :: as)) :=
      hrare.sublist (hsub.append_right _)
    have hself := hback s (time s a) hnow
    have hself' := hback (M.step s a) (time s a) hnext
    unfold asked at hrare
    have hcost := hstep s a hnow
    cases ha : asks s a with
    | false =>
      rw [ha, if_neg Bool.false_ne_true] at hrare
      simp only [ha, Bool.toNat_false, Nat.add_zero] at hcost
      refine ⟨fun h => absurd (ha.symm.trans h) Bool.false_ne_true, ?_⟩
      rcases hcost with hfull | ⟨hkept, hsame⟩
      · exact ih hnext [] (by simp) (by simpa using hfull) hclock
          (hrare.sublist (List.sublist_append_right _ _))
      · exact ih hnext taken (fun x hx => hsame ▸ htaken x hx) (by omega) hclock hrare
    | true =>
      rw [ha, if_pos rfl, List.append_cons] at hrare
      rw [ha, Bool.toNat_true] at hcost
      have hasked := hrare.sublist (List.sublist_append_left (taken ++ [time s a]) _)
      refine ⟨fun _ => ?_, ?_⟩
      · rcases hfresh s (time s a) hnow with hfull | hopen
        · -- a full level is not empty, as the price may be asked for once
          have hone := (hasked.sublist (List.sublist_append_right taken _)) (time s a)
          rw [List.countP_singleton, decide_eq_true (by omega), if_pos rfl] at hone
          exact Nat.lt_of_lt_of_le hone hfull
        · -- all that was taken, and what is asked for now, falls into one window
          have hall := hasked (since s (time s a))
          rw [List.countP_eq_length.mpr ?_, List.length_append, List.length_singleton] at hall
          · omega
          · intro x hx
            have hle : since s (time s a) ≤ x ∧ x ≤ time s a := by
              rcases List.mem_append.mp hx with hx | hx
              · exact htaken x hx
              · rw [List.mem_singleton.mp hx]
                exact ⟨hself, Nat.le_refl _⟩
            rw [decide_eq_true_eq]
            omega
      · rcases hcost with hfull | ⟨hkept, hsame⟩
        · refine ih hnext [time s a] (by simpa using hself') hfull hclock (hrare.sublist ?_)
          exact (List.sublist_append_right taken [time s a]).append_right _
        · refine ih hnext (taken ++ [time s a]) (fun x hx => ?_) ?_ hclock hrare
          · rw [hsame]
            rcases List.mem_append.mp hx with hx | hx
            · exact htaken x hx
            · rw [List.mem_singleton.mp hx]
              exact ⟨hself, Nat.le_refl _⟩
          · rw [List.length_append, List.length_singleton]
            omega

/-- **Affording.** From a full level the price is paid whenever it is asked for. -/
theorem affords {s : σ} {start finish : Nat} (hs : P s start) (hfull : n ≤ level s start)
    {as : List α} (hclock : M.Clocked time finish start s as)
    (hrare : AtMostPer n W (M.asked time asks s as)) :
    M.Along (fun s a => asks s a = true → 0 < level s (time s a)) s as :=
  affords_since level since hW hfill hstep hback hfresh hP hlater hs [] (by simp)
    (by simpa using hfull) hclock hrare

end Affords

end Runs.Machine
