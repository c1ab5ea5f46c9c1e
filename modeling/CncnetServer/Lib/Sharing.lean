import CncnetServer.Lib.Run
import Mathlib.Algebra.BigOperators.Group.Finset.Piecewise
import Mathlib.Algebra.Group.End
import Mathlib.Algebra.Group.Submonoid.Basic
import Mathlib.Tactic.Abel

/-!
Machines that share a part of their state which all of them write and none of them reads.

* `Part`: the shared part, as something to look at and to put in its place;
* `Blind`: a function that writes the part without reading it, and how such functions compose;
* `share`: the machines over one part, in any order of their steps;
* `share_project`: each machine does there what it does alone;
* `share_tally`, `share_own`: what adds up in the part, and what belongs to one machine.
-/

namespace Runs

structure Part (σ μ : Type*) where
  get : σ → μ
  put : μ → σ → σ
  get_put : ∀ m s, get (put m s) = m
  put_put : ∀ m m' s, put m (put m' s) = put m s
  put_get : ∀ s, put (get s) s = s

namespace Part

variable {σ μ : Type*} (part : Part σ μ)

/-- Two states that differ in the part at most. -/
def Same (s t : σ) : Prop := ∀ m, part.put m s = part.put m t

theorem Same.refl (s : σ) : part.Same s s := fun _ => rfl

theorem same_put (m : μ) (s : σ) : part.Same (part.put m s) s := fun m' => part.put_put m' m s

variable {part}

theorem Same.trans {s t u : σ} (h : part.Same s t) (h' : part.Same t u) : part.Same s u :=
  fun m => (h m).trans (h' m)

theorem Same.eq_put {s t : σ} (h : part.Same s t) : s = part.put (part.get s) t := by
  rw [← h, part.put_get]

end Part

namespace Part

variable {σ τ μ : Type*}

/-- The part of a part. -/
def comp (outer : Part τ σ) (part : Part σ μ) : Part τ μ where
  get s := part.get (outer.get s)
  put m s := outer.put (part.put m (outer.get s)) s
  get_put m s := by rw [outer.get_put, part.get_put]
  put_put m m' s := by rw [outer.get_put, part.put_put, outer.put_put]
  put_get s := by rw [part.put_get, outer.put_get]

end Part

/-! ## Blind functions -/

section Blind

variable {σ μ β γ : Type*} {part : Part σ μ} {W : Submonoid (Function.End μ)}

/-- The function writes the part as `W` allows, and reads nothing of it. -/
def Blind (part : Part σ μ) (W : Submonoid (Function.End μ)) (f : σ → σ × β) (s : σ) : Prop :=
  ∃ g ∈ W, ∀ m, f (part.put m s) = (part.put (g m) (f s).1, (f s).2)

theorem Blind.of_eq {f : σ → σ × β} {s : σ}
    (h : ∀ m, f (part.put m s) = (part.put m (f s).1, (f s).2)) : Blind part W f s :=
  ⟨1, W.one_mem, h⟩

/-- What does not touch the part, with what it answers. -/
theorem Blind.id (b : β) (s : σ) : Blind part W (fun s => (s, b)) s := .of_eq fun _ => rfl

/-- Only what the function does to the state with any part in its place matters. -/
theorem Blind.congr {f f' : σ → σ × β} {s : σ} (hf : Blind part W f' s)
    (h : ∀ m, f (part.put m s) = f' (part.put m s)) : Blind part W f s := by
  obtain ⟨g, hg, hfg⟩ := hf
  have hs := h (part.get s)
  rw [part.put_get] at hs
  refine ⟨g, hg, fun m => ?_⟩
  rw [h, hfg, hs]

theorem Blind.bind {f : σ → σ × β} {k : β → σ → σ × γ} {s : σ} (hf : Blind part W f s)
    (hk : Blind part W (k (f s).2) (f s).1) : Blind part W (fun s => k (f s).2 (f s).1) s := by
  obtain ⟨g, hg, hfg⟩ := hf
  obtain ⟨g', hg', hkg⟩ := hk
  refine ⟨g' * g, W.mul_mem hg' hg, fun m => ?_⟩
  simp only [hfg, hkg]
  rfl

theorem Blind.map {f : σ → σ × β} {s : σ} (hf : Blind part W f s) (h : β → γ) :
    Blind part W (fun s => ((f s).1, h (f s).2)) s :=
  hf.bind (k := fun b s => (s, h b)) (Blind.of_eq fun _ => rfl)

/-- What is blind on a part of the state is blind on the state. -/
theorem Blind.zoom {τ : Type*} (outer : Part τ σ) {f : σ → σ × β} {s : τ}
    (hf : Blind part W f (outer.get s)) :
    Blind (outer.comp part) W (fun s => (outer.put (f (outer.get s)).1 s, (f (outer.get s)).2)) s := by
  obtain ⟨g, hg, hfg⟩ := hf
  refine ⟨g, hg, fun m => ?_⟩
  simp only [Part.comp, outer.get_put, hfg, outer.put_put]

/-- What the function makes of two states that differ in the part at most. -/
theorem Blind.same {f : σ → σ × β} {s t : σ} (hf : Blind part W f t) (h : part.Same s t) :
    part.Same (f s).1 (f t).1 ∧ (f s).2 = (f t).2 := by
  obtain ⟨g, -, hfg⟩ := hf
  rw [h.eq_put, hfg]
  exact ⟨part.same_put _ _, rfl⟩

/-- What it leaves in the part, in both. -/
theorem Blind.get {f : σ → σ × β} {s t : σ} (hf : Blind part W f t) (h : part.Same s t) :
    ∃ g ∈ W, part.get (f s).1 = g (part.get s) ∧ part.get (f t).1 = g (part.get t) := by
  obtain ⟨g, hg, hfg⟩ := hf
  have hput : ∀ m, part.get (f (part.put m t)).1 = g m := by
    intro m
    rw [hfg, part.get_put]
  refine ⟨g, hg, ?_, ?_⟩
  · rw [h.eq_put, hput, part.get_put]
  · rw [← hput, part.put_get]

end Blind

/-- Every step writes the part as `W` allows, and no step reads it. -/
def Machine.WriteOnly {σ α ε μ : Type*} (M : Machine σ α ε) (part : Part σ μ)
    (W : Submonoid (Function.End μ)) : Prop :=
  ∀ s a, Blind part W (fun s => (M.step s a, M.emit s a)) s

/-! ## Sharing -/

section Share

variable {κ : Type*} [DecidableEq κ]

/-- What belongs to one of the machines. -/
def pick {β : κ → Type*} (k : κ) (x : Sigma β) : Option (β k) :=
  if h : x.1 = k then some (h ▸ x.2) else none

@[simp] theorem pick_self {β : κ → Type*} (k : κ) (b : β k) : pick k ⟨k, b⟩ = some b := by
  simp [pick]

theorem pick_of_ne {β : κ → Type*} {j k : κ} (h : j ≠ k) (b : β j) :
    pick (β := β) k ⟨j, b⟩ = none := by
  simp [pick, h]

theorem pick_map_self {β : κ → Type*} (k : κ) (bs : List (β k)) :
    (bs.map (Sigma.mk k)).filterMap (pick k) = bs := by
  rw [List.filterMap_map]
  exact (List.filterMap_congr fun b _ => pick_self k b).trans List.filterMap_some

theorem pick_map_of_ne {β : κ → Type*} {j k : κ} (h : j ≠ k) (bs : List (β j)) :
    (bs.map (Sigma.mk (β := β) j)).filterMap (pick k) = [] := by
  rw [List.filterMap_map]
  exact List.filterMap_eq_nil_iff.mpr fun b _ => pick_of_ne h b

variable {σ α ε : κ → Type*} {μ : Type*}
variable (M : ∀ k, Machine (σ k) (α k) (ε k)) (part : ∀ k, Part (σ k) μ)

/-- After a step of one machine all of them see the part that it has left. -/
def share : Machine (∀ k, σ k) (Sigma α) (Sigma ε) where
  step s a := fun k => (part k).put ((part a.1).get ((M a.1).step (s a.1) a.2))
    (Function.update s a.1 ((M a.1).step (s a.1) a.2) k)
  emit s a := ((M a.1).emit (s a.1) a.2).map (Sigma.mk a.1)

variable {M part}

theorem get_share_step (s : ∀ k, σ k) (a : Sigma α) (k : κ) :
    (part k).get ((share M part).step s a k) = (part a.1).get ((M a.1).step (s a.1) a.2) :=
  (part k).get_put _ _

variable {W : κ → Submonoid (Function.End μ)} (hM : ∀ k, (M k).WriteOnly (part k) (W k))
include hM

/-- A step of one machine is its own step to itself, and none to the others. -/
theorem same_share_step {s t : ∀ k, σ k} (h : ∀ k, (part k).Same (s k) (t k)) (a : Sigma α)
    (k : κ) : (part k).Same ((share M part).step s a k)
      (Function.update t a.1 ((M a.1).step (t a.1) a.2) k) := by
  refine ((part k).same_put _ _).trans ?_
  by_cases hk : k = a.1
  · subst hk
    rw [Function.update_self, Function.update_self]
    exact ((hM a.1 (t a.1) a.2).same (h a.1)).1
  · rw [Function.update_of_ne hk, Function.update_of_ne hk]
    exact h k

/-- **Each machine does what it does alone**, but for the part. -/
theorem share_project {s t : ∀ k, σ k} (h : ∀ k, (part k).Same (s k) (t k)) (as : List (Sigma α))
    (k : κ) :
    (part k).Same ((share M part).run s as k) ((M k).run (t k) (as.filterMap (pick k))) ∧
      ((share M part).trace s as).filterMap (pick k) =
        (M k).trace (t k) (as.filterMap (pick k)) := by
  induction as generalizing s t with
  | nil => exact ⟨h k, rfl⟩
  | cons a as ih =>
    obtain ⟨hrun, htrace⟩ := ih (same_share_step hM h a)
    rw [Machine.run_cons, Machine.trace_cons, List.filterMap_append]
    obtain ⟨i, a⟩ := a
    by_cases hi : i = k
    · subst hi
      rw [Function.update_self] at hrun htrace
      rw [List.filterMap_cons_some (pick_self i a), Machine.run_cons, Machine.trace_cons]
      refine ⟨hrun, ?_⟩
      rw [htrace]
      congr 1
      have hemit : (M i).emit (s i) a = (M i).emit (t i) a :=
        ((hM i (t i) a).same (h i)).2
      exact (pick_map_self i _).trans hemit
    · rw [Function.update_of_ne (Ne.symm hi)] at hrun htrace
      rw [List.filterMap_cons_none (pick_of_ne hi a)]
      refine ⟨hrun, ?_⟩
      rw [htrace]
      exact congrArg (· ++ _) (pick_map_of_ne hi _)

/-- **What adds up.** If each write adds to `w` what does not depend on the part, the machines
add to it together what each of them adds alone. -/
theorem share_tally [Fintype κ] {G : Type*} [AddCommGroup G] {w : μ → G}
    (hw : ∀ k, ∀ g ∈ W k, ∀ m m', w (g m) - w m = w (g m') - w m')
    {s t : ∀ k, σ k} (h : ∀ k, (part k).Same (s k) (t k)) {m : μ}
    (hm : ∀ k, (part k).get (s k) = m) (as : List (Sigma α)) (j : κ) :
    w ((part j).get ((share M part).run s as j)) - w m =
      ∑ k, (w ((part k).get ((M k).run (t k) (as.filterMap (pick k)))) -
        w ((part k).get (t k))) := by
  induction as generalizing s t m with
  | nil => simp [hm]
  | cons a as ih =>
    have hrest := ih (same_share_step hM h a) (get_share_step s a)
    obtain ⟨i, a⟩ := a
    obtain ⟨g, hg, hs, ht⟩ := (hM i (t i) a).get (h i)
    rw [hm i] at hs
    -- what the step adds, in company and alone
    have hstep : w ((part i).get ((M i).step (s i) a)) - w m =
        w ((part i).get ((M i).step (t i) a)) - w ((part i).get (t i)) := by
      rw [hs, ht]
      exact hw i g hg _ _
    have hterm : ∀ k, w ((part k).get ((M k).run (t k) ((⟨i, a⟩ :: as).filterMap (pick k)))) -
        w ((part k).get (t k)) =
        (w ((part k).get ((M k).run (Function.update t i ((M i).step (t i) a) k)
            (as.filterMap (pick k)))) -
          w ((part k).get (Function.update t i ((M i).step (t i) a) k))) +
        if k = i then w ((part i).get ((M i).step (s i) a)) - w m else 0 := by
      intro k
      by_cases hk : k = i
      · subst hk
        rw [List.filterMap_cons_some (pick_self k a), Machine.run_cons, Function.update_self,
          if_pos rfl, hstep]
        abel
      · rw [List.filterMap_cons_none (pick_of_ne (Ne.symm hk) a), Function.update_of_ne hk,
          if_neg hk, add_zero]
    rw [Finset.sum_congr rfl fun k _ => hterm k, Finset.sum_add_distrib, Finset.sum_ite_eq',
      if_pos (Finset.mem_univ i), ← hrest, Machine.run_cons]
    abel

/-- **What belongs to one machine.** If the others leave `w` alone, and what this one writes to it
depends on nothing else, `w` is what the machine alone leaves in it. -/
theorem share_own {γ : Type*} {w : μ → γ} (k : κ)
    (hothers : ∀ j, j ≠ k → ∀ g ∈ W j, ∀ m, w (g m) = w m)
    (hown : ∀ g ∈ W k, ∀ m m', w m = w m' → w (g m) = w (g m'))
    {s t : ∀ k, σ k} (h : ∀ k, (part k).Same (s k) (t k)) {m : μ}
    (hm : ∀ k, (part k).get (s k) = m) (hw : w m = w ((part k).get (t k))) (as : List (Sigma α))
    (j : κ) :
    w ((part j).get ((share M part).run s as j)) =
      w ((part k).get ((M k).run (t k) (as.filterMap (pick k)))) := by
  induction as generalizing s t m with
  | nil =>
    rw [Machine.run_nil, hm]
    exact hw
  | cons a as ih =>
    have hrest := ih (same_share_step hM h a) (get_share_step s a)
    obtain ⟨i, a⟩ := a
    obtain ⟨g, hg, hs, ht⟩ := (hM i (t i) a).get (h i)
    rw [hm i] at hs
    rw [Machine.run_cons, hrest]
    · by_cases hi : i = k
      · subst hi
        rw [List.filterMap_cons_some (pick_self i a), Machine.run_cons, Function.update_self]
      · rw [List.filterMap_cons_none (pick_of_ne hi a), Function.update_of_ne (Ne.symm hi)]
    · by_cases hi : i = k
      · subst hi
        rw [Function.update_self]
        exact (congrArg w hs).trans ((hown g hg m _ hw).trans (congrArg w ht).symm)
      · rw [Function.update_of_ne (Ne.symm hi)]
        exact (congrArg w hs).trans ((hothers i hi g hg m).trans hw)

end Share

end Runs
