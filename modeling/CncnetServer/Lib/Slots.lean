import CncnetServer.Lib.Run
import Mathlib.Logic.Function.Basic

/-!
The abstract relay: a table of slots, each with the endpoint that owns it and
the time it was last heard from.

`RowStep` says everything one step may do to one slot: hand out an unclaimed
slot, bind a free slot to the endpoint of an accepted packet, refresh the slot
of the endpoint that owns it, and drop a dead slot. The facts the table exists
for follow from it alone, for any machine whose steps are such row steps under some
view of its state:

* `provenance`: an endpoint that owns a slot got there by an accepted packet;
* `RowStep.live_or_accepted`: a live slot changes only through its own owner;
* `stays_bound`: an owner that keeps sending keeps its slot;
* `claims`: an unclaimed slot goes to the first who sends.

`Renames` relates two tables whose slots are the same under other names.
-/

namespace Slots

structure Slot (E : Type) where
  endpoint : Option E
  last : Nat
  deriving DecidableEq

abbrev Table (ι E : Type) := ι → Option (Slot E)

variable {ι E : Type}

/-- The slot may be bound: it does not exist, nobody owns it, or it is dead. -/
def Free (dead : Slot E → Prop) : Option (Slot E) → Prop
  | none => True
  | some s => s.endpoint = none ∨ dead s

/-- What one step may do to one slot; `dead` says which slots have been silent
for too long, and `acc e` that the step accepts a packet of `e` for this slot. -/
inductive RowStep (dead : Slot E → Prop) (acc : E → Prop) :
    Option (Slot E) → Option (Slot E) → Prop
  | keep (r) : RowStep dead acc r r
  | allocate (t : Nat) : RowStep dead acc none (some ⟨none, t⟩)
  | bind {r} (e : E) (t : Nat) : Free dead r → acc e → RowStep dead acc r (some ⟨some e, t⟩)
  | touch (e : E) (l t : Nat) : acc e → RowStep dead acc (some ⟨some e, l⟩) (some ⟨some e, t⟩)
  | expire (s : Slot E) : dead s → RowStep dead acc (some s) none

/-- The slot is owned by `e`. -/
def BoundTo (r : Option (Slot E)) (e : E) : Prop := ∃ l, r = some ⟨some e, l⟩

variable {dead : Slot E → Prop} {acc : E → Prop} {old new : Option (Slot E)}

/-- A step that accepts more endpoints may do no less. -/
theorem RowStep.mono {acc' : E → Prop} (h : RowStep dead acc old new)
    (hacc : ∀ e, acc e → acc' e) : RowStep dead acc' old new := by
  cases h with
  | keep => exact .keep _
  | allocate t => exact .allocate t
  | bind e t hf ha => exact .bind e t hf (hacc e ha)
  | touch e l t ha => exact .touch e l t (hacc e ha)
  | expire s hd => exact .expire s hd

theorem RowStep.bound_source {e : E} (h : RowStep dead acc old new) (hb : BoundTo new e) :
    BoundTo old e ∨ acc e := by
  obtain ⟨l, hb⟩ := hb
  cases h with
  | keep => exact Or.inl ⟨l, hb⟩
  | allocate t => cases hb
  | bind e' t _ ha => cases hb; exact Or.inr ha
  | touch e' l' t ha => cases hb; exact Or.inr ha
  | expire s _ => cases hb

/-- A live slot is left alone, or refreshed for its owner. -/
theorem RowStep.live_or_accepted {e : E} {l : Nat}
    (h : RowStep dead acc (some ⟨some e, l⟩) new) (hlive : ¬ dead ⟨some e, l⟩) :
    new = some ⟨some e, l⟩ ∨ (acc e ∧ BoundTo new e) := by
  cases h with
  | keep => exact Or.inl rfl
  | bind e' t hf _ =>
    rcases hf with hf | hf
    · cases hf
    · exact absurd hf hlive
  | touch _ _ t ha => exact Or.inr ⟨ha, t, rfl⟩
  | expire _ hx => exact absurd hx hlive

theorem RowStep.stays_bound {e : E} {l : Nat}
    (h : RowStep dead acc (some ⟨some e, l⟩) new) (hlive : ¬ dead ⟨some e, l⟩) :
    BoundTo new e := by
  rcases h.live_or_accepted hlive with h | h
  · exact ⟨l, h⟩
  · exact h.2

section Machines

open Runs

variable {σ α ε : Type} (M : Machine σ α ε) (view : σ → Table ι E)
variable (dead : α → Slot E → Prop) (accepts : σ → α → ι → E → Prop)

/-- Every step of the machine is a row step on every slot of its view. -/
def Refines : Prop :=
  ∀ s a i, RowStep (dead a) (accepts s a i) (view s i) (view (M.step s a) i)

variable {M view dead accepts}

/-- **Provenance.** The owner of a slot owned it from the start, or some step of
the run accepted a packet of it for that slot. -/
theorem provenance (href : Refines M view dead accepts) {s : σ} {as : List α} {i : ι} {e : E}
    (hb : BoundTo (view (M.run s as) i) e) :
    BoundTo (view s i) e ∨
      ∃ before a after, as = before ++ a :: after ∧ accepts (M.run s before) a i e := by
  induction as using List.reverseRecOn with
  | nil => exact Or.inl hb
  | append_singleton as a ih =>
    rw [M.run_snoc] at hb
    rcases (href (M.run s as) a i).bound_source hb with h | h
    · rcases ih h with h | ⟨before, b, after, hsplit, hacc⟩
      · exact Or.inl h
      · exact Or.inr ⟨before, b, after ++ [a], by simp [hsplit], hacc⟩
    · exact Or.inr ⟨as, a, [], rfl, h⟩

/-- `sends` steps come often enough: at no step has the time since the last of them run
out, the first one counted from `last`. -/
def KeepsSending (expired : Nat → Nat → Bool) (sends : α → Prop) [DecidablePred sends]
    (time : α → Nat) : Nat → List α → Prop
  | _, [] => True
  | last, a :: as =>
    expired last (time a) = false ∧
      KeepsSending expired sends time (if sends a then time a else last) as

instance decidableKeepsSending (expired : Nat → Nat → Bool) (sends : α → Prop) [DecidablePred sends]
    (time : α → Nat) : ∀ last as, Decidable (KeepsSending expired sends time last as)
  | _, [] => .isTrue trivial
  | last, a :: as =>
    have := decidableKeepsSending expired sends time (if sends a then time a else last) as
    inferInstanceAs (Decidable (_ ∧ _))

/-- **An owner that keeps sending keeps its slot**, if only its own packets are
accepted for it and every one of them refreshes it. -/
theorem stays_bound {expired : Nat → Nat → Bool} {time : α → Nat} {C : σ → α → Prop}
    {sends : α → Prop} [DecidablePred sends] {i : ι} {e : E}
    (href : Refines M view (fun a s => expired s.last (time a) = true) accepts)
    (hacc : ∀ s a, accepts s a i e → sends a)
    (hsend : ∀ s a l, C s a → sends a → view s i = some ⟨some e, l⟩ →
      view (M.step s a) i = some ⟨some e, time a⟩)
    {as : List α} {s : σ} {last : Nat} (h0 : view s i = some ⟨some e, last⟩)
    (hC : M.Along C s as) (hk : KeepsSending expired sends time last as) :
    BoundTo (view (M.run s as) i) e := by
  induction as generalizing s last with
  | nil => exact ⟨last, h0⟩
  | cons a as ih =>
    obtain ⟨hlive, hk⟩ := hk
    by_cases ha : sends a
    · rw [if_pos ha] at hk
      exact ih (hsend s a last hC.1 ha h0) hC.2 hk
    · rw [if_neg ha] at hk
      have hrow := href s a i
      rw [h0] at hrow
      rcases hrow.live_or_accepted (Bool.eq_false_iff.mp hlive) with h | h
      · exact ih h hC.2 hk
      · exact absurd (hacc s a h.1) ha

/-- The owner-to-be of a slot sends before anybody else does. -/
def SendsFirst (sends others : α → Prop) : List α → Prop
  | [] => True
  | a :: as => sends a ∨ (¬ others a ∧ SendsFirst sends others as)

instance decidableSendsFirst (sends others : α → Prop) [DecidablePred sends]
    [DecidablePred others] : ∀ as, Decidable (SendsFirst sends others as)
  | [] => .isTrue trivial
  | _ :: as =>
    have := decidableSendsFirst sends others as
    inferInstanceAs (Decidable (_ ∨ _))

/-- **An unclaimed slot goes to the first who sends**, and stays with him as long as he keeps
sending. The induction is on the steps up to his first one. -/
theorem claims {expired : Nat → Nat → Bool} {time : α → Nat} {C : σ → α → Prop}
    {sends others : α → Prop} [DecidablePred sends] {i : ι} {e : E}
    (href : Refines M view (fun a s => expired s.last (time a) = true) accepts)
    (hacc : ∀ s a, accepts s a i e → sends a)
    (hothers : ∀ s a e', accepts s a i e' → e' = e ∨ others a)
    (hsend : ∀ s a owner l, C s a → sends a → (owner = none ∨ owner = some e) →
      view s i = some ⟨owner, l⟩ → view (M.step s a) i = some ⟨some e, time a⟩)
    {as : List α} {s : σ} {last : Nat} (h0 : view s i = some ⟨none, last⟩)
    (hC : M.Along C s as) (hk : KeepsSending expired sends time last as)
    (hfirst : SendsFirst sends others as) :
    if ∃ a ∈ as, sends a then BoundTo (view (M.run s as) i) e
    else view (M.run s as) i = some ⟨none, last⟩ := by
  induction as generalizing s with
  | nil => simpa using h0
  | cons a as ih =>
    obtain ⟨hlive, hk⟩ := hk
    by_cases ha : sends a
    · rw [if_pos ⟨a, List.mem_cons_self, ha⟩]
      rw [if_pos ha] at hk
      have hbound := hsend s a none last hC.1 ha (Or.inl rfl) h0
      exact stays_bound (s := M.step s a) href hacc
        (fun s b l hc hb => hsend s b (some e) l hc hb (Or.inr rfl)) hbound hC.2 hk
    · rw [if_neg ha] at hk
      obtain ⟨hquiet, hfirst⟩ := hfirst.resolve_left ha
      have hkept : view (M.step s a) i = some ⟨none, last⟩ := by
        have hrow := href s a i
        rw [h0] at hrow
        generalize view (M.step s a) i = new at hrow
        cases hrow with
        | keep => rfl
        | bind e' t _ he' =>
          rcases hothers s a e' he' with rfl | h
          · exact absurd (hacc s a he') ha
          · exact absurd h hquiet
        | expire _ hdead => exact absurd hdead (Bool.eq_false_iff.mp hlive)
      have hrest := ih hkept hC.2 hk hfirst
      simpa [ha] using hrest

end Machines

section Renaming

variable {κ : Type}

/-- The tables have the same slots, all owned, under the names `i` and `f i`. -/
structure Renames (f : ι → κ) (T : Table ι E) (T' : Table κ E) : Prop where
  injective : ∀ i j, (T i).isSome → (T j).isSome → f i = f j → i = j
  onto : ∀ k, (T' k).isSome → ∃ i, (T i).isSome ∧ f i = k
  slot : ∀ i, (T i).isSome → T' (f i) = T i
  owned : ∀ i s, T i = some s → s.endpoint.isSome

variable {f : ι → κ} {T : Table ι E} {T' : Table κ E}

/-- The owner of a slot, and when it was last heard from. -/
theorem Renames.exists_owner (h : Renames f T T') {i : ι} (hi : (T i).isSome) :
    ∃ e l, T i = some ⟨some e, l⟩ ∧ T' (f i) = some ⟨some e, l⟩ := by
  obtain ⟨⟨owner, l⟩, hs⟩ := Option.isSome_iff_exists.mp hi
  obtain ⟨e, rfl⟩ := Option.isSome_iff_exists.mp (h.owned i _ hs)
  exact ⟨e, l, hs, (h.slot i hi).trans hs⟩

theorem Renames.isSome (h : Renames f T T') {i : ι} (hi : (T i).isSome) : (T' (f i)).isSome := by
  rw [h.slot i hi]
  exact hi

/-- A slot that exists and changes still exists. -/
theorem isSome_update [DecidableEq ι] {i : ι} (hi : (T i).isSome) (s : Slot E) (j : ι) :
    (Function.update T i (some s) j).isSome ↔ (T j).isSome := by
  by_cases hj : j = i
  · subst hj; simp [hi]
  · simp [hj]

/-- A slot that changes alike in both tables. -/
theorem Renames.update [DecidableEq ι] [DecidableEq κ] (h : Renames f T T') {i : ι}
    (hi : (T i).isSome) (e : E) (l : Nat) :
    Renames f (Function.update T i (some ⟨some e, l⟩))
      (Function.update T' (f i) (some ⟨some e, l⟩)) := by
  have hsame := isSome_update hi ⟨some e, l⟩
  refine ⟨?_, ?_, ?_, ?_⟩
  · intro j k hj hk
    exact h.injective j k ((hsame j).mp hj) ((hsame k).mp hk)
  · intro k hk
    by_cases heq : k = f i
    · exact ⟨i, (hsame i).mpr hi, heq.symm⟩
    · rw [Function.update_of_ne heq] at hk
      obtain ⟨j, hj, rfl⟩ := h.onto k hk
      exact ⟨j, (hsame j).mpr hj, rfl⟩
  · intro j hj
    have hj := (hsame j).mp hj
    by_cases heq : j = i
    · subst heq
      rw [Function.update_self, Function.update_self]
    · have hne : f j ≠ f i := fun hf => heq (h.injective j i hj hi hf)
      rw [Function.update_of_ne hne, Function.update_of_ne heq]
      exact h.slot j hj
  · intro j s hs
    by_cases heq : j = i
    · subst heq
      rw [Function.update_self] at hs
      cases hs
      rfl
    · rw [Function.update_of_ne heq] at hs
      exact h.owned j s hs

end Renaming

end Slots
