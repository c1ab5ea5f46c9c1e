import Mathlib.Data.List.Basic

/-!
Statements about the past of a run, over the list of what it has shown.

`Since on off tr`: something `on` has been shown, and nothing `off` after it.
`Always C tr`: each event met `C` with what had been shown before it. One lemma
each, `since_append` and `always_append`, says what more events do to them; the
rest of a proof about the past reads off what each step shows.
-/

namespace History

variable {ε : Type*} {on off : ε → Prop} {C : List ε → ε → Prop}

def Since (on off : ε → Prop) (tr : List ε) : Prop :=
  ∃ before e after, tr = before ++ e :: after ∧ on e ∧ ∀ x ∈ after, ¬ off x

theorem since_nil : ¬ Since on off [] := by
  rintro ⟨before, e, after, h, _⟩
  simp at h

@[simp] theorem since_singleton (e : ε) : Since on off [e] ↔ on e := by
  constructor
  · rintro ⟨before, x, after, h, hon, _⟩
    rcases before with _ | ⟨y, before⟩
    · cases h
      exact hon
    · simp at h
  · exact fun h => ⟨[], e, [], rfl, h, by simp⟩

theorem since_append (tr es : List ε) :
    Since on off (tr ++ es) ↔ Since on off es ∨ (Since on off tr ∧ ∀ e ∈ es, ¬ off e) := by
  constructor
  · rintro ⟨before, e, after, h, hon, hoff⟩
    rcases List.append_eq_append_iff.mp h with ⟨mid, hbefore, hes⟩ | ⟨mid, htr, hafter⟩
    · exact Or.inl ⟨mid, e, after, hes, hon, hoff⟩
    · rcases mid with _ | ⟨x, mid⟩
      · exact Or.inl ⟨[], e, after, by simpa using hafter.symm, hon, hoff⟩
      · simp only [List.cons_append, List.cons.injEq] at hafter
        obtain ⟨rfl, rfl⟩ := hafter
        refine Or.inr ⟨⟨before, e, mid, htr, hon, fun y hy => hoff y ?_⟩, fun y hy => hoff y ?_⟩
        · exact List.mem_append_left es hy
        · exact List.mem_append_right mid hy
  · rintro (⟨before, e, after, rfl, hon, hoff⟩ | ⟨⟨before, e, after, rfl, hon, hoff⟩, hes⟩)
    · exact ⟨tr ++ before, e, after, by simp, hon, hoff⟩
    · refine ⟨before, e, after ++ es, by simp, hon, fun x hx => ?_⟩
      rcases List.mem_append.mp hx with h | h
      · exact hoff x h
      · exact hes x h

/-- What does not turn the statement on leaves it off. -/
theorem Since.of_append {tr es : List ε} (h : Since on off (tr ++ es)) (hon : ∀ e ∈ es, ¬ on e) :
    Since on off tr ∧ ∀ e ∈ es, ¬ off e := by
  rcases (since_append tr es).mp h with ⟨before, e, after, rfl, he, _⟩ | h
  · exact absurd he (hon e (by simp))
  · exact h

instance decidableSince (on off : ε → Prop) [DecidablePred on] [DecidablePred off] :
    ∀ tr, Decidable (Since on off tr)
  | [] => .isFalse since_nil
  | e :: es =>
    have := decidableSince on off es
    have : Decidable (Since on off [e]) := decidable_of_iff (on e) (since_singleton e).symm
    decidable_of_iff _ (since_append [e] es).symm

/-- Of two ways to turn on, the second was the last one unless the first still stands. -/
theorem Since.last {on' : ε → Prop} {tr : List ε}
    (h : Since (fun e => on e ∨ on' e) off tr) (hnot : ¬ Since on off tr) :
    Since on' on tr := by
  obtain ⟨before, e, after, rfl, he, hoff⟩ := h
  have hafter : ∀ x ∈ after, ¬ on x := by
    intro x hx hon
    obtain ⟨mid, rest, rfl⟩ := List.mem_iff_append.mp hx
    refine hnot ⟨before ++ e :: mid, x, rest, by simp, hon, fun y hy => hoff y ?_⟩
    exact List.mem_append_right mid (List.mem_cons_of_mem x hy)
  rcases he with he | he
  · exact absurd ⟨before, e, after, rfl, he, hoff⟩ hnot
  · exact ⟨before, e, after, rfl, he, hafter⟩

theorem Since.mono {on' : ε → Prop} {tr : List ε} (h : Since on off tr)
    (hon : ∀ e, on e → on' e) : Since on' off tr := by
  obtain ⟨before, e, after, heq, he, hoff⟩ := h
  exact ⟨before, e, after, heq, hon e he, hoff⟩

/-- What stands has not been turned off since. -/
theorem Since.not_swap {tr : List ε} (h : Since on off tr) (hdisj : ∀ e, on e → ¬ off e) :
    ¬ Since off on tr := by
  rintro ⟨before', e', after', heq', he', hon⟩
  obtain ⟨before, e, after, rfl, he, hoff⟩ := h
  rcases List.append_eq_append_iff.mp heq' with ⟨mid, _, htail⟩ | ⟨mid, _, htail⟩
  · rcases mid with _ | ⟨x, mid⟩
    · cases htail
      exact hdisj _ he he'
    · cases htail
      exact hoff _ (by simp) he'
  · rcases mid with _ | ⟨x, mid⟩
    · cases htail
      exact hdisj _ he he'
    · cases htail
      exact hon _ (by simp) he

/-! ## Conditions on every event -/

def Always (C : List ε → ε → Prop) (tr : List ε) : Prop :=
  ∀ before e after, tr = before ++ e :: after → C before e

@[simp] theorem always_nil : Always C [] := by
  intro before e after h
  simp at h

theorem always_append (tr es : List ε) :
    Always C (tr ++ es) ↔ Always C tr ∧ Always (fun before => C (tr ++ before)) es := by
  constructor
  · intro h
    refine ⟨fun before e after heq => h before e (after ++ es) (by simp [heq]), ?_⟩
    exact fun before e after heq => h (tr ++ before) e after (by simp [heq])
  · rintro ⟨htr, hes⟩ before e after h
    rcases List.append_eq_append_iff.mp h with ⟨mid, rfl, heq⟩ | ⟨mid, heq, hafter⟩
    · exact hes mid e after heq
    · rcases mid with _ | ⟨x, mid⟩
      · have hbefore : tr = before := by simpa using heq
        subst hbefore
        simpa using hes [] e after hafter.symm
      · cases hafter
        exact htr before e mid heq

@[simp] theorem always_singleton (e : ε) : Always C [e] ↔ C [] e := by
  constructor
  · exact fun h => h [] e [] rfl
  · rintro h (_ | ⟨x, before⟩) e' after heq
    · cases heq
      exact h
    · simp at heq

theorem always_snoc (tr : List ε) (e : ε) : Always C (tr ++ [e]) ↔ Always C tr ∧ C tr e := by
  rw [always_append, always_singleton, List.append_nil]

instance decidableAlways : ∀ (C : List ε → ε → Prop) [∀ tr e, Decidable (C tr e)] tr,
    Decidable (Always C tr)
  | _, _, [] => .isTrue always_nil
  | C, _, e :: es =>
    have := decidableAlways (fun before => C ([e] ++ before)) es
    have := decidable_of_iff (C [] e) (always_singleton e).symm
    decidable_of_iff _ (always_append [e] es).symm

end History
