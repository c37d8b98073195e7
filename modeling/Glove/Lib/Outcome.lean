import Mathlib.Data.List.Basic

/-! # Computations that can fail

Two computations agree when both succeed with related results, or fail alike; loops whose steps agree do. A loop whose
steps cannot fail where an invariant holds does not fail, and keeps it. -/

/-- Two computations that both succeed, with results that `R` relates, or fail alike. -/
def SameOutcome {ε α β : Type} (R : α → β → Prop) : Except ε α → Except ε β → Prop
  | .ok a, .ok b => R a b
  | .error e, .error e' => e = e'
  | _, _ => False

section Loops
variable {ε α β σ : Type} {R : α → β → Prop}

theorem SameOutcome.of_ok {x : Except ε α} {b : β} (h : SameOutcome R x (.ok b)) : ∃ a, x = .ok a ∧ R a b := by
  cases x with
  | error e => cases h
  | ok a => exact ⟨a, rfl, h⟩

theorem SameOutcome.foldlM {f : α → σ → Except ε α} {g : β → σ → Except ε β}
    (hstep : ∀ a b s, R a b → SameOutcome R (f a s) (g b s)) {a : α} {b : β} (h : R a b) (ss : List σ) :
    SameOutcome R (ss.foldlM f a) (ss.foldlM g b) := by
  induction ss generalizing a b with
  | nil => exact h
  | cons s ss ih =>
    have hs := hstep a b s h
    rw [List.foldlM_cons, List.foldlM_cons]
    cases hg : g b s with
    | error e =>
      cases hf : f a s with
      | error e' =>
        rw [hf, hg] at hs
        exact hs
      | ok a' =>
        rw [hf, hg] at hs
        cases hs
    | ok b' =>
      rw [hg] at hs
      obtain ⟨a', hf, hR⟩ := hs.of_ok
      rw [hf]
      exact ih hR

/-- The invariant of a loop speaks of the items that it has gone through. -/
theorem foldlM_ok {f : α → σ → Except ε α} {I : List σ → α → Prop} (ss : List σ) {a : α} (ha : I [] a)
    (hstep : ∀ pre s post b, ss = pre ++ s :: post → I pre b → ∃ c, f b s = .ok c ∧ I (pre ++ [s]) c) :
    ∃ b, ss.foldlM f a = .ok b ∧ I ss b := by
  suffices h : ∀ post pre b, ss = pre ++ post → I pre b → ∃ c, post.foldlM f b = .ok c ∧ I ss c from h ss [] a rfl ha
  intro post
  induction post with
  | nil =>
    intro pre b hss hb
    rw [List.append_nil] at hss
    exact ⟨b, rfl, hss ▸ hb⟩
  | cons s post ih =>
    intro pre b hss hb
    obtain ⟨c, hc, hI⟩ := hstep pre s post b hss hb
    obtain ⟨d, hd, hId⟩ := ih (pre ++ [s]) c (by simp [hss]) hI
    refine ⟨d, ?_, hId⟩
    rw [List.foldlM_cons, hc]
    exact hd

end Loops
