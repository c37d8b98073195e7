import Mathlib.Topology.MetricSpace.Pseudo.Basic
import Mathlib.Algebra.Order.Floor.Semiring

/-! # Nearest labels

A scan over labelled elements keeps the label and the score of the first element of least score below a
starting score. Where the scores are distances rounded down, a point at a margin from the elements of
other labels gets the label of an element near it. -/

namespace Nearest

/-! ### The scan -/

section Scan
variable {ι γ β : Type} [LinearOrder β] (score : ι → β) (label : ι → γ)

/-- One pass of the scan over the best label and score so far. -/
def step (best : γ × β) (k : ι) : γ × β := if score k < best.2 then (label k, score k) else best

/-- `k` is the first element of least score in `ks`. -/
def IsFirstLeast (ks : List ι) (k : ι) : Prop :=
  ∃ pre post, ks = pre ++ k :: post ∧ (∀ j ∈ pre, score k < score j) ∧ ∀ j ∈ post, score k ≤ score j

variable {score label} {ks : List ι} {k : ι} {start : γ × β}

theorem IsFirstLeast.mem (h : IsFirstLeast score ks k) : k ∈ ks := by
  obtain ⟨pre, post, rfl, -, -⟩ := h
  simp

theorem IsFirstLeast.le (h : IsFirstLeast score ks k) {j : ι} (hj : j ∈ ks) : score k ≤ score j := by
  obtain ⟨pre, post, rfl, hpre, hpost⟩ := h
  rcases List.mem_append.mp hj with hj | hj
  · exact (hpre j hj).le
  · rcases List.mem_cons.mp hj with rfl | hj
    · exact le_rfl
    · exact hpost j hj

theorem isFirstLeast_head (h : ∀ j ∈ ks, score k ≤ score j) : IsFirstLeast score (k :: ks) k :=
  ⟨[], ks, rfl, fun _ hj => absurd hj List.not_mem_nil, h⟩

theorem IsFirstLeast.cons {k' : ι} (h : IsFirstLeast score ks k) (hlt : score k < score k') :
    IsFirstLeast score (k' :: ks) k := by
  obtain ⟨pre, post, rfl, hpre, hpost⟩ := h
  refine ⟨k' :: pre, post, rfl, fun j hj => ?_, hpost⟩
  rcases List.mem_cons.mp hj with rfl | hj
  · exact hlt
  · exact hpre j hj

/-- The scan ends as it started if no score is below the starting score, and else with the first element of
    least score. -/
theorem foldl_step (ks : List ι) (start : γ × β) :
    (ks.foldl (step score label) start = start ∧ ∀ k ∈ ks, start.2 ≤ score k) ∨
      ∃ k, ks.foldl (step score label) start = (label k, score k) ∧ score k < start.2 ∧ IsFirstLeast score ks k := by
  induction ks generalizing start with
  | nil => exact Or.inl ⟨rfl, fun k hk => absurd hk List.not_mem_nil⟩
  | cons k ks ih =>
    rw [List.foldl_cons]
    by_cases hlt : score k < start.2
    · have hstep : step score label start k = (label k, score k) := if_pos hlt
      rw [hstep]
      rcases ih (label k, score k) with ⟨heq, hall⟩ | ⟨k', heq, hlt', hfirst⟩
      · exact Or.inr ⟨k, heq, hlt, isFirstLeast_head hall⟩
      · exact Or.inr ⟨k', heq, hlt'.trans hlt, hfirst.cons hlt'⟩
    · have hstep : step score label start k = start := if_neg hlt
      have hle : start.2 ≤ score k := not_lt.mp hlt
      rw [hstep]
      rcases ih start with ⟨heq, hall⟩ | ⟨k', heq, hlt', hfirst⟩
      · exact Or.inl ⟨heq, List.forall_mem_cons.mpr ⟨hle, hall⟩⟩
      · exact Or.inr ⟨k', heq, hlt', hfirst.cons (hlt'.trans_le hle)⟩

theorem foldl_step_of_lt (hk : k ∈ ks) (hlt : score k < start.2) :
    ∃ k', ks.foldl (step score label) start = (label k', score k') ∧ IsFirstLeast score ks k' := by
  rcases foldl_step ks start with ⟨-, hall⟩ | ⟨k', heq, -, hfirst⟩
  · exact absurd (hall k hk) (not_le.mpr hlt)
  · exact ⟨k', heq, hfirst⟩

/-- An element that beats the starting score and every element of another label gives its label. -/
theorem foldl_step_label (hk : k ∈ ks) (hlt : score k < start.2)
    (hothers : ∀ j ∈ ks, label j ≠ label k → score k < score j) :
    (ks.foldl (step score label) start).1 = label k := by
  obtain ⟨k', heq, hfirst⟩ : ∃ k', ks.foldl (step score label) start = (label k', score k') ∧
      IsFirstLeast score ks k' := foldl_step_of_lt hk hlt
  rw [heq]
  by_contra hne
  exact absurd (hothers k' hfirst.mem hne) (not_lt.mpr (hfirst.le hk))

end Scan

/-! ### Distances rounded down -/

/-- A point within `r` of `a` is more than `r` away from what is at `2 r + 1` from `a`, also rounded down. -/
theorem floor_dist_lt {X : Type} [PseudoMetricSpace X] {a b x : X} {r : ℕ} (hnear : dist a x ≤ r)
    (hfar : 2 * r + 1 ≤ dist a b) : ⌊dist a x⌋₊ < ⌊dist b x⌋₊ := by
  have htriangle : dist a b ≤ dist a x + dist b x := dist_triangle_right a b x
  have hle : ⌊dist a x⌋₊ ≤ r := Nat.floor_le_of_le hnear
  have hlt : r + 1 ≤ ⌊dist b x⌋₊ := Nat.le_floor (by push_cast; linarith)
  omega

end Nearest
