import Mathlib.Data.List.Basic

/-! # Machines with outputs

A machine reads one input a step and answers with a list of outputs. This file holds its runs and the
rules the proofs about them use: what every step keeps holds after every run, with or without the
history so far; what a run answers is paid for by its steps; two machines that answer alike step by step
answer alike over runs; a machine whose steps are runs of another is a refinement of it; and inputs that
leave no mark can be left out. -/

structure Mealy (σ ι ο : Type) where
  step : σ → ι → σ × List ο

namespace Mealy
variable {σ τ ι κ ο π : Type}

def after (M : Mealy σ ι ο) : σ → List ι → σ
  | s, [] => s
  | s, i :: is => M.after (M.step s i).1 is

/-- One step of a run: the state it starts in, what it reads, and what it answers. -/
structure Taken (σ ι ο : Type) where
  before : σ
  input : ι
  answer : List ο

/-- The steps of the run on the inputs `is`, in order. -/
def trace (M : Mealy σ ι ο) : σ → List ι → List (Taken σ ι ο)
  | _, [] => []
  | s, i :: is => ⟨s, i, (M.step s i).2⟩ :: M.trace (M.step s i).1 is

/-- Everything the machine answers over the run. -/
def outputs (M : Mealy σ ι ο) (s : σ) (is : List ι) : List ο := (M.trace s is).flatMap (·.answer)

section Runs
variable (M : Mealy σ ι ο)

@[simp] theorem after_nil (s : σ) : M.after s [] = s := rfl

@[simp] theorem after_cons (s : σ) (i : ι) (is : List ι) :
    M.after s (i :: is) = M.after (M.step s i).1 is := rfl

@[simp] theorem trace_nil (s : σ) : M.trace s [] = [] := rfl

@[simp] theorem trace_cons (s : σ) (i : ι) (is : List ι) :
    M.trace s (i :: is) = ⟨s, i, (M.step s i).2⟩ :: M.trace (M.step s i).1 is := rfl

@[simp] theorem outputs_nil (s : σ) : M.outputs s [] = [] := rfl

@[simp] theorem outputs_cons (s : σ) (i : ι) (is : List ι) :
    M.outputs s (i :: is) = (M.step s i).2 ++ M.outputs (M.step s i).1 is := rfl

@[simp] theorem after_append (s : σ) (is js : List ι) : M.after s (is ++ js) = M.after (M.after s is) js := by
  induction is generalizing s with
  | nil => rfl
  | cons i is ih => exact ih (M.step s i).1

theorem trace_append (s : σ) (is js : List ι) :
    M.trace s (is ++ js) = M.trace s is ++ M.trace (M.after s is) js := by
  induction is generalizing s with
  | nil => rfl
  | cons i is ih => simp [ih]

theorem trace_inputs (s : σ) (is : List ι) : (M.trace s is).map (·.input) = is := by
  induction is generalizing s with
  | nil => rfl
  | cons i is ih => simp [ih]

theorem outputs_append (s : σ) (is js : List ι) :
    M.outputs s (is ++ js) = M.outputs s is ++ M.outputs (M.after s is) js := by
  simp [outputs, trace_append]

end Runs

/-! ## Invariants -/

section Invariants
variable {M : Mealy σ ι ο}

/-- A taken step is the step of the machine after some prefix of the inputs. -/
theorem mem_trace_iff {s : σ} {is : List ι} {x : Taken σ ι ο} :
    x ∈ M.trace s is ↔
      ∃ pre i post, is = pre ++ i :: post ∧ x = ⟨M.after s pre, i, (M.step (M.after s pre) i).2⟩ := by
  constructor
  · intro hx
    induction is generalizing s with
    | nil => cases hx
    | cons i is ih =>
      rcases List.mem_cons.mp hx with rfl | hx
      · exact ⟨[], i, is, rfl, rfl⟩
      · obtain ⟨pre, j, post, rfl, rfl⟩ := ih hx
        exact ⟨i :: pre, j, post, rfl, rfl⟩
  · rintro ⟨pre, i, post, rfl, rfl⟩
    rw [trace_append]
    exact List.mem_append_right _ (by simp)

/-- What every step keeps holds after every run. -/
theorem after_invariant {I : σ → Prop} (hstep : ∀ s i, I s → I (M.step s i).1) {s : σ} (hs : I s) (is : List ι) :
    I (M.after s is) := by
  induction is generalizing s with
  | nil => exact hs
  | cons i is ih => exact ih (hstep s i hs)

/-- The same for a property of the history and the state: a step may use what the steps so far were. -/
theorem trace_invariant {I : List (Taken σ ι ο) → σ → Prop}
    (hstep : ∀ t s i, I t s → I (t ++ [⟨s, i, (M.step s i).2⟩]) (M.step s i).1) {t : List (Taken σ ι ο)} {s : σ}
    (hs : I t s) (is : List ι) : I (t ++ M.trace s is) (M.after s is) := by
  induction is generalizing t s with
  | nil => simpa using hs
  | cons i is ih => simpa using ih (hstep t s i hs)

/-- What a step answers costs no more than the credit it uses up and what it earns on the meter; so do the answers of
    a run. -/
theorem outputs_le (price : Nat) (view : ο → Option π) (credit meter : σ → Nat) {I : σ → Prop}
    (hstep : ∀ s i, I s → I (M.step s i).1 ∧ price * ((M.step s i).2.filterMap view).length +
      credit (M.step s i).1 + meter s ≤ credit s + meter (M.step s i).1) {s : σ} (hs : I s) (is : List ι) :
    price * ((M.outputs s is).filterMap view).length + credit (M.after s is) + meter s ≤
      credit s + meter (M.after s is) := by
  induction is generalizing s with
  | nil => simp
  | cons i is ih =>
    obtain ⟨hI, hle⟩ := hstep s i hs
    have hrest := ih hI
    rw [outputs_cons, after_cons, List.filterMap_append, List.length_append, Nat.mul_add]
    omega

end Invariants

/-! ## Simulation -/

section Simulation
variable {M : Mealy σ ι ο} {N : Mealy τ ι ο}

/-- Related states answer each input alike, and stay related. -/
def Simulates (M : Mealy σ ι ο) (N : Mealy τ ι ο) (R : σ → τ → Prop) : Prop :=
  ∀ s t i, R s t → R (M.step s i).1 (N.step t i).1 ∧ (M.step s i).2 = (N.step t i).2

theorem Simulates.after {R : σ → τ → Prop} (h : Simulates M N R) {s : σ} {t : τ} (hst : R s t) (is : List ι) :
    R (M.after s is) (N.after t is) := by
  induction is generalizing s t with
  | nil => exact hst
  | cons i is ih => exact ih (h s t i hst).1

theorem Simulates.outputs {R : σ → τ → Prop} (h : Simulates M N R) {s : σ} {t : τ} (hst : R s t) (is : List ι) :
    M.outputs s is = N.outputs t is := by
  induction is generalizing s t with
  | nil => rfl
  | cons i is ih =>
    obtain ⟨hst', hout⟩ := h s t i hst
    rw [outputs_cons, outputs_cons, hout, ih hst']

end Simulation

/-! ## Refinement -/

section Refinement
variable {M : Mealy σ ι ο} {N : Mealy τ κ π}

/-- A step of `M` from a related state, on an input that `Ok` allows, is a run of `N` with the outputs
    that `view` keeps, on inputs that `Q` allows. -/
def Refines (M : Mealy σ ι ο) (N : Mealy τ κ π) (view : ο → Option π) (R : σ → τ → Prop) (Ok : σ → ι → Prop)
    (Q : τ → κ → Prop) : Prop :=
  ∀ s t i, R s t → Ok s i → ∃ js, R (M.step s i).1 (N.after t js) ∧
    (M.step s i).2.filterMap view = N.outputs t js ∧ ∀ x ∈ N.trace t js, Q x.before x.input

theorem Refines.run {view : ο → Option π} {R : σ → τ → Prop} {Ok : σ → ι → Prop} {Q : τ → κ → Prop}
    (h : Refines M N view R Ok Q) {s : σ} {t : τ} (hst : R s t) (is : List ι)
    (hok : ∀ x ∈ M.trace s is, Ok x.before x.input) :
    ∃ js, R (M.after s is) (N.after t js) ∧ (M.outputs s is).filterMap view = N.outputs t js ∧
      ∀ x ∈ N.trace t js, Q x.before x.input := by
  induction is generalizing s t with
  | nil => exact ⟨[], hst, rfl, fun x hx => nomatch hx⟩
  | cons i is ih =>
    obtain ⟨js, hst', hout, hjs⟩ := h s t i hst (hok _ List.mem_cons_self)
    obtain ⟨ks, hst'', hout', hks⟩ := ih hst' fun x hx => hok x (List.mem_cons_of_mem _ hx)
    refine ⟨js ++ ks, by rwa [after_append], ?_, fun x hx => ?_⟩
    · rw [outputs_cons, List.filterMap_append, hout, hout', outputs_append]
    · rw [trace_append] at hx
      rcases List.mem_append.mp hx with hx | hx
      · exact hjs x hx
      · exact hks x hx

end Refinement

/-! ## Leaving inputs out -/

section Erasure
variable {M : Mealy σ ι ο}

/-- A step that answers nothing and ends in a state related to the one it started in. -/
def Silent (M : Mealy σ ι ο) (R : σ → σ → Prop) (s : σ) (i : ι) : Prop :=
  (M.step s i).2 = [] ∧ R (M.step s i).1 s

/-- The inputs of `marked` that carry no mark. -/
def unmarked (marked : List (ι × Bool)) : List ι := (marked.filter fun x => !x.2).map (·.1)

/-- Marked inputs that are silent where they are read can be left out: the run without them answers the
    same and ends in a related state. -/
theorem erase_silent {R : σ → σ → Prop} (hsim : Simulates M M R) (htrans : ∀ {s t u}, R s t → R t u → R s u)
    {marked : List (ι × Bool)} {s t : σ} (hst : R s t)
    (hsilent : ∀ pre i post, marked = pre ++ (i, true) :: post → Silent M R (M.after s (pre.map (·.1))) i) :
    R (M.after s (marked.map (·.1))) (M.after t (unmarked marked)) ∧
      M.outputs s (marked.map (·.1)) = M.outputs t (unmarked marked) := by
  induction marked generalizing s t with
  | nil => exact ⟨hst, rfl⟩
  | cons x marked ih =>
    obtain ⟨i, mark⟩ := x
    have hrest : ∀ pre j post, marked = pre ++ (j, true) :: post →
        Silent M R (M.after (M.step s i).1 (pre.map (·.1))) j := fun pre j post heq =>
      hsilent ((i, mark) :: pre) j post (by rw [heq, List.cons_append])
    cases mark with
    | true =>
      -- The left run takes the step, the right run does not.
      obtain ⟨hquiet, hback⟩ := hsilent [] i marked rfl
      obtain ⟨hafter, hout⟩ := ih (htrans hback hst) hrest
      exact ⟨hafter, by rw [List.map_cons, outputs_cons]; exact (congrArg (· ++ _) hquiet).trans hout⟩
    | false =>
      obtain ⟨hst', hout⟩ := hsim s t i hst
      obtain ⟨hafter, houts⟩ := ih hst' hrest
      refine ⟨hafter, ?_⟩
      rw [List.map_cons, outputs_cons, hout, houts]
      rfl

end Erasure

end Mealy
