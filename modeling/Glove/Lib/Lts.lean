import Mathlib.Data.List.Basic

/-! # Labelled transition systems

Processes that interleave. A step takes a label and is possible or not, so a run is a list of labels;
the state it reaches is computed. This file holds the rules for properties of runs: what every possible
step keeps holds after every run, and the same for runs whose steps all meet a condition; steps that
lower a measure end; and a system whose steps are runs of another is a refinement of it. -/

/-- A system whose labels lead to at most one state. -/
structure Lts (σ α : Type) where
  step : σ → α → Option σ

namespace Lts
variable {σ α : Type}

/-- The state after the labels `as`, if each is possible where it is taken. -/
def run (T : Lts σ α) : σ → List α → Option σ
  | s, [] => some s
  | s, a :: as => (T.step s a).bind fun t => T.run t as

/-- Every label of `as` meets `C` in the state it is taken in. -/
def Meets (T : Lts σ α) (C : σ → α → Prop) (s : σ) (as : List α) : Prop :=
  ∀ pre a post t, as = pre ++ a :: post → T.run s pre = some t → C t a

section Runs
variable {T : Lts σ α}

theorem run_cons {s u : σ} {a : α} {as : List α} :
    T.run s (a :: as) = some u ↔ ∃ t, T.step s a = some t ∧ T.run t as = some u :=
  Option.bind_eq_some_iff

theorem run_concat {s : σ} {as : List α} {a : α} : T.run s (as ++ [a]) = (T.run s as).bind fun t => T.step t a := by
  induction as generalizing s with
  | nil => simp [run]
  | cons b as ih => simp [run, ih, Option.bind_assoc]

theorem Meets.head {C : σ → α → Prop} {s : σ} {a : α} {as : List α} (h : T.Meets C s (a :: as)) : C s a :=
  h [] a as s rfl rfl

theorem Meets.tail {C : σ → α → Prop} {s t : σ} {a : α} {as : List α} (h : T.Meets C s (a :: as))
    (hstep : T.step s a = some t) : T.Meets C t as := by
  rintro pre b post u rfl hrun
  exact h (a :: pre) b post u rfl (run_cons.mpr ⟨t, hstep, hrun⟩)

theorem Meets.initial {C : σ → α → Prop} {s : σ} {pre as : List α} (h : T.Meets C s as) (hpre : pre <+: as) :
    T.Meets C s pre := by
  obtain ⟨post, rfl⟩ := hpre
  rintro pre a post' t rfl hrun
  exact h pre a (post' ++ post) t (by simp) hrun

theorem meets_nil {C : σ → α → Prop} {s : σ} : T.Meets C s [] := fun pre _ _ _ h => by cases pre <;> cases h

theorem meets_cons {C : σ → α → Prop} {s : σ} {a : α} {as : List α} :
    T.Meets C s (a :: as) ↔ C s a ∧ ∀ t ∈ T.step s a, T.Meets C t as := by
  refine ⟨fun h => ⟨h.head, fun t ht => h.tail ht⟩, fun h pre b post u heq hrun => ?_⟩
  cases pre with
  | nil =>
    cases heq
    cases hrun
    exact h.1
  | cons c pre =>
    cases heq
    obtain ⟨t, ht, hrun⟩ := run_cons.mp hrun
    exact h.2 t ht pre b post u rfl hrun

instance decidableMeets {C : σ → α → Prop} [∀ s a, Decidable (C s a)] : ∀ s as, Decidable (T.Meets C s as)
  | _, [] => isTrue meets_nil
  | _, _ :: as =>
    have : ∀ t, Decidable (T.Meets C t as) := fun t => decidableMeets t as
    decidable_of_iff _ meets_cons.symm

/-- What every step that meets the condition keeps holds after every run whose steps meet it. -/
theorem run_invariant {C : σ → α → Prop} {I : σ → Prop} (hstep : ∀ s a t, C s a → T.step s a = some t → I s → I t)
    {s u : σ} {as : List α} (hC : T.Meets C s as) (hs : I s) (hrun : T.run s as = some u) : I u := by
  induction as generalizing s with
  | nil => exact Option.some.inj hrun ▸ hs
  | cons a as ih =>
    obtain ⟨t, ht, hrun⟩ := run_cons.mp hrun
    exact ih (hC.tail ht) (hstep s a t hC.head ht hs) hrun

end Runs

/-! ## Histories -/

section Record
variable {β : Type} {T : Lts σ α} {note : σ → α → List β}

/-- The system with a history of what `note` says of its steps. -/
def record (T : Lts σ α) (note : σ → α → List β) : Lts (σ × List β) α where
  step s a := (T.step s.1 a).map fun t => (t, s.2 ++ note s.1 a)

theorem record_step_eq_some {s t : σ} {ys zs : List β} {a : α} :
    (T.record note).step (s, ys) a = some (t, zs) ↔ T.step s a = some t ∧ zs = ys ++ note s a := by
  simp only [record, Option.map_eq_some_iff, Prod.mk.injEq]
  constructor
  · rintro ⟨u, hstep, rfl, rfl⟩
    exact ⟨hstep, rfl⟩
  · rintro ⟨hstep, rfl⟩
    exact ⟨t, hstep, rfl, rfl⟩

/-- The history leaves the runs as they are. -/
theorem run_record {s t : σ} {as : List α} (ys : List β) :
    T.run s as = some t ↔ ∃ zs, (T.record note).run (s, ys) as = some (t, zs) := by
  induction as generalizing s ys with
  | nil => simp [run]
  | cons a as ih =>
    rw [run_cons]
    constructor
    · rintro ⟨u, hstep, hrun⟩
      obtain ⟨zs, hrun⟩ := (ih (ys ++ note s a)).mp hrun
      exact ⟨zs, run_cons.mpr ⟨(u, ys ++ note s a), record_step_eq_some.mpr ⟨hstep, rfl⟩, hrun⟩⟩
    · rintro ⟨zs, hrun⟩
      obtain ⟨⟨u, ws⟩, hstep, hrun⟩ := run_cons.mp hrun
      exact ⟨u, (record_step_eq_some.mp hstep).1, (ih ws).mpr ⟨zs, hrun⟩⟩

end Record

/-! ## Progress -/

section Progress
variable {T : Lts σ α}

/-- A run whose steps all lower a measure is no longer than the measure it starts with. -/
theorem run_length_le {C : α → Prop} {I : σ → Prop} {μ : σ → Nat}
    (hstep : ∀ s a t, I s → C a → T.step s a = some t → I t ∧ μ t < μ s) {s t : σ} {as : List α} (hs : I s)
    (hC : ∀ a ∈ as, C a) (hrun : T.run s as = some t) : as.length + μ t ≤ μ s := by
  induction as generalizing s with
  | nil =>
    cases hrun
    exact Nat.le_of_eq (Nat.zero_add _)
  | cons a as ih =>
    obtain ⟨u, hu, hrun⟩ := run_cons.mp hrun
    obtain ⟨hI, hlt⟩ := hstep s a u hs (hC a List.mem_cons_self) hu
    have hle := ih hI (fun b hb => hC b (List.mem_cons_of_mem _ hb)) hrun
    rw [List.length_cons]
    omega

end Progress

/-! ## Refinement -/

section Refinement
variable {τ β : Type} {T : Lts σ α} {U : Lts τ β}

/-- A step of `T` from a related state is the run of `U` that `view` names, and ends in a related state. -/
def Refines (T : Lts σ α) (U : Lts τ β) (view : σ → α → List β) (R : σ → τ → Prop) : Prop :=
  ∀ s a t x, R s x → T.step s a = some t → ∃ y, U.run x (view s a) = some y ∧ R t y

theorem run_append {s : σ} {as bs : List α} : T.run s (as ++ bs) = (T.run s as).bind fun t => T.run t bs := by
  induction as generalizing s with
  | nil => rfl
  | cons a as ih => simp [run, ih, Option.bind_assoc]

theorem meets_append {C : σ → α → Prop} {s : σ} {as bs : List α} (has : T.Meets C s as)
    (hbs : ∀ t ∈ T.run s as, T.Meets C t bs) : T.Meets C s (as ++ bs) := by
  induction as generalizing s with
  | nil => exact hbs s rfl
  | cons a as ih =>
    obtain ⟨ha, hrest⟩ := meets_cons.mp has
    refine meets_cons.mpr ⟨ha, fun t ht => ih (hrest t ht) fun u hu => hbs u ?_⟩
    exact run_cons.mpr ⟨t, ht, hu⟩

/-- The run that a refinement names. If the steps of `T` that meet `C` are runs whose steps meet `D`, a run that
    meets `C` is a run that meets `D`. -/
theorem Refines.run {C : σ → α → Prop} {D : τ → β → Prop} {view : σ → α → List β} {R : σ → τ → Prop}
    (h : Refines T U view R) (hmeets : ∀ s a x, R s x → C s a → U.Meets D x (view s a)) {s t : σ} {x : τ} {as : List α}
    (hs : R s x) (hrun : T.run s as = some t) :
    ∃ bs y, U.run x bs = some y ∧ R t y ∧ (T.Meets C s as → U.Meets D x bs) := by
  induction as generalizing s x with
  | nil =>
    cases hrun
    exact ⟨[], x, rfl, hs, fun _ => meets_nil⟩
  | cons a as ih =>
    obtain ⟨u, hu, hrun⟩ := run_cons.mp hrun
    obtain ⟨y, hy, hR⟩ := h s a u x hs hu
    obtain ⟨bs, z, hz, hRz, hbs⟩ := ih hR hrun
    refine ⟨view s a ++ bs, z, ?_, hRz, fun hC => ?_⟩
    · rw [run_append, hy]
      exact hz
    · refine meets_append (hmeets s a x hs hC.head) fun y' hy' => ?_
      obtain rfl : y = y' := Option.some.inj (hy.symm.trans hy')
      exact hbs (hC.tail hu)

end Refinement

end Lts
