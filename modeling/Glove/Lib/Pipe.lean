import Mathlib.Algebra.Ring.Nat
import Glove.Lib.Lts
import Glove.Lib.Mealy

/-! # Pipes

A machine that produces items, a channel that neither loses nor reorders them, and a process that takes them
out. The two sides interleave freely. A run of the whole is a run of each side, and what went into the channel
is what came out of it and what is still on the way. -/

/-- The state of the machine, what is on the way, and the state of the process. -/
structure Pipe (σ π τ : Type) where
  producer : σ
  channel : List π
  consumer : τ
  deriving DecidableEq

namespace Pipe

inductive Label (ι α : Type)
  | produce (i : ι)
  | consume (a : α)

section Sides
variable {ι α : Type}

/-- The steps of the machine. -/
def produced (as : List (Label ι α)) : List ι :=
  as.filterMap fun
    | .produce i => some i
    | .consume _ => none

/-- The steps of the process. -/
def consumed (as : List (Label ι α)) : List α :=
  as.filterMap fun
    | .produce _ => none
    | .consume a => some a

end Sides

end Pipe

/-- `view` is the item of an output. `reads` says of a step of the process whether it takes an item, and which ones it can
    take. -/
def pipe {σ ι ο π τ α : Type} (M : Mealy σ ι ο) (view : ο → Option π) (T : Lts τ α) (reads : α → Option (π → Bool)) :
    Lts (Pipe σ π τ) (Pipe.Label ι α) where
  step p
    | .produce i => some ⟨(M.step p.producer i).1, p.channel ++ (M.step p.producer i).2.filterMap view, p.consumer⟩
    | .consume a =>
      match reads a with
      | none => (T.step p.consumer a).map fun t => { p with consumer := t }
      | some accepts =>
        match p.channel with
        | [] => none
        | x :: rest => if accepts x then (T.step p.consumer a).map fun t => ⟨p.producer, rest, t⟩ else none

namespace Pipe
variable {σ ι ο π τ α : Type} {M : Mealy σ ι ο} {view : ο → Option π} {T : Lts τ α} {reads : α → Option (π → Bool)}

/-- A step of the process, and the items that it takes. -/
theorem step_consume {p q : Pipe σ π τ} {a : α} (h : (pipe M view T reads).step p (.consume a) = some q) :
    T.step p.consumer a = some q.consumer ∧ q.producer = p.producer ∧
      ((reads a = none ∧ q.channel = p.channel) ∨
        ∃ accepts x, reads a = some accepts ∧ accepts x = true ∧ p.channel = x :: q.channel) := by
  simp only [pipe] at h
  cases hreads : reads a with
  | none =>
    simp only [hreads] at h
    obtain ⟨t, hstep, rfl⟩ := Option.map_eq_some_iff.mp h
    exact ⟨hstep, rfl, Or.inl ⟨rfl, rfl⟩⟩
  | some accepts =>
    simp only [hreads] at h
    split at h
    · cases h
    · next x rest hchannel =>
      obtain ⟨hx, h⟩ := Option.ite_none_right_eq_some.mp h
      obtain ⟨t, hstep, rfl⟩ := Option.map_eq_some_iff.mp h
      exact ⟨hstep, rfl, Or.inr ⟨accepts, x, rfl, hx, hchannel⟩⟩

/-- A run of the whole is one of each side. -/
theorem run_sides {p q : Pipe σ π τ} {as : List (Label ι α)} (h : (pipe M view T reads).run p as = some q) :
    q.producer = M.after p.producer (produced as) ∧ T.run p.consumer (consumed as) = some q.consumer ∧
      ∃ items, List.Forall₂ (fun accepts x => accepts x = true) ((consumed as).filterMap reads) items ∧
        items ++ q.channel = p.channel ++ (M.outputs p.producer (produced as)).filterMap view := by
  induction as generalizing p with
  | nil =>
    cases h
    exact ⟨rfl, rfl, [], List.Forall₂.nil, (List.append_nil _).symm⟩
  | cons a as ih =>
    obtain ⟨r, hr, h⟩ := Lts.run_cons.mp h
    obtain ⟨hproducer, hconsumer, items, hitems, hchannel⟩ := ih h
    cases a with
    | produce i =>
      cases hr
      refine ⟨hproducer, hconsumer, items, hitems, ?_⟩
      rw [hchannel, List.append_assoc, ← List.filterMap_append]
      rfl
    | consume a =>
      obtain ⟨hstep, hsame, hread⟩ := step_consume hr
      rw [hsame] at hproducer hchannel
      have hrun : T.run p.consumer (consumed (.consume a :: as)) = some q.consumer :=
        Lts.run_cons.mpr ⟨r.consumer, hstep, hconsumer⟩
      refine ⟨hproducer, hrun, ?_⟩
      rcases hread with ⟨hnone, hkept⟩ | ⟨accepts, x, hsome, hx, hhead⟩
      · refine ⟨items, ?_, by rw [hchannel, hkept]; rfl⟩
        show List.Forall₂ _ ((a :: consumed as).filterMap reads) items
        rwa [List.filterMap_cons_none hnone]
      · refine ⟨x :: items, ?_, ?_⟩
        · show List.Forall₂ _ ((a :: consumed as).filterMap reads) (x :: items)
          rw [List.filterMap_cons_some hsome]
          exact hitems.cons hx
        · rw [List.cons_append, hchannel, hhead]
          rfl

/-- The machine never waits. -/
theorem run_produce (p : Pipe σ π τ) (is : List ι) :
    (pipe M view T reads).run p (is.map .produce) =
      some ⟨M.after p.producer is, p.channel ++ (M.outputs p.producer is).filterMap view, p.consumer⟩ := by
  induction is generalizing p with
  | nil => simp [Lts.run]
  | cons i is ih =>
    refine Lts.run_cons.mpr ⟨_, rfl, ?_⟩
    rw [ih, Mealy.after_cons, Mealy.outputs_cons, List.filterMap_append, List.append_assoc]

/-- The process takes finitely many steps if it would without items, and if each item makes finitely many: those on the way
    and those that the machine produces meanwhile. -/
theorem run_consumed_length_le (μ : τ → Nat) (price : π → Nat)
    (hsilent : ∀ s a t, reads a = none → T.step s a = some t → μ t < μ s)
    (hread : ∀ s a t accepts x, reads a = some accepts → accepts x = true → T.step s a = some t → μ t < μ s + price x)
    {p q : Pipe σ π τ} {as : List (Label ι α)} (h : (pipe M view T reads).run p as = some q) :
    (consumed as).length + (μ q.consumer + (q.channel.map price).sum) ≤
      μ p.consumer + (p.channel.map price).sum +
        (((M.outputs p.producer (produced as)).filterMap view).map price).sum := by
  induction as generalizing p with
  | nil =>
    cases h
    simp [consumed, produced]
  | cons a as ih =>
    obtain ⟨r, hr, h⟩ := Lts.run_cons.mp h
    have hrest := ih h
    cases a with
    | produce i =>
      cases hr
      have houtputs : M.outputs p.producer (produced (.produce i :: as)) =
          (M.step p.producer i).2 ++ M.outputs (M.step p.producer i).1 (produced as) := rfl
      have hconsumed : consumed (.produce i :: as) = consumed as := rfl
      simp only [List.map_append, List.sum_append] at hrest
      rw [hconsumed, houtputs, List.filterMap_append, List.map_append, List.sum_append]
      omega
    | consume a =>
      have hproduced : produced (.consume a :: as) = produced as := rfl
      have hconsumed : consumed (.consume a :: as) = a :: consumed as := rfl
      obtain ⟨hstep, hsame, hcase⟩ := step_consume hr
      rw [hsame] at hrest
      rw [hproduced, hconsumed, List.length_cons]
      obtain ⟨hnone, hkept⟩ | ⟨accepts, x, hsome, hx, hhead⟩ := hcase
      · have hlt := hsilent _ _ _ hnone hstep
        rw [hkept] at hrest
        omega
      · have hlt := hread _ _ _ _ _ hsome hx hstep
        rw [hhead, List.map_cons, List.sum_cons]
        omega

end Pipe
