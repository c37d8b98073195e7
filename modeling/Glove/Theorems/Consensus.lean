import Glove.Consensus
import Glove.Lib.History

/-! The consensus queue over a stream of candidates. The queue is the current block of candidates: it
    fills up to `n`, and the step that fills it gives a result exactly when the block is constant. -/

namespace Glove.Consensus
open Block
variable {α : Type}

/-! ### One step -/

theorem popLoop_eq_nil (fuel : Nat) (queue : List α) (h : queue.length ≤ fuel) : popLoop fuel queue = [] := by
  induction fuel generalizing queue with
  | zero => exact List.length_eq_zero_iff.mp (Nat.le_zero.mp h)
  | succ fuel ih =>
    unfold popLoop
    split
    · exact ih _ (by rw [List.length_dropLast]; omega)
    · exact List.length_eq_zero_iff.mp (by omega)

@[simp] theorem emptyQueue_eq (queue : List α) : emptyQueue queue = [] :=
  popLoop_eq_nil _ _ (Nat.le_refl _)

theorem getConsensusAndClear_push {queue : List α} {c : α} (hall : ∀ x ∈ queue, x = c) :
    getConsensusAndClear (queue ++ [c]) = some (c, []) := by
  cases queue with
  | nil => rfl
  | cons first middle => rw [List.cons_append, getConsensusAndClear, emptyQueue_eq, hall first List.mem_cons_self]

variable [DecidableEq α] {n : Nat} {queue : List α} {c : α}

/-- The candidates that `hasConsensusOrClear` compares with the first one are all equal to it exactly
    when those before the last are all equal to the last. -/
theorem any_ne_first {first last : α} {middle : List α} :
    (middle ++ [last]).any (· != first) = false ↔ ∀ x ∈ first :: middle, x = last := by
  rw [List.any_eq_false]
  constructor
  · intro h
    have heq : ∀ x ∈ middle ++ [last], x = first := fun x hx => by simpa using h x hx
    have hlast : last = first := heq last (by simp)
    intro x hx
    rcases List.mem_cons.mp hx with rfl | hx
    · exact hlast.symm
    · exact (heq x (List.mem_append_left _ hx)).trans hlast.symm
  · intro h x hx
    have hfirst : first = last := h first List.mem_cons_self
    rcases List.mem_append.mp hx with hx | hx
    · simp [h x (List.mem_cons_of_mem _ hx), hfirst]
    · simp [List.mem_singleton.mp hx, hfirst]

theorem hasConsensusOrClear_short (h : queue.length + 1 < n) :
    hasConsensusOrClear n (queue ++ [c]) = some (false, queue ++ [c]) := by
  unfold hasConsensusOrClear
  rw [List.length_append, List.length_singleton, if_pos h]

theorem hasConsensusOrClear_agree (h : ¬queue.length + 1 < n) (hall : ∀ x ∈ queue, x = c) :
    hasConsensusOrClear n (queue ++ [c]) = some (true, queue ++ [c]) := by
  unfold hasConsensusOrClear
  rw [List.length_append, List.length_singleton, if_neg h]
  cases queue with
  | nil => rfl
  | cons first middle =>
    show (if (middle ++ [c]).any (· != first) then _ else _) = _
    rw [any_ne_first.mpr hall]
    rfl

theorem hasConsensusOrClear_differ (h : ¬queue.length + 1 < n) (hall : ¬∀ x ∈ queue, x = c) :
    hasConsensusOrClear n (queue ++ [c]) = some (false, []) := by
  unfold hasConsensusOrClear
  rw [List.length_append, List.length_singleton, if_neg h]
  cases queue with
  | nil => exact absurd (fun x hx => nomatch hx) hall
  | cons first middle =>
    show (if (middle ++ [c]).any (· != first) then _ else _) = _
    cases hany : (middle ++ [c]).any (· != first) with
    | true => rw [emptyQueue_eq]; rfl
    | false => exact absurd (any_ne_first.mp hany) hall

theorem pushCandidate_short (h : queue.length + 1 < n) : pushCandidate n queue c = some (none, queue ++ [c]) := by
  unfold pushCandidate
  rw [hasConsensusOrClear_short h]
  rfl

theorem pushCandidate_agree (h : ¬queue.length + 1 < n) (hall : ∀ x ∈ queue, x = c) :
    pushCandidate n queue c = some (some c, []) := by
  unfold pushCandidate
  simp only [hasConsensusOrClear_agree h hall, Option.bind_eq_bind, Option.bind_some, if_true,
    getConsensusAndClear_push hall]
  rfl

theorem pushCandidate_differ (h : ¬queue.length + 1 < n) (hall : ¬∀ x ∈ queue, x = c) :
    pushCandidate n queue c = some (none, []) := by
  unfold pushCandidate
  rw [hasConsensusOrClear_differ h hall]
  rfl

theorem pushCandidate_result {r : α} {queue' : List α} (h : pushCandidate n queue c = some (some r, queue')) :
    r = c := by
  by_cases hlen : queue.length + 1 < n
  · rw [pushCandidate_short hlen] at h
    cases h
  · by_cases hall : ∀ x ∈ queue, x = c
    · rw [pushCandidate_agree hlen hall] at h
      cases h
      rfl
    · rw [pushCandidate_differ hlen hall] at h
      cases h

/-! ### Streams -/

/-- The queue after the candidates `c 1, …, c t`; `none` once an empty queue was read. -/
def queueAt (n : Nat) (c : Nat → α) : Nat → Option (List α)
  | 0 => some []
  | t + 1 => do
    let queue ← queueAt n c t
    let (_, queue) ← pushCandidate n queue (c (t + 1))
    return queue

/-- The result of step `t`, counted from 1. -/
def resultAt (n : Nat) (c : Nat → α) (t : Nat) : Option α := do
  let queue ← queueAt n c (t - 1)
  let (result, _) ← pushCandidate n queue (c t)
  result

variable {c : Nat → α}

theorem queueAt_eq (hn : 0 < n) (t : Nat) : queueAt n c t = some (block n c t) := by
  induction t with
  | zero => rw [block_zero]; rfl
  | succ t ih =>
    have hlt := Nat.mod_lt t hn
    rw [queueAt, ih, Option.bind_eq_bind, Option.bind_some]
    by_cases h : (block n c t).length + 1 < n
    · rw [pushCandidate_short h, block_succ (by simpa using h)]
      rfl
    · have hdvd : n ∣ t + 1 := (dvd_succ_iff hn).mpr (by rw [length_block] at h; omega)
      rw [block_of_dvd hdvd]
      by_cases hall : ∀ x ∈ block n c t, x = c (t + 1)
      · rw [pushCandidate_agree h hall]
        rfl
      · rw [pushCandidate_differ h hall]
        rfl

theorem resultAt_succ (hn : 0 < n) (t : Nat) (r : α) :
    resultAt n c (t + 1) = some r ↔ n ∣ t + 1 ∧ ∀ i, t + 1 - n < i → i ≤ t + 1 → c i = r := by
  have hlt := Nat.mod_lt t hn
  rw [resultAt, Nat.add_sub_cancel, queueAt_eq hn, Option.bind_eq_bind, Option.bind_some, dvd_succ_iff hn]
  by_cases h : (block n c t).length + 1 < n
  · rw [pushCandidate_short h]
    rw [length_block] at h
    constructor
    · exact fun hnone => nomatch hnone
    · exact fun ⟨heq, _⟩ => absurd heq (by omega)
  · have heq : t % n + 1 = n := by rw [length_block] at h; omega
    rw [← block_constant_iff heq]
    by_cases hall : ∀ x ∈ block n c t, x = c (t + 1)
    · rw [pushCandidate_agree h hall]
      show some (c (t + 1)) = some r ↔ _
      rw [Option.some.injEq]
      exact ⟨fun hr => ⟨heq, hall, hr⟩, fun hr => hr.2.2⟩
    · rw [pushCandidate_differ h hall]
      constructor
      · exact fun hnone => nomatch hnone
      · exact fun hr => absurd hr.2.1 hall

/-- For every block size and every stream of candidates: a result comes exactly at the steps that close
    a constant block, and is its candidate; the queue holds `t % n` candidates after step `t`; no empty
    queue is read for a consensus; and `2 n - 1` equal candidates in a row give a result. -/
theorem consensus_spec (n : Nat) (hn : 1 ≤ n) (c : Nat → α) :
    (∀ t, 1 ≤ t → ∀ r, resultAt n c t = some r ↔ n ∣ t ∧ ∀ i, t - n < i → i ≤ t → c i = r) ∧
      (∀ t, ∃ queue, queueAt n c t = some queue ∧ queue.length = t % n) ∧
      (∀ t queue queue', queueAt n c t = some queue →
        hasConsensusOrClear n (queue ++ [c (t + 1)]) = some (true, queue') → queue' ≠ []) ∧
      (∀ t r, 1 ≤ t → (∀ i, t ≤ i → i < t + (2 * n - 1) → c i = r) →
        ∃ j, t ≤ j ∧ j < t + (2 * n - 1) ∧ resultAt n c j = some r) := by
  have hresult : ∀ t, 1 ≤ t → ∀ r, resultAt n c t = some r ↔ n ∣ t ∧ ∀ i, t - n < i → i ≤ t → c i = r := by
    intro t ht r
    obtain ⟨t, rfl⟩ := Nat.exists_eq_add_of_le' ht
    exact resultAt_succ hn t r
  refine ⟨hresult, fun t => ⟨block n c t, queueAt_eq hn t, length_block t⟩, ?_, ?_⟩
  · intro t queue queue' _ hfound
    by_cases h : queue.length + 1 < n
    · rw [hasConsensusOrClear_short h] at hfound
      cases hfound
    · by_cases hall : ∀ x ∈ queue, x = c (t + 1)
      · rw [hasConsensusOrClear_agree h hall] at hfound
        cases hfound
        simp
      · rw [hasConsensusOrClear_differ h hall] at hfound
        cases hfound
  · intro t r ht hhold
    obtain ⟨j, hdvd, hlo, hhi⟩ := exists_boundary hn t
    refine ⟨j, by omega, hhi, (hresult j (by omega) r).mpr ⟨hdvd, fun i hlo' hhi' => ?_⟩⟩
    exact hhold i (by omega) (by omega)

theorem consensus_spec_glove : resultAt consensusN (fun t => if t < 5 then "a" else "b") 4 = some "a" :=
  ((consensus_spec consensusN (by decide) _).1 4 (by decide) "a").mpr
    ⟨by decide, fun i _ hi => if_pos (by omega)⟩

end Glove.Consensus

namespace Glove.FlexSensors
open Consensus
variable {α : Type} [DecidableEq α]

/-- The loop of the flexSensors build uses its queue in the same way, with its own block size. -/
theorem push_hasConsensus_getConsensus (queue : List α) (candidate : α) :
    (do
      let (found, queue) ← hasConsensus (queue ++ [candidate])
      if found then
        let (consensus, queue) ← getConsensus queue
        return (some consensus, queue)
      else return (none, queue)) = pushCandidate consensusN queue candidate := rfl

end Glove.FlexSensors
