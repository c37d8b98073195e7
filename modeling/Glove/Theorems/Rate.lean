import Glove.Theorems.Candidates
import Glove.Theorems.Protocol

/-! How fast the glove sends. A consensus takes four polls of six conversions and leads to one byte at most, so what the
    queue and an open IMU loop are worth, in conversions, pays for the bytes. -/

namespace Glove
open Mealy ImuFsm Consensus Sensing

/-- The conversions of the candidates in the queue, and of the consensus that opened an IMU loop. -/
def Loop.credit (l : Loop) : Nat := 6 * l.consensusQueue.length + if l.pc = .top then 0 else 24

/-- A consensus is taken at four candidates, and an IMU loop is open with an empty queue only. -/
structure Loop.Bounded (l : Loop) : Prop where
  queue : l.consensusQueue.length < consensusN
  imu : l.pc ≠ .top → l.consensusQueue = []

theorem Loop.Bounded.of_nil {l : Loop} (h : l.consensusQueue = []) : l.Bounded := ⟨by rw [h]; decide, fun _ => h⟩

section Steps
variable {l : Loop}

theorem Loop.Bounded.credit_le (h : l.Bounded) : l.credit ≤ 24 := by
  have hlen := h.queue
  unfold consensusN at hlen
  unfold Loop.credit
  split
  · omega
  · rename_i hpc
    rw [h.imu hpc]
    rfl

theorem pushCandidate_length {queue queue' : List String} {c : String} {result : Option String} {n : Nat}
    (h : pushCandidate n queue c = some (result, queue')) :
    (queue' = [] ∧ (result.isSome → n ≤ queue.length + 1)) ∨
      (result = none ∧ queue'.length = queue.length + 1 ∧ queue.length + 1 < n) := by
  by_cases hlen : queue.length + 1 < n
  · rw [pushCandidate_short hlen] at h
    cases h
    exact Or.inr ⟨rfl, by simp, hlen⟩
  · by_cases hall : ∀ x ∈ queue, x = c
    · rw [pushCandidate_agree hlen hall] at h
      cases h
      exact Or.inl ⟨rfl, fun _ => not_lt.mp hlen⟩
    · rw [pushCandidate_differ hlen hall] at h
      cases h
      exact Or.inl ⟨rfl, fun h => by cases h⟩

/-- A candidate is worth six conversions, and a byte or an IMU loop costs twenty-four. -/
theorem pollStep_credit (hl : l.Bounded) (hpc : l.pc = .top) (c : String) :
    (l.pollStep c).1.Bounded ∧
      24 * ((l.pollStep c).2.filterMap Obs.byte?).length + (l.pollStep c).1.credit ≤ l.credit + 6 := by
  have hcredit : l.credit = 6 * l.consensusQueue.length := by simp [Loop.credit, hpc]
  cases hpush : pushCandidate consensusN l.consensusQueue c with
  | none =>
    have hstep : l.pollStep c = (l, []) := by simp only [Loop.pollStep, hpush]
    rw [hstep]
    exact ⟨hl, by simp⟩
  | some res =>
    obtain ⟨_ | result, queue⟩ := res
    · rw [pollStep_none hpush]
      have hlen : queue.length ≤ l.consensusQueue.length + 1 ∧ queue.length < consensusN := by
        rcases pushCandidate_length hpush with ⟨rfl, -⟩ | ⟨-, heq, hlt⟩
        · exact ⟨Nat.zero_le _, by decide⟩
        · exact ⟨heq.le, by omega⟩
      refine ⟨⟨hlen.2, fun h => absurd hpc h⟩, ?_⟩
      rw [hcredit]
      simp only [Loop.credit, hpc, if_true, List.filterMap_nil, List.length_nil]
      omega
    · -- The consensus uses up the three candidates before it.
      have hqueue : queue = [] ∧ consensusN ≤ l.consensusQueue.length + 1 := by
        rcases pushCandidate_length hpush with ⟨heq, hlen⟩ | ⟨hnone, -⟩
        · exact ⟨heq, hlen rfl⟩
        · cases hnone
      obtain ⟨rfl, hlen⟩ := hqueue
      unfold consensusN at hlen
      by_cases ho : ∃ w, Opens l.fsm (firstChar result) w
      · obtain ⟨w, ho⟩ := ho
        rw [pollStep_opens hpush ho]
        refine ⟨.of_nil rfl, ?_⟩
        rw [hcredit, filterMap_runObs, ho.quiet]
        simp [Loop.credit]
        omega
      · have ho : ∀ w, ¬Opens l.fsm (firstChar result) w := fun w hw => ho ⟨w, hw⟩
        obtain ⟨hstep, -⟩ := pollStep_whole hpush ho .timeout
        have hbytes := loop_step_bytes l (.poll c)
        rw [loop_step_poll hpc] at hbytes
        rw [hcredit]
        rw [hstep] at hbytes ⊢
        refine ⟨.of_nil rfl, ?_⟩
        dsimp only at hbytes ⊢
        simp only [Loop.credit, hpc, if_true, List.length_nil]
        omega

theorem imuStep_credit (hl : l.Bounded) {w : Window} (hpc : l.pc = .imu w) (x : ImuSample) :
    (l.imuStep w x).1.Bounded ∧
      24 * ((l.imuStep w x).2.filterMap Obs.byte?).length + (l.imuStep w x).1.credit ≤ l.credit := by
  have hqueue := hl.imu (by rw [hpc]; exact fun h => by cases h)
  have hqueue' : (l.imuStep w x).1.consensusQueue = [] := (imuStep_queue l w x).trans hqueue
  have hcredit : l.credit = 24 := by simp [Loop.credit, hpc, hqueue]
  refine ⟨.of_nil hqueue', ?_⟩
  rw [hcredit]
  cases hbranch : imuBranch w l.fsm.curState x with
  | none =>
    rw [imuStep_none hbranch]
    simp [Loop.credit, hqueue, hpc]
  | some answer =>
    -- The IMU loop ends at a top.
    have hbytes := loop_step_bytes l (.imu x)
    rw [loop_step_imu hpc] at hbytes
    have htop : (l.imuStep w x).1.pc = .top := by
      cases answer <;> simp only [Loop.imuStep, hbranch] <;> rfl
    simp only [Loop.credit, htop, hqueue', if_true, List.length_nil]
    omega

end Steps

/-! ### Runs -/

theorem pollChannels_next_ge (adgdr : Nat → BitVec 32) (is : List Nat) (pos : Nat) (r : SensorReading) :
    pos ≤ (pollChannels adgdr is pos r).next := by
  induction is generalizing pos r with
  | nil => exact Nat.le_refl pos
  | cons i is ih =>
    simp only [pollChannels]
    split
    · exact Nat.le_succ pos
    · exact (Nat.le_succ pos).trans (ih _ _)

theorem normalMode_step_credit {env : Env} (m : Main) (u : Unit) (hm : m.loop.Bounded) :
    ((normalMode env).step m u).1.loop.Bounded ∧
      24 * (((normalMode env).step m u).2.filterMap Obs.byte?).length + ((normalMode env).step m u).1.loop.credit +
        m.adcPos ≤ m.loop.credit + ((normalMode env).step m u).1.adcPos := by
  cases hpc : m.loop.pc with
  | top =>
    by_cases hres : (poll env.adgdr m.adcPos m.sensorReading).res = 0
    · have hnext := poll_next hres
      rw [normalMode_step_poll hpc hres]
      dsimp only
      rw [loop_step_poll hpc, hnext]
      obtain ⟨hbounded, hle⟩ := pollStep_credit hm hpc (convert keys (poll env.adgdr m.adcPos m.sensorReading).reading)
      exact ⟨hbounded, by omega⟩
    · have hnext := pollChannels_next_ge env.adgdr [0, 1, 2, 3, 4, 5] m.adcPos m.sensorReading
      rw [normalMode_step_retry hpc hres]
      refine ⟨hm, ?_⟩
      simp only [List.filterMap_nil, List.length_nil]
      unfold poll
      omega
  | imu w =>
    rw [normalMode_step_imu hpc]
    dsimp only
    rw [loop_step_imu hpc]
    obtain ⟨hbounded, hle⟩ := imuStep_credit hm hpc (env.imu m.imuPos)
    exact ⟨hbounded, by omega⟩

/-- From every state that a run reaches: a byte takes twenty-four conversions, and the first one of a stretch of the run
    may have been paid for before. -/
theorem normalMode_rate (env : Env) (data : InstanceData) (memory : SensorReading) (ticks₁ ticks₂ : List Unit) :
    let m := (normalMode env).after (Main.init data memory) ticks₁
    24 * (((normalMode env).outputs m ticks₂).filterMap Obs.byte?).length + m.adcPos ≤
      ((normalMode env).after m ticks₂).adcPos + 24 := by
  intro m
  have hm : m.loop.Bounded :=
    after_invariant (I := fun m : Main => m.loop.Bounded) (fun m u h => (normalMode_step_credit m u h).1)
      (s := Main.init data memory) (.of_nil rfl) ticks₁
  have hle := outputs_le (M := normalMode env) 24 Obs.byte? (fun m => m.loop.credit) Main.adcPos
    (I := fun m => m.loop.Bounded) (fun m u h => normalMode_step_credit m u h) hm ticks₂
  have hcredit := hm.credit_le
  omega

end Glove
