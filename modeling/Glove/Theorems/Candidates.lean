import Glove.Theorems.Polling

/-! The candidates of the NORMAL mode. `Convert` is only reached after a `Poll` that succeeded, so it reads six
    samples of one pass, all in range. No `int` of its distances overflows, every score is below the
    first bound, and the candidate is a key of the table. -/

namespace Glove
open Mealy ImuFsm Consensus Sensing

/-! ### The integers of the distances -/

/-- Every `int` that a call of `min_dist` computes. -/
def minDistInts (in1 in2 : Int) : List Int := [in1 - in2, (in1 - in2).natAbs, minDist in1 in2]

/-- Every `int` that `distance_from_key` computes: those of its calls of `min_dist`, the weighted palm, the sums
    from left to right, and the score. -/
def distanceInts (k x : SensorReading) : List Int :=
  let thumb := minDist k.thumb x.thumb
  let finger1 := minDist k.finger1 x.finger1
  let finger2 := minDist k.finger2 x.finger2
  let finger3 := minDist k.finger3 x.finger3
  let finger4 := minDist k.finger4 x.finger4
  let palm := minDist k.palm x.palm
  minDistInts k.thumb x.thumb ++ minDistInts k.finger1 x.finger1 ++ minDistInts k.finger2 x.finger2 ++
    minDistInts k.finger3 x.finger3 ++ minDistInts k.finger4 x.finger4 ++ minDistInts k.palm x.palm ++
    [3 * palm, thumb + finger1, thumb + finger1 + finger2, thumb + finger1 + finger2 + finger3,
      thumb + finger1 + finger2 + finger3 + finger4, thumb + finger1 + finger2 + finger3 + finger4 + 3 * palm,
      k.distanceFromKey x]

/-- The range of an `int`. -/
def FitsInt (v : Int) : Prop := -2 ^ 31 ≤ v ∧ v < 2 ^ 31

theorem minDist_nonneg (in1 in2 : Int) : 0 ≤ minDist in1 in2 := by
  rw [minDist_eq]
  positivity

theorem minDistInts_fit {in1 in2 : Int} (h : (in1 - in2).natAbs ≤ 3800) : ∀ v ∈ minDistInts in1 in2, FitsInt v := by
  have hsq := minDist_le h
  have hpos := minDist_nonneg in1 in2
  simp only [minDistInts, List.mem_cons, List.not_mem_nil, or_false, forall_eq_or_imp, forall_eq, FitsInt]
  omega

theorem distanceInts_fit {k x : SensorReading} (h : Within 3800 k x) : ∀ v ∈ distanceInts k x, FitsInt v := by
  have hbounds : ∀ {a b : Int}, (a - b).natAbs ≤ 3800 → 0 ≤ minDist a b ∧ minDist a b ≤ 14440000 :=
    fun hab => ⟨minDist_nonneg _ _, minDist_le hab⟩
  have hthumb := hbounds h.thumb
  have hfinger1 := hbounds h.finger1
  have hfinger2 := hbounds h.finger2
  have hfinger3 := hbounds h.finger3
  have hfinger4 := hbounds h.finger4
  have hpalm := hbounds h.palm
  have hscore := distanceFromKey_le h
  have hscore0 : 0 ≤ k.distanceFromKey x := by
    rw [distanceFromKey_eq_sqrt]
    exact Int.natCast_nonneg _
  intro v hv
  simp only [distanceInts, List.mem_append, or_assoc] at hv
  rcases hv with hv | hv | hv | hv | hv | hv | hv
  · exact minDistInts_fit h.thumb v hv
  · exact minDistInts_fit h.finger1 v hv
  · exact minDistInts_fit h.finger2 v hv
  · exact minDistInts_fit h.finger3 v hv
  · exact minDistInts_fit h.finger4 v hv
  · exact minDistInts_fit h.palm v hv
  · simp only [List.mem_cons, List.not_mem_nil, or_false] at hv
    unfold FitsInt
    rcases hv with rfl | rfl | rfl | rfl | rfl | rfl | rfl <;> omega

/-! ### The consensus queue -/

theorem pushCandidate_queue {n : Nat} {queue queue' : List String} {c : String} {result : Option String}
    (h : pushCandidate n queue c = some (result, queue')) : ∀ s ∈ queue', s ∈ queue ∨ s = c := by
  by_cases hlen : queue.length + 1 < n
  · rw [pushCandidate_short hlen] at h
    cases h
    simp
  · by_cases hall : ∀ x ∈ queue, x = c
    · rw [pushCandidate_agree hlen hall] at h
      cases h
      simp
    · rw [pushCandidate_differ hlen hall] at h
      cases h
      simp

theorem pollStep_queue (l : Loop) (c : String) :
    ∀ s ∈ (l.pollStep c).1.consensusQueue, s ∈ l.consensusQueue ∨ s = c := by
  unfold Loop.pollStep
  split
  · exact fun s hs => Or.inl hs
  · rename_i hpush
    exact pushCandidate_queue hpush
  · rename_i hpush
    dsimp only
    split
    · exact pushCandidate_queue hpush
    · split
      · exact pushCandidate_queue hpush
      · exact pushCandidate_queue hpush

theorem imuStep_queue (l : Loop) (w : Window) (x : ImuSample) :
    (l.imuStep w x).1.consensusQueue = l.consensusQueue := by
  unfold Loop.imuStep
  dsimp only
  split <;> rfl

/-! ### What reaches `Convert` -/

/-- The reading that `Convert` is called with in a step of the mode, if the step reaches it. -/
def Main.converted (env : Env) (m : Main) : Option SensorReading :=
  match m.loop.pc with
  | .top =>
    let polled := poll env.adgdr m.adcPos m.sensorReading
    if polled.res = 0 then some polled.reading else none
  | .imu _ => none

theorem converted_cases {env : Env} {m : Main} {reading : SensorReading} (h : m.converted env = some reading) :
    m.loop.pc = .top ∧ (poll env.adgdr m.adcPos m.sensorReading).res = 0 ∧
      reading = (poll env.adgdr m.adcPos m.sensorReading).reading := by
  unfold Main.converted at h
  split at h
  · rename_i hpc
    dsimp only at h
    split at h
    · rename_i hres
      exact ⟨hpc, hres, (Option.some.inj h).symm⟩
    · cases h
  · cases h

/-- A call of `Convert` in the state `m`: the reading is one pass of `Poll`, in range; no `int` overflows, every
    score is below the first bound, and what is pushed to the queue is a key. -/
structure RealKey (env : Env) (m : Main) (reading : SensorReading) : Prop where
  onePass : reading = ⟨extractData (env.adgdr m.adcPos), extractData (env.adgdr (m.adcPos + 1)),
    extractData (env.adgdr (m.adcPos + 2)), extractData (env.adgdr (m.adcPos + 3)),
    extractData (env.adgdr (m.adcPos + 4)), extractData (env.adgdr (m.adcPos + 5)), m.sensorReading.key⟩
  inRange : reading.FieldsIn adcMin adcMax
  fits : ∀ k ∈ keys, ∀ v ∈ distanceInts k reading, FitsInt v
  below : ∀ k ∈ keys, k.distanceFromKey reading < 60000
  pushed : (m.step env).1.loop = (m.loop.pollStep (convert keys reading)).1
  isKey : convert keys reading ∈ keys.map (·.key)
  notPlaceholder : convert keys reading ≠ "-"

theorem converted_realKey {env : Env} {m : Main} {reading : SensorReading} (h : m.converted env = some reading) :
    RealKey env m reading := by
  obtain ⟨hpc, hres, rfl⟩ := converted_cases h
  have hin := poll_fieldsIn hres
  obtain ⟨hpass, hrange⟩ := poll_success hres
  have hkey := convert_mem hrange
  have hstep := normalMode_step_poll (u := ()) hpc hres
  refine ⟨hpass, hin, fun k hk => ?_, fun k hk => distanceFromKey_keys_lt hk hin, ?_, hkey, ?_⟩
  · exact distanceInts_fit (FieldsIn.within (keys_fieldsIn k hk) hin (by decide))
  · rw [show m.step env = (normalMode env).step m () from rfl, hstep]
    dsimp only
    rw [loop_step_poll hpc]
  · have hdash : "-" ∉ keys.map (·.key) := by decide
    intro heq
    rw [heq] at hkey
    exact hdash hkey

/-! ### Runs -/

/-- The queue holds keys of the table. -/
def KeyQueue (m : Main) : Prop := ∀ s ∈ m.loop.consensusQueue, s ∈ keys.map (·.key)

theorem keyQueue_step {env : Env} {m : Main} (h : KeyQueue m) (u : Unit) : KeyQueue ((normalMode env).step m u).1 := by
  intro s hs
  cases hpc : m.loop.pc with
  | top =>
    by_cases hres : (poll env.adgdr m.adcPos m.sensorReading).res = 0
    · rw [normalMode_step_poll hpc hres] at hs
      dsimp only at hs
      rw [loop_step_poll hpc] at hs
      rcases pollStep_queue _ _ s hs with hs | heq
      · exact h s hs
      · rw [heq]
        exact convert_mem (poll_success hres).2
    · rw [normalMode_step_retry hpc hres] at hs
      exact h s hs
  | imu w =>
    rw [normalMode_step_imu hpc] at hs
    dsimp only at hs
    rw [loop_step_imu hpc, imuStep_queue] at hs
    exact h s hs

/-- In every run of the mode each reading that `Convert` is called with yields a key of the table, and the queue
    holds nothing else. -/
theorem normalMode_realKeys (env : Env) (data : InstanceData) (memory : SensorReading) (ticks : List Unit) :
    (∀ x ∈ (normalMode env).trace (Main.init data memory) ticks, ∀ reading, x.before.converted env = some reading →
      RealKey env x.before reading) ∧
    KeyQueue ((normalMode env).after (Main.init data memory) ticks) := by
  have hstart : KeyQueue (Main.init data memory) := fun s hs => absurd hs List.not_mem_nil
  exact ⟨fun x _ reading h => converted_realKey h,
    after_invariant (I := KeyQueue) (fun m u h => keyQueue_step h u) hstart ticks⟩

/-- Every sample is 1024. -/
def steadyEnv : Env := ⟨fun _ => 0x4000, fun _ => ⟨0, false, false, false, false, false, false, false⟩⟩

theorem normalMode_realKeys_steady :
    RealKey steadyEnv (Main.init ⟨.gestureIn, '0', '0'⟩ ⟨0, 0, 0, 0, 0, 0, ""⟩) ⟨1024, 1024, 1024, 1024, 1024, 1024, ""⟩ :=
  (normalMode_realKeys steadyEnv ⟨.gestureIn, '0', '0'⟩ ⟨0, 0, 0, 0, 0, 0, ""⟩ [()]).1 _ List.mem_cons_self _ rfl

end Glove
