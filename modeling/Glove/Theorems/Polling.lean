import Glove.Main
import Glove.Theorems.Classifier
import Glove.Theorems.LoopRefinement

/-! The polling of the NORMAL mode. A `Poll` that succeeds overwrites all six fields with samples in
    range, so the candidate is a sign of the table, and the mode runs the loop over candidates. -/

namespace Glove
open Mealy ImuFsm Sensing

/-! ### `Poll` -/

section Poll
variable {adgdr : Nat → BitVec 32} {pos : Nat} {r r' : SensorReading}

/-- The outcome of `Poll` and the number of conversions do not depend on the reading it is given. -/
theorem pollChannels_outcome (is : List Nat) :
    (pollChannels adgdr is pos r).res = (pollChannels adgdr is pos r').res ∧
      (pollChannels adgdr is pos r).next = (pollChannels adgdr is pos r').next := by
  induction is generalizing pos r r' with
  | nil => exact ⟨rfl, rfl⟩
  | cons i is ih =>
    simp only [pollChannels]
    split
    · exact ⟨rfl, rfl⟩
    · exact ih

theorem pollChannels_key (is : List Nat) : (pollChannels adgdr is pos r).reading.key = r.key := by
  induction is generalizing pos r with
  | nil => rfl
  | cons i is ih =>
    simp only [pollChannels]
    split
    · rfl
    · rw [ih]
      unfold SensorReading.store
      split <;> rfl

/-- The six numbers lie in the range that `Poll` accepts. -/
structure InRange (r : SensorReading) : Prop where
  thumb : r.thumb.natAbs ≤ adcMax
  finger1 : r.finger1.natAbs ≤ adcMax
  finger2 : r.finger2.natAbs ≤ adcMax
  finger3 : r.finger3.natAbs ≤ adcMax
  finger4 : r.finger4.natAbs ≤ adcMax
  palm : r.palm.natAbs ≤ adcMax

theorem pollChannels_cons {i : Nat} {is : List Nat} (h : (pollChannels adgdr (i :: is) pos r).res = 0) :
    extractData (adgdr pos) ≤ adcMax ∧
      pollChannels adgdr (i :: is) pos r = pollChannels adgdr is (pos + 1) (r.store i (extractData (adgdr pos))) := by
  by_cases hrange : extractData (adgdr pos) > adcMax ∨ extractData (adgdr pos) < adcMin
  · simp [pollChannels, hrange] at h
  · exact ⟨not_lt.mp fun hgt => hrange (Or.inl hgt), by simp [pollChannels, hrange]⟩

/-- A `Poll` that succeeds leaves nothing of the reading it is given but the key. -/
theorem poll_success (h : (poll adgdr pos r).res = 0) :
    (poll adgdr pos r).reading = ⟨extractData (adgdr pos), extractData (adgdr (pos + 1)), extractData (adgdr (pos + 2)),
      extractData (adgdr (pos + 3)), extractData (adgdr (pos + 4)), extractData (adgdr (pos + 5)), r.key⟩ ∧
    InRange (poll adgdr pos r).reading := by
  unfold poll at h ⊢
  obtain ⟨h0, hpoll⟩ := pollChannels_cons h
  rw [hpoll] at h ⊢
  obtain ⟨h1, hpoll⟩ := pollChannels_cons h
  rw [hpoll] at h ⊢
  obtain ⟨h2, hpoll⟩ := pollChannels_cons h
  rw [hpoll] at h ⊢
  obtain ⟨h3, hpoll⟩ := pollChannels_cons h
  rw [hpoll] at h ⊢
  obtain ⟨h4, hpoll⟩ := pollChannels_cons h
  rw [hpoll] at h ⊢
  obtain ⟨h5, hpoll⟩ := pollChannels_cons h
  rw [hpoll]
  exact ⟨rfl, h0, h1, h2, h3, h4, h5⟩

/-- A sample in the range that `Poll` accepts. -/
def Accepted (sample : Nat) : Prop := adcMin ≤ sample ∧ sample ≤ adcMax

instance (sample : Nat) : Decidable (Accepted sample) := inferInstanceAs (Decidable (_ ∧ _))

theorem accepted_iff {sample : Nat} : Accepted sample ↔ ¬(sample > adcMax ∨ sample < adcMin) := by
  unfold Accepted
  omega

/-- A pass succeeds exactly when the sample of each of its channels is accepted, and then it takes one
    conversion for each. -/
theorem pollChannels_res_iff (is : List Nat) :
    (pollChannels adgdr is pos r).res = 0 ↔ ∀ n < is.length, Accepted (extractData (adgdr (pos + n))) := by
  induction is generalizing pos r with
  | nil => simp [pollChannels]
  | cons i is ih =>
    rw [List.length_cons, Nat.forall_lt_succ_left, Nat.add_zero, accepted_iff]
    by_cases hrange : extractData (adgdr pos) > adcMax ∨ extractData (adgdr pos) < adcMin
    · simp [pollChannels, hrange]
    · simp only [pollChannels, hrange, if_false, not_false_eq_true, true_and, ih]
      simp only [Nat.add_assoc, Nat.add_comm 1]

theorem pollChannels_next {is : List Nat} (h : (pollChannels adgdr is pos r).res = 0) :
    (pollChannels adgdr is pos r).next = pos + is.length := by
  induction is generalizing pos r with
  | nil => rfl
  | cons i is ih =>
    obtain ⟨-, hpoll⟩ := pollChannels_cons h
    rw [hpoll] at h ⊢
    rw [ih h, List.length_cons]
    omega

theorem poll_res_iff : (poll adgdr pos r).res = 0 ↔ ∀ n < 6, Accepted (extractData (adgdr (pos + n))) :=
  pollChannels_res_iff _

theorem poll_next (h : (poll adgdr pos r).res = 0) : (poll adgdr pos r).next = pos + 6 := pollChannels_next h

theorem poll_fieldsIn (h : (poll adgdr pos r).res = 0) : (poll adgdr pos r).reading.FieldsIn adcMin adcMax := by
  have hall := poll_res_iff.mp h
  have hsample : ∀ n < 6, (adcMin : Int) ≤ extractData (adgdr (pos + n)) ∧
      extractData (adgdr (pos + n)) ≤ (adcMax : Int) :=
    fun n hn => ⟨Int.ofNat_le.mpr (hall n hn).1, Int.ofNat_le.mpr (hall n hn).2⟩
  rw [(poll_success h).1]
  exact ⟨hsample 0 (by decide), hsample 1 (by decide), hsample 2 (by decide), hsample 3 (by decide),
    hsample 4 (by decide), hsample 5 (by decide)⟩

end Poll

/-! ### `Convert` -/

theorem InRange.within {k o : SensorReading} (hk : InRange k) (ho : InRange o) : Within 7800 k o := by
  have hdiff : ∀ {a b : Int}, a.natAbs ≤ adcMax → b.natAbs ≤ adcMax → (a - b).natAbs ≤ 7800 := by
    intro a b ha hb
    unfold adcMax at ha hb
    omega
  exact ⟨hdiff hk.thumb ho.thumb, hdiff hk.finger1 ho.finger1, hdiff hk.finger2 ho.finger2, hdiff hk.finger3 ho.finger3,
    hdiff hk.finger4 ho.finger4, hdiff hk.palm ho.palm⟩

/-- In range a key is never further away than the first bound of `Convert`. -/
theorem distanceFromKey_lt {k o : SensorReading} (hk : InRange k) (ho : InRange o) : k.distanceFromKey o < 60000 := by
  have hle := distanceFromKey_le (hk.within ho)
  omega

theorem convert_cons_mem {k o : SensorReading} (ks : List SensorReading) (hk : InRange k) (ho : InRange o) :
    convert (k :: ks) o ∈ (k :: ks).map (·.key) := by
  obtain ⟨k', heq, hfirst⟩ : ∃ k', (k :: ks).foldl (Nearest.step (·.distanceFromKey o) (·.key)) ("-", 60000) =
      (k'.key, k'.distanceFromKey o) ∧ Nearest.IsFirstLeast (·.distanceFromKey o) (k :: ks) k' :=
    Nearest.foldl_step_of_lt List.mem_cons_self (distanceFromKey_lt hk ho)
  rw [convert_eq, heq]
  exact List.mem_map_of_mem hfirst.mem

theorem convert_mem {o : SensorReading} (ho : InRange o) : convert keys o ∈ keys.map (·.key) :=
  convert_cons_mem _ (by constructor <;> simp [adcMax]) ho

/-! ### The mode runs the loop over candidates -/

/-- The candidates of the table. -/
def Candidate (i : Input) : Prop := ∀ candidate, i = .poll candidate → candidate ∈ keys.map (·.key)

theorem normalMode_refines (env : Env) : Refines (M := normalMode env) (N := loop) some (fun m l => m.loop = l)
    (fun _ _ => True) (fun _ i => Candidate i) := by
  rintro m l - rfl -
  cases hpc : m.loop.pc with
  | top =>
    by_cases hres : (poll env.adgdr m.adcPos m.sensorReading).res = 0
    · rw [normalMode_step_poll hpc hres]
      refine ⟨[.poll (convert keys (poll env.adgdr m.adcPos m.sensorReading).reading)], rfl, ?_, ?_⟩
      · simp
      · simp only [trace_cons, trace_nil, List.mem_singleton, forall_eq]
        intro candidate heq
        rw [← Input.poll.inj heq]
        exact convert_mem (poll_success hres).2
    · rw [normalMode_step_retry hpc hres]
      exact ⟨[], rfl, rfl, fun x hx => absurd hx List.not_mem_nil⟩
  | imu w =>
    rw [normalMode_step_imu hpc]
    refine ⟨[.imu (env.imu m.imuPos)], rfl, ?_, ?_⟩
    · simp
    · simp only [trace_cons, trace_nil, List.mem_singleton, forall_eq]
      intro candidate heq
      cases heq

/-- Every run of the mode sends what the keyboard types on some macro-steps, whose gestures are signs of
    the table and whose answers the IMU loops can give. -/
theorem normalMode_run (env : Env) (data : InstanceData) (memory : SensorReading) (ticks : List Unit) :
    ∃ ss, ((normalMode env).outputs (Main.init data memory) ticks).filterMap Obs.byte? =
        keyboard.outputs Keyboard.init ss ∧
      ∀ x ∈ glove.trace (Fsm.init data) ss, x.input.gesture ∈ signs ∧ Deliverable x.before x.input := by
  obtain ⟨is, -, hobs, hcandidates⟩ := (normalMode_refines env).run (s := Main.init data memory) rfl ticks
    fun _ _ => trivial
  have hreads : ∀ x ∈ loop.trace (Loop.init data) is, Reads (· ∈ signs) (fun _ => True) x.before x.input := by
    refine fun x hx => ⟨fun candidate hin => ?_, fun _ _ _ _ _ _ => trivial⟩
    obtain ⟨k, hk, rfl⟩ := List.mem_map.mp (hcandidates x hx candidate hin)
    exact List.mem_map_of_mem hk
  obtain ⟨ss, -, hbytes, hallowed⟩ := loop_run trivial (init_follows data) is hreads
  have hsame : (normalMode env).outputs (Main.init data memory) ticks = loop.outputs (Loop.init data) is := by
    rw [← List.filterMap_some (l := (normalMode env).outputs _ _)]
    exact hobs
  exact ⟨ss, by rw [hsame, hbytes, glove_outputs], fun x hx => ⟨(hallowed x hx).gesture, (hallowed x hx).deliverable⟩⟩

end Glove
