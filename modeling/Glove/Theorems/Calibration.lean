import Glove.Calibration
import Glove.Theorems.Polling

/-! The averages of the TEST mode. The loop does not look at the results of its polls, so a sample out of range
    leaves numbers of an earlier pass, or of no pass, in the average; without one it is right. -/

namespace Glove.Sensing
open Mealy

section Passes
variable {adgdr : Nat → BitVec 32} {pos : Nat} {r : SensorReading}

/-- The reading is the six accepted samples of the pass from conversion `pos` on. -/
structure OnePass (adgdr : Nat → BitVec 32) (pos : Nat) (r : SensorReading) : Prop where
  thumb : r.thumb = extractData (adgdr pos)
  finger1 : r.finger1 = extractData (adgdr (pos + 1))
  finger2 : r.finger2 = extractData (adgdr (pos + 2))
  finger3 : r.finger3 = extractData (adgdr (pos + 3))
  finger4 : r.finger4 = extractData (adgdr (pos + 4))
  palm : r.palm = extractData (adgdr (pos + 5))
  accepted : ∀ n < 6, Accepted (extractData (adgdr (pos + n)))

theorem onePass_iff : OnePass adgdr pos (poll adgdr pos r).reading ↔ (poll adgdr pos r).res = 0 := by
  constructor
  · intro h
    exact poll_res_iff.mpr h.accepted
  · intro h
    rw [(poll_success h).1]
    exact ⟨rfl, rfl, rfl, rfl, rfl, rfl, poll_res_iff.mp h⟩

/-- The samples of a pass and of what comes after it. -/
theorem accepted_split (r : SensorReading) {k : Nat} :
    (∀ n < 6 + k, Accepted (extractData (adgdr (pos + n)))) ↔
      (poll adgdr pos r).res = 0 ∧ ∀ n < k, Accepted (extractData (adgdr ((poll adgdr pos r).next + n))) := by
  constructor
  · intro h
    have hres : (poll adgdr pos r).res = 0 := poll_res_iff.mpr fun n hn => h n (by omega)
    refine ⟨hres, fun n hn => ?_⟩
    rw [poll_next hres, Nat.add_assoc]
    exact h (6 + n) (by omega)
  · rintro ⟨hres, h⟩ n hn
    rcases Nat.lt_or_ge n 6 with hlt | hge
    · exact poll_res_iff.mp hres n hlt
    · have := h (n - 6) (by omega)
      rwa [poll_next hres, show pos + 6 + (n - 6) = pos + n by omega] at this

end Passes

/-! ### A pass of the loop -/

/-- The first conversions of the five polls of a pass of the loop. -/
def Calibration.passes (adgdr : Nat → BitVec 32) (c : Calibration) : List Nat :=
  let pos2 := (poll adgdr c.adcPos c.sensorReading1).next
  let pos3 := (poll adgdr pos2 c.sensorReading2).next
  let pos4 := (poll adgdr pos3 c.sensorReading3).next
  let pos5 := (poll adgdr pos4 c.sensorReading4).next
  [c.adcPos, pos2, pos3, pos4, pos5]

def Calibration.readings (c : Calibration) : List SensorReading :=
  [c.sensorReading1, c.sensorReading2, c.sensorReading3, c.sensorReading4, c.sensorReading5]

/-- The truncated mean of the samples of channel `i`. -/
def meanSample (adgdr : Nat → BitVec 32) (passes : List Nat) (i : Nat) : Nat :=
  (passes.map fun pos => extractData (adgdr (pos + i))).sum / passes.length

/-- A pass of the loop from `c` averages five readings, each the accepted samples of its own poll. -/
structure ValidAverage (adgdr : Nat → BitVec 32) (c : Calibration) : Prop where
  readings : List.Forall₂ (OnePass adgdr) (c.passes adgdr) (c.step adgdr).1.readings
  thumb : (c.step adgdr).1.sensorReadingAverage.thumb = meanSample adgdr (c.passes adgdr) 0
  finger1 : (c.step adgdr).1.sensorReadingAverage.finger1 = meanSample adgdr (c.passes adgdr) 1
  finger2 : (c.step adgdr).1.sensorReadingAverage.finger2 = meanSample adgdr (c.passes adgdr) 2
  finger3 : (c.step adgdr).1.sensorReadingAverage.finger3 = meanSample adgdr (c.passes adgdr) 3
  finger4 : (c.step adgdr).1.sensorReadingAverage.finger4 = meanSample adgdr (c.passes adgdr) 4
  palm : (c.step adgdr).1.sensorReadingAverage.palm = meanSample adgdr (c.passes adgdr) 5
  inRange : (c.step adgdr).1.sensorReadingAverage.FieldsIn adcMin adcMax
  printed : (c.step adgdr).2 = [(c.step adgdr).1.sensorReadingAverage.printify]

section Average
variable {adgdr : Nat → BitVec 32} {c : Calibration}

/-- The five polls of a pass of the loop succeed exactly when its thirty samples are accepted. -/
theorem readings_iff : List.Forall₂ (OnePass adgdr) (c.passes adgdr) (c.step adgdr).1.readings ↔
    ∀ n < 30, Accepted (extractData (adgdr (c.adcPos + n))) := by
  rw [accepted_split c.sensorReading1 (k := 24), accepted_split c.sensorReading2 (k := 18),
    accepted_split c.sensorReading3 (k := 12), accepted_split c.sensorReading4 (k := 6),
    accepted_split c.sensorReading5 (k := 0)]
  simp [Calibration.passes, Calibration.readings, Calibration.step, onePass_iff]

theorem tdiv_meanSample {pos1 pos2 pos3 pos4 pos5 i : Nat} {v1 v2 v3 v4 v5 : Int}
    (h1 : v1 = extractData (adgdr (pos1 + i))) (h2 : v2 = extractData (adgdr (pos2 + i)))
    (h3 : v3 = extractData (adgdr (pos3 + i))) (h4 : v4 = extractData (adgdr (pos4 + i)))
    (h5 : v5 = extractData (adgdr (pos5 + i))) :
    (v1 + v2 + v3 + v4 + v5).tdiv 5 = meanSample adgdr [pos1, pos2, pos3, pos4, pos5] i := by
  subst h1 h2 h3 h4 h5
  have hsum : meanSample adgdr [pos1, pos2, pos3, pos4, pos5] i =
      (extractData (adgdr (pos1 + i)) + extractData (adgdr (pos2 + i)) + extractData (adgdr (pos3 + i)) +
        extractData (adgdr (pos4 + i)) + extractData (adgdr (pos5 + i))) / 5 := by
    simp [meanSample, Nat.add_assoc]
  rw [hsum]
  exact_mod_cast (Int.ofNat_tdiv _ 5).symm

/-- A mean of accepted samples is in range. -/
theorem meanSample_range {passes : List Nat} {i : Nat} (hne : passes ≠ [])
    (h : ∀ pos ∈ passes, Accepted (extractData (adgdr (pos + i)))) :
    (adcMin : Int) ≤ meanSample adgdr passes i ∧ meanSample adgdr passes i ≤ (adcMax : Int) := by
  have hlen : 0 < passes.length := List.length_pos_iff.mpr hne
  have hlo := List.card_nsmul_le_sum (passes.map fun pos => extractData (adgdr (pos + i))) adcMin
    (by simpa using fun pos hpos => (h pos hpos).1)
  have hhi := List.sum_le_card_nsmul (passes.map fun pos => extractData (adgdr (pos + i))) adcMax
    (by simpa using fun pos hpos => (h pos hpos).2)
  simp only [List.length_map, smul_eq_mul] at hlo hhi
  unfold meanSample
  constructor
  · exact_mod_cast (Nat.le_div_iff_mul_le hlen).mpr (by linarith)
  · exact_mod_cast Nat.div_le_of_le_mul hhi

theorem validAverage_of_readings (h : List.Forall₂ (OnePass adgdr) (c.passes adgdr) (c.step adgdr).1.readings) :
    ValidAverage adgdr c := by
  have hpasses := h
  simp only [Calibration.passes, Calibration.readings, Calibration.step, List.forall₂_cons] at hpasses
  obtain ⟨h1, h2, h3, h4, h5, -⟩ := hpasses
  have hthumb : (c.step adgdr).1.sensorReadingAverage.thumb = meanSample adgdr (c.passes adgdr) 0 :=
    tdiv_meanSample h1.thumb h2.thumb h3.thumb h4.thumb h5.thumb
  have hfinger1 : (c.step adgdr).1.sensorReadingAverage.finger1 = meanSample adgdr (c.passes adgdr) 1 :=
    tdiv_meanSample h1.finger1 h2.finger1 h3.finger1 h4.finger1 h5.finger1
  have hfinger2 : (c.step adgdr).1.sensorReadingAverage.finger2 = meanSample adgdr (c.passes adgdr) 2 :=
    tdiv_meanSample h1.finger2 h2.finger2 h3.finger2 h4.finger2 h5.finger2
  have hfinger3 : (c.step adgdr).1.sensorReadingAverage.finger3 = meanSample adgdr (c.passes adgdr) 3 :=
    tdiv_meanSample h1.finger3 h2.finger3 h3.finger3 h4.finger3 h5.finger3
  have hfinger4 : (c.step adgdr).1.sensorReadingAverage.finger4 = meanSample adgdr (c.passes adgdr) 4 :=
    tdiv_meanSample h1.finger4 h2.finger4 h3.finger4 h4.finger4 h5.finger4
  have hpalm : (c.step adgdr).1.sensorReadingAverage.palm = meanSample adgdr (c.passes adgdr) 5 :=
    tdiv_meanSample h1.palm h2.palm h3.palm h4.palm h5.palm
  have hrange : ∀ i < 6, (adcMin : Int) ≤ meanSample adgdr (c.passes adgdr) i ∧
      meanSample adgdr (c.passes adgdr) i ≤ (adcMax : Int) := by
    intro i hi
    refine meanSample_range (List.cons_ne_nil _ _) ?_
    simp only [Calibration.passes, List.mem_cons, List.not_mem_nil, or_false, forall_eq_or_imp, forall_eq]
    exact ⟨h1.accepted i hi, h2.accepted i hi, h3.accepted i hi, h4.accepted i hi, h5.accepted i hi⟩
  refine ⟨h, hthumb, hfinger1, hfinger2, hfinger3, hfinger4, hpalm, ⟨?_, ?_, ?_, ?_, ?_, ?_⟩, rfl⟩
  · rw [hthumb]
    exact hrange 0 (by decide)
  · rw [hfinger1]
    exact hrange 1 (by decide)
  · rw [hfinger2]
    exact hrange 2 (by decide)
  · rw [hfinger3]
    exact hrange 3 (by decide)
  · rw [hfinger4]
    exact hrange 4 (by decide)
  · rw [hpalm]
    exact hrange 5 (by decide)

end Average

/-! ### Runs -/

/-- In every run, a pass of the loop prints an average of valid readings exactly when none of the thirty samples
    from its first on is out of range. -/
theorem testMode_valid_iff (adgdr : Nat → BitVec 32) (memory : Calibration) (ticks : List Unit) :
    ∀ x ∈ (testMode adgdr).trace (Calibration.init memory) ticks,
      ValidAverage adgdr x.before ↔ ∀ n < 30, Accepted (extractData (adgdr (x.before.adcPos + n))) :=
  fun _ _ => ⟨fun h => readings_iff.mp h.readings, fun h => validAverage_of_readings (readings_iff.mpr h)⟩

/-- Uninitialised readings whose memory holds `n`. -/
def filledWith (n : Int) : Calibration :=
  let r : SensorReading := ⟨n, n, n, n, n, n, ""⟩
  ⟨0, r, r, r, r, r, r⟩

theorem testMode_valid_iff_steady : ValidAverage (fun _ => 0x4000) (Calibration.init (filledWith 0)) ↔
    ∀ n < 30, Accepted (extractData ((fun _ => 0x4000) ((Calibration.init (filledWith 0)).adcPos + n))) :=
  testMode_valid_iff (fun _ => 0x4000) (filledWith 0) [()] _ List.mem_cons_self

/-- The first sample is out of range, so the average has a number that was never polled. -/
theorem testMode_averages_unpolled : ¬∀ (adgdr : Nat → BitVec 32) (memory : Calibration) (ticks : List Unit),
    ∀ x ∈ (testMode adgdr).trace (Calibration.init memory) ticks, ValidAverage adgdr x.before := by
  intro h
  have hvalid := h (fun n => if n = 0 then 0 else 0x4000) (filledWith 60000) [()] _ List.mem_cons_self
  exact absurd hvalid.inRange.thumb.2 (by decide)

end Glove.Sensing
