import Glove.Theorems.Readings

/-! The biases of `calLSM9DS0`. The sum of an axis is an `int16_t` that wraps in each pass. Since wrapping goes with
    addition only the last wrap counts, so the average is that of the samples just where their sum fits 16 bits. -/

namespace Glove.Imu

theorem foldl_bmod {α : Type} (m : Nat) (f : α → Int) (l : List α) (a : Int) :
    l.foldl (fun b x => (b + f x).bmod m) (a.bmod m) = (a + (l.map f).sum).bmod m := by
  induction l generalizing a with
  | nil => rw [List.foldl_nil, List.map_nil, List.sum_nil, Int.add_zero]
  | cons x l ih => rw [List.foldl_cons, Int.bmod_add_bmod, ih, List.map_cons, List.sum_cons, Int.add_assoc]

theorem tdiv_bmod_iff {total : Int} {n : Nat} (hpos : 0 < n) (hn : n < 32) :
    (total.bmod 65536).tdiv n = total.tdiv n ↔ Fits total := by
  refine ⟨fun h => ?_, fun h => by rw [fits_bmod h]⟩
  -- Equal quotients leave the two numbers less than `2 * n` apart, and a wrap moves a number by 65536 or more.
  have hdiv := Int.mul_tdiv_add_tmod total n
  have hdivWrap := Int.mul_tdiv_add_tmod (total.bmod 65536) n
  have hmod := Int.tmod_lt_of_pos total (Int.natCast_pos.mpr hpos)
  have hmodWrap := Int.tmod_lt_of_pos (total.bmod 65536) (Int.natCast_pos.mpr hpos)
  have hmod' := Int.lt_tmod_of_pos total (Int.natCast_pos.mpr hpos)
  have hmodWrap' := Int.lt_tmod_of_pos (total.bmod 65536) (Int.natCast_pos.mpr hpos)
  have hwrap := Int.bmod_add_bdiv total 65536
  have hlo := Int.le_bmod (x := total) (m := 65536) (by decide)
  have hhi := Int.bmod_lt (x := total) (m := 65536) (by decide)
  rw [h] at hdivWrap
  rw [Fits]
  omega

/-! ### One axis -/

namespace Fifo
variable {f : Fifo} {hi lo : BitVec 8} {offset : Int}

theorem samples_lt (f : Fifo) : f.samples < 32 := by
  have hand : f.samples = f.src.toNat % 2 ^ 5 := by
    rw [samples, BitVec.toNat_and]
    exact Nat.and_two_pow_sub_one_eq_mod f.src.toNat 5
  omega

/-- The measurements of an axis, each less the offset. -/
def total (f : Fifo) (hi lo : BitVec 8) (offset : Int) : Int :=
  ((List.range f.samples).map fun ii => readWord (f.passes ii hi) (f.passes ii lo) - offset).sum

theorem sum_eq (f : Fifo) (hi lo : BitVec 8) (offset : Int) : f.sum hi lo offset = (f.total hi lo offset).bmod 65536 := by
  have hpass : ∀ (bias : Int) (ii : Nat),
      int16 (bias + (fifoWord (f.passes ii hi) (f.passes ii lo) - offset)) =
        (bias + (readWord (f.passes ii hi) (f.passes ii lo) - offset)).bmod 65536 := by
    intro bias ii
    rw [int16, fifoWord_eq, readWord_eq, ← Int.add_sub_assoc, ← Int.add_sub_assoc]
    rw [Int.sub_eq_add_neg, Int.sub_eq_add_neg, ← Int.bmod_add_bmod, ← Int.bmod_add_bmod (x := bias + Int.bmod _ _),
      Int.add_bmod_bmod]
  have hfold := foldl_bmod 65536 (fun ii => readWord (f.passes ii hi) (f.passes ii lo) - offset) (List.range f.samples) 0
  rw [sum, total]
  simp only [hpass]
  rw [Int.zero_add] at hfold
  exact hfold

theorem mean_fits (f : Fifo) (hi lo : BitVec 8) (offset : Int) : Fits (f.mean hi lo offset) := by
  have hlo := Int.le_bmod (x := (f.sum hi lo offset).tdiv f.samples) (m := 65536) (by decide)
  have hhi := Int.bmod_lt (x := (f.sum hi lo offset).tdiv f.samples) (m := 65536) (by decide)
  rw [mean, int16, Fits]
  omega

/-- An average is the one of the measurements if and only if their sum fits 16 bits. -/
theorem mean_eq_iff (hpos : f.samples ≠ 0) :
    f.mean hi lo offset = (f.total hi lo offset).tdiv f.samples ↔ Fits (f.total hi lo offset) := by
  have hfits : Fits (((f.total hi lo offset).bmod 65536).tdiv f.samples) := by
    have hlo := Int.le_bmod (x := f.total hi lo offset) (m := 65536) (by decide)
    have hhi := Int.bmod_lt (x := f.total hi lo offset) (m := 65536) (by decide)
    have habs := Int.natAbs_tdiv_le_natAbs ((f.total hi lo offset).bmod 65536) f.samples
    rcases Int.le_total 0 ((f.total hi lo offset).bmod 65536) with h | h
    · have hle := Int.tdiv_le_self (b := f.samples) h
      exact ⟨by omega, by omega⟩
    · have hneg := Int.tdiv_nonneg (Int.neg_nonneg_of_nonpos h) (Int.natCast_nonneg f.samples)
      rw [Int.neg_tdiv] at hneg
      exact ⟨by omega, by omega⟩
  rw [mean, sum_eq, int16, fits_bmod hfits]
  exact tdiv_bmod_iff (Nat.pos_of_ne_zero hpos) f.samples_lt

end Fifo

/-! ### The biases -/

/-- The average of the measurements of an axis, scaled. -/
def Fifo.bias (f : Fifo) (hi lo : BitVec 8) (offset : Int) (fullScale : ℚ) : ℚ :=
  (f.total hi lo offset).tdiv f.samples * (fullScale / 32768)

/-- What gravity reads on an axis that it is along. -/
def AccelScale.oneG : AccelScale → Int
  | .g2 => 16384
  | .g4 => 8192
  | .g6 => 5461
  | .g8 => 4096
  | .g16 => 2048

theorem oneG_eq (s : AccelScale) : int16 ⌊1 / (s.fullScale / 32768)⌋ = s.oneG := by
  have hfloor : ⌊1 / (s.fullScale / 32768)⌋ = s.oneG := by
    cases s <;> norm_num [AccelScale.fullScale, AccelScale.oneG]
  rw [hfloor, int16]
  cases s <;> rfl

theorem GyroScale.fullScale_ne_zero (s : GyroScale) : s.fullScale ≠ 0 := by cases s <;> norm_num [fullScale]

theorem AccelScale.fullScale_ne_zero (s : AccelScale) : s.fullScale ≠ 0 := by cases s <;> norm_num [fullScale]

theorem bias_eq_iff {f : Fifo} {hi lo : BitVec 8} {offset : Int} {fullScale bias : ℚ} (hpos : f.samples ≠ 0)
    (hscale : fullScale ≠ 0) (hbias : bias = f.mean hi lo offset * (fullScale / 32768)) :
    bias = f.bias hi lo offset fullScale ↔ Fits (f.total hi lo offset) := by
  rw [hbias, Fifo.bias, ← Fifo.mean_eq_iff hpos]
  have hne : fullScale / 32768 ≠ 0 := div_ne_zero hscale (by norm_num)
  rw [mul_left_inj' hne]
  exact_mod_cast Iff.rfl

/-- After `begin` and any calls: `calLSM9DS0` divides by zero if and only if one of the two FIFOs is empty. Else each of
    the six biases is the average of the measurements in the FIFO, less gravity on the z axis of the accelerometer, if and
    only if the sum of these fits 16 bits. -/
theorem calLSM9DS0_bias (d₀ : Lsm9ds0) (args : BeginArgs) (as : List Call) (d : Lsm9ds0) (gyroFifo accelFifo : Fifo)
    (hrun : driver.run (d₀.begin args).1 as = some d) :
    (d.calLSM9DS0 gyroFifo accelFifo = none ↔ gyroFifo.samples = 0 ∨ accelFifo.samples = 0) ∧
      ∀ r ∈ d.calLSM9DS0 gyroFifo accelFifo,
        ((r.2.1.x = gyroFifo.bias outXHG outXLG 0 d.gScale.fullScale ↔ Fits (gyroFifo.total outXHG outXLG 0)) ∧
          (r.2.1.y = gyroFifo.bias outYHG outYLG 0 d.gScale.fullScale ↔ Fits (gyroFifo.total outYHG outYLG 0)) ∧
          (r.2.1.z = gyroFifo.bias outZHG outZLG 0 d.gScale.fullScale ↔ Fits (gyroFifo.total outZHG outZLG 0))) ∧
        (r.2.2.x = accelFifo.bias outXHA outXLA 0 d.aScale.fullScale ↔ Fits (accelFifo.total outXHA outXLA 0)) ∧
        (r.2.2.y = accelFifo.bias outYHA outYLA 0 d.aScale.fullScale ↔ Fits (accelFifo.total outYHA outYLA 0)) ∧
        (r.2.2.z = accelFifo.bias outZHA outZLA d.aScale.oneG d.aScale.fullScale ↔
          Fits (accelFifo.total outZHA outZLA d.aScale.oneG)) := by
  have h : Configured d₀.gyro d₀.xm _ d := (begin_configured d₀ args).run hrun
  have hgRes : d.gRes = d.gScale.fullScale / 32768 := h.gRes.trans (gRes_eq d)
  have haRes : d.aRes = d.aScale.fullScale / 32768 := h.aRes.trans (aRes_eq d)
  have hgyro (hi lo : BitVec 8) : single (gyroFifo.mean hi lo 0 * d.gRes) =
      gyroFifo.mean hi lo 0 * (d.gScale.fullScale / 32768) := by
    rw [hgRes, mul_comm, GyroScale.single_mul _ (Fifo.mean_fits ..), mul_comm]
  have haccel (hi lo : BitVec 8) (offset : Int) : single (accelFifo.mean hi lo offset * d.aRes) =
      accelFifo.mean hi lo offset * (d.aScale.fullScale / 32768) := by
    rw [haRes, mul_comm, AccelScale.single_mul _ (Fifo.mean_fits ..), mul_comm]
  have hdown : int16 ⌊1 / d.aRes⌋ = d.aScale.oneG := by rw [haRes, oneG_eq]
  by_cases hg : gyroFifo.samples = 0
  · simp [Lsm9ds0.calLSM9DS0, hg]
  by_cases ha : accelFifo.samples = 0
  · simp [Lsm9ds0.calLSM9DS0, hg, ha]
  have hg' := GyroScale.fullScale_ne_zero d.gScale
  have ha' := AccelScale.fullScale_ne_zero d.aScale
  constructor
  · simp [Lsm9ds0.calLSM9DS0, hg, ha]
  · intro r hr
    simp only [Lsm9ds0.calLSM9DS0, hg, ha, if_false, Option.mem_some_iff] at hr
    subst hr
    refine ⟨⟨?_, ?_, ?_⟩, ?_, ?_, ?_⟩
    · exact bias_eq_iff hg hg' (hgyro ..)
    · exact bias_eq_iff hg hg' (hgyro ..)
    · exact bias_eq_iff hg hg' (hgyro ..)
    · exact bias_eq_iff ha ha' (haccel ..)
    · exact bias_eq_iff ha ha' (haccel ..)
    · exact bias_eq_iff ha ha' (by rw [← hdown]; exact haccel ..)

/-- Each of 31 samples reads 2048 on the x axis: their sum is 63488. -/
def overflowing : Fifo := ⟨0x1F, fun _ reg => if reg = outXHA then 0x08 else 0x00⟩

theorem calLSM9DS0_bias_overflow :
    ∃ r ∈ (powerOn.begin {}).1.calLSM9DS0 overflowing overflowing,
      r.2.2.x ≠ overflowing.bias outXHA outXLA 0 2 ∧ r.2.2.y = overflowing.bias outYHA outYLA 0 2 := by
  obtain ⟨hnone, hbias⟩ := calLSM9DS0_bias powerOn {} [] (powerOn.begin {}).1 overflowing overflowing rfl
  cases hcal : (powerOn.begin {}).1.calLSM9DS0 overflowing overflowing with
  | none => exact absurd (hnone.mp hcal) (by decide)
  | some r =>
    obtain ⟨-, hx, hy, -⟩ := hbias r hcal
    exact ⟨r, rfl, fun h => absurd (hx.mp h) (by decide), hy.mpr (by decide)⟩

end Glove.Imu
