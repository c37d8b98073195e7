import Glove.Sensor
import Glove.Theorems.Readings

/-! The thresholds in ticks of the chip. The thresholds are rounded and so are the readings, but the rounding moves none of
    the readings across: each comparison is one of integers. -/

namespace Glove
open ImuFsm Imu

/-! ### The thresholds -/

/-- Between a half and one the last bit is worth `2 ^ -24`. -/
theorem single_of_near {q : ℚ} {z : Int} (hlo : 1 / 2 ≤ |q|) (hhi : |q| < 1) (hz : |q * 2 ^ 24 - z| < 1 / 2) :
    single q = z / 2 ^ 24 := by
  have hround : single q = Rounding.nearest (q / 2 ^ (-1 + 1 - 24 : ℤ)) * 2 ^ (-1 + 1 - 24 : ℤ) :=
    Rounding.round_eq_of_log (by simpa using hlo) (by simpa using hhi)
  have hunits : q / 2 ^ (-1 + 1 - 24 : ℤ) = q * 2 ^ 24 := by
    rw [show (-1 + 1 - 24 : ℤ) = -24 by norm_num, zpow_neg, div_inv_eq_mul]
    rfl
  rw [hround, hunits, Rounding.nearest_eq hz, show (-1 + 1 - 24 : ℤ) = -24 by norm_num, zpow_neg, ← div_eq_mul_inv]
  rfl

theorem single_eight_tenths : single (8 / 10) = (13421773 : Int) / 2 ^ 24 :=
  single_of_near (by norm_num) (by norm_num) (by norm_num)

theorem single_neg_eight_tenths : single (-8 / 10) = (-13421773 : Int) / 2 ^ 24 :=
  single_of_near (by norm_num) (by norm_num) (by norm_num)

theorem single_int_div {z : Int} (h : |z| < 2 ^ 24) (k : ℕ) : single (z / 2 ^ k) = z / 2 ^ k :=
  Rounding.round_eq (Rounding.Representable.div_two_pow h k)

theorem halved_threshold {z : Int} (h : |z| < 2 ^ 24) : Window.halved.threshold (z / 2 ^ 24) = z / 2 ^ 25 := by
  have hhalf : (z : ℚ) / 2 ^ 24 / 2 = z / 2 ^ 25 := by ring
  rw [Window.threshold, hhalf, single_int_div h]

theorem div_two_pow_lt (a b : Int) (j k : ℕ) : (a : ℚ) / 2 ^ j < b / 2 ^ k ↔ a * 2 ^ k < b * 2 ^ j := by
  rw [div_lt_div_iff₀ (by positivity) (by positivity)]
  exact_mod_cast Iff.rfl

/-- How many ticks of the accelerometer the thresholds of a loop are. -/
def Window.ticks : Window → Int
  | .halved => 6553
  | .full => 13107

theorem threshold_lt (w : Window) (z : Int) : w.threshold (single (8 / 10)) < (z : ℚ) / 2 ^ 14 ↔ w.ticks < z := by
  rw [single_eight_tenths]
  cases w with
  | halved =>
    rw [halved_threshold (by norm_num), div_two_pow_lt, Window.ticks]
    omega
  | full =>
    rw [Window.threshold, div_two_pow_lt, Window.ticks]
    omega

theorem lt_threshold (w : Window) (z : Int) : (z : ℚ) / 2 ^ 14 < w.threshold (single (-8 / 10)) ↔ z < -w.ticks := by
  rw [single_neg_eight_tenths]
  cases w with
  | halved =>
    rw [halved_threshold (by norm_num), div_two_pow_lt, Window.ticks]
    omega
  | full =>
    rw [Window.threshold, div_two_pow_lt, Window.ticks]
    omega

theorem lt_jGzThreshold (z : Int) : 245 / 32768 * (z : ℚ) < jGzThreshold ↔ z < -13374 := by
  have hsingle : jGzThreshold = ((-100 : Int) : ℚ) / 2 ^ 0 := by
    rw [← single_int_div (by norm_num) 0, jGzThreshold]
    norm_num
  have hprod : 245 / 32768 * (z : ℚ) = (245 * z : Int) / 2 ^ 15 := by
    push_cast
    ring
  rw [hsingle, hprod, div_two_pow_lt]
  omega

/-! ### The comparisons -/

/-- `dof` as `main` uses it: with the default scales and without biases. -/
structure AtDefaults (d : Lsm9ds0) : Prop where
  gRes : d.gRes = 245 / 32768
  aRes : d.aRes = 2 / 32768
  abias : d.abias = ⟨0, 0, 0⟩
  gbias : d.gbias = ⟨0, 0, 0⟩

theorem init_atDefaults (gyro xm : RegisterFile) : AtDefaults ((dof gyro xm).begin {}).1 where
  gRes := ((begin_configured (dof gyro xm) {}).gRes).trans (gRes_eq _)
  aRes := ((begin_configured (dof gyro xm) {}).aRes).trans (aRes_eq _)
  abias := rfl
  gbias := rfl

section Compare
variable {d : Lsm9ds0} {z : Int}

theorem AtDefaults.accel (h : AtDefaults d) (hz : Fits z) : single (d.calcAccel z - 0) = (z : ℚ) / 2 ^ 14 := by
  have hle := hz.natAbs_le
  have hlt : |z| < 2 ^ 24 := by
    rw [Int.abs_eq_natAbs]
    omega
  have hprod : d.aRes * z = (z : ℚ) / 2 ^ 14 := by
    rw [h.aRes]
    ring
  rw [sub_zero, Lsm9ds0.calcAccel, hprod, single_int_div hlt, single_int_div hlt]

theorem AtDefaults.gyro (h : AtDefaults d) (hz : Fits z) : single (d.calcGyro z - 0) = 245 / 32768 * (z : ℚ) := by
  have hmul : single (245 / 32768 * (z : ℚ)) = 245 / 32768 * z := GyroScale.dps245.single_mul hz
  rw [sub_zero, Lsm9ds0.calcGyro, h.gRes, hmul, hmul]

end Compare

/-- The readings that a pass takes. -/
structure ReadingsFit (d : Lsm9ds0) : Prop where
  gz : Fits d.g.z
  ax : Fits d.a.x
  ay : Fits d.a.y
  az : Fits d.a.z

theorem imuSample_eq {w : Window} {d : Lsm9ds0} {readMs : Int} (h : AtDefaults d) (hfit : ReadingsFit d) :
    imuSample w d readMs = ⟨readMs, d.g.z < -13374, w.ticks < d.a.y, d.a.y < -w.ticks, w.ticks < d.a.x, d.a.x < -w.ticks,
      w.ticks < d.a.z, d.a.z < -w.ticks⟩ := by
  rw [imuSample, h.abias, h.gbias, h.gyro hfit.gz, h.accel hfit.ax, h.accel hfit.ay, h.accel hfit.az]
  simp only [gt_iff_lt, xAxisThreshold, nxAxisThreshold, yAxisThreshold, nyAxisThreshold, zAxisThreshold, nzAxisThreshold,
    threshold_lt, lt_threshold, lt_jGzThreshold]

end Glove
