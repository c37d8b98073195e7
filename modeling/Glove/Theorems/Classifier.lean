import Mathlib.Analysis.InnerProductSpace.PiL2
import Glove.Lib.Nearest
import Glove.FlexSensor

/-! `Convert` as a classifier of readings. A reading is a point of Euclidean space in which the palm counts
    three times, and a score is a distance rounded down. `Convert` takes the first key of least score, so
    it is right within a margin around each key, and between keys of one score it goes by their order. -/

namespace Glove.Sensing
open Nearest

/-! ### Distances -/

/-- The sum of squares under the root of `distance_from_key`. -/
def SensorReading.squaredDistance (k x : SensorReading) : Int :=
  (k.thumb - x.thumb) ^ 2 + (k.finger1 - x.finger1) ^ 2 + (k.finger2 - x.finger2) ^ 2 + (k.finger3 - x.finger3) ^ 2 +
    (k.finger4 - x.finger4) ^ 2 + 3 * (k.palm - x.palm) ^ 2

theorem minDist_eq (in1 in2 : Int) : minDist in1 in2 = (in1 - in2) ^ 2 := by
  rw [minDist, Int.natAbs_mul_self', sq]

theorem squaredDistance_nonneg (k x : SensorReading) : 0 ≤ k.squaredDistance x := by
  unfold SensorReading.squaredDistance
  positivity

theorem distanceFromKey_eq_sqrt (k x : SensorReading) :
    k.distanceFromKey x = Nat.sqrt (k.squaredDistance x).toNat := by
  simp only [SensorReading.distanceFromKey, minDist_eq, SensorReading.squaredDistance]

/-- The reading with its palm three times. -/
noncomputable def SensorReading.point (r : SensorReading) : EuclideanSpace ℝ (Fin 8) :=
  !₂[(r.thumb : ℝ), (r.finger1 : ℝ), (r.finger2 : ℝ), (r.finger3 : ℝ), (r.finger4 : ℝ), (r.palm : ℝ), (r.palm : ℝ),
    (r.palm : ℝ)]

theorem dist_point (k x : SensorReading) : dist k.point x.point = √(k.squaredDistance x) := by
  rw [EuclideanSpace.dist_eq]
  congr 1
  simp [Fin.sum_univ_eight, SensorReading.point, Real.dist_eq, sq_abs, SensorReading.squaredDistance]
  ring

theorem distanceFromKey_eq_floor (k x : SensorReading) : k.distanceFromKey x = ⌊dist k.point x.point⌋₊ := by
  have hcast : ((k.squaredDistance x).toNat : ℝ) = k.squaredDistance x := by
    exact_mod_cast Int.toNat_of_nonneg (squaredDistance_nonneg k x)
  rw [distanceFromKey_eq_sqrt, dist_point, ← hcast, Real.nat_floor_real_sqrt_eq_nat_sqrt]

/-! ### Bounds -/

/-- The six numbers lie between `lo` and `hi`. -/
structure SensorReading.FieldsIn (lo hi : Int) (r : SensorReading) : Prop where
  thumb : lo ≤ r.thumb ∧ r.thumb ≤ hi
  finger1 : lo ≤ r.finger1 ∧ r.finger1 ≤ hi
  finger2 : lo ≤ r.finger2 ∧ r.finger2 ≤ hi
  finger3 : lo ≤ r.finger3 ∧ r.finger3 ≤ hi
  finger4 : lo ≤ r.finger4 ∧ r.finger4 ≤ hi
  palm : lo ≤ r.palm ∧ r.palm ≤ hi

instance (lo hi : Int) (r : SensorReading) : Decidable (r.FieldsIn lo hi) :=
  decidable_of_iff (((lo ≤ r.thumb ∧ r.thumb ≤ hi) ∧ (lo ≤ r.finger1 ∧ r.finger1 ≤ hi) ∧
      lo ≤ r.finger2 ∧ r.finger2 ≤ hi) ∧ (lo ≤ r.finger3 ∧ r.finger3 ≤ hi) ∧ (lo ≤ r.finger4 ∧ r.finger4 ≤ hi) ∧
      lo ≤ r.palm ∧ r.palm ≤ hi)
    ⟨fun h => ⟨h.1.1, h.1.2.1, h.1.2.2, h.2.1, h.2.2.1, h.2.2.2⟩,
      fun h => ⟨⟨h.thumb, h.finger1, h.finger2⟩, h.finger3, h.finger4, h.palm⟩⟩

/-- Two readings that differ by at most `n` in each number. -/
structure Within (n : Nat) (k x : SensorReading) : Prop where
  thumb : (k.thumb - x.thumb).natAbs ≤ n
  finger1 : (k.finger1 - x.finger1).natAbs ≤ n
  finger2 : (k.finger2 - x.finger2).natAbs ≤ n
  finger3 : (k.finger3 - x.finger3).natAbs ≤ n
  finger4 : (k.finger4 - x.finger4).natAbs ≤ n
  palm : (k.palm - x.palm).natAbs ≤ n

section Bounds
variable {n : Nat} {k x : SensorReading}

theorem FieldsIn.within {lo hi : Int} (hk : k.FieldsIn lo hi) (hx : x.FieldsIn lo hi) (hn : hi - lo ≤ n) :
    Within n k x := by
  have hdiff : ∀ {a b : Int}, lo ≤ a ∧ a ≤ hi → lo ≤ b ∧ b ≤ hi → (a - b).natAbs ≤ n := by
    intro a b ha hb
    omega
  exact ⟨hdiff hk.thumb hx.thumb, hdiff hk.finger1 hx.finger1, hdiff hk.finger2 hx.finger2, hdiff hk.finger3 hx.finger3,
    hdiff hk.finger4 hx.finger4, hdiff hk.palm hx.palm⟩

theorem minDist_le {a b : Int} (h : (a - b).natAbs ≤ n) : minDist a b ≤ n * n := by
  unfold minDist
  exact_mod_cast Nat.mul_le_mul h h

theorem squaredDistance_le (h : Within n k x) : k.squaredDistance x ≤ 8 * (n * n) := by
  have hthumb := minDist_le h.thumb
  have hfinger1 := minDist_le h.finger1
  have hfinger2 := minDist_le h.finger2
  have hfinger3 := minDist_le h.finger3
  have hfinger4 := minDist_le h.finger4
  have hpalm := minDist_le h.palm
  simp only [minDist_eq] at hthumb hfinger1 hfinger2 hfinger3 hfinger4 hpalm
  unfold SensorReading.squaredDistance
  omega

theorem distanceFromKey_le (h : Within n k x) : k.distanceFromKey x ≤ 3 * n := by
  have hsum : (k.squaredDistance x).toNat < (3 * n + 1) * (3 * n + 1) := by
    have hle := squaredDistance_le h
    have hnat : (k.squaredDistance x).toNat ≤ 8 * (n * n) := by omega
    nlinarith
  have hsqrt : Nat.sqrt (k.squaredDistance x).toNat < 3 * n + 1 := Nat.sqrt_lt.mpr hsum
  rw [distanceFromKey_eq_sqrt]
  omega

end Bounds

/-! ### The scan -/

theorem convert_eq (table : List SensorReading) (x : SensorReading) :
    convert table x = (table.foldl (step (·.distanceFromKey x) (·.key)) ("-", 60000)).1 := rfl

/-- Within a noise of `r`, a reading of a key that is `2 r + 1` away from the other keys is taken for it. -/
theorem convert_margin (table : List SensorReading) (htable : ∀ k ∈ table, k.FieldsIn 0 4095) (k x : SensorReading)
    (hk : k ∈ table) (hx : x.FieldsIn 0 4095) (r : Nat) (hnear : k.squaredDistance x ≤ (r : Int) ^ 2)
    (hfar : ∀ k' ∈ table, k'.key ≠ k.key → (2 * (r : Int) + 1) ^ 2 ≤ k.squaredDistance k') :
    convert table x = k.key := by
  have hstart : k.distanceFromKey x < 60000 := by
    have hle := distanceFromKey_le (FieldsIn.within (n := 4095) (htable k hk) hx (by decide))
    omega
  have hnear' : dist k.point x.point ≤ r := by
    rw [dist_point]
    exact Real.sqrt_le_iff.mpr ⟨Nat.cast_nonneg r, by exact_mod_cast hnear⟩
  rw [convert_eq]
  refine foldl_step_label hk hstart fun k' hk' hne => ?_
  have hfar' : 2 * (r : ℝ) + 1 ≤ dist k.point k'.point := by
    rw [dist_point]
    exact Real.le_sqrt_of_sq_le (by exact_mod_cast hfar k' hk' hne)
  rw [distanceFromKey_eq_floor, distanceFromKey_eq_floor]
  exact_mod_cast floor_dist_lt hnear' hfar'

/-- A noisy `b`. -/
theorem convert_margin_b : convert keys ⟨1100, 1300, 2000, 1200, 1600, 800, ""⟩ = "b" :=
  convert_margin keys (by decide) ⟨1057, 1319, 2056, 1170, 1645, 810, "b"⟩ _ (by simp [keys]) (by decide) 100
    (by decide) (by decide)

/-- Two sums of squares whose roots round down in order are in order but for what the rounding hides. -/
theorem le_of_sqrt_le {a b : Nat} (h : Nat.sqrt a ≤ Nat.sqrt b) : a ≤ b + 2 * Nat.sqrt b := by
  have ha := Nat.sqrt_le_add a
  have hb := Nat.sqrt_le b
  have hmul := Nat.mul_le_mul h h
  omega

theorem keys_fieldsIn : ∀ k ∈ keys, k.FieldsIn adcMin adcMax := by decide

theorem distanceFromKey_keys_lt {k x : SensorReading} (hk : k ∈ keys) (hx : x.FieldsIn adcMin adcMax) :
    k.distanceFromKey x < 60000 := by
  have hle := distanceFromKey_le (FieldsIn.within (n := 3800) (keys_fieldsIn k hk) hx (by decide))
  omega

/-- For a reading in range `Convert` returns the first key of least score, and no key is nearer by more than
    what the rounding of its score hides. -/
theorem convert_firstLeast (x : SensorReading) (hx : x.FieldsIn adcMin adcMax) :
    ∃ k, IsFirstLeast (fun k => Nat.sqrt (k.squaredDistance x).toNat) keys k ∧ convert keys x = k.key ∧
      ∀ k' ∈ keys, k.squaredDistance x ≤ k'.squaredDistance x + 2 * Nat.sqrt (k'.squaredDistance x).toNat := by
  have hhead : (⟨991, 1255, 1083, 487, 786, 621, "1"⟩ : SensorReading) ∈ keys := List.mem_cons_self
  have hscan : ∃ k, keys.foldl (step (·.distanceFromKey x) (·.key)) ("-", 60000) = (k.key, k.distanceFromKey x) ∧
      IsFirstLeast (·.distanceFromKey x) keys k := foldl_step_of_lt hhead (distanceFromKey_keys_lt hhead hx)
  obtain ⟨k, heq, pre, post, hkeys, hpre, hpost⟩ := hscan
  simp only [distanceFromKey_eq_sqrt, Nat.cast_lt, Nat.cast_le] at hpre hpost
  have hfirst : IsFirstLeast (fun k => Nat.sqrt (k.squaredDistance x).toNat) keys k := ⟨pre, post, hkeys, hpre, hpost⟩
  refine ⟨k, hfirst, by rw [convert_eq, heq], fun k' hk' => ?_⟩
  have hnear := le_of_sqrt_le (hfirst.le hk')
  have hk'' := squaredDistance_nonneg k' x
  omega

theorem convert_firstLeast_tie : ∃ k,
    IsFirstLeast (fun k => Nat.sqrt (k.squaredDistance ⟨1095, 1484, 1394, 505, 1337, 666, ""⟩).toNat) keys k ∧
      convert keys ⟨1095, 1484, 1394, 505, 1337, 666, ""⟩ = k.key ∧
      ∀ k' ∈ keys, k.squaredDistance ⟨1095, 1484, 1394, 505, 1337, 666, ""⟩ ≤
        k'.squaredDistance ⟨1095, 1484, 1394, 505, 1337, 666, ""⟩ +
          2 * Nat.sqrt (k'.squaredDistance ⟨1095, 1484, 1394, 505, 1337, 666, ""⟩).toNat :=
  convert_firstLeast _ (by decide)

/-- Between `d` and `z` the scores are the same, `d` comes first, and `z` is nearer. -/
theorem convert_not_nearest : ¬∀ x : SensorReading, x.FieldsIn adcMin adcMax →
    ∃ k ∈ keys, convert keys x = k.key ∧ ∀ k' ∈ keys, k.squaredDistance x ≤ k'.squaredDistance x := by
  intro h
  obtain ⟨k, hk, hkey, hnearest⟩ := h ⟨1095, 1484, 1394, 505, 1337, 666, ""⟩ (by decide)
  have hd : convert keys ⟨1095, 1484, 1394, 505, 1337, 666, ""⟩ = "d" := by decide +kernel
  have hfar : ∀ k ∈ keys, k.key = "d" → ¬∀ k' ∈ keys, k.squaredDistance ⟨1095, 1484, 1394, 505, 1337, 666, ""⟩ ≤
      k'.squaredDistance ⟨1095, 1484, 1394, 505, 1337, 666, ""⟩ := by decide +kernel
  exact hfar k hk (hkey.symm.trans hd) hnearest

end Glove.Sensing
