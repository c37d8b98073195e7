import Mathlib.Data.Int.Log
import Mathlib.Algebra.Order.Field.Power
import Mathlib.Data.Rat.Floor
import Mathlib.Tactic.Ring
import Mathlib.Tactic.Positivity

/-! # Rounding to a binary precision

A floating-point operation is the exact one and then a rounding to `p` significant bits, to the nearest and
at a tie to the even one. The exponent has no bounds here. A number that `p` bits can hold is not changed. -/

namespace Rounding
variable {p : ℕ} {x : ℚ}

/-- The nearest integer, and the even one of two. -/
def nearest (x : ℚ) : ℤ :=
  if x - ⌊x⌋ < 1 / 2 then ⌊x⌋
  else if 1 / 2 < x - ⌊x⌋ then ⌊x⌋ + 1
  else if ⌊x⌋ % 2 = 0 then ⌊x⌋ else ⌊x⌋ + 1

/-- The exponent of the last of the `p` bits of a number. -/
def lastBit (p : ℕ) (x : ℚ) : ℤ := Int.log 2 |x| + 1 - p

def round (p : ℕ) (x : ℚ) : ℚ := nearest (x / 2 ^ lastBit p x) * 2 ^ lastBit p x

/-- `p` bits can hold the number. -/
def Representable (p : ℕ) (x : ℚ) : Prop := ∃ m e : ℤ, |m| < 2 ^ p ∧ x = m * 2 ^ e

theorem nearest_intCast (z : ℤ) : nearest z = z := by
  have h : (z : ℚ) - ⌊(z : ℚ)⌋ < 1 / 2 := by rw [Int.floor_intCast, sub_self]; norm_num
  rw [nearest, if_pos h, Int.floor_intCast]

/-- The integer that is less than half away. -/
theorem nearest_eq {z : ℤ} (h : |x - z| < 1 / 2) : nearest x = z := by
  obtain ⟨hlo, hhi⟩ := abs_lt.mp h
  by_cases hz : (z : ℚ) ≤ x
  · have hfloor : ⌊x⌋ = z := Int.floor_eq_iff.mpr ⟨hz, by linarith⟩
    rw [nearest, hfloor, if_pos hhi]
  · have hfloor : ⌊x⌋ = z - 1 := Int.floor_eq_iff.mpr ⟨by push_cast; linarith, by push_cast; linarith⟩
    have hpast : 1 / 2 < x - ((z - 1 : ℤ) : ℚ) := by
      push_cast
      linarith
    rw [nearest, hfloor, if_neg (by linarith), if_pos hpast, sub_add_cancel]

/-- A whole number of units of the last bit is not changed. -/
theorem round_units {z : ℤ} (h : x = z * 2 ^ lastBit p x) : round p x = x := by
  have hdiv : x / 2 ^ lastBit p x = z := by
    rw [div_eq_iff (by positivity)]
    exact h
  rw [round, hdiv, nearest_intCast]
  exact h.symm

theorem lastBit_le {m e : ℤ} (hm : m ≠ 0) (hlt : |m| < 2 ^ p) : lastBit p (m * 2 ^ e) ≤ e := by
  have hpos : (0 : ℚ) < |(m : ℚ) * 2 ^ e| := by
    rw [abs_pos]
    exact mul_ne_zero (by exact_mod_cast hm) (by positivity)
  have hbound : |(m : ℚ) * 2 ^ e| < ((2 : ℕ) : ℚ) ^ ((p : ℤ) + e) := by
    rw [abs_mul, abs_of_pos (by positivity : (0 : ℚ) < 2 ^ e), Nat.cast_ofNat, zpow_add₀ two_ne_zero, zpow_natCast]
    exact mul_lt_mul_of_pos_right (by exact_mod_cast hlt) (by positivity)
  have hlog := (Int.lt_zpow_iff_log_lt Nat.one_lt_two hpos).mp hbound
  rw [lastBit]
  omega

theorem round_eq (h : Representable p x) : round p x = x := by
  obtain ⟨m, e, hlt, rfl⟩ := h
  by_cases hm : m = 0
  · rw [hm, Int.cast_zero, zero_mul, round, zero_div]
    rw [show nearest 0 = 0 from nearest_intCast 0, Int.cast_zero, zero_mul]
  · have hle := lastBit_le (e := e) hm hlt
    obtain ⟨k, hk⟩ := Int.eq_ofNat_of_zero_le (sub_nonneg.mpr hle)
    refine round_units (z := m * 2 ^ k) ?_
    have he : e = (k : ℤ) + lastBit p (m * 2 ^ e) := by omega
    conv_lhs => rw [he, zpow_add₀ two_ne_zero, zpow_natCast]
    push_cast
    ring

/-- Rounding where the leading bit is known. -/
theorem round_eq_of_log {k : ℤ} (hlo : 2 ^ k ≤ |x|) (hhi : |x| < 2 ^ (k + 1)) :
    round p x = nearest (x / 2 ^ (k + 1 - p)) * 2 ^ (k + 1 - p) := by
  have hpos : 0 < |x| := lt_of_lt_of_le (by positivity) hlo
  have hle := (Int.zpow_le_iff_le_log Nat.one_lt_two hpos).mp (by exact_mod_cast hlo)
  have hlt := (Int.lt_zpow_iff_log_lt Nat.one_lt_two hpos).mp (by exact_mod_cast hhi)
  have hlog : Int.log 2 |x| = k := by omega
  rw [round, lastBit, hlog]

theorem Representable.div_two_pow {z : ℤ} (h : |z| < 2 ^ p) (k : ℕ) : Representable p (z / 2 ^ k) :=
  ⟨z, -k, h, by rw [zpow_neg, zpow_natCast, div_eq_mul_inv]⟩

end Rounding
