import Glove.Theorems.Registers

/-! What the readings are. A word is put together from two bytes that are read one after the other, so the chip can
    replace the measurement in between; the word is then off by less than the low byte. The products of the readings
    are exact. -/

namespace Glove.Imu
open Registers

/-! ### Words -/

/-- A number that an `int16_t` can hold. -/
def Fits (z : Int) : Prop := -32768 ≤ z ∧ z ≤ 32767

instance (z : Int) : Decidable (Fits z) := inferInstanceAs (Decidable (_ ∧ _))

def highByte (z : Int) : BitVec 8 := ((BitVec.ofInt 16 z) >>> 8).setWidth 8

def lowByte (z : Int) : BitVec 8 := (BitVec.ofInt 16 z).setWidth 8

theorem word_toNat {n : Nat} (hn : 16 ≤ n) (hi lo : BitVec 8) :
    ((hi.setWidth n <<< 8) ||| lo.setWidth n).toNat = 256 * hi.toNat + lo.toNat := by
  have hhi : hi.toNat < 2 ^ 8 := hi.isLt
  have hlo : lo.toNat < 2 ^ 8 := lo.isLt
  have hpow : 2 ^ 16 ≤ 2 ^ n := Nat.pow_le_pow_right (by decide) hn
  have hlt : hi.toNat <<< 8 < 2 ^ n := by
    rw [Nat.shiftLeft_eq]
    omega
  have hhi' : hi.toNat % 2 ^ n = hi.toNat := Nat.mod_eq_of_lt (by omega)
  have hlo' : lo.toNat % 2 ^ n = lo.toNat := Nat.mod_eq_of_lt (by omega)
  rw [BitVec.toNat_or, BitVec.toNat_shiftLeft, BitVec.toNat_setWidth, BitVec.toNat_setWidth, hhi', hlo',
    Nat.mod_eq_of_lt hlt, ← Nat.shiftLeft_add_eq_or_of_lt hlo, Nat.shiftLeft_eq]
  omega

theorem readWord_eq (hi lo : BitVec 8) : readWord hi lo = ((256 * hi.toNat + lo.toNat : Nat) : Int).bmod 65536 := by
  rw [readWord, BitVec.toInt_eq_toNat_bmod, word_toNat (by decide)]

theorem fifoWord_eq (hi lo : BitVec 8) : fifoWord hi lo = (256 * hi.toNat + lo.toNat : Nat) := by
  have hhi : hi.toNat < 2 ^ 8 := hi.isLt
  have hlo : lo.toNat < 2 ^ 8 := lo.isLt
  rw [fifoWord, BitVec.toInt_eq_toNat_of_lt, word_toNat (by decide)]
  rw [word_toNat (by decide)]
  omega

theorem readWord_fits (hi lo : BitVec 8) : Fits (readWord hi lo) := by
  rw [readWord_eq, Fits]
  have hlo := Int.le_bmod (x := ((256 * hi.toNat + lo.toNat : Nat) : Int)) (m := 65536) (by decide)
  have hhi := Int.bmod_lt (x := ((256 * hi.toNat + lo.toNat : Nat) : Int)) (m := 65536) (by decide)
  omega

theorem highByte_toNat (z : Int) : ((highByte z).toNat : Int) = z % 65536 / 256 := by
  rw [highByte, BitVec.toNat_setWidth, BitVec.toNat_ushiftRight, BitVec.toNat_ofInt, Nat.shiftRight_eq_div_pow]
  omega

theorem lowByte_toNat (z : Int) : ((lowByte z).toNat : Int) = z % 256 := by
  rw [lowByte, BitVec.toNat_setWidth, BitVec.toNat_ofInt]
  omega

theorem fits_bmod {z : Int} (h : Fits z) : z.bmod 65536 = z := by
  obtain ⟨hlo, hhi⟩ := h
  exact Int.bmod_eq_of_le (by omega) (by omega)

theorem readWord_bytes {u : Int} (hu : Fits u) (v : Int) :
    readWord (highByte u) (lowByte v) = u - u % 256 + v % 256 := by
  have hword : ((256 * (highByte u).toNat + (lowByte v).toNat : Nat) : Int) = u % 65536 - u % 256 + v % 256 := by
    rw [Nat.cast_add, Nat.cast_mul, highByte_toNat, lowByte_toNat]
    omega
  obtain ⟨hlo, hhi⟩ := hu
  rw [readWord_eq, hword, Int.bmod_def]
  omega

/-- The bytes of a measurement give it back. If the chip replaces the measurement between the reads of the two bytes, the
    word is less than 256 away from the one that the high byte is of. -/
theorem readWord_torn {u : Int} (hu : Fits u) (v : Int) :
    readWord (highByte u) (lowByte u) = u ∧ (readWord (highByte u) (lowByte v) - u).natAbs < 256 := by
  rw [readWord_bytes hu, readWord_bytes hu]
  omega

/-! ### Temperature -/

/-- The twelve bits of a measurement of the temperature. -/
def tempWord (hi lo : BitVec 8) : Int := ((hi.setWidth 4 ++ lo : BitVec 12)).toInt

theorem tempWord_eq (hi lo : BitVec 8) : tempWord hi lo = ((256 * (hi.toNat % 16) + lo.toNat : Nat) : Int).bmod 4096 := by
  have hlo : lo.toNat < 2 ^ 8 := lo.isLt
  rw [tempWord, BitVec.toInt_eq_toNat_bmod, BitVec.toNat_append, ← Nat.shiftLeft_add_eq_or_of_lt hlo, Nat.shiftLeft_eq,
    BitVec.toNat_setWidth, Nat.mul_comm]

theorem readTemp_temperature (d : Lsm9ds0) (chip : Nat → RegisterFile) :
    (d.readTemp chip).temperature = readWord (chip 1 outTempHXm) (chip 0 outTempLXm) := by
  refine congrArg BitVec.toInt ?_
  ext i hi
  have hindex : 4 + i - 12 = i - 8 := by omega
  have hlow : decide (4 + i < 12) = decide (i < 8) := decide_eq_decide.mpr (by omega)
  have hbounds : 4 + i < 32 ∧ i - 8 < 32 ∧ ¬32 ≤ i := by omega
  have hword : i < 32 := by omega
  simp only [BitVec.getElem_setWidth, BitVec.getLsbD_sshiftRight, BitVec.getLsbD_or, BitVec.getLsbD_shiftLeft,
    BitVec.getLsbD_setWidth, BitVec.getElem_or, BitVec.getElem_shiftLeft, hindex, hlow, hbounds]
  simp [hword]

/-- `readTemp` gives the twelve bits of the measurement if and only if the four bits above them repeat its sign: the shifts
    are on an `int`, and do not drop these. -/
theorem readTemp_eq_iff (d : Lsm9ds0) (chip : Nat → RegisterFile) :
    (d.readTemp chip).temperature = tempWord (chip 1 outTempHXm) (chip 0 outTempLXm) ↔
      -8 ≤ (chip 1 outTempHXm).toInt ∧ (chip 1 outTempHXm).toInt ≤ 7 := by
  have hhi : (chip 1 outTempHXm).toNat < 2 ^ 8 := (chip 1 outTempHXm).isLt
  have hlo : (chip 0 outTempLXm).toNat < 2 ^ 8 := (chip 0 outTempLXm).isLt
  rw [readTemp_temperature, readWord_eq, tempWord_eq, BitVec.toInt_eq_toNat_bmod, Int.bmod_def, Int.bmod_def, Int.bmod_def]
  omega

/-! ### Products -/

theorem single_mul {k z : Int} (hk : k.natAbs ≤ 500) (hz : z.natAbs ≤ 32768) (e : ℕ) :
    single ((k : ℚ) / 2 ^ e * z) = k / 2 ^ e * z := by
  have hlt : |k * z| < 2 ^ 24 := by
    rw [Int.abs_eq_natAbs, Int.natAbs_mul]
    have hle := Nat.mul_le_mul hk hz
    omega
  have hprod : (k : ℚ) / 2 ^ e * z = (k * z : Int) / 2 ^ e := by
    push_cast
    ring
  rw [hprod]
  exact Rounding.round_eq (Rounding.Representable.div_two_pow hlt e)

theorem Fits.natAbs_le {z : Int} (h : Fits z) : z.natAbs ≤ 32768 := by
  obtain ⟨hlo, hhi⟩ := h
  omega

theorem GyroScale.single_mul (s : GyroScale) {z : Int} (hz : Fits z) :
    single (s.fullScale / 32768 * z) = s.fullScale / 32768 * z := by
  cases s with
  | dps245 =>
    have h : GyroScale.dps245.fullScale / 32768 = ((245 : Int) : ℚ) / 2 ^ 15 := by norm_num [fullScale]
    rw [h]
    exact Imu.single_mul (by decide) hz.natAbs_le 15
  | dps500 =>
    have h : GyroScale.dps500.fullScale / 32768 = ((125 : Int) : ℚ) / 2 ^ 13 := by norm_num [fullScale]
    rw [h]
    exact Imu.single_mul (by decide) hz.natAbs_le 13
  | dps2000 =>
    have h : GyroScale.dps2000.fullScale / 32768 = ((125 : Int) : ℚ) / 2 ^ 11 := by norm_num [fullScale]
    rw [h]
    exact Imu.single_mul (by decide) hz.natAbs_le 11

theorem AccelScale.single_mul (s : AccelScale) {z : Int} (hz : Fits z) :
    single (s.fullScale / 32768 * z) = s.fullScale / 32768 * z := by
  have hscale : ∃ k : Int, k.natAbs ≤ 500 ∧ s.fullScale / 32768 = (k : ℚ) / 2 ^ 15 := by
    cases s
    · exact ⟨2, by decide, by norm_num [fullScale]⟩
    · exact ⟨4, by decide, by norm_num [fullScale]⟩
    · exact ⟨6, by decide, by norm_num [fullScale]⟩
    · exact ⟨8, by decide, by norm_num [fullScale]⟩
    · exact ⟨16, by decide, by norm_num [fullScale]⟩
  obtain ⟨k, hk, hscale⟩ := hscale
  rw [hscale]
  exact Imu.single_mul hk hz.natAbs_le 15

end Glove.Imu
