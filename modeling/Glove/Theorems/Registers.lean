import Glove.Lsm9ds0

/-! The driver as a store of settings: after `begin`, whatever the calls, every register that the chip does not write
    holds what the last settings say. One bit goes its own way. The field of the accelerometer's scale has three bits
    and `setAccelScale` masks out two, so the bit of the 16 g scale stays once it is set. -/

namespace Glove.Imu
open Registers

/-! ### Settings -/

/-- The last settings, and what the other calls leave behind: whether the 16 g scale was set since `begin`, the last
    arguments of `configGyroInt`, and whether `calLSM9DS0` ran. -/
structure Settings where
  gScale : GyroScale
  aScale : AccelScale
  mScale : MagScale
  gODR : GyroOdr
  aODR : AccelOdr
  mODR : MagOdr
  was16g : Bool
  gyroInt : Option GyroIntArgs
  calibrated : Bool
  was : aScale = .g16 → was16g = true

namespace Settings

def init (args : BeginArgs) : Settings :=
  ⟨args.gScl, args.aScl, args.mScl, args.gODR, args.aODR, args.mODR, args.aScl = .g16, none, false, by simp⟩

/-- The settings after a call. -/
def next (c : Settings) : Call → Settings
  | .begin args => { init args with gyroInt := c.gyroInt, calibrated := c.calibrated }
  | .setGyroScale gScl => { c with gScale := gScl }
  | .setAccelScale aScl => { c with aScale := aScl, was16g := c.was16g || aScl = .g16, was := by simp +contextual }
  | .setMagScale mScl => { c with mScale := mScl }
  | .setGyroODR gRate => { c with gODR := gRate }
  | .setAccelODR aRate => { c with aODR := aRate }
  | .setMagODR mRate => { c with mODR := mRate }
  | .configGyroInt args => { c with gyroInt := args }
  | .calLSM9DS0 _ _ => { c with calibrated := true }
  | _ => c

/-- The bits of the accelerometer's scale. -/
def aField (c : Settings) : BitVec 8 := (if c.was16g then 0x4 else 0x0) ||| c.aScale.code

/-- What `begin` and the setters leave in the registers of the gyroscope. -/
def gyroCtrl (c : Settings) : List (BitVec 8 × BitVec 8) :=
  [(ctrlReg1G, 0x0F#8 ||| c.gODR.code <<< 4), (ctrlReg2G, 0x00), (ctrlReg3G, 0x88),
    (ctrlReg4G, 0x00#8 ||| c.gScale.code <<< 4), (ctrlReg5G, 0x00)]

def xmCtrl (c : Settings) : List (BitVec 8 × BitVec 8) :=
  [(ctrlReg0Xm, 0x00), (ctrlReg1Xm, 0x07#8 ||| c.aODR.code <<< 4), (ctrlReg2Xm, 0x00#8 ||| c.aField <<< 3),
    (ctrlReg3Xm, 0x04), (ctrlReg5Xm, 0x80#8 ||| c.mODR.code <<< 2), (ctrlReg6Xm, 0x00#8 ||| c.mScale.code <<< 5),
    (ctrlReg7Xm, 0x00), (ctrlReg4Xm, 0x04), (intCtrlRegM, 0x09)]

/-- What `calLSM9DS0` leaves there. -/
def fifoCtrl (c : Settings) (reg : BitVec 8) : List (BitVec 8 × BitVec 8) := if c.calibrated then [(reg, 0x00)] else []

/-- What the calls other than `begin` and the setters leave there. -/
def gyroOther (c : Settings) : List (BitVec 8 × BitVec 8) :=
  ((c.gyroInt.map GyroIntArgs.bytes).getD []) ++ c.fifoCtrl fifoCtrlRegG

end Settings

/-- The chip and the members of the class are as the settings say; `gyro` and `xm` are what `begin` found. -/
structure Configured (gyro xm : RegisterFile) (c : Settings) (d : Lsm9ds0) : Prop where
  gyroRegs : ∀ reg ∉ gyroOutputs, d.gyro reg = write (write gyro c.gyroOther) c.gyroCtrl reg
  xmRegs : ∀ reg ∉ xmOutputs, d.xm reg = write (write xm (c.fifoCtrl fifoCtrlReg)) c.xmCtrl reg
  gScale : d.gScale = c.gScale
  aScale : d.aScale = c.aScale
  mScale : d.mScale = c.mScale
  gRes : d.gRes = d.calcgRes.gRes
  aRes : d.aRes = d.calcaRes.aRes
  mRes : d.mRes = d.calcmRes.mRes

/-! ### `begin` -/

theorem init_aField (args : BeginArgs) : (Settings.init args).aField = args.aScl.code := by
  cases hscl : args.aScl <;> simp [Settings.aField, Settings.init, hscl, AccelScale.code]

/-- `begin` leaves the settings of its arguments, whatever the registers held. -/
theorem begin_gyro (d : Lsm9ds0) (args : BeginArgs) :
    (d.begin args).1.gyro = write d.gyro (Settings.init args).gyroCtrl := by
  have hODR : put 0xF 4 0x0F args.gODR.code = 0x0F#8 ||| args.gODR.code <<< 4 :=
    put_or_fits (b := 0x0F#8) (v := 0x0) (by decide) (by decide)
  have hScale : put 0x3 4 0x00 args.gScl.code = 0x00#8 ||| args.gScl.code <<< 4 :=
    put_or_fits (b := 0x00#8) (v := 0x0) (by decide) (by decide)
  show modifyField (modifyField (write d.gyro [(ctrlReg1G, 0x0F), (ctrlReg2G, 0x00), (ctrlReg3G, 0x88), (ctrlReg4G, 0x00),
    (ctrlReg5G, 0x00)]) ctrlReg1G 0xF 4 args.gODR.code) ctrlReg4G 0x3 4 args.gScl.code = _
  rw [modifyField_write ?_ ?_ hODR, modifyField_write ?_ ?_ hScale]
  · rfl
  · rw [replace_keys]
    decide
  · rfl
  · decide
  · rfl

theorem initAccel_xm (xm : RegisterFile) (args : BeginArgs) :
    modifyField (modifyField (write xm [(ctrlReg0Xm, 0x00), (ctrlReg1Xm, 0x57), (ctrlReg2Xm, 0x00), (ctrlReg3Xm, 0x04)])
      ctrlReg1Xm 0xF 4 args.aODR.code) ctrlReg2Xm 0x3 3 args.aScl.code =
    write xm [(ctrlReg0Xm, 0x00), (ctrlReg1Xm, 0x07#8 ||| args.aODR.code <<< 4),
      (ctrlReg2Xm, 0x00#8 ||| args.aScl.code <<< 3), (ctrlReg3Xm, 0x04)] := by
  have hODR : put 0xF 4 0x57 args.aODR.code = 0x07#8 ||| args.aODR.code <<< 4 :=
    put_or_fits (b := 0x07#8) (v := 0x5) (by decide) (by decide)
  have hScale : put 0x3 3 0x00 args.aScl.code = 0x00#8 ||| args.aScl.code <<< 3 :=
    put_or_fits (b := 0x00#8) (v := 0x0) (by decide) (by decide)
  rw [modifyField_write ?_ ?_ hODR, modifyField_write ?_ ?_ hScale]
  · rfl
  · rw [replace_keys]
    decide
  · rfl
  · decide
  · rfl

theorem initMag_xm (xm : RegisterFile) (args : BeginArgs) :
    modifyField (modifyField (write xm [(ctrlReg5Xm, 0x94), (ctrlReg6Xm, 0x00), (ctrlReg7Xm, 0x00), (ctrlReg4Xm, 0x04),
      (intCtrlRegM, 0x09)]) ctrlReg5Xm 0x7 2 args.mODR.code) ctrlReg6Xm 0x3 5 args.mScl.code =
    write xm [(ctrlReg5Xm, 0x80#8 ||| args.mODR.code <<< 2), (ctrlReg6Xm, 0x00#8 ||| args.mScl.code <<< 5),
      (ctrlReg7Xm, 0x00), (ctrlReg4Xm, 0x04), (intCtrlRegM, 0x09)] := by
  have hODR : put 0x7 2 0x94 args.mODR.code = 0x80#8 ||| args.mODR.code <<< 2 :=
    put_or_fits (b := 0x80#8) (v := 0x5) (by decide) (by decide)
  have hScale : put 0x3 5 0x00 args.mScl.code = 0x00#8 ||| args.mScl.code <<< 5 :=
    put_or_fits (b := 0x00#8) (v := 0x0) (by decide) (by decide)
  rw [modifyField_write ?_ ?_ hODR, modifyField_write ?_ ?_ hScale]
  · rfl
  · rw [replace_keys]
    decide
  · rfl
  · decide
  · rfl

theorem begin_xm (d : Lsm9ds0) (args : BeginArgs) : (d.begin args).1.xm = write d.xm (Settings.init args).xmCtrl := by
  refine (initMag_xm _ args).trans ?_
  refine (congrArg (write · _) (initAccel_xm d.xm args)).trans ?_
  rw [← write_append, Settings.xmCtrl, init_aField]
  rfl

theorem begin_configured (d : Lsm9ds0) (args : BeginArgs) : Configured d.gyro d.xm (.init args) (d.begin args).1 :=
  ⟨fun _ _ => by rw [begin_gyro]; rfl, fun _ _ => by rw [begin_xm]; rfl, rfl, rfl, rfl, rfl, rfl, rfl⟩

/-! ### The other calls -/

section Agrees
variable {regs base : RegisterFile} {writes writes' : List (BitVec 8 × BitVec 8)} {outs : List (BitVec 8)}

theorem agrees_write (h : ∀ r ∉ outs, regs r = write base writes r) (hkeys : writes.map (·.1) ⊆ writes'.map (·.1)) :
    ∀ r ∉ outs, write regs writes' r = write base writes' r := by
  intro r hr
  rw [write_congr (h r hr), write_write hkeys]

theorem agrees_modifyField {reg m bits old new : BitVec 8} {s : Nat} (h : ∀ r ∉ outs, regs r = write base writes r)
    (hreg : reg ∉ outs) (hmem : reg ∈ writes.map (·.1)) (hold : write base writes reg = old)
    (hnew : put m s old bits = new) :
    ∀ r ∉ outs, modifyField regs reg m s bits r = write base (replace writes reg new) r := by
  intro r hr
  rw [modifyField_congr (h reg hreg) (h r hr), modifyField_write hmem hold hnew]

theorem agrees_output {reg byte : BitVec 8} (h : ∀ r ∉ outs, regs r = write base writes r) (hreg : reg ∈ outs) :
    ∀ r ∉ outs, write regs [(reg, byte)] r = write base writes r := by
  intro r hr
  have hne : r ≠ reg := fun he => hr (he ▸ hreg)
  rw [write_of_notMem (by simpa using hne), h r hr]

end Agrees

section Step
variable {gyro xm : RegisterFile} {c : Settings} {d : Lsm9ds0}

theorem Configured.begin (h : Configured gyro xm c d) (args : BeginArgs) :
    Configured gyro xm (c.next (.begin args)) (d.begin args).1 := by
  refine ⟨?_, ?_, rfl, rfl, rfl, rfl, rfl, rfl⟩
  · rw [begin_gyro]
    exact agrees_write h.gyroRegs (List.Subset.refl _)
  · rw [begin_xm]
    exact agrees_write h.xmRegs (List.Subset.refl _)

theorem Configured.setGyroScale (h : Configured gyro xm c d) (gScl : GyroScale) :
    Configured gyro xm (c.next (.setGyroScale gScl)) (d.setGyroScale gScl) := by
  have hnew : put 0x3 4 (0x00#8 ||| c.gScale.code <<< 4) gScl.code = 0x00#8 ||| gScl.code <<< 4 :=
    put_or_fits (by decide) (by cases c.gScale <;> decide)
  exact ⟨agrees_modifyField h.gyroRegs (by decide) (by simp [Settings.gyroCtrl]) rfl hnew, h.xmRegs, rfl, h.aScale,
    h.mScale, rfl, h.aRes, h.mRes⟩

theorem Configured.setGyroODR (h : Configured gyro xm c d) (gRate : GyroOdr) :
    Configured gyro xm (c.next (.setGyroODR gRate)) (d.setGyroODR gRate) := by
  have hnew : put 0xF 4 (0x0F#8 ||| c.gODR.code <<< 4) gRate.code = 0x0F#8 ||| gRate.code <<< 4 :=
    put_or_fits (by decide) (by cases c.gODR <;> decide)
  exact ⟨agrees_modifyField h.gyroRegs (by decide) (by simp [Settings.gyroCtrl]) rfl hnew, h.xmRegs, h.gScale, h.aScale,
    h.mScale, h.gRes, h.aRes, h.mRes⟩

theorem Configured.setAccelODR (h : Configured gyro xm c d) (aRate : AccelOdr) :
    Configured gyro xm (c.next (.setAccelODR aRate)) (d.setAccelODR aRate) := by
  have hnew : put 0xF 4 (0x07#8 ||| c.aODR.code <<< 4) aRate.code = 0x07#8 ||| aRate.code <<< 4 :=
    put_or_fits (by decide) (by cases c.aODR <;> decide)
  exact ⟨h.gyroRegs, agrees_modifyField h.xmRegs (by decide) (by simp [Settings.xmCtrl]) rfl hnew, h.gScale, h.aScale,
    h.mScale, h.gRes, h.aRes, h.mRes⟩

theorem Configured.setMagScale (h : Configured gyro xm c d) (mScl : MagScale) :
    Configured gyro xm (c.next (.setMagScale mScl)) (d.setMagScale mScl) := by
  have hnew : put 0x3 5 (0x00#8 ||| c.mScale.code <<< 5) mScl.code = 0x00#8 ||| mScl.code <<< 5 :=
    put_or_fits (by decide) (by cases c.mScale <;> decide)
  exact ⟨h.gyroRegs, agrees_modifyField h.xmRegs (by decide) (by simp [Settings.xmCtrl]) rfl hnew, h.gScale, h.aScale, rfl,
    h.gRes, h.aRes, rfl⟩

theorem Configured.setMagODR (h : Configured gyro xm c d) (mRate : MagOdr) :
    Configured gyro xm (c.next (.setMagODR mRate)) (d.setMagODR mRate) := by
  have hnew : put 0x7 2 (0x80#8 ||| c.mODR.code <<< 2) mRate.code = 0x80#8 ||| mRate.code <<< 2 :=
    put_or_fits (by decide) (by cases c.mODR <;> decide)
  exact ⟨h.gyroRegs, agrees_modifyField h.xmRegs (by decide) (by simp [Settings.xmCtrl]) rfl hnew, h.gScale, h.aScale,
    h.mScale, h.gRes, h.aRes, h.mRes⟩

/-- The mask leaves the third bit of the field. -/
theorem aField_masked (c : Settings) (aScl : AccelScale) :
    (c.aField &&& ~~~(0x3 : BitVec 8)) ||| aScl.code = (c.next (.setAccelScale aScl)).aField := by
  obtain ⟨_, aScale, _, _, _, _, was16g, _, _, hwas⟩ := c
  cases was16g <;> cases aScale <;> cases aScl <;> simp_all [Settings.next, Settings.aField, AccelScale.code]

theorem Configured.setAccelScale (h : Configured gyro xm c d) (aScl : AccelScale) :
    Configured gyro xm (c.next (.setAccelScale aScl)) (d.setAccelScale aScl) := by
  have hnew : put 0x3 3 (0x00#8 ||| c.aField <<< 3) aScl.code =
      0x00#8 ||| (c.next (.setAccelScale aScl)).aField <<< 3 := by
    rw [put_or (by decide), aField_masked]
  exact ⟨h.gyroRegs, agrees_modifyField h.xmRegs (by decide) (by simp [Settings.xmCtrl]) rfl hnew, h.gScale, rfl, h.mScale,
    h.gRes, rfl, h.mRes⟩

/-- The registers of `configGyroInt`. -/
def gyroIntRegs : List (BitVec 8) :=
  [int1CfgG, int1ThsXHG, int1ThsXLG, int1ThsYHG, int1ThsYLG, int1ThsZHG, int1ThsZLG, int1DurationG]

theorem gyroInt_keys (args : GyroIntArgs) : args.bytes.map (·.1) = gyroIntRegs := rfl

theorem gyroCtrl_notMem {r : BitVec 8} (hr : r ∈ fifoCtrlRegG :: gyroIntRegs) : r ∉ c.gyroCtrl.map (·.1) := by
  have hall : ∀ r ∈ fifoCtrlRegG :: gyroIntRegs, r ∉ [ctrlReg1G, ctrlReg2G, ctrlReg3G, ctrlReg4G, ctrlReg5G] := by decide
  exact hall r hr

theorem xmCtrl_notMem : fifoCtrlReg ∉ c.xmCtrl.map (·.1) := by
  show fifoCtrlReg ∉ [ctrlReg0Xm, ctrlReg1Xm, ctrlReg2Xm, ctrlReg3Xm, ctrlReg5Xm, ctrlReg6Xm, ctrlReg7Xm, ctrlReg4Xm,
    intCtrlRegM]
  decide

theorem fifoCtrl_of_ne {r reg : BitVec 8} (hr : r ≠ reg) (regs : RegisterFile) :
    write regs (c.fifoCtrl reg) r = regs r := by
  refine write_of_notMem ?_
  cases hcal : c.calibrated <;> simp [Settings.fifoCtrl, hcal, hr]

theorem gyroOther_of_notMem {r : BitVec 8} (hr : r ∉ gyroIntRegs) (found : RegisterFile) :
    write found c.gyroOther r = write found (c.fifoCtrl fifoCtrlRegG) r := by
  rw [Settings.gyroOther, write_append]
  refine write_congr ?_
  cases c.gyroInt with
  | none => rfl
  | some args => exact write_of_notMem (by rwa [Option.map_some, Option.getD_some, gyroInt_keys])

theorem Configured.configGyroInt (h : Configured gyro xm c d) (args : GyroIntArgs) :
    Configured gyro xm (c.next (.configGyroInt args)) (d.configGyroInt args) := by
  refine ⟨fun r hr => ?_, h.xmRegs, h.gScale, h.aScale, h.mScale, h.gRes, h.aRes, h.mRes⟩
  show write d.gyro args.bytes r = write (write gyro (args.bytes ++ c.fifoCtrl fifoCtrlRegG)) c.gyroCtrl r
  by_cases hmem : r ∈ gyroIntRegs
  · have hfifo : r ≠ fifoCtrlRegG := by
      rintro rfl
      exact absurd hmem (by decide)
    rw [write_of_notMem (gyroCtrl_notMem (List.mem_cons_of_mem _ hmem)), write_append, fifoCtrl_of_ne hfifo]
    exact write_of_mem (by rwa [gyroInt_keys])
  · rw [write_of_notMem (by rwa [gyroInt_keys]), h.gyroRegs r hr]
    refine write_congr ?_
    rw [gyroOther_of_notMem hmem, write_append]
    exact write_congr (write_of_notMem (by rwa [gyroInt_keys])).symm

/-- The bit of the FIFO is set and cleared again, and the FIFO is off. -/
theorem fifo_off {regs : RegisterFile} {reg fifo : BitVec 8} (hne : reg ≠ fifo) (hreg : regs reg = 0x00) (r : BitVec 8) :
    let on := write regs [(reg, regs reg ||| 0x40), (fifo, 0x20 ||| 0x1F)]
    write on [(reg, on reg &&& ~~~0x40), (fifo, 0x00)] r = write regs [(fifo, 0x00)] r := by
  intro on
  have hon : on reg = 0x40 := by simp [on, write, hne, hreg]
  have hwrites : write on [(reg, on reg &&& ~~~0x40), (fifo, 0x00)] = write regs [(reg, 0x00), (fifo, 0x00)] := by
    rw [hon]
    exact write_write (List.Subset.refl [reg, fifo])
  rw [hwrites, write_cons]
  refine write_congr ?_
  by_cases hr : r = reg
  · rw [hr, Function.update_self, hreg]
  · rw [Function.update_of_ne hr]

theorem fifo_written {ctrl : List (BitVec 8 × BitVec 8)} {fifo : BitVec 8} (hfifo : fifo ∉ ctrl.map (·.1))
    (base : RegisterFile) (r : BitVec 8) :
    write (write (write base (c.fifoCtrl fifo)) ctrl) [(fifo, 0x00)] r = write (write base [(fifo, 0x00)]) ctrl r := by
  by_cases hr : r = fifo
  · rw [hr, write_of_notMem hfifo]
    exact write_of_mem List.mem_cons_self
  · have hnot : r ∉ [(fifo, (0x00 : BitVec 8))].map (·.1) := by simpa using hr
    rw [write_of_notMem hnot]
    exact write_congr ((fifoCtrl_of_ne hr base).trans (write_of_notMem hnot).symm)

theorem Configured.calLSM9DS0 (h : Configured gyro xm c d) {gyroFifo accelFifo : Fifo} {d' : Lsm9ds0}
    {gbias abias : Axes ℚ} (hcal : d.calLSM9DS0 gyroFifo accelFifo = some (d', gbias, abias)) :
    Configured gyro xm (c.next (.calLSM9DS0 gyroFifo accelFifo)) d' := by
  unfold Lsm9ds0.calLSM9DS0 at hcal
  dsimp only at hcal
  split at hcal
  · cases hcal
  split at hcal
  · cases hcal
  obtain ⟨rfl, -, -⟩ := Prod.mk.injEq .. ▸ Option.some.inj hcal
  refine ⟨fun r hr => ?_, fun r hr => ?_, h.gScale, h.aScale, h.mScale, h.gRes, h.aRes, h.mRes⟩
  · refine (fifo_off (by decide) (h.gyroRegs ctrlReg5G (by decide)) r).trans ?_
    rw [write_congr (h.gyroRegs r hr), Settings.gyroOther, write_append]
    exact (fifo_written (gyroCtrl_notMem List.mem_cons_self) _ r).trans (write_congr (congrFun write_append.symm r))
  · refine (fifo_off (by decide) (h.xmRegs ctrlReg0Xm (by decide)) r).trans ?_
    rw [write_congr (h.xmRegs r hr)]
    exact fifo_written xmCtrl_notMem _ r

theorem Configured.step (h : Configured gyro xm c d) {a : Call} {d' : Lsm9ds0} (hstep : driver.step d a = some d') :
    Configured gyro xm (c.next a) d' := by
  cases a with
  | begin args => exact Option.some.inj hstep ▸ h.begin args
  | setGyroScale gScl => exact Option.some.inj hstep ▸ h.setGyroScale gScl
  | setAccelScale aScl => exact Option.some.inj hstep ▸ h.setAccelScale aScl
  | setMagScale mScl => exact Option.some.inj hstep ▸ h.setMagScale mScl
  | setGyroODR gRate => exact Option.some.inj hstep ▸ h.setGyroODR gRate
  | setAccelODR aRate => exact Option.some.inj hstep ▸ h.setAccelODR aRate
  | setMagODR mRate => exact Option.some.inj hstep ▸ h.setMagODR mRate
  | configGyroInt args => exact Option.some.inj hstep ▸ h.configGyroInt args
  | calLSM9DS0 gyroFifo accelFifo =>
    obtain ⟨⟨d', gbias, abias⟩, hcal, rfl⟩ := Option.map_eq_some_iff.mp hstep
    exact h.calLSM9DS0 hcal
  | readAccel chip | readMag chip | readTemp chip | readGyro chip =>
    cases hstep
    exact ⟨h.gyroRegs, h.xmRegs, h.gScale, h.aScale, h.mScale, h.gRes, h.aRes, h.mRes⟩
  | gyroOutput reg byte =>
    obtain ⟨hreg, hd⟩ := Option.ite_none_right_eq_some.mp hstep
    cases hd
    exact ⟨agrees_output h.gyroRegs hreg, h.xmRegs, h.gScale, h.aScale, h.mScale, h.gRes, h.aRes, h.mRes⟩
  | xmOutput reg byte =>
    obtain ⟨hreg, hd⟩ := Option.ite_none_right_eq_some.mp hstep
    cases hd
    exact ⟨h.gyroRegs, agrees_output h.xmRegs hreg, h.gScale, h.aScale, h.mScale, h.gRes, h.aRes, h.mRes⟩

theorem Configured.run (h : Configured gyro xm c d) {as : List Call} {d' : Lsm9ds0} (hrun : driver.run d as = some d') :
    Configured gyro xm (as.foldl Settings.next c) d' := by
  induction as generalizing c d with
  | nil => exact Option.some.inj hrun ▸ h
  | cons a as ih =>
    obtain ⟨d'', hstep, hrun⟩ := Lts.run_cons.mp hrun
    exact ih (h.step hstep) hrun

end Step

/-! ### Runs -/

/-- After `begin` and any calls, whatever the chip held at power-on and writes to its output registers: every other
    register holds what the settings last made say, and the class has the scales and resolutions of these. -/
theorem registers_configured (d₀ : Lsm9ds0) (args : BeginArgs) (as : List Call) (d : Lsm9ds0)
    (hrun : driver.run (d₀.begin args).1 as = some d) :
    Configured d₀.gyro d₀.xm (as.foldl Settings.next (.init args)) d :=
  (begin_configured d₀ args).run hrun

/-- The driver before `begin`, on a chip whose registers hold ones. -/
def powerOn : Lsm9ds0 :=
  ⟨fun _ => 0xFF, fun _ => 0xFF, .dps245, .g2, .gs2, 0, 0, 0, ⟨0, 0, 0⟩, ⟨0, 0, 0⟩, ⟨0, 0, 0⟩, 0, ⟨0, 0, 0⟩, ⟨0, 0, 0⟩⟩

def setUp : List Call :=
  [.setGyroScale .dps2000, .configGyroInt { int1Cfg := 0x2A, int1ThsX := 0x1234 }, .gyroOutput statusRegG 0x0F,
    .setAccelODR .hz400, .setGyroScale .dps500]

theorem registers_configured_setUp :
    ∃ d, driver.run (powerOn.begin {}).1 setUp = some d ∧
      Configured powerOn.gyro powerOn.xm (setUp.foldl Settings.next (.init {})) d :=
  ⟨_, rfl, registers_configured powerOn {} setUp _ rfl⟩

/-! ### Scales -/

/-- The scale that the chip is at when the field of its register has these bits, if they are a scale. -/
def GyroScale.ofField (bits : BitVec 2) : Option GyroScale :=
  [GyroScale.dps245, .dps500, .dps2000].find? fun s => s.code.setWidth 2 = bits

def MagScale.ofField (bits : BitVec 2) : Option MagScale :=
  [MagScale.gs2, .gs4, .gs8, .gs12].find? fun s => s.code.setWidth 2 = bits

def AccelScale.ofField (bits : BitVec 3) : Option AccelScale :=
  [AccelScale.g2, .g4, .g6, .g8, .g16].find? fun s => s.code.setWidth 3 = bits

/-- What the largest reading stands for. -/
def GyroScale.fullScale : GyroScale → ℚ
  | .dps245 => 245
  | .dps500 => 500
  | .dps2000 => 2000

def MagScale.fullScale : MagScale → ℚ
  | .gs2 => 2
  | .gs4 => 4
  | .gs8 => 8
  | .gs12 => 12

def AccelScale.fullScale : AccelScale → ℚ
  | .g2 => 2
  | .g4 => 4
  | .g6 => 6
  | .g8 => 8
  | .g16 => 16

theorem single_div {z : ℤ} (h : |z| < 2 ^ 24) : single (z / 32768) = z / 32768 := by
  have hpow : (32768 : ℚ) = 2 ^ 15 := by norm_num
  rw [hpow]
  exact Rounding.round_eq (Rounding.Representable.div_two_pow h 15)

theorem gRes_eq (d : Lsm9ds0) : d.calcgRes.gRes = d.gScale.fullScale / 32768 := by
  unfold Lsm9ds0.calcgRes
  cases d.gScale
  · exact single_div (z := 245) (by decide)
  · exact single_div (z := 500) (by decide)
  · exact single_div (z := 2000) (by decide)

theorem aRes_eq (d : Lsm9ds0) : d.calcaRes.aRes = d.aScale.fullScale / 32768 := by
  have hres : ∀ n : Nat, n < 5 → single (((n : ℚ) + 1) * 2 / 32768) = (n + 1) * 2 / 32768 := by
    intro n hn
    have hlt : |((n : ℤ) + 1) * 2| < 2 ^ 24 := by
      rw [abs_of_nonneg (by omega)]
      omega
    have hdiv := single_div hlt
    push_cast at hdiv
    exact hdiv
  unfold Lsm9ds0.calcaRes
  cases d.aScale
  · exact (hres 0 (by decide)).trans (by norm_num [AccelScale.fullScale])
  · exact (hres 1 (by decide)).trans (by norm_num [AccelScale.fullScale])
  · exact (hres 2 (by decide)).trans (by norm_num [AccelScale.fullScale])
  · exact (hres 3 (by decide)).trans (by norm_num [AccelScale.fullScale])
  · exact single_div (z := 16) (by decide)

theorem mRes_eq (d : Lsm9ds0) : d.calcmRes.mRes = d.mScale.fullScale / 32768 := by
  unfold Lsm9ds0.calcmRes
  cases d.mScale
  · exact single_div (z := 2) (by decide)
  · exact single_div (z := 4) (by decide)
  · exact single_div (z := 8) (by decide)
  · exact single_div (z := 12) (by decide)

theorem aField_scale (c : Settings) :
    AccelScale.ofField ((0x00#8 ||| c.aField <<< 3).extractLsb' 3 3) =
      if c.was16g then if c.aScale = .g2 ∨ c.aScale = .g16 then some .g16 else none else some c.aScale := by
  obtain ⟨_, aScale, _, _, _, _, was16g, _, _, hwas⟩ := c
  cases was16g <;> cases aScale <;> simp_all [Settings.aField] <;> rfl

/-- The class divides the gyroscope's and the magnetometer's readings by the scale that the chip is at. For the
    accelerometer it does so as long as `setAccelScale` was not called with 16 g. From then on until the next `begin`, the
    chip is at 16 g if the last scale was 2 g or 16 g, and in a state that is not a scale otherwise. -/
theorem scales_agree (d₀ : Lsm9ds0) (args : BeginArgs) (as : List Call) (d : Lsm9ds0)
    (hrun : driver.run (d₀.begin args).1 as = some d) :
    let c := as.foldl Settings.next (.init args)
    (GyroScale.ofField ((d.gyro ctrlReg4G).extractLsb' 4 2) = some d.gScale ∧ d.gRes = d.gScale.fullScale / 32768) ∧
      (MagScale.ofField ((d.xm ctrlReg6Xm).extractLsb' 5 2) = some d.mScale ∧ d.mRes = d.mScale.fullScale / 32768) ∧
      (AccelScale.ofField ((d.xm ctrlReg2Xm).extractLsb' 3 3) =
          (if c.was16g then if d.aScale = .g2 ∨ d.aScale = .g16 then some .g16 else none else some d.aScale) ∧
        d.aRes = d.aScale.fullScale / 32768) := by
  intro c
  have h : Configured d₀.gyro d₀.xm c d := (begin_configured d₀ args).run hrun
  have hgyro : d.gyro ctrlReg4G = 0x00#8 ||| d.gScale.code <<< 4 := by
    rw [h.gScale]
    exact h.gyroRegs ctrlReg4G (by decide)
  have hmag : d.xm ctrlReg6Xm = 0x00#8 ||| d.mScale.code <<< 5 := by
    rw [h.mScale]
    exact h.xmRegs ctrlReg6Xm (by decide)
  have haccel : d.xm ctrlReg2Xm = 0x00#8 ||| c.aField <<< 3 := h.xmRegs ctrlReg2Xm (by decide)
  refine ⟨⟨?_, h.gRes.trans (gRes_eq d)⟩, ⟨?_, h.mRes.trans (mRes_eq d)⟩, ⟨?_, h.aRes.trans (aRes_eq d)⟩⟩
  · rw [hgyro]
    cases d.gScale <;> rfl
  · rw [hmag]
    cases d.mScale <;> rfl
  · rw [haccel, aField_scale, h.aScale]

theorem scales_agree_stuck :
    ∃ d, driver.run (powerOn.begin {}).1 [.setAccelScale .g16, .setAccelScale .g2] = some d ∧
      AccelScale.ofField ((d.xm ctrlReg2Xm).extractLsb' 3 3) = some .g16 ∧ d.aRes = 2 / 32768 :=
  ⟨_, rfl, (scales_agree powerOn {} [.setAccelScale .g16, .setAccelScale .g2] _ rfl).2.2⟩

end Glove.Imu
