import Glove.Lib.Lts
import Glove.Lib.Registers
import Glove.Lib.Rounding

/-! # The inertial sensor (`LSM9DS0.h`, `LSM9DS0.cpp`)

The chip has a register file for each of its two I2C addresses: the gyroscope's, and the one of the
accelerometer and the magnetometer. A function that reads output registers takes what they hold at each of
its reads, as the chip writes them while it runs. A `float` is a rational number and every operation on
`float`s rounds to 24 bits; the `double`s of the source are exact. -/

namespace Glove.Imu
open Registers

abbrev RegisterFile := BitVec 8 → BitVec 8

/-! ## The registers -/

def whoAmIG : BitVec 8 := 0x0F
def ctrlReg1G : BitVec 8 := 0x20
def ctrlReg2G : BitVec 8 := 0x21
def ctrlReg3G : BitVec 8 := 0x22
def ctrlReg4G : BitVec 8 := 0x23
def ctrlReg5G : BitVec 8 := 0x24
def statusRegG : BitVec 8 := 0x27
def outXLG : BitVec 8 := 0x28
def outXHG : BitVec 8 := 0x29
def outYLG : BitVec 8 := 0x2A
def outYHG : BitVec 8 := 0x2B
def outZLG : BitVec 8 := 0x2C
def outZHG : BitVec 8 := 0x2D
def fifoCtrlRegG : BitVec 8 := 0x2E
def fifoSrcRegG : BitVec 8 := 0x2F
def int1CfgG : BitVec 8 := 0x30
def int1SrcG : BitVec 8 := 0x31
def int1ThsXHG : BitVec 8 := 0x32
def int1ThsXLG : BitVec 8 := 0x33
def int1ThsYHG : BitVec 8 := 0x34
def int1ThsYLG : BitVec 8 := 0x35
def int1ThsZHG : BitVec 8 := 0x36
def int1ThsZLG : BitVec 8 := 0x37
def int1DurationG : BitVec 8 := 0x38

def outTempLXm : BitVec 8 := 0x05
def outTempHXm : BitVec 8 := 0x06
def statusRegM : BitVec 8 := 0x07
def outXLM : BitVec 8 := 0x08
def outXHM : BitVec 8 := 0x09
def outYLM : BitVec 8 := 0x0A
def outYHM : BitVec 8 := 0x0B
def outZLM : BitVec 8 := 0x0C
def outZHM : BitVec 8 := 0x0D
def whoAmIXm : BitVec 8 := 0x0F
def intCtrlRegM : BitVec 8 := 0x12
def intSrcRegM : BitVec 8 := 0x13
def ctrlReg0Xm : BitVec 8 := 0x1F
def ctrlReg1Xm : BitVec 8 := 0x20
def ctrlReg2Xm : BitVec 8 := 0x21
def ctrlReg3Xm : BitVec 8 := 0x22
def ctrlReg4Xm : BitVec 8 := 0x23
def ctrlReg5Xm : BitVec 8 := 0x24
def ctrlReg6Xm : BitVec 8 := 0x25
def ctrlReg7Xm : BitVec 8 := 0x26
def statusRegA : BitVec 8 := 0x27
def outXLA : BitVec 8 := 0x28
def outXHA : BitVec 8 := 0x29
def outYLA : BitVec 8 := 0x2A
def outYHA : BitVec 8 := 0x2B
def outZLA : BitVec 8 := 0x2C
def outZHA : BitVec 8 := 0x2D
def fifoCtrlReg : BitVec 8 := 0x2E
def fifoSrcReg : BitVec 8 := 0x2F
def intGen1Src : BitVec 8 := 0x31
def intGen2Src : BitVec 8 := 0x35
def clickSrc : BitVec 8 := 0x39

/-- The registers of the gyroscope that the chip writes. -/
def gyroOutputs : List (BitVec 8) :=
  [statusRegG, outXLG, outXHG, outYLG, outYHG, outZLG, outZHG, fifoSrcRegG, int1SrcG]

def xmOutputs : List (BitVec 8) :=
  [outTempLXm, outTempHXm, statusRegM, outXLM, outXHM, outYLM, outYHM, outZLM, outZHM, intSrcRegM, statusRegA, outXLA,
    outXHA, outYLA, outYHA, outZLA, outZHA, fifoSrcReg, intGen1Src, intGen2Src, clickSrc]

/-! ## Scales and data rates -/

inductive GyroScale
  | dps245
  | dps500
  | dps2000
  deriving DecidableEq

def GyroScale.code : GyroScale → BitVec 8
  | .dps245 => 0
  | .dps500 => 1
  | .dps2000 => 2

inductive AccelScale
  | g2
  | g4
  | g6
  | g8
  | g16
  deriving DecidableEq

def AccelScale.code : AccelScale → BitVec 8
  | .g2 => 0
  | .g4 => 1
  | .g6 => 2
  | .g8 => 3
  | .g16 => 4

inductive MagScale
  | gs2
  | gs4
  | gs8
  | gs12
  deriving DecidableEq

def MagScale.code : MagScale → BitVec 8
  | .gs2 => 0
  | .gs4 => 1
  | .gs8 => 2
  | .gs12 => 3

/-- A data rate of the gyroscope, and the bandwidth of its filter. -/
inductive GyroOdr
  | hz95Bw125
  | hz95Bw25
  | hz190Bw125
  | hz190Bw25
  | hz190Bw50
  | hz190Bw70
  | hz380Bw20
  | hz380Bw25
  | hz380Bw50
  | hz380Bw100
  | hz760Bw30
  | hz760Bw35
  | hz760Bw50
  | hz760Bw100
  deriving DecidableEq

def GyroOdr.code : GyroOdr → BitVec 8
  | .hz95Bw125 => 0x0
  | .hz95Bw25 => 0x1
  | .hz190Bw125 => 0x4
  | .hz190Bw25 => 0x5
  | .hz190Bw50 => 0x6
  | .hz190Bw70 => 0x7
  | .hz380Bw20 => 0x8
  | .hz380Bw25 => 0x9
  | .hz380Bw50 => 0xA
  | .hz380Bw100 => 0xB
  | .hz760Bw30 => 0xC
  | .hz760Bw35 => 0xD
  | .hz760Bw50 => 0xE
  | .hz760Bw100 => 0xF

inductive AccelOdr
  | powerDown
  | hz3125
  | hz625
  | hz125
  | hz25
  | hz50
  | hz100
  | hz200
  | hz400
  | hz800
  | hz1600
  deriving DecidableEq

def AccelOdr.code : AccelOdr → BitVec 8
  | .powerDown => 0x0
  | .hz3125 => 0x1
  | .hz625 => 0x2
  | .hz125 => 0x3
  | .hz25 => 0x4
  | .hz50 => 0x5
  | .hz100 => 0x6
  | .hz200 => 0x7
  | .hz400 => 0x8
  | .hz800 => 0x9
  | .hz1600 => 0xA

inductive MagOdr
  | hz3125
  | hz625
  | hz125
  | hz25
  | hz50
  | hz100
  deriving DecidableEq

def MagOdr.code : MagOdr → BitVec 8
  | .hz3125 => 0x0
  | .hz625 => 0x1
  | .hz125 => 0x2
  | .hz25 => 0x3
  | .hz50 => 0x4
  | .hz100 => 0x5

/-! ## The driver -/

structure Axes (α : Type) where
  x : α
  y : α
  z : α
  deriving DecidableEq

/-- A `float` holds 24 bits. -/
def single (x : ℚ) : ℚ := Rounding.round 24 x

/-- The members of the class, and the register files of the chip. -/
structure Lsm9ds0 where
  gyro : RegisterFile
  xm : RegisterFile
  gScale : GyroScale
  aScale : AccelScale
  mScale : MagScale
  gRes : ℚ
  aRes : ℚ
  mRes : ℚ
  g : Axes Int
  a : Axes Int
  m : Axes Int
  temperature : Int
  abias : Axes ℚ
  gbias : Axes ℚ

namespace Lsm9ds0

def calcgRes (d : Lsm9ds0) : Lsm9ds0 :=
  { d with gRes := match d.gScale with
    | .dps245 => single (245 / 32768)
    | .dps500 => single (500 / 32768)
    | .dps2000 => single (2000 / 32768) }

def calcaRes (d : Lsm9ds0) : Lsm9ds0 :=
  { d with aRes := if d.aScale = .g16 then single (16 / 32768) else single ((d.aScale.code.toNat + 1) * 2 / 32768) }

def calcmRes (d : Lsm9ds0) : Lsm9ds0 :=
  { d with mRes := if d.mScale = .gs2 then single (2 / 32768) else single ((d.mScale.code.toNat <<< 2 : Nat) / 32768) }

def initGyro (d : Lsm9ds0) : Lsm9ds0 :=
  { d with
    gyro := write d.gyro
      [(ctrlReg1G, 0x0F), (ctrlReg2G, 0x00), (ctrlReg3G, 0x88), (ctrlReg4G, 0x00), (ctrlReg5G, 0x00)] }

def initAccel (d : Lsm9ds0) : Lsm9ds0 :=
  { d with xm := write d.xm [(ctrlReg0Xm, 0x00), (ctrlReg1Xm, 0x57), (ctrlReg2Xm, 0x00), (ctrlReg3Xm, 0x04)] }

def initMag (d : Lsm9ds0) : Lsm9ds0 :=
  { d with
    xm := write d.xm
      [(ctrlReg5Xm, 0x94), (ctrlReg6Xm, 0x00), (ctrlReg7Xm, 0x00), (ctrlReg4Xm, 0x04), (intCtrlRegM, 0x09)] }

def setGyroScale (d : Lsm9ds0) (gScl : GyroScale) : Lsm9ds0 :=
  { d with gyro := modifyField d.gyro ctrlReg4G 0x3 4 gScl.code, gScale := gScl }.calcgRes

def setAccelScale (d : Lsm9ds0) (aScl : AccelScale) : Lsm9ds0 :=
  { d with xm := modifyField d.xm ctrlReg2Xm 0x3 3 aScl.code, aScale := aScl }.calcaRes

def setMagScale (d : Lsm9ds0) (mScl : MagScale) : Lsm9ds0 :=
  { d with xm := modifyField d.xm ctrlReg6Xm 0x3 5 mScl.code, mScale := mScl }.calcmRes

def setGyroODR (d : Lsm9ds0) (gRate : GyroOdr) : Lsm9ds0 :=
  { d with gyro := modifyField d.gyro ctrlReg1G 0xF 4 gRate.code }

def setAccelODR (d : Lsm9ds0) (aRate : AccelOdr) : Lsm9ds0 :=
  { d with xm := modifyField d.xm ctrlReg1Xm 0xF 4 aRate.code }

def setMagODR (d : Lsm9ds0) (mRate : MagOdr) : Lsm9ds0 :=
  { d with xm := modifyField d.xm ctrlReg5Xm 0x7 2 mRate.code }

end Lsm9ds0

/-- The arguments of `begin`, and their defaults. -/
structure BeginArgs where
  gScl : GyroScale := .dps245
  aScl : AccelScale := .g2
  mScl : MagScale := .gs2
  gODR : GyroOdr := .hz95Bw125
  aODR : AccelOdr := .hz50
  mODR : MagOdr := .hz50

namespace Lsm9ds0

/-- Sets up the three sensors, and returns the two identity registers. -/
def begin (d : Lsm9ds0) (args : BeginArgs) : Lsm9ds0 × BitVec 16 :=
  let d : Lsm9ds0 := { d with gScale := args.gScl, aScale := args.aScl, mScale := args.mScl }
  let d := d.calcgRes.calcmRes.calcaRes
  let gTest := d.gyro whoAmIG
  let xmTest := d.xm whoAmIXm
  let d := (d.initGyro.setGyroODR args.gODR).setGyroScale d.gScale
  let d := (d.initAccel.setAccelODR args.aODR).setAccelScale d.aScale
  let d := (d.initMag.setMagODR args.mODR).setMagScale d.mScale
  (d, (xmTest.setWidth 16 <<< 8) ||| gTest.setWidth 16)

end Lsm9ds0

/-- The arguments of `configGyroInt`, and their defaults. -/
structure GyroIntArgs where
  int1Cfg : BitVec 8
  int1ThsX : BitVec 16 := 0
  int1ThsY : BitVec 16 := 0
  int1ThsZ : BitVec 16 := 0
  duration : BitVec 8 := 0

/-- The writes of `configGyroInt`. -/
def GyroIntArgs.bytes (i : GyroIntArgs) : List (BitVec 8 × BitVec 8) :=
  [(int1CfgG, i.int1Cfg),
    (int1ThsXHG, ((i.int1ThsX &&& 0xFF00) >>> 8).setWidth 8), (int1ThsXLG, (i.int1ThsX &&& 0xFF).setWidth 8),
    (int1ThsYHG, ((i.int1ThsY &&& 0xFF00) >>> 8).setWidth 8), (int1ThsYLG, (i.int1ThsY &&& 0xFF).setWidth 8),
    (int1ThsZHG, ((i.int1ThsZ &&& 0xFF00) >>> 8).setWidth 8), (int1ThsZLG, (i.int1ThsZ &&& 0xFF).setWidth 8),
    (int1DurationG, if i.duration ≠ 0 then 0x80 ||| i.duration else 0x00)]

def Lsm9ds0.configGyroInt (d : Lsm9ds0) (args : GyroIntArgs) : Lsm9ds0 :=
  { d with gyro := write d.gyro args.bytes }

/-! ## Readings -/

/-- `Temp = hi; Temp = Temp << 8; Temp |= lo`, and the conversion to `int16_t`. -/
def readWord (hi lo : BitVec 8) : Int := ((hi.setWidth 16 <<< 8) ||| lo.setWidth 16).toInt

namespace Lsm9ds0

/-- `chip n` is what the registers hold at the `n`-th read. -/
def readAccel (d : Lsm9ds0) (chip : Nat → RegisterFile) : Lsm9ds0 :=
  { d with a := ⟨readWord (chip 0 outXHA) (chip 1 outXLA), readWord (chip 2 outYHA) (chip 3 outYLA),
      readWord (chip 4 outZHA) (chip 5 outZLA)⟩ }

def readMag (d : Lsm9ds0) (chip : Nat → RegisterFile) : Lsm9ds0 :=
  { d with m := ⟨readWord (chip 0 outXHM) (chip 1 outXLM), readWord (chip 2 outYHM) (chip 3 outYLM),
      readWord (chip 4 outZHM) (chip 5 outZLM)⟩ }

def readGyro (d : Lsm9ds0) (chip : Nat → RegisterFile) : Lsm9ds0 :=
  { d with g := ⟨readWord (chip 0 outXHG) (chip 1 outXLG), readWord (chip 2 outYHG) (chip 3 outYLG),
      readWord (chip 4 outZHG) (chip 5 outZLG)⟩ }

/-- The shifts are on an `int` of 32 bits. -/
def readTemp (d : Lsm9ds0) (chip : Nat → RegisterFile) : Lsm9ds0 :=
  let temp0 := (chip 0 outTempLXm).setWidth 32
  let temp1 := (chip 1 outTempHXm).setWidth 32
  { d with temperature := (((temp1 <<< 12) ||| (temp0 <<< 4)).sshiftRight 4 |>.setWidth 16).toInt }

def calcGyro (d : Lsm9ds0) (gyro : Int) : ℚ := single (d.gRes * gyro)

def calcAccel (d : Lsm9ds0) (accel : Int) : ℚ := single (d.aRes * accel)

end Lsm9ds0

/-! ## Calibration -/

/-- The conversion of an `int` to `int16_t`. -/
def int16 (z : Int) : Int := z.bmod 65536

/-- `((int16_t)hi << 8) | lo`: an `int`, whose sign bit `hi` does not reach. -/
def fifoWord (hi lo : BitVec 8) : Int := ((hi.setWidth 32 <<< 8) ||| lo.setWidth 32).toInt

/-- What the chip delivers to one of the two loops: the register with the number of samples, and what the output
    registers hold in each pass. -/
structure Fifo where
  src : BitVec 8
  passes : Nat → RegisterFile

namespace Fifo

def samples (f : Fifo) : Nat := (f.src &&& 0x1F).toNat

/-- The loop over the samples of one axis, with the offset that it takes off each of them. -/
def sum (f : Fifo) (hi lo : BitVec 8) (offset : Int) : Int :=
  (List.range f.samples).foldl (fun bias ii => int16 (bias + (fifoWord (f.passes ii hi) (f.passes ii lo) - offset))) 0

/-- The average of the samples of one axis. -/
def mean (f : Fifo) (hi lo : BitVec 8) (offset : Int) : Int := int16 ((f.sum hi lo offset).tdiv f.samples)

end Fifo

namespace Lsm9ds0

/-- The two biases, or `none` where it divides by the number of samples and there are none. It assumes that the sensor
    faces up, so that gravity is on its z axis. -/
def calLSM9DS0 (d : Lsm9ds0) (gyroFifo accelFifo : Fifo) : Option (Lsm9ds0 × Axes ℚ × Axes ℚ) :=
  let c := d.gyro ctrlReg5G
  let gyro := write d.gyro [(ctrlReg5G, c ||| 0x40), (fifoCtrlRegG, 0x20 ||| 0x1F)]
  if gyroFifo.samples = 0 then none
  else
    let gbias : Axes ℚ := ⟨single (gyroFifo.mean outXHG outXLG 0 * d.gRes),
      single (gyroFifo.mean outYHG outYLG 0 * d.gRes), single (gyroFifo.mean outZHG outZLG 0 * d.gRes)⟩
    let c := gyro ctrlReg5G
    let gyro := write gyro [(ctrlReg5G, c &&& ~~~0x40), (fifoCtrlRegG, 0x00)]
    let c := d.xm ctrlReg0Xm
    let xm := write d.xm [(ctrlReg0Xm, c ||| 0x40), (fifoCtrlReg, 0x20 ||| 0x1F)]
    if accelFifo.samples = 0 then none
    else
      let down := int16 ⌊1 / d.aRes⌋
      let abias : Axes ℚ := ⟨single (accelFifo.mean outXHA outXLA 0 * d.aRes),
        single (accelFifo.mean outYHA outYLA 0 * d.aRes), single (accelFifo.mean outZHA outZLA down * d.aRes)⟩
      let c := xm ctrlReg0Xm
      let xm := write xm [(ctrlReg0Xm, c &&& ~~~0x40), (fifoCtrlReg, 0x00)]
      some ({ d with gyro, xm }, gbias, abias)

end Lsm9ds0

/-! ## Runs -/

/-- A call of the driver, or a write of the chip to one of its output registers. -/
inductive Call
  | begin (args : BeginArgs)
  | setGyroScale (gScl : GyroScale)
  | setAccelScale (aScl : AccelScale)
  | setMagScale (mScl : MagScale)
  | setGyroODR (gRate : GyroOdr)
  | setAccelODR (aRate : AccelOdr)
  | setMagODR (mRate : MagOdr)
  | configGyroInt (args : GyroIntArgs)
  | calLSM9DS0 (gyroFifo accelFifo : Fifo)
  | readAccel (chip : Nat → RegisterFile)
  | readMag (chip : Nat → RegisterFile)
  | readTemp (chip : Nat → RegisterFile)
  | readGyro (chip : Nat → RegisterFile)
  | gyroOutput (reg byte : BitVec 8)
  | xmOutput (reg byte : BitVec 8)

namespace Lsm9ds0

def step (d : Lsm9ds0) : Call → Option Lsm9ds0
  | .begin args => some (d.begin args).1
  | .setGyroScale gScl => some (d.setGyroScale gScl)
  | .setAccelScale aScl => some (d.setAccelScale aScl)
  | .setMagScale mScl => some (d.setMagScale mScl)
  | .setGyroODR gRate => some (d.setGyroODR gRate)
  | .setAccelODR aRate => some (d.setAccelODR aRate)
  | .setMagODR mRate => some (d.setMagODR mRate)
  | .configGyroInt args => some (d.configGyroInt args)
  | .calLSM9DS0 gyroFifo accelFifo => (d.calLSM9DS0 gyroFifo accelFifo).map (·.1)
  | .readAccel chip => some (d.readAccel chip)
  | .readMag chip => some (d.readMag chip)
  | .readTemp chip => some (d.readTemp chip)
  | .readGyro chip => some (d.readGyro chip)
  | .gyroOutput reg byte => if reg ∈ gyroOutputs then some { d with gyro := write d.gyro [(reg, byte)] } else none
  | .xmOutput reg byte => if reg ∈ xmOutputs then some { d with xm := write d.xm [(reg, byte)] } else none

end Lsm9ds0

def driver : Lts Lsm9ds0 Call := ⟨Lsm9ds0.step⟩

end Glove.Imu
