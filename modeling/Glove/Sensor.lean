import Glove.Main
import Glove.Lsm9ds0

/-! # The IMU loops on the sensor (`main.cpp`)

The NORMAL mode with `dof`: a pass of an IMU loop reads the output registers of the chip, scales the readings
and compares them with the thresholds. What the chip delivers is fixed by a sequence, one entry for each pass. -/

namespace Glove
open ImuFsm Sensing Imu

def xAxisThreshold : ℚ := single (8 / 10)

def nxAxisThreshold : ℚ := single (-8 / 10)

def yAxisThreshold : ℚ := single (8 / 10)

def nyAxisThreshold : ℚ := single (-8 / 10)

def zAxisThreshold : ℚ := single (8 / 10)

def nzAxisThreshold : ℚ := single (-8 / 10)

def jGzThreshold : ℚ := single (-100)

/-- `dof` before `begin`: a global, whose members are zero. -/
def dof (gyro xm : RegisterFile) : Lsm9ds0 :=
  ⟨gyro, xm, .dps245, .g2, .gs2, 0, 0, 0, ⟨0, 0, 0⟩, ⟨0, 0, 0⟩, ⟨0, 0, 0⟩, 0, ⟨0, 0, 0⟩, ⟨0, 0, 0⟩⟩

/-- What a pass of an IMU loop reads: the registers at each read of `readAccel` and of `readGyro`, and the timer. -/
structure ImuPass where
  accel : Nat → RegisterFile
  gyro : Nat → RegisterFile
  readMs : Int

/-- `dof.readAccel(); dof.readGyro();` -/
def Imu.Lsm9ds0.pass (d : Lsm9ds0) (p : ImuPass) : Lsm9ds0 := (d.readAccel p.accel).readGyro p.gyro

/-- A threshold of the loop for the states of `STATE_WAIT_SXT` and `STATE_WAIT_CO`, or of the other one. -/
def Window.threshold (w : Window) (t : ℚ) : ℚ :=
  match w with
  | .halved => single (t / 2)
  | .full => t

/-- The outcomes of the comparisons of an IMU loop. -/
def imuSample (w : Window) (d : Lsm9ds0) (readMs : Int) : ImuSample where
  readMs := readMs
  gzNeg := single (d.calcGyro d.g.z - d.gbias.z) < jGzThreshold
  ayPos := single (d.calcAccel d.a.y - d.abias.y) > w.threshold yAxisThreshold
  ayNeg := single (d.calcAccel d.a.y - d.abias.y) < w.threshold nyAxisThreshold
  axPos := single (d.calcAccel d.a.x - d.abias.x) > w.threshold xAxisThreshold
  axNeg := single (d.calcAccel d.a.x - d.abias.x) < w.threshold nxAxisThreshold
  azPos := single (d.calcAccel d.a.z - d.abias.z) > w.threshold zAxisThreshold
  azNeg := single (d.calcAccel d.a.z - d.abias.z) < w.threshold nzAxisThreshold

/-- What the hardware delivers: the data register of the ADC after each conversion, and each pass of an IMU loop. -/
structure SensorEnv where
  adgdr : Nat → BitVec 32
  passes : Nat → ImuPass

/-- `dof`, and the rest of the state of `main`. -/
structure SensorMain where
  dof : Lsm9ds0
  main : Main

namespace SensorMain

/-- `main` up to its outer loop, on a chip whose registers hold `gyro` and `xm`. -/
def init (gyro xm : RegisterFile) (data : InstanceData) (memory : SensorReading) : SensorMain :=
  ⟨((Glove.dof gyro xm).begin {}).1, Main.init data memory⟩

/-- As `Main.step`, with a pass of an IMU loop on the chip. -/
def step (env : SensorEnv) (s : SensorMain) : SensorMain × List Obs :=
  match s.main.loop.pc with
  | .top =>
    let polled := poll env.adgdr s.main.adcPos s.main.sensorReading
    let m := { s.main with adcPos := polled.next, sensorReading := polled.reading }
    if polled.res ≠ 0 then (⟨s.dof, m⟩, [])
    else
      let (loop, obs) := m.loop.step (.poll (convert keys m.sensorReading))
      (⟨s.dof, { m with loop }⟩, obs)
  | .imu w =>
    let p := env.passes s.main.imuPos
    let d := s.dof.pass p
    let (loop, obs) := s.main.loop.step (.imu (imuSample w d p.readMs))
    (⟨d, { s.main with imuPos := s.main.imuPos + 1, loop }⟩, obs)

end SensorMain

/-- The NORMAL mode on the sensors. -/
def sensorMode (env : SensorEnv) : Mealy SensorMain Unit Obs := ⟨fun s _ => s.step env⟩

end Glove
