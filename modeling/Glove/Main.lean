import Glove.Loop

/-! # The NORMAL mode of `main` (`main.cpp`)

The loop with its polling. What the hardware delivers is fixed by two sequences, and the state holds how
much of each was read; `data` and the fields of `sensorReading` start with whatever their memory held. -/

namespace Glove
open ImuFsm Sensing

/-- What the hardware delivers: the data register after each conversion, and each pass of an IMU loop. -/
structure Env where
  adgdr : Nat → BitVec 32
  imu : Nat → ImuSample

structure Main where
  adcPos : Nat
  imuPos : Nat
  sensorReading : SensorReading
  loop : Loop

namespace Main

/-- `SensorReading()` leaves the six numbers as they are, and its key is the empty string. -/
def init (data : InstanceData) (memory : SensorReading) : Main := ⟨0, 0, { memory with key := "" }, Loop.init data⟩

/-- One pass of `Poll`, or of an IMU loop. A `Poll` that fails is tried again; one that does not goes on
    to the next top or into an IMU loop. -/
def step (env : Env) (m : Main) : Main × List Obs :=
  match m.loop.pc with
  | .top =>
    let polled := poll env.adgdr m.adcPos m.sensorReading
    let m := { m with adcPos := polled.next, sensorReading := polled.reading }
    if polled.res ≠ 0 then (m, [])
    else
      let (loop, obs) := m.loop.step (.poll (convert keys m.sensorReading))
      ({ m with loop }, obs)
  | .imu _ =>
    let (loop, obs) := m.loop.step (.imu (env.imu m.imuPos))
    ({ m with imuPos := m.imuPos + 1, loop }, obs)

end Main

/-- The NORMAL mode on what the hardware delivers: it has no input of its own. -/
def normalMode (env : Env) : Mealy Main Unit Obs := ⟨fun m _ => m.step env⟩

section Step
variable {env : Env} {m : Main} {w : Window} {u : Unit}

theorem normalMode_step_poll (h : m.loop.pc = .top) (hok : (poll env.adgdr m.adcPos m.sensorReading).res = 0) :
    (normalMode env).step m u =
      let polled := poll env.adgdr m.adcPos m.sensorReading
      let looped := loop.step m.loop (.poll (convert keys polled.reading))
      (⟨polled.next, m.imuPos, polled.reading, looped.1⟩, looped.2) := by
  simp [normalMode, Main.step, h, hok, loop]

theorem normalMode_step_retry (h : m.loop.pc = .top) (hfail : (poll env.adgdr m.adcPos m.sensorReading).res ≠ 0) :
    (normalMode env).step m u =
      let polled := poll env.adgdr m.adcPos m.sensorReading
      (⟨polled.next, m.imuPos, polled.reading, m.loop⟩, []) := by
  simp [normalMode, Main.step, h, hfail]

theorem normalMode_step_imu (h : m.loop.pc = .imu w) :
    (normalMode env).step m u =
      let looped := loop.step m.loop (.imu (env.imu m.imuPos))
      (⟨m.adcPos, m.imuPos + 1, m.sensorReading, looped.1⟩, looped.2) := by
  simp [normalMode, Main.step, h, loop]

end Step

end Glove
