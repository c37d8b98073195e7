import Glove.Theorems.Thresholds

/-! The NORMAL mode on the sensors. What a pass of an IMU loop compares is a function of what the chip delivers in that
    pass and of the loop, so the mode does what the one of `Glove.Main` does for these outcomes of the comparisons. With
    gravity on it the sensor is past one of the halved thresholds, so the first pass of the loop with these ends it. -/

namespace Glove
open Mealy ImuFsm Sensing Imu

/-! ### Passes -/

namespace ImuPass

def a (p : ImuPass) : Axes Int :=
  ⟨readWord (p.accel 0 outXHA) (p.accel 1 outXLA), readWord (p.accel 2 outYHA) (p.accel 3 outYLA),
    readWord (p.accel 4 outZHA) (p.accel 5 outZLA)⟩

def gz (p : ImuPass) : Int := readWord (p.gyro 4 outZHG) (p.gyro 5 outZLG)

/-- The outcomes of the comparisons, in ticks. -/
def sample (p : ImuPass) (w : Window) : ImuSample :=
  ⟨p.readMs, p.gz < -13374, w.ticks < p.a.y, p.a.y < -w.ticks, w.ticks < p.a.x, p.a.x < -w.ticks, w.ticks < p.a.z,
    p.a.z < -w.ticks⟩

end ImuPass

section Pass
variable {d : Lsm9ds0}

theorem AtDefaults.pass (h : AtDefaults d) (p : ImuPass) : AtDefaults (d.pass p) := ⟨h.gRes, h.aRes, h.abias, h.gbias⟩

theorem AtDefaults.sample (h : AtDefaults d) (w : Window) (p : ImuPass) :
    imuSample w (d.pass p) p.readMs = p.sample w :=
  imuSample_eq (h.pass p) ⟨readWord_fits .., readWord_fits .., readWord_fits .., readWord_fits ..⟩

end Pass

/-! ### Steps -/

section Step
variable {env : SensorEnv} {s : SensorMain} {imu : Nat → ImuSample} {u : Unit}

theorem sensorMode_step_top (h : s.main.loop.pc = .top) :
    (sensorMode env).step s u =
      (⟨s.dof, ((normalMode ⟨env.adgdr, imu⟩).step s.main u).1⟩, ((normalMode ⟨env.adgdr, imu⟩).step s.main u).2) := by
  by_cases hres : (poll env.adgdr s.main.adcPos s.main.sensorReading).res = 0
  · rw [@normalMode_step_poll ⟨env.adgdr, imu⟩ s.main u h hres]
    simp [sensorMode, SensorMain.step, h, hres, loop]
  · rw [@normalMode_step_retry ⟨env.adgdr, imu⟩ s.main u h hres]
    simp [sensorMode, SensorMain.step, h, hres]

theorem sensorMode_step_imu {w : Window} (h : s.main.loop.pc = .imu w) (hd : AtDefaults s.dof)
    (himu : imu s.main.imuPos = (env.passes s.main.imuPos).sample w) :
    (sensorMode env).step s u =
      (⟨s.dof.pass (env.passes s.main.imuPos), ((normalMode ⟨env.adgdr, imu⟩).step s.main u).1⟩,
        ((normalMode ⟨env.adgdr, imu⟩).step s.main u).2) := by
  have hstep : (sensorMode env).step s u =
      let p := env.passes s.main.imuPos
      let looped := s.main.loop.step (.imu (imuSample w (s.dof.pass p) p.readMs))
      (⟨s.dof.pass p, { s.main with imuPos := s.main.imuPos + 1, loop := looped.1 }⟩, looped.2) := by
    simp only [sensorMode, SensorMain.step, h]
  rw [hstep, normalMode_step_imu h]
  dsimp only
  rw [hd.sample, himu]
  rfl

end Step

/-! ### The mode on the outcomes of the comparisons -/

/-- Where a pass is next, its outcomes are those of the thresholds of the loop that reads it. -/
def ReadsAs (env : SensorEnv) (imu : Nat → ImuSample) (s : SensorMain) : Prop :=
  ∀ w, s.main.loop.pc = .imu w → imu s.main.imuPos = (env.passes s.main.imuPos).sample w

section Outcomes
variable {env : SensorEnv} {s : SensorMain} {imu : Nat → ImuSample}

theorem sensorMode_step_main (hd : AtDefaults s.dof) (himu : ReadsAs env imu s) (u : Unit) :
    AtDefaults ((sensorMode env).step s u).1.dof ∧
      ((sensorMode env).step s u).1.main = ((normalMode ⟨env.adgdr, imu⟩).step s.main u).1 ∧
      ((sensorMode env).step s u).2 = ((normalMode ⟨env.adgdr, imu⟩).step s.main u).2 := by
  cases hpc : s.main.loop.pc with
  | top =>
    rw [@sensorMode_step_top env s imu u hpc]
    exact ⟨hd, rfl, rfl⟩
  | imu w =>
    rw [@sensorMode_step_imu env s imu u w hpc hd (himu w hpc)]
    exact ⟨hd.pass _, rfl, rfl⟩

/-- For every outcomes that a run reads so, the mode on these does the same. -/
theorem sensorMode_agree (hd : AtDefaults s.dof) {ticks : List Unit}
    (himu : ∀ x ∈ (sensorMode env).trace s ticks, ReadsAs env imu x.before) :
    ((sensorMode env).after s ticks).main = (normalMode ⟨env.adgdr, imu⟩).after s.main ticks ∧
      (sensorMode env).outputs s ticks = (normalMode ⟨env.adgdr, imu⟩).outputs s.main ticks := by
  induction ticks generalizing s with
  | nil => exact ⟨rfl, rfl⟩
  | cons u ticks ih =>
    obtain ⟨hd', hmain, hout⟩ := sensorMode_step_main hd (himu _ List.mem_cons_self) u
    obtain ⟨hafter, houtputs⟩ := ih hd' fun x hx => himu x (List.mem_cons_of_mem _ hx)
    rw [hmain] at hafter houtputs
    exact ⟨hafter, by rw [outputs_cons, outputs_cons, hout, houtputs]⟩

theorem sensorMode_imuPos_le (s : SensorMain) (u : Unit) : s.main.imuPos ≤ ((sensorMode env).step s u).1.main.imuPos := by
  simp only [sensorMode, SensorMain.step]
  split
  · split <;> exact Nat.le_refl _
  · exact Nat.le_succ _

theorem trace_imuPos_le {ticks : List Unit} {x : Taken SensorMain Unit Obs} (hx : x ∈ (sensorMode env).trace s ticks) :
    s.main.imuPos ≤ x.before.main.imuPos := by
  obtain ⟨pre, u, post, -, rfl⟩ := mem_trace_iff.mp hx
  exact after_invariant (I := fun t => s.main.imuPos ≤ t.main.imuPos)
    (fun t u hle => hle.trans (sensorMode_imuPos_le t u)) (Nat.le_refl _) pre

/-- No pass is read twice, so a run has such outcomes. -/
theorem exists_readsAs (env : SensorEnv) (s : SensorMain) (ticks : List Unit) :
    ∃ imu, ∀ x ∈ (sensorMode env).trace s ticks, ReadsAs env imu x.before := by
  induction ticks generalizing s with
  | nil => exact ⟨fun n => (env.passes n).sample .full, fun x hx => absurd hx List.not_mem_nil⟩
  | cons u ticks ih =>
    obtain ⟨rest, hrest⟩ := ih ((sensorMode env).step s u).1
    cases hpc : s.main.loop.pc with
    | top =>
      refine ⟨rest, fun x hx w hw => ?_⟩
      obtain rfl | hx := List.mem_cons.mp hx
      · cases hpc.symm.trans hw
      · exact hrest x hx w hw
    | imu w =>
      -- The outcomes of this pass, and those of the rest of the run for the passes after it.
      refine ⟨Function.update rest s.main.imuPos ((env.passes s.main.imuPos).sample w), fun x hx w' hw' => ?_⟩
      obtain rfl | hx := List.mem_cons.mp hx
      · cases hpc.symm.trans hw'
        exact Function.update_self ..
      · have hnext : ((sensorMode env).step s u).1.main.imuPos = s.main.imuPos + 1 := by
          simp only [sensorMode, SensorMain.step, hpc]
        have hle := trace_imuPos_le hx
        have hne : x.before.main.imuPos ≠ s.main.imuPos := by omega
        rw [Function.update_of_ne hne]
        exact hrest x hx w' hw'

end Outcomes

/-- The NORMAL mode on the sensors does what the one on the outcomes of the comparisons does, for outcomes that compare the
    ticks of each pass with the thresholds of the loop that reads it. -/
theorem sensorMode_refines (env : SensorEnv) (gyro xm : RegisterFile) (data : InstanceData) (memory : SensorReading)
    (ticks : List Unit) :
    ∃ imu : Nat → ImuSample,
      (∀ x ∈ (sensorMode env).trace (.init gyro xm data memory) ticks, ∀ w, x.before.main.loop.pc = .imu w →
        imu x.before.main.imuPos = (env.passes x.before.main.imuPos).sample w) ∧
      ((sensorMode env).after (.init gyro xm data memory) ticks).main =
        (normalMode ⟨env.adgdr, imu⟩).after (Main.init data memory) ticks ∧
      (sensorMode env).outputs (.init gyro xm data memory) ticks =
        (normalMode ⟨env.adgdr, imu⟩).outputs (Main.init data memory) ticks := by
  obtain ⟨imu, himu⟩ := exists_readsAs env (.init gyro xm data memory) ticks
  exact ⟨imu, himu, sensorMode_agree (init_atDefaults gyro xm) himu⟩

/-! ### Gravity -/

/-- The accelerometer reads more than √3 times the halved threshold, about 0.69 g. -/
def Felt (a : Axes Int) : Prop := 3 * 6553 ^ 2 < a.x ^ 2 + a.y ^ 2 + a.z ^ 2

theorem Felt.past (h : Felt a) :
    (6553 < a.x ∨ a.x < -6553) ∨ (6553 < a.y ∨ a.y < -6553) ∨ (6553 < a.z ∨ a.z < -6553) := by
  by_contra hnot
  simp only [not_or, Int.not_lt] at hnot
  obtain ⟨⟨hx, hx'⟩, ⟨hy, hy'⟩, hz, hz'⟩ := hnot
  have hxx : a.x ^ 2 ≤ 6553 ^ 2 := sq_le_sq' hx' hx
  have hyy : a.y ^ 2 ≤ 6553 ^ 2 := sq_le_sq' hy' hy
  have hzz : a.z ^ 2 ≤ 6553 ^ 2 := sq_le_sq' hz' hz
  unfold Felt at h
  omega

theorem Felt.imuBranch {p : ImuPass} (h : Felt p.a) (hms : p.readMs ≤ 350) (curState : State) :
    ∃ m, imuBranch .halved curState (p.sample .halved) = some (.motion m) := by
  have hnot : ¬p.readMs > timeoutMs := by
    rw [timeoutMs]
    omega
  simp only [Glove.imuBranch, ImuPass.sample, hnot, if_false, decide_eq_true_eq]
  by_cases hy : Window.halved.ticks < p.a.y
  · exact ⟨.y, if_pos hy⟩
  by_cases hy' : p.a.y < -Window.halved.ticks
  · exact ⟨.Y, by rw [if_neg hy, if_pos hy']⟩
  by_cases hz' : p.a.z < -Window.halved.ticks
  · exact ⟨.Z, by rw [if_neg hy, if_neg hy', if_pos hz']⟩
  by_cases hz : Window.halved.ticks < p.a.z
  · exact ⟨.z, by rw [if_neg hy, if_neg hy', if_neg hz', if_pos hz]⟩
  by_cases hx' : p.a.x < -Window.halved.ticks
  · exact ⟨.X, by rw [if_neg hy, if_neg hy', if_neg hz', if_neg hz, if_pos hx']⟩
  by_cases hx : Window.halved.ticks < p.a.x
  · exact ⟨.x, by rw [if_neg hy, if_neg hy', if_neg hz', if_neg hz, if_neg hx', if_pos hx]⟩
  · have hpast := h.past
    have hticks : Window.halved.ticks = 6553 := rfl
    omega

/-- Inside an IMU loop the state is one that opens it. -/
def Windowed (l : Loop) : Prop := ∀ w, l.pc = .imu w → window? l.fsm.curState = some w

section Windowed
variable {l : Loop}

theorem pollStep_windowed (hl : Windowed l) (hpc : l.pc = .top) (candidate : String) :
    Windowed (l.pollStep candidate).1 := by
  unfold Loop.pollStep
  split
  · exact hl
  · exact fun w hw => absurd (hpc.symm.trans hw) (by simp)
  · dsimp only
    split
    · exact fun w hw => absurd (hpc.symm.trans hw) (by simp)
    · split
      · next w hw =>
        intro w' hw'
        cases hw'
        exact hw
      · exact fun w hw => absurd (hpc.symm.trans hw) (by simp)

theorem imuStep_windowed (hl : Windowed l) (w : Window) (x : ImuSample) : Windowed (l.imuStep w x).1 := by
  unfold Loop.imuStep
  dsimp only
  split
  · exact hl
  · exact fun w hw => by cases hw
  · exact fun w hw => by cases hw

theorem loop_step_windowed (hl : Windowed l) (i : Input) : Windowed (loop.step l i).1 := by
  cases hpc : l.pc with
  | top =>
    cases i with
    | poll candidate =>
      rw [loop_step_poll hpc]
      exact pollStep_windowed hl hpc candidate
    | imu x =>
      rw [loop_step_imu_top hpc]
      exact hl
  | imu w =>
    cases i with
    | poll candidate =>
      rw [loop_step_poll_imu hpc]
      exact hl
    | imu x =>
      rw [loop_step_imu hpc]
      exact imuStep_windowed hl w x

/-- A motion ends the loop, and goes to the state machine. -/
theorem loop_step_motion {w : Window} {x : ImuSample} {m : Motion} (hpc : l.pc = .imu w)
    (hbranch : imuBranch w l.fsm.curState x = some (.motion m)) :
    (loop.step l (.imu x)).1.pc = .top ∧ (loop.step l (.imu x)).2 = Loop.runObs (l.fsm.withMotion m.toChar) := by
  rw [loop_step_imu hpc]
  simp only [Loop.imuStep, hbranch]
  exact ⟨rfl, rfl⟩

end Windowed

theorem window?_halved {curState : State} (h : window? curState = some .halved) :
    curState = .stateWaitSxt ∨ curState = .stateWaitCo := by
  cases curState <;> first | exact .inl rfl | exact .inr rfl | cases h

theorem sensorMode_step_windowed (env : SensorEnv) (s : SensorMain) (u : Unit) (hl : Windowed s.main.loop) :
    Windowed ((sensorMode env).step s u).1.main.loop := by
  simp only [sensorMode, SensorMain.step]
  split
  · split
    · exact hl
    · exact loop_step_windowed hl _
  · exact loop_step_windowed hl _

theorem AtDefaults.step {env : SensorEnv} {s : SensorMain} (h : AtDefaults s.dof) (u : Unit) :
    AtDefaults ((sensorMode env).step s u).1.dof := by
  simp only [sensorMode, SensorMain.step]
  split
  · split <;> exact h
  · exact h.pass _

/-- In every run: a pass of the loop with the halved thresholds that is within the timeout and feels gravity ends the loop
    with a motion, which goes to the state machine in STATE_WAIT_SXT or STATE_WAIT_CO, whether the hand moves or not. -/
theorem gravity_motion (env : SensorEnv) (gyro xm : RegisterFile) (data : InstanceData) (memory : SensorReading)
    (ticks : List Unit) (x : Taken SensorMain Unit Obs)
    (hx : x ∈ (sensorMode env).trace (.init gyro xm data memory) ticks) (hpc : x.before.main.loop.pc = .imu .halved)
    (hms : (env.passes x.before.main.imuPos).readMs ≤ 350) (hfelt : Felt (env.passes x.before.main.imuPos).a) :
    (x.before.main.loop.fsm.curState = .stateWaitSxt ∨ x.before.main.loop.fsm.curState = .stateWaitCo) ∧
      ((sensorMode env).step x.before x.input).1.main.loop.pc = .top ∧
      ∃ m : Motion, x.answer = Loop.runObs (x.before.main.loop.fsm.withMotion m.toChar) := by
  obtain ⟨pre, u, post, -, rfl⟩ := mem_trace_iff.mp hx
  have hd : AtDefaults ((sensorMode env).after (.init gyro xm data memory) pre).dof :=
    after_invariant (I := fun s : SensorMain => AtDefaults s.dof) (fun _ u h => h.step u) (init_atDefaults gyro xm) pre
  have hl : Windowed ((sensorMode env).after (.init gyro xm data memory) pre).main.loop :=
    after_invariant (I := fun s : SensorMain => Windowed s.main.loop) (sensorMode_step_windowed env)
      (fun w hw => by cases hw) pre
  generalize (sensorMode env).after (.init gyro xm data memory) pre = s at hd hl hpc hms hfelt
  obtain ⟨m, hbranch⟩ := hfelt.imuBranch hms s.main.loop.fsm.curState
  have hstep := @sensorMode_step_imu env s (fun n => (env.passes n).sample .halved) u .halved hpc hd rfl
  rw [normalMode_step_imu hpc] at hstep
  obtain ⟨htop, hobs⟩ := loop_step_motion hpc hbranch
  refine ⟨window?_halved (hl .halved hpc), ?_, m, ?_⟩
  · show ((sensorMode env).step s u).1.main.loop.pc = .top
    rw [hstep]
    exact htop
  · show ((sensorMode env).step s u).2 = _
    rw [hstep]
    exact hobs

/-- A pass five milliseconds after the start of the timer, on a chip that lies flat. -/
def restingPass : ImuPass := ⟨fun _ reg => if reg = outZHA then 0x40 else 0x00, fun _ _ => 0x00, 5⟩

/-- The hand makes an 'o' and rests. -/
def restingO : SensorEnv :=
  ⟨fun n => [0x5910, 0x39E0, 0x4B30, 0x2400, 0x3EE0, 0x2B10].getD (n % 6) 0x0000, fun _ => restingPass⟩

def startO : SensorMain :=
  .init (fun _ => 0xFF) (fun _ => 0xFF) ⟨.noop, '\x00', '\x00'⟩ ⟨0, 0, 0, 0, 0, 0, ""⟩

/-- Four candidates open the loop, and its first pass is next. -/
def openedO : SensorMain := (sensorMode restingO).after startO [(), (), (), ()]

theorem gravity_motion_resting :
    (openedO.main.loop.fsm.curState = .stateWaitSxt ∨ openedO.main.loop.fsm.curState = .stateWaitCo) ∧
      ((sensorMode restingO).step openedO ()).1.main.loop.pc = .top ∧
      ∃ m : Motion, ((sensorMode restingO).step openedO ()).2 =
        Loop.runObs (openedO.main.loop.fsm.withMotion m.toChar) := by
  have hx : ⟨openedO, (), ((sensorMode restingO).step openedO ()).2⟩ ∈
      (sensorMode restingO).trace startO [(), (), (), (), ()] :=
    mem_trace_iff.mpr ⟨[(), (), (), ()], (), [], rfl, rfl⟩
  have hpc : openedO.main.loop.pc = .imu .halved := by decide +kernel
  have hms : restingPass.readMs ≤ 350 := by decide
  have hfelt : Felt restingPass.a := by
    unfold Felt
    decide
  have hmotion := gravity_motion restingO (fun _ => 0xFF) (fun _ => 0xFF) ⟨.noop, '\x00', '\x00'⟩ ⟨0, 0, 0, 0, 0, 0, ""⟩
    [(), (), (), (), ()] ⟨openedO, (), ((sensorMode restingO).step openedO ()).2⟩ hx
  dsimp only at hmotion
  exact hmotion hpc hms hfelt

/-! ### Readings that the chip replaces -/

/-- How far a reading is in the direction of a motion. -/
def Motion.along (gz : Int) (a : Axes Int) : Motion → Int
  | .x => a.x
  | .X => -a.x
  | .y => a.y
  | .Y => -a.y
  | .z => a.z
  | .Z => -a.z
  | .g => -gz

/-- How far it has to be. -/
def Motion.limit (w : Window) : Motion → Int
  | .g => 13374
  | _ => w.ticks

/-- The motions that a pass looks for. -/
def Watched (w : Window) (curState : State) (m : Motion) : Prop := m = .g → w = .full ∧ curState = .stateWaitIj

theorem sample_motion {p : ImuPass} {w : Window} {curState : State} {m : Motion}
    (h : imuBranch w curState (p.sample w) = some (.motion m)) : m.limit w < m.along p.gz p.a := by
  cases w <;> simp only [imuBranch, ImuPass.sample, decide_eq_true_eq] at h <;> split_ifs at h <;> cases h <;>
    simp only [Motion.along, Motion.limit] <;> omega

theorem sample_none {p : ImuPass} {w : Window} {curState : State} (h : imuBranch w curState (p.sample w) = none)
    {m : Motion} (hm : Watched w curState m) : m.along p.gz p.a ≤ m.limit w := by
  cases w with
  | halved =>
    simp only [imuBranch, ImuPass.sample, decide_eq_true_eq] at h
    split_ifs at h
    cases m <;> simp only [Motion.along, Motion.limit]
    case g => exact absurd (hm rfl).1 (by simp)
    all_goals omega
  | full =>
    simp only [imuBranch, ImuPass.sample, decide_eq_true_eq] at h
    split_ifs at h with hms hg
    cases m <;> simp only [Motion.along, Motion.limit]
    case g =>
      by_contra hlt
      exact hg ⟨by omega, (hm rfl).2⟩
    all_goals omega

/-- Two registers hold the bytes of a measurement. -/
structure HoldsWord (chip : RegisterFile) (hi lo : BitVec 8) (z : Int) : Prop where
  fits : Fits z
  high : chip hi = highByte z
  low : chip lo = lowByte z

theorem HoldsWord.torn {chip chip' : RegisterFile} {hi lo : BitVec 8} {u v : Int} (hu : HoldsWord chip hi lo u)
    (hv : HoldsWord chip' hi lo v) : (readWord (chip hi) (chip' lo) - u).natAbs < 256 := by
  rw [hu.high, hv.low]
  exact (readWord_torn hu.fits v).2

/-- The measurements that the chip holds at the reads of a pass: it replaces them as it likes. -/
structure Delivers (p : ImuPass) (a : Nat → Axes Int) (gz : Nat → Int) : Prop where
  x : ∀ n, HoldsWord (p.accel n) outXHA outXLA (a n).x
  y : ∀ n, HoldsWord (p.accel n) outYHA outYLA (a n).y
  z : ∀ n, HoldsWord (p.accel n) outZHA outZLA (a n).z
  gz : ∀ n, HoldsWord (p.gyro n) outZHG outZLG (gz n)

theorem Delivers.along {p : ImuPass} {a : Nat → Axes Int} {gz : Nat → Int} (h : Delivers p a gz) (m : Motion) :
    ∃ n < 6, (m.along p.gz p.a - m.along (gz n) (a n)).natAbs < 256 := by
  have hx : (p.a.x - (a 0).x).natAbs < 256 := (h.x 0).torn (h.x 1)
  have hy : (p.a.y - (a 2).y).natAbs < 256 := (h.y 2).torn (h.y 3)
  have hz : (p.a.z - (a 4).z).natAbs < 256 := (h.z 4).torn (h.z 5)
  have hgz : (p.gz - gz 4).natAbs < 256 := (h.gz 4).torn (h.gz 5)
  cases m with
  | x => exact ⟨0, by omega, hx⟩
  | X => exact ⟨0, by omega, by simp only [Motion.along]; omega⟩
  | y => exact ⟨2, by omega, hy⟩
  | Y => exact ⟨2, by omega, by simp only [Motion.along]; omega⟩
  | z => exact ⟨4, by omega, hz⟩
  | Z => exact ⟨4, by omega, by simp only [Motion.along]; omega⟩
  | g => exact ⟨4, by omega, by simp only [Motion.along]; omega⟩

theorem AtDefaults.passes {d : Lsm9ds0} (h : AtDefaults d) (ps : List ImuPass) : AtDefaults (ps.foldl Lsm9ds0.pass d) := by
  induction ps generalizing d with
  | nil => exact h
  | cons p ps ih => exact ih (h.pass p)

/-- After `begin` and any passes: if a pass reports a motion then one of the measurements that the chip held during the
    pass is less than 256 ticks short of the threshold, or past it; if it reports nothing then for each motion it looks
    for one of them is less than 256 ticks past the threshold. -/
theorem pass_torn (gyro xm : RegisterFile) (earlier : List ImuPass) (p : ImuPass) (a : Nat → Axes Int) (gz : Nat → Int)
    (h : Delivers p a gz) (w : Window) (curState : State) :
    let d := (earlier.foldl Lsm9ds0.pass ((dof gyro xm).begin {}).1).pass p
    (∀ m, imuBranch w curState (imuSample w d p.readMs) = some (.motion m) →
      ∃ n < 6, m.limit w - 256 < m.along (gz n) (a n)) ∧
    (imuBranch w curState (imuSample w d p.readMs) = none →
      ∀ m, Watched w curState m → ∃ n < 6, m.along (gz n) (a n) < m.limit w + 256) := by
  intro d
  have hsample : imuSample w d p.readMs = p.sample w := ((init_atDefaults gyro xm).passes earlier).sample w p
  rw [hsample]
  constructor
  · intro m hm
    obtain ⟨n, hn, hnear⟩ := h.along m
    have hpast := sample_motion hm
    exact ⟨n, hn, by omega⟩
  · intro hnone m hm
    obtain ⟨n, hn, hnear⟩ := h.along m
    have hshort := sample_none hnone hm
    exact ⟨n, hn, by omega⟩

/-- The z axis falls from 0x3300 to 0x32FF between the reads of its two bytes. -/
def tornPass : ImuPass :=
  ⟨fun n reg => if reg = outZHA then (if n ≤ 4 then 0x33 else 0x32) else if reg = outZLA ∧ 5 ≤ n then 0xFF else 0x00,
    fun _ _ => 0x00, 5⟩

def tornMeasurement (n : Nat) : Axes Int := ⟨0, 0, if n ≤ 4 then 13056 else 13055⟩

theorem tornPass_zero (n : Nat) (hi lo : BitVec 8) (h : ∀ reg ∈ [hi, lo], reg ≠ outZHA ∧ reg ≠ outZLA) :
    HoldsWord (tornPass.accel n) hi lo 0 := by
  have hzero : ∀ reg ∈ [hi, lo], tornPass.accel n reg = 0x00 := by
    intro reg hreg
    obtain ⟨hhi, hlo⟩ := h reg hreg
    simp [tornPass, hhi, hlo]
  exact ⟨by decide, hzero hi (by simp), hzero lo (by simp)⟩

theorem tornPass_delivers : Delivers tornPass tornMeasurement fun _ => 0 where
  x := fun n => tornPass_zero n outXHA outXLA (by decide)
  y := fun n => tornPass_zero n outYHA outYLA (by decide)
  z := by
    intro n
    by_cases hn : n ≤ 4
    · have hlow : ¬5 ≤ n := by omega
      constructor
      · simp only [tornMeasurement, hn, if_true]
        decide
      · simp only [tornMeasurement, tornPass, hn, if_true]
        rfl
      · simp only [tornMeasurement, tornPass, hn, hlow, if_true, and_false, if_false]
        rfl
    · have hlow : 5 ≤ n := by omega
      constructor
      · simp only [tornMeasurement, hn, if_false]
        decide
      · simp only [tornMeasurement, tornPass, hn, if_true, if_false]
        rfl
      · simp only [tornMeasurement, tornPass, hn, hlow, and_true, if_true, if_false]
        rfl
  gz := fun _ => ⟨by decide, rfl, rfl⟩

/-- None of the measurements is past the threshold, and the pass reports the motion. -/
theorem pass_torn_across :
    (∀ n, Motion.along 0 (tornMeasurement n) .z ≤ Motion.limit .full .z) ∧
      ∃ n < 6, Motion.limit .full .z - 256 < Motion.along 0 (tornMeasurement n) .z := by
  let chip : RegisterFile := fun _ => 0xFF
  refine ⟨fun n => ?_, ?_⟩
  · simp only [Motion.along, Motion.limit, tornMeasurement, Window.ticks]
    split <;> omega
  · have hsample := (init_atDefaults chip chip).sample .full tornPass
    refine (pass_torn chip chip [] tornPass tornMeasurement (fun _ => 0) tornPass_delivers .full .stateWaitDz).1 .z ?_
    rw [List.foldl_nil, hsample]
    decide

end Glove
