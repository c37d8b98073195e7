import Glove.Lib.Mealy
import Glove.ImuFsm
import Glove.Consensus
import Glove.FlexSensor

/-! # The NORMAL-mode loop over candidates (`main.cpp`)

A state of the loop is at the top of the outer loop or inside one of the two IMU loops. A step is one
pass of the outer loop up to the next top or up to an IMU loop, or one pass of an IMU loop; the polling
that produces the candidate is in `Glove.Main`. A threshold comparison of the IMU loops is its outcome. -/

namespace Glove
open ImuFsm Consensus Sensing

/-! ## The state machine as the main loop drives it -/

/-- `cur_state`, `data`, and the globals of the state machine. -/
structure Fsm where
  curState : State
  vars : Vars
  deriving DecidableEq

namespace Fsm

/-- The start of `main`: `data` holds whatever its memory held. -/
def init (data : InstanceData) : Fsm := ⟨.stateDefault, ⟨data, '\x00', false⟩⟩

/-- `cur_state = run_state(cur_state, &data)`. -/
def run (f : Fsm) : Fsm := ⟨(runState f.curState f.vars).1, (runState f.curState f.vars).2⟩

/-- The inputs of a `GESTURE_IN` step. -/
def withGesture (f : Fsm) (gesture : Char) : Fsm := { f with vars := (f.vars.setEvent .gestureIn).setKey gesture }

def withMotion (f : Fsm) (motion : Char) : Fsm := { f with vars := (f.vars.setEvent .motionIn).setKey motion }

def withTimeout (f : Fsm) : Fsm := { f with vars := f.vars.setEvent .timeoutIn }

/-- `print_key_out` on `KEY_OUT`: the byte it sends over Bluetooth. -/
def keyOut? (f : Fsm) : Option Char := if f.vars.data.event = .keyOut then some f.vars.data.key else none

end Fsm

/-! ## Motions -/

inductive Motion
  | x | X | y | Y | z | Z | g
  deriving DecidableEq

def Motion.toChar : Motion → Char
  | .x => 'x'
  | .X => 'X'
  | .y => 'y'
  | .Y => 'Y'
  | .z => 'z'
  | .Z => 'Z'
  | .g => 'g'

inductive Answer
  | motion (m : Motion)
  | timeout
  deriving DecidableEq

/-! ## The IMU loops -/

def timeoutMs : Int := 350

/-- What a pass of an IMU loop reads: `timer.read_ms()`, and the outcome of each comparison of the
    loop it is in. -/
structure ImuSample where
  readMs : Int
  gzNeg : Bool
  ayPos : Bool
  ayNeg : Bool
  axPos : Bool
  axNeg : Bool
  azPos : Bool
  azNeg : Bool

/-- The two IMU loops: the one with halved thresholds, and the one for the other states. -/
inductive Window
  | halved
  | full
  deriving DecidableEq

/-- The IMU loop that `main` enters in a state after a step without `KEY_OUT`. -/
def window? (curState : State) : Option Window :=
  if curState = .stateWaitSxt ∨ curState = .stateWaitCo then some .halved
  else if curState = .stateWaitIj ∨ curState = .stateWaitGq ∨ curState = .stateWaitDz ∨ curState = .stateWait5 ∨
    curState = .stateWaitA ∨ curState = .stateWaitHu ∨ curState = .stateWaitPk then some .full
  else none

/-- The branch that a pass of an IMU loop takes; `none` when it takes none and the loop goes on. -/
def imuBranch (w : Window) (curState : State) (x : ImuSample) : Option Answer :=
  match w with
  | .halved =>
    if x.readMs > timeoutMs then some .timeout
    else if x.ayPos then some (.motion .y)
    else if x.ayNeg then some (.motion .Y)
    else if x.azNeg then some (.motion .Z)
    else if x.azPos then some (.motion .z)
    else if x.axNeg then some (.motion .X)
    else if x.axPos then some (.motion .x)
    else none
  | .full =>
    if x.readMs > timeoutMs then some .timeout
    else if x.gzNeg ∧ curState = .stateWaitIj then some (.motion .g)
    else if x.ayPos then some (.motion .y)
    else if x.ayNeg then some (.motion .Y)
    else if x.axNeg then some (.motion .X)
    else if x.axPos then some (.motion .x)
    else if x.azPos then some (.motion .z)
    else if x.azNeg then some (.motion .Z)
    else none

/-! ## The loop -/

structure Timer where
  running : Bool
  elapsedMs : Int
  deriving DecidableEq

namespace Timer

def start (t : Timer) : Timer := { t with running := true }

def stop (t : Timer) : Timer := { t with running := false }

def reset (t : Timer) : Timer := { t with elapsedMs := 0 }

end Timer

inductive Pc
  | top
  | imu (w : Window)
  deriving DecidableEq

structure Loop where
  pc : Pc
  fsm : Fsm
  timer : Timer
  consensusQueue : List String

/-- What a step of the loop does that the outside can see, and each call of `run_state` with the event
    it is passed and the event it leaves. -/
inductive Obs
  | runState (before : State) (input : Event) (after : State) (output : Event)
  | sent (byte : Char)

/-- What a step of the loop reads: the candidate of a poll, or a pass of an IMU loop. -/
inductive Input
  | poll (candidate : String)
  | imu (x : ImuSample)

namespace Loop

def init (data : InstanceData) : Loop := ⟨.top, Fsm.init data, ⟨false, 0⟩, []⟩

/-- `run_state` on the inputs that `f` carries, and `print_key_out` where main prints on `KEY_OUT`. -/
def runObs (f : Fsm) : List Obs :=
  .runState f.curState f.vars.data.event f.run.curState f.run.vars.data.event ::
    (match f.run.keyOut? with
    | some byte => [.sent byte]
    | none => [])

/-- The outer loop from `push_back(candidate)` on. -/
def pollStep (l : Loop) (candidate : String) : Loop × List Obs :=
  match pushCandidate consensusN l.consensusQueue candidate with
  | none => (l, [])
  | some (none, queue) => ({ l with consensusQueue := queue }, [])
  | some (some result, queue) =>
    let f := l.fsm.withGesture (firstChar result)
    let l := { l with consensusQueue := queue, fsm := f.run }
    if f.run.keyOut?.isSome then (l, runObs f)
    else
      match window? f.run.curState with
      | some w => ({ l with pc := .imu w, timer := l.timer.start }, runObs f)
      | none => (l, runObs f)

/-- A motion or the timeout ends the IMU loop. A `KEY_OUT` is printed only by `handle_motion`. -/
def handleMotion (l : Loop) (motion : Char) : Loop × List Obs :=
  let f := l.fsm.withMotion motion
  ({ l with pc := .top, fsm := f.run, timer := l.timer.stop.reset }, runObs f)

def handleTimeout (l : Loop) : Loop × List Obs :=
  let f := l.fsm.withTimeout
  ({ l with pc := .top, fsm := f.run, timer := l.timer.stop.reset },
    [.runState f.curState f.vars.data.event f.run.curState f.run.vars.data.event])

def imuStep (l : Loop) (w : Window) (x : ImuSample) : Loop × List Obs :=
  let l := { l with timer := { l.timer with elapsedMs := x.readMs } }
  match imuBranch w l.fsm.curState x with
  | none => (l, [])
  | some .timeout => l.handleTimeout
  | some (.motion m) => l.handleMotion m.toChar

/-- A step reads the input that control is waiting for. -/
def step (l : Loop) (i : Input) : Loop × List Obs :=
  match l.pc, i with
  | .top, .poll candidate => l.pollStep candidate
  | .imu w, .imu x => l.imuStep w x
  | _, _ => (l, [])

end Loop

def loop : Mealy Loop Input Obs := ⟨Loop.step⟩

section Step
variable {l : Loop} {w : Window} {candidate : String} {x : ImuSample}

theorem loop_step_poll (h : l.pc = .top) : loop.step l (.poll candidate) = l.pollStep candidate := by
  simp only [loop, Loop.step, h]

theorem loop_step_imu (h : l.pc = .imu w) : loop.step l (.imu x) = l.imuStep w x := by
  simp only [loop, Loop.step, h]

theorem loop_step_poll_imu (h : l.pc = .imu w) : loop.step l (.poll candidate) = (l, []) := by
  simp only [loop, Loop.step, h]

theorem loop_step_imu_top (h : l.pc = .top) : loop.step l (.imu x) = (l, []) := by
  simp only [loop, Loop.step, h]

end Step

/-- The byte that an observation sends to the host. -/
def Obs.byte? : Obs → Option Char
  | .sent byte => some byte
  | .runState .. => none

/-! ## Macro-steps -/

/-- A consensus gesture, and the answer of the IMU loop that is read if the gesture opens one. -/
structure MacroStep where
  gesture : Char
  answer : Answer
  deriving DecidableEq

/-- The step that ends an IMU loop. -/
def Fsm.answered (f : Fsm) : Answer → Fsm × List Char
  | .motion m => ((f.withMotion m.toChar).run, (f.withMotion m.toChar).run.keyOut?.toList)
  | .timeout => (f.withTimeout.run, [])

/-- The loop from a consensus to the next top, and the bytes it sends. -/
def Fsm.macroStep (f : Fsm) (s : MacroStep) : Fsm × List Char :=
  let f := (f.withGesture s.gesture).run
  match f.keyOut? with
  | some byte => (f, [byte])
  | none =>
    match window? f.curState with
    | some _ => f.answered s.answer
    | none => (f, [])

/-- The NORMAL-mode loop, a macro-step at a time. -/
def glove : Mealy Fsm MacroStep Char := ⟨Fsm.macroStep⟩

end Glove
