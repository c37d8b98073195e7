import Glove.Theorems.Polling

/-! What the locals of `main` hold at the start does not reach the host. Two runs agree on everything but
    `aux` outside WAIT_SXT, `event` and `key` at a top, and the fields of a reading that a `Poll` has not
    written. -/

namespace Glove
open Mealy ImuFsm Consensus Sensing

/-! ### The state machine -/

/-- Two sets of variables that agree but for `aux`, which they agree on if `aux` is read. -/
structure Agree (aux : Prop) (v w : Vars) : Prop where
  event : v.data.event = w.data.event
  key : v.data.key = w.data.key
  prevKey : v.prevKey = w.prevKey
  repeated : v.repeated = w.repeated
  aux : aux → v.data.aux = w.data.aux

/-- A next state and variables that agree as far as the next state reads them. -/
def NextAgree (x y : State × Vars) : Prop := x.1 = y.1 ∧ Agree (x.1 = .stateWaitSxt) x.2 y.2

section Handlers
variable {aux : Prop} {v w : Vars}

theorem Agree.weaken {aux' : Prop} (h : Agree aux v w) (haux : aux' → aux) : Agree aux' v w :=
  ⟨h.event, h.key, h.prevKey, h.repeated, fun h' => h.aux (haux h')⟩

theorem Agree.setEvent (h : Agree aux v w) (event : Event) : Agree aux (v.setEvent event) (w.setEvent event) :=
  ⟨rfl, h.key, h.prevKey, h.repeated, h.aux⟩

theorem Agree.setKey (h : Agree aux v w) (key : Char) : Agree aux (v.setKey key) (w.setKey key) :=
  ⟨h.event, rfl, h.prevKey, h.repeated, h.aux⟩

theorem Agree.checkPrevKeyAndSetAnother (h : Agree aux v w) (set prev : Char) :
    Agree aux (ImuFsm.checkPrevKeyAndSetAnother v set prev) (ImuFsm.checkPrevKeyAndSetAnother w set prev) := by
  unfold ImuFsm.checkPrevKeyAndSetAnother
  rw [h.prevKey]
  split
  · exact h.setEvent .noop
  · exact ⟨rfl, rfl, rfl, h.repeated, h.aux⟩

theorem Agree.letter (h : Agree aux v w) (key : Char) :
    NextAgree (.stateDefault, checkPrevKeyAndSet v key) (.stateDefault, checkPrevKeyAndSet w key) :=
  ⟨rfl, (h.checkPrevKeyAndSetAnother key key).weaken State.noConfusion⟩

theorem Agree.nothing (h : Agree aux v w) : NextAgree (.stateDefault, v) (.stateDefault, w) :=
  ⟨rfl, h.weaken State.noConfusion⟩

theorem doStateDefault_agree (h : Agree aux v w) : NextAgree (doStateDefault v) (doStateDefault w) := by
  by_cases hv : v.data.event = .gestureIn
  · have hw : w.data.event = .gestureIn := h.event ▸ hv
    cases hfam : family? v.data.key with
    | some family =>
      rw [doStateDefault_family hv hfam, doStateDefault_family hw (h.key ▸ hfam), h.key]
      refine ⟨rfl, ?_⟩
      -- WAIT_SXT is entered with `aux` just written, every other state without a need of it.
      cases family
      case sxt => exact ⟨rfl, h.key, h.prevKey, h.repeated, fun _ => rfl⟩
      all_goals exact (h.setEvent .noop).weaken State.noConfusion
    | none =>
      by_cases hdigit : v.data.key ∈ digits
      · rw [doStateDefault_digit hv hfam hdigit, doStateDefault_digit hw (h.key ▸ hfam) (h.key ▸ hdigit)]
        exact (h.setEvent .noop).nothing
      · rw [doStateDefault_letter hv hfam hdigit, doStateDefault_letter hw (h.key ▸ hfam) (h.key ▸ hdigit), h.key]
        exact (h.setEvent .noop).letter w.data.key
  · have hw : w.data.event ≠ .gestureIn := h.event ▸ hv
    rw [doStateDefault, doStateDefault, if_neg hv, if_neg hw]
    exact h.nothing

theorem doStateFn_agree (h : Agree aux v w) : NextAgree (doStateFn v) (doStateFn w) := by
  by_cases hv : v.data.event = .gestureIn
  · have hw : w.data.event = .gestureIn := h.event ▸ hv
    cases hdigit : digit? v.data.key with
    | some digit =>
      rw [doStateFn_digit hv hdigit, doStateFn_digit hw (h.key ▸ hdigit), h.key]
      exact ⟨rfl, (h.checkPrevKeyAndSetAnother digit w.data.key).weaken State.noConfusion⟩
    | none =>
      rw [doStateFn_other hv hdigit, doStateFn_other hw (h.key ▸ hdigit)]
      exact ⟨rfl, (h.setEvent .noop).weaken State.noConfusion⟩
  · have hw : w.data.event ≠ .gestureIn := h.event ▸ hv
    rw [doStateFn, doStateFn, if_neg hv, if_neg hw]
    exact h.nothing

theorem doStateWait5_agree (h : Agree aux v w) : NextAgree (doStateWait5 v) (doStateWait5 w) := by
  simp only [doStateWait5, h.event, h.key, h.repeated, h.prevKey]
  split_ifs
  · exact ⟨rfl, rfl, h.key, h.prevKey, rfl, State.noConfusion⟩
  · exact ⟨rfl, rfl, rfl, h.prevKey, rfl, State.noConfusion⟩
  · exact h.letter ' '
  · exact ((h.setEvent .keyOut).setKey '!').nothing
  · exact ⟨rfl, rfl, h.key, rfl, h.repeated, State.noConfusion⟩
  · exact h.nothing

theorem doStateWaitA_agree (h : Agree aux v w) : NextAgree (doStateWaitA v) (doStateWaitA w) := by
  simp only [doStateWaitA, h.event, h.key]
  split_ifs
  · exact ⟨rfl, (h.setEvent .noop).weaken State.noConfusion⟩
  · exact h.letter 'a'
  · exact h.letter '\x0f'
  · exact h.nothing
  · exact h.nothing

/-- The only handler that reads `aux`. -/
theorem doStateWaitSxt_agree (h : Agree True v w) : NextAgree (doStateWaitSxt v) (doStateWaitSxt w) := by
  simp only [doStateWaitSxt, h.event, h.key, h.aux trivial]
  split_ifs
  · exact h.letter 'x'
  · exact h.letter 't'
  · exact h.letter 's'
  · exact h.letter w.data.aux
  · exact h.nothing

theorem runState_agree {st : State} (h : Agree (st = .stateWaitSxt) v w) :
    NextAgree (runState st v) (runState st w) := by
  cases st with
  | stateDefault => exact doStateDefault_agree h
  | fnLayerActive => exact doStateFn_agree h
  | stateWait5 => exact doStateWait5_agree h
  | stateWaitA => exact doStateWaitA_agree h
  | stateWaitSxt => exact doStateWaitSxt_agree (h.weaken fun _ => rfl)
  | stateWaitGq | stateWaitDz | stateWaitIj | stateWaitCo | stateWaitHu | stateWaitPk =>
    -- The motion is all that the rest look at, and it selects a letter or nothing.
    simp only [runState, stateTable, State.index, List.get, doStateWaitGq, doStateWaitDz, doStateWaitIj, doStateWaitCo,
      doStateWaitHu, doStateWaitPk, h.event, h.key]
    split_ifs <;> first | exact h.nothing | exact h.letter _

end Handlers

/-! ### The loop -/

/-- Two machines before `run_state` do the same, and agree after it. -/
structure RunAgree (f g : Fsm) : Prop where
  curState : f.run.curState = g.run.curState
  vars : Agree (f.run.curState = .stateWaitSxt) f.run.vars g.run.vars
  keyOut : f.run.keyOut? = g.run.keyOut?
  event : f.vars.data.event = g.vars.data.event

theorem runAgree {st : State} {v w : Vars} (h : Agree (st = .stateWaitSxt) v w) : RunAgree ⟨st, v⟩ ⟨st, w⟩ := by
  obtain ⟨hst, hvars⟩ := runState_agree h
  refine ⟨hst, hvars, ?_, h.event⟩
  have hevent : (Fsm.run ⟨st, v⟩).vars.data.event = (Fsm.run ⟨st, w⟩).vars.data.event := hvars.event
  have hkey : (Fsm.run ⟨st, v⟩).vars.data.key = (Fsm.run ⟨st, w⟩).vars.data.key := hvars.key
  rw [Fsm.keyOut?, Fsm.keyOut?, hevent, hkey]

/-- What the variables of two loops agree on: at a top `event` and `key` are stale, inside an IMU loop
    only `event` is. -/
structure AgreeAt (pc : Pc) (st : State) (v w : Vars) : Prop where
  prevKey : v.prevKey = w.prevKey
  repeated : v.repeated = w.repeated
  key : pc ≠ .top → v.data.key = w.data.key
  aux : st = .stateWaitSxt → v.data.aux = w.data.aux

theorem Agree.at {st : State} {v w : Vars} (h : Agree (st = .stateWaitSxt) v w) (pc : Pc) : AgreeAt pc st v w :=
  ⟨h.prevKey, h.repeated, fun _ => h.key, h.aux⟩

/-- Two loops that differ in stale and unread fields of `data` only. -/
structure SameLoop (l l' : Loop) : Prop where
  pc : l.pc = l'.pc
  curState : l.fsm.curState = l'.fsm.curState
  timer : l.timer = l'.timer
  consensusQueue : l.consensusQueue = l'.consensusQueue
  vars : AgreeAt l.pc l.fsm.curState l.fsm.vars l'.fsm.vars

theorem RunAgree.same {f g : Fsm} (h : RunAgree f g) (pc : Pc) (timer : Timer) (queue : List String) :
    SameLoop ⟨pc, f.run, timer, queue⟩ ⟨pc, g.run, timer, queue⟩ :=
  ⟨rfl, h.curState, rfl, rfl, h.vars.at pc⟩

theorem RunAgree.runState_obs {f g : Fsm} (h : RunAgree f g) (hst : f.curState = g.curState) :
    Obs.runState f.curState f.vars.data.event f.run.curState f.run.vars.data.event =
      Obs.runState g.curState g.vars.data.event g.run.curState g.run.vars.data.event := by
  rw [hst, h.event, h.curState, h.vars.event]

theorem RunAgree.obs {f g : Fsm} (h : RunAgree f g) (hst : f.curState = g.curState) :
    Loop.runObs f = Loop.runObs g := by
  rw [Loop.runObs, Loop.runObs, h.runState_obs hst, h.keyOut]

section Steps
variable {l l' : Loop}

theorem pollStep_same (h : SameLoop l l') (candidate : String) :
    SameLoop (l.pollStep candidate).1 (l'.pollStep candidate).1 ∧
      (l.pollStep candidate).2 = (l'.pollStep candidate).2 := by
  obtain ⟨pc, ⟨st, v⟩, timer, queue⟩ := l
  obtain ⟨pc', ⟨st', w⟩, timer', queue'⟩ := l'
  obtain ⟨rfl, rfl, rfl, rfl, hvars⟩ := h
  unfold Loop.pollStep
  dsimp only
  cases hpush : pushCandidate consensusN queue candidate with
  | none => exact ⟨⟨rfl, rfl, rfl, rfl, hvars⟩, rfl⟩
  | some pushed =>
    obtain ⟨_ | result, queue'⟩ := pushed
    · exact ⟨⟨rfl, rfl, rfl, rfl, hvars⟩, rfl⟩
    · -- The event and the key are written before the machine runs.
      have hrun : RunAgree (Fsm.withGesture ⟨st, v⟩ (firstChar result)) (Fsm.withGesture ⟨st, w⟩ (firstChar result)) :=
        runAgree ⟨rfl, rfl, hvars.prevKey, hvars.repeated, hvars.aux⟩
      dsimp only
      rw [hrun.keyOut, hrun.obs rfl, hrun.curState]
      split
      · exact ⟨hrun.same _ _ _, rfl⟩
      · split
        · exact ⟨hrun.same _ _ _, rfl⟩
        · exact ⟨hrun.same _ _ _, rfl⟩

theorem imuStep_same (h : SameLoop l l') {w : Window} (hpc : l.pc = .imu w) (x : ImuSample) :
    SameLoop (l.imuStep w x).1 (l'.imuStep w x).1 ∧ (l.imuStep w x).2 = (l'.imuStep w x).2 := by
  obtain ⟨pc, ⟨st, v⟩, timer, queue⟩ := l
  obtain ⟨pc', ⟨st', v'⟩, timer', queue'⟩ := l'
  obtain ⟨rfl, rfl, rfl, rfl, hvars⟩ := h
  have hkey : v.data.key = v'.data.key := hvars.key (by rw [show pc = .imu w from hpc]; exact Pc.noConfusion)
  unfold Loop.imuStep
  dsimp only
  cases imuBranch w st x with
  | none => exact ⟨⟨rfl, rfl, rfl, rfl, hvars⟩, rfl⟩
  | some answer =>
    cases answer with
    | timeout =>
      have hrun : RunAgree (Fsm.withTimeout ⟨st, v⟩) (Fsm.withTimeout ⟨st, v'⟩) :=
        runAgree ⟨rfl, hkey, hvars.prevKey, hvars.repeated, hvars.aux⟩
      exact ⟨hrun.same _ _ _, congrArg (fun o => [o]) (hrun.runState_obs rfl)⟩
    | motion m =>
      have hrun : RunAgree (Fsm.withMotion ⟨st, v⟩ m.toChar) (Fsm.withMotion ⟨st, v'⟩ m.toChar) :=
        runAgree ⟨rfl, rfl, hvars.prevKey, hvars.repeated, hvars.aux⟩
      exact ⟨hrun.same _ _ _, hrun.obs rfl⟩

theorem loop_same : Simulates loop loop SameLoop := by
  intro l l' i h
  cases hpc : l.pc with
  | top =>
    have hpc' : l'.pc = .top := h.pc ▸ hpc
    cases i with
    | poll candidate =>
      rw [loop_step_poll hpc, loop_step_poll hpc']
      exact pollStep_same h candidate
    | imu x =>
      rw [loop_step_imu_top hpc, loop_step_imu_top hpc']
      exact ⟨h, rfl⟩
  | imu w =>
    have hpc' : l'.pc = .imu w := h.pc ▸ hpc
    cases i with
    | poll candidate =>
      rw [loop_step_poll_imu hpc, loop_step_poll_imu hpc']
      exact ⟨h, rfl⟩
    | imu x =>
      rw [loop_step_imu hpc, loop_step_imu hpc']
      exact imuStep_same h hpc x

end Steps

/-! ### The mode -/

/-- Two runs of the mode on the same hardware: nothing is known about the fields of the two readings. -/
structure SameMain (m m' : Main) : Prop where
  adcPos : m.adcPos = m'.adcPos
  imuPos : m.imuPos = m'.imuPos
  key : m.sensorReading.key = m'.sensorReading.key
  loop : SameLoop m.loop m'.loop

theorem SameMain.poll {m m' : Main} (h : SameMain m m') (env : Env) :
    (Sensing.poll env.adgdr m.adcPos m.sensorReading).res = (Sensing.poll env.adgdr m'.adcPos m'.sensorReading).res ∧
      (Sensing.poll env.adgdr m.adcPos m.sensorReading).next =
        (Sensing.poll env.adgdr m'.adcPos m'.sensorReading).next ∧
      (Sensing.poll env.adgdr m.adcPos m.sensorReading).reading.key =
        (Sensing.poll env.adgdr m'.adcPos m'.sensorReading).reading.key := by
  rw [← h.adcPos]
  have hkey : (pollChannels env.adgdr [0, 1, 2, 3, 4, 5] m.adcPos m.sensorReading).reading.key =
      (pollChannels env.adgdr [0, 1, 2, 3, 4, 5] m.adcPos m'.sensorReading).reading.key := by
    rw [pollChannels_key, pollChannels_key, h.key]
  exact ⟨(pollChannels_outcome _).1, (pollChannels_outcome _).2, hkey⟩

/-- A `Poll` that succeeds leaves the same reading. -/
theorem SameMain.poll_reading {m m' : Main} (h : SameMain m m') {env : Env}
    (hok : (Sensing.poll env.adgdr m.adcPos m.sensorReading).res = 0) :
    (Sensing.poll env.adgdr m.adcPos m.sensorReading).reading =
      (Sensing.poll env.adgdr m'.adcPos m'.sensorReading).reading := by
  have hok' : (Sensing.poll env.adgdr m'.adcPos m'.sensorReading).res = 0 := (h.poll env).1.symm.trans hok
  rw [(poll_success hok).1, (poll_success hok').1, h.adcPos, h.key]

theorem normalMode_same (env : Env) : Simulates (normalMode env) (normalMode env) SameMain := by
  intro m m' u h
  obtain ⟨hres, hnext, hkey⟩ := h.poll env
  cases htop : m.loop.pc with
  | top =>
    have htop' : m'.loop.pc = .top := h.loop.pc ▸ htop
    by_cases hok : (poll env.adgdr m.adcPos m.sensorReading).res = 0
    · -- The readings are the same from here on, and so are the candidates.
      have hok' : (poll env.adgdr m'.adcPos m'.sensorReading).res = 0 := hres.symm.trans hok
      rw [normalMode_step_poll htop hok, normalMode_step_poll htop' hok']
      dsimp only
      rw [← h.poll_reading hok]
      obtain ⟨hloop, hobs⟩ := loop_same m.loop m'.loop
        (.poll (convert keys (poll env.adgdr m.adcPos m.sensorReading).reading)) h.loop
      exact ⟨⟨hnext, h.imuPos, rfl, hloop⟩, hobs⟩
    · have hok' : (poll env.adgdr m'.adcPos m'.sensorReading).res ≠ 0 := fun h => hok (hres.trans h)
      rw [normalMode_step_retry htop hok, normalMode_step_retry htop' hok']
      exact ⟨⟨hnext, h.imuPos, hkey, h.loop⟩, rfl⟩
  | imu w =>
    have htop' : m'.loop.pc = .imu w := h.loop.pc ▸ htop
    rw [normalMode_step_imu htop, normalMode_step_imu htop']
    dsimp only
    rw [← h.imuPos]
    obtain ⟨hloop, hobs⟩ := loop_same m.loop m'.loop (.imu (env.imu m.imuPos)) h.loop
    exact ⟨⟨h.adcPos, rfl, h.key, hloop⟩, hobs⟩

/-- For every hardware, what the memory of `data` and `sensorReading` holds at the start changes nothing
    of what the mode does, after any number of steps: its calls of `run_state`, the bytes it sends, the
    states of the machine and its globals are the same. -/
theorem uninit_invisible (env : Env) (data data' : InstanceData) (memory memory' : SensorReading) (ticks : List Unit) :
    (normalMode env).outputs (Main.init data memory) ticks = (normalMode env).outputs (Main.init data' memory') ticks ∧
      ((normalMode env).after (Main.init data memory) ticks).loop.fsm.curState =
        ((normalMode env).after (Main.init data' memory') ticks).loop.fsm.curState ∧
      ((normalMode env).after (Main.init data memory) ticks).loop.fsm.vars.prevKey =
        ((normalMode env).after (Main.init data' memory') ticks).loop.fsm.vars.prevKey ∧
      ((normalMode env).after (Main.init data memory) ticks).loop.fsm.vars.repeated =
        ((normalMode env).after (Main.init data' memory') ticks).loop.fsm.vars.repeated := by
  have hstart : SameMain (Main.init data memory) (Main.init data' memory') :=
    ⟨rfl, rfl, rfl, rfl, rfl, rfl, rfl, rfl, rfl, fun h => absurd rfl h, State.noConfusion⟩
  have hafter := ((normalMode_same env).after hstart ticks).loop
  exact ⟨(normalMode_same env).outputs hstart ticks, hafter.curState, hafter.vars.prevKey, hafter.vars.repeated⟩

end Glove
