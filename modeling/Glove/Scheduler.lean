import Mathlib
import Glove.Lib.Lts
import Glove.ReadyQueue

/-! # The scheduler of nano-RK (`nrk_scheduler.cpp`, `nrk.cpp`, `nrk_task.cpp`, `nrk_events.cpp`, `nrk_time.cpp`)

A tick of the timer suspends the task that asked for it, wakes those whose time has come and switches to the first of the
ready queue. Between the ticks the task that runs calls the kernel. The configuration is `nrk_cfg.h`: no statistics, no
kernel test, power down enabled. -/

namespace Glove.Nrk

/-! ## Time -/

/-- `nrk_time_t`. -/
structure Time where
  secs : Nat
  nanoSecs : Nat
  deriving DecidableEq, Repr

abbrev nanosPerSec : Nat := 1000000000
abbrev nanosPerTick : Nat := 1000000

/-- `_nrk_time_to_ticks`, a `uint16_t`. -/
def timeToTicks (t : Time) : Nat :=
  if 0 < t.secs then
    if 65 < t.secs then 0
    else (· + nanosPerSec)^[t.secs] t.nanoSecs / nanosPerTick % 2 ^ 16
  else t.nanoSecs / nanosPerTick % 2 ^ 16

/-- The loop that carries nanoseconds over to the seconds. A `uint32_t` holds less than five seconds of them. -/
def Time.carry : Nat → Time → Time
  | 0, t => t
  | n + 1, t =>
    if nanosPerSec ≤ t.nanoSecs then
      let nano := t.nanoSecs - nanosPerSec
      carry n ⟨(t.secs + 1) % 2 ^ 32, nano - nano % nanosPerTick⟩
    else t

/-- What the scheduler adds to `nrk_system_time`. -/
def Time.advance (ticks : Nat) (t : Time) : Time :=
  let nano := (t.nanoSecs + ticks * nanosPerTick) % 2 ^ 32
  carry 4 ⟨t.secs, nano - nano % nanosPerTick⟩

/-! ## The kernel -/

abbrev maxSchedWakeupTime : Nat := 250
abbrev timePad : Nat := 2
abbrev sleepWakeupTime : Nat := 10

abbrev sigEventSuspended : Nat := 1
abbrev rsrcEventSuspended : Nat := 2

/-- A signal. A shift by more than 31 is undefined. -/
abbrev Signal := Fin 32

/-- `SIG(x)`, which is `((uint32_t)1)<<x` without parentheses around it. -/
def sig (s : Signal) : BitVec 32 := 1#32 <<< s.val

/-- `~SIG(x)`, where the complement is taken before the shift. -/
def complSig (s : Signal) : BitVec 32 := (~~~1#32) <<< s.val

/-- `nrk_wakeup_signal`, which nothing sets. -/
abbrev wakeupSignal : Signal := 0

/-- The globals of the kernel, `_nrk_prev_timer_val` among them, and the match register `MR0` of the timer. The tasks
    `leaving` are in `nrk_terminate_task`, past its call of `nrk_rem_from_readyQ` and not FINISHED yet. -/
structure Kernel where
  tcb : TcbTable
  readyQ : ReadyQ
  curTask : Option TaskId
  taskInitCnt : Nat
  systemTime : Time
  prevTimerVal : Nat
  nextWakeup : Nat
  signalList : BitVec 32
  leaving : List TaskId

namespace Kernel

def setTcb (k : Kernel) (i : TaskId) (t : Tcb) : Kernel := { k with tcb := Function.update k.tcb i t }

@[simp] theorem setTcb_tcb (k : Kernel) (i : TaskId) (t : Tcb) : (k.setTcb i t).tcb = Function.update k.tcb i t := rfl

def enqueue (k : Kernel) (i : TaskId) : Except Fault Kernel := do
  let q ← addToReadyQ k.tcb i k.readyQ
  return { k with readyQ := q }

def dequeue (k : Kernel) (task : Option TaskId) : Except Fault Kernel := do
  let q ← remFromReadyQ task k.readyQ
  return { k with readyQ := q }

end Kernel

/-! ## Tasks -/

/-- The values of `Type`. -/
inductive TaskKind
  | invalid
  | basic
  | idle
  deriving DecidableEq, Repr

/-- `nrk_task_type`, without the stack and the entry point. -/
structure TaskType where
  taskID : TaskId := idleTaskID
  firstActivation : Bool := true
  prio : Nat
  type : TaskKind := .basic
  period : Time
  cpuReserve : Time := ⟨0, 0⟩
  offset : Time := ⟨0, 0⟩
  deriving DecidableEq

/-- `nrk_TCB_init`, with the `task_ID` that it gives to the task. -/
def tcbInit (task : TaskType) (k : Kernel) : Except Fault (TaskId × Kernel) :=
  let id := if task.type ≠ .idle then k.taskInitCnt else idleTaskID
  let cnt := if task.type ≠ .idle then k.taskInitCnt + 1 else k.taskInitCnt
  let cnt := if cnt = idleTaskID then cnt + 1 else cnt
  if h : id < maxTasks then
    let id : TaskId := ⟨id, h⟩
    let period := timeToTicks task.period
    let wakeup := timeToTicks task.offset
    let t :=
      { k.tcb id with
        taskPrio := task.prio
        taskState := .suspended
        taskID := some id
        suspendFlag := false
        period := period
        nextWakeup := wakeup
        nextPeriod := (period + wakeup) % 2 ^ 16
        cpuReserve := timeToTicks task.cpuReserve
        cpuRemaining := timeToTicks task.cpuReserve
        numPeriods := 1 }
    .ok (id, { k.setTcb id t with taskInitCnt := cnt })
  else .error .outOfBounds

/-- The end of `nrk_activate_task`: a task without an offset is ready at once. -/
def makeReady (id : TaskId) (k : Kernel) : Except Fault Kernel :=
  if (k.tcb id).nextWakeup = 0 then (k.setTcb id { k.tcb id with taskState := .ready }).enqueue id
  else .ok k

/-- `nrk_activate_task`, as it runs before `nrk_start`: later a tick could come inside it. -/
def activateTask (task : TaskType) (k : Kernel) : Except Fault Kernel :=
  if task.firstActivation then do
    let (id, k) ← tcbInit task k
    makeReady id k
  else if (k.tcb task.taskID).taskState ≠ .suspended then .ok k
  else makeReady task.taskID k

/-- The kernel before `nrk_init` activates the idle task. -/
def Kernel.zero : Kernel where
  tcb _ := { taskPrio := 99 }
  readyQ := .init
  curTask := none
  taskInitCnt := 0
  systemTime := ⟨0, 0⟩
  prevTimerVal := 0
  nextWakeup := 0
  signalList := 0
  leaving := []

/-- The task that `nrk_init` sets up. -/
def idleTask : TaskType := { prio := 0, type := .idle, period := ⟨0, 0⟩ }

/-- `nrk_init`. -/
def Kernel.init : Except Fault Kernel := activateTask idleTask .zero

/-- `nrk_start`, with the timer as `_nrk_setup_timer` sets it. -/
def start (k : Kernel) : Except Fault Kernel := do
  let id ← getHighReadyTaskID k.readyQ
  return { k with curTask := some id, prevTimerVal := 0, nextWakeup := 254 }

/-! ## The scheduler -/

/-- The block of a task that called for a wait. -/
def Tcb.park (t : Tcb) : Tcb :=
  if t.eventSuspend = rsrcEventSuspended then { t with taskState := .eventSuspended }
  else if 0 < t.eventSuspend ∧ !t.nwFlag then { t with taskState := .eventSuspended }
  else if 0 < t.eventSuspend ∧ t.nwFlag then { t with taskState := .suspended }
  else { t with taskState := .suspended, eventSuspend := 0, nwFlag := false }

/-- A task that called for a wait leaves the ready queue. -/
def suspendCurrent (cur : TaskId) (k : Kernel) : Except Fault Kernel :=
  if (k.tcb cur).suspendFlag ∧ (k.tcb cur).taskState ≠ .finished then
    (k.setTcb cur (k.tcb cur).park).dequeue (k.tcb cur).taskID
  else .ok k

/-- The block of a task that ran for some ticks on its reserve. -/
def Tcb.charge (ticks : Nat) (t : Tcb) : Tcb :=
  let t := { t with cpuRemaining := if t.cpuRemaining < ticks then 0 else t.cpuRemaining - ticks }
  if t.cpuRemaining = 0 then { t with taskState := .suspended } else t

/-- A task that has used up its reserve is suspended. -/
def chargeReserve (cur : TaskId) (k : Kernel) : Except Fault Kernel :=
  let t := k.tcb cur
  if t.cpuReserve ≠ 0 ∧ t.taskID ≠ some idleTaskID ∧ t.taskState ≠ .finished then
    let t := t.charge k.prevTimerVal
    if t.cpuRemaining = 0 then (k.setTcb cur t).dequeue t.taskID
    else .ok (k.setTcb cur t)
  else .ok k

/-- The time to the next wake-up and the next period go down by the ticks that passed. -/
def Tcb.bookkeep (ticks : Nat) (t : Tcb) : Except Fault Tcb := do
  let wakeup := if ticks ≤ t.nextWakeup then t.nextWakeup - ticks else 0
  let period ←
    if ticks ≤ t.nextPeriod then .ok (t.nextPeriod - ticks)
    else if ticks < t.period then .ok (t.period - ticks)
    else if t.period = 0 then .error .divisionByZero
    else .ok (ticks % t.period)
  return { t with nextWakeup := wakeup, nextPeriod := if period = 0 then t.period else period }

/-- What becomes of a suspended task whose wake-up has come: it is ready, or it waits for the rest of its periods. -/
def Tcb.wake (t : Tcb) : Tcb :=
  let t :=
    { t with
      activeSignalMask := if 0 < t.eventSuspend ∧ t.nwFlag then sig wakeupSignal else t.activeSignalMask
      eventSuspend := 0
      nwFlag := false
      suspendFlag := false
      cpuRemaining := t.cpuReserve }
  if t.numPeriods = 1 then
    { t with taskState := .ready, nextWakeup := if t.period = 0 then maxSchedWakeupTime else t.nextPeriod }
  else
    let rest := t.period * (t.numPeriods - 1) % 2 ^ 16
    { t with
      nextWakeup := if t.period = 0 then maxSchedWakeupTime else rest
      nextPeriod := rest
      numPeriods := 1 }

/-- The idle task and those that finished keep no times. -/
def Tcb.age (ticks : Nat) (t : Tcb) : Except Fault Tcb :=
  if t.taskID ≠ some idleTaskID ∧ t.taskState ≠ .finished then t.bookkeep ticks else .ok t

/-- What the loop of the scheduler does to a block. -/
def Tcb.pass (ticks : Nat) (t : Tcb) : Except Fault Tcb := do
  let t ← Tcb.age ticks { t with suspendFlag := false }
  return if t.taskState = .suspended ∧ t.nextWakeup = 0 then t.wake else t

/-- The body of the loop of the scheduler, with the earliest wake-up so far. -/
def wakeTask (s : Kernel × Nat) (i : TaskId) : Except Fault (Kernel × Nat) :=
  let (k, nextWake) := s
  let t := k.tcb i
  if t.taskID = none then .ok (k, nextWake)
  else do
    let t' ← t.pass k.prevTimerVal
    let k := k.setTcb i t'
    if t.taskState = .suspended then do
      let k ← if t'.taskState = .ready then k.enqueue i else .ok k
      return (k, if t'.nextWakeup ≠ 0 ∧ t'.nextWakeup < nextWake then t'.nextWakeup else nextWake)
    else return (k, nextWake)

/-- The wake-up that the scheduler picks: when the task it switches to has used its reserve, or before the timer
    overflows, if no task wakes up earlier. It is earlier where the idle task may sleep. -/
def pickWakeup (id : TaskId) (t : Tcb) (nextWake : Nat) : Nat :=
  if id ≠ idleTaskID then
    if t.cpuReserve ≠ 0 ∧ t.cpuRemaining < maxSchedWakeupTime then
      if nextWake > t.cpuRemaining then t.cpuRemaining else nextWake
    else if nextWake > maxSchedWakeupTime then maxSchedWakeupTime else nextWake
  else if nextWake > sleepWakeupTime then
    if nextWake - sleepWakeupTime < maxSchedWakeupTime then
      if nextWake - sleepWakeupTime < sleepWakeupTime then sleepWakeupTime - 1 else nextWake - sleepWakeupTime
    else if nextWake > sleepWakeupTime + maxSchedWakeupTime then maxSchedWakeupTime
    else maxSchedWakeupTime - sleepWakeupTime
  else nextWake

/-- The scheduler up to where it has picked a task and a wake-up. -/
def pick (k : Kernel) : Except Fault (Kernel × TaskId × Nat) :=
  match k.curTask with
  | none => .error .nullPointer
  | some cur => do
    let k := { k with systemTime := k.systemTime.advance k.prevTimerVal }
    let k ← suspendCurrent cur k
    let k ← chargeReserve cur k
    let (k, nextWake) ← (List.finRange maxTasks).foldlM wakeTask (k, 60000)
    let id ← getHighReadyTaskID k.readyQ
    return (k, id, pickWakeup id (k.tcb id) nextWake)

/-- `_nrk_scheduler`, where the timer reads `timer` and, if that is past the wake-up, then `timer'`. -/
def scheduler (timer timer' : Nat) (k : Kernel) : Except Fault Kernel := do
  let (k, id, nextWake) ← pick k
  let nextWake := if timer + 1 > nextWake then (timer' + 1) % 2 ^ 16 else nextWake
  return { k with curTask := some id, prevTimerVal := nextWake % 2 ^ 8, nextWakeup := nextWake % 2 ^ 8 }

/-! ## Calls -/

/-- The end of a wait: the tick comes as soon as it can, if there is one to come later. -/
def hasten (timer : Nat) (k : Kernel) : Kernel :=
  if timer < maxSchedWakeupTime - timePad ∧ timer + timePad ≤ k.nextWakeup then
    { k with prevTimerVal := timer + timePad, nextWakeup := timer + timePad }
  else k

/-- A wait: what it notes in the block of the task, and the flag that the scheduler reads. -/
def suspend (timer : Nat) (cur : TaskId) (note : Tcb → Tcb) (k : Kernel) : Kernel :=
  hasten timer (k.setTcb cur { note (k.tcb cur) with suspendFlag := true })

/-- The bit that is clear and lowest, if there is one. -/
def freeSignal (signals : BitVec 32) : Option Signal := (List.finRange 32).find? fun s => signals &&& sig s = 0

/-- `nrk_signal_create`. -/
def signalCreate (k : Kernel) : Kernel :=
  match freeSignal k.signalList with
  | some s => { k with signalList := k.signalList ||| sig s }
  | none => k

/-- `nrk_signal_register`. -/
def signalRegister (s : Signal) (cur : TaskId) (k : Kernel) : Kernel :=
  let t := k.tcb cur
  if sig s &&& k.signalList ≠ 0 then
    k.setTcb cur { t with registeredSignalMask := t.registeredSignalMask ||| sig s }
  else k

/-- `nrk_signal_unregister`. -/
def signalUnregister (s : Signal) (cur : TaskId) (k : Kernel) : Kernel :=
  let t := k.tcb cur
  if t.registeredSignalMask &&& sig s ≠ 0 then
    k.setTcb cur
      { t with
        registeredSignalMask := t.registeredSignalMask &&& ~~~sig s
        activeSignalMask := t.activeSignalMask &&& ~~~sig s }
  else k

/-- `nrk_signal_delete` suspends the tasks that are registered for this signal and no other. -/
def Tcb.deletes (s : Signal) (t : Tcb) : Bool := t.taskID ≠ none ∧ t.registeredSignalMask = sig s

/-- The body of the loop of `nrk_signal_delete`. -/
def Tcb.delete (s : Signal) (t : Tcb) : Tcb :=
  if t.taskID = none then t
  else
    let t := if t.registeredSignalMask = sig s then
        { t with activeSignalMask := 0, eventSuspend := 0, taskState := .suspended }
      else t
    { t with
      registeredSignalMask := t.registeredSignalMask &&& ~~~sig s
      activeSignalMask := t.activeSignalMask &&& ~~~sig s }

/-- `nrk_signal_delete` past its check. -/
def deleteAll (s : Signal) (k : Kernel) : Kernel :=
  { k with tcb := fun i => (k.tcb i).delete s, signalList := k.signalList &&& complSig s }

/-- `nrk_signal_delete`. -/
def signalDelete (s : Signal) (k : Kernel) : Kernel :=
  if sig s &&& k.signalList = 0 then k else deleteAll s k

/-- The tasks that `nrk_event_signal` finds waiting. -/
def Tcb.awaits (s : Signal) (t : Tcb) : Bool :=
  (t.eventSuspend = sigEventSuspended ∧ t.activeSignalMask &&& sig s ≠ 0) ∨
    (t.eventSuspend = rsrcEventSuspended ∧ t.activeSignalMask = sig s)

/-- The body of the loop of `nrk_event_signal`. -/
def Tcb.signal (s : Signal) (t : Tcb) : Tcb :=
  let t := if t.eventSuspend = sigEventSuspended ∧ t.activeSignalMask &&& sig s ≠ 0 then
      { t with taskState := .suspended, nextWakeup := 0, eventSuspend := 0, activeSignalMask := sig s }
    else t
  if t.eventSuspend = rsrcEventSuspended ∧ t.activeSignalMask = sig s then
    { t with taskState := .suspended, nextWakeup := 0, eventSuspend := 0, activeSignalMask := 0 }
  else t

/-- `nrk_event_signal` past its check. -/
def signalAll (s : Signal) (k : Kernel) : Kernel := { k with tcb := fun i => (k.tcb i).signal s }

/-- `nrk_event_signal`. -/
def eventSignal (s : Signal) (k : Kernel) : Kernel :=
  if sig s &&& k.signalList = 0 then k else signalAll s k

/-- `nrk_event_wait` up to its wait. -/
def eventWait (mask : BitVec 32) (cur : TaskId) (k : Kernel) : Kernel :=
  let t := k.tcb cur
  if mask &&& t.registeredSignalMask ≠ 0 then
    k.setTcb cur { t with activeSignalMask := mask, eventSuspend := sigEventSuspended }
  else k

/-- `nrk_terminate_task` up to where the task is out of the ready queue. -/
def terminateTask (cur : TaskId) (k : Kernel) : Except Fault Kernel := do
  let k ← k.dequeue (k.tcb cur).taskID
  return { k with leaving := cur :: k.leaving }

/-- `nrk_terminate_task` from there up to its wait. -/
def finish (cur : TaskId) (k : Kernel) : Kernel :=
  { k.setTcb cur { k.tcb cur with taskState := .finished } with leaving := k.leaving.erase cur }

/-- What a task calls. A tick can come between the parts of a call that leaves interrupts enabled. `nrk_terminate_task` is
    `terminateTask`, `finish` and `waitUntilNextPeriod`; `nrk_event_wait` is `eventWait`, and `waitUntilNw` or
    `waitUntilTicks 0`. A `staleStore` is what `nrk_signal_create`, `nrk_signal_register`, `nrk_signal_unregister` or
    `nrk_event_wait` stores if a tick came after it loaded the values; a `staleDelete` or a `staleSignal` is what
    `nrk_signal_delete` or `nrk_event_signal` does if one came after its check. -/
inductive Call
  | waitUntilNextPeriod
  | waitUntilNextNPeriods (p : Nat)
  | waitTicks (ticks : Nat)
  | waitUntilTicks (ticks : Nat)
  | waitUntilNw
  | wait (t : Time)
  | setNextWakeup (t : Time)
  | terminateTask
  | finish
  | signalCreate
  | signalRegister (s : Signal)
  | signalUnregister (s : Signal)
  | signalDelete (s : Signal)
  | eventSignal (s : Signal)
  | eventWait (mask : BitVec 32)
  | staleStore (signals registered active : BitVec 32) (eventSuspend : Nat)
  | staleDelete (s : Signal)
  | staleSignal (s : Signal)
  deriving DecidableEq

/-- The call of the task `cur`, where the timer reads `timer`, a `uint8_t`. -/
def Call.exec (timer : Nat) (cur : TaskId) (k : Kernel) : Call → Except Fault Kernel
  | .waitUntilNextPeriod => .ok (suspend timer cur (fun t => { t with numPeriods := 1 }) k)
  | .waitUntilNextNPeriods p => .ok (suspend timer cur (fun t => { t with numPeriods := if p = 0 then 1 else p }) k)
  | .waitTicks ticks => .ok (suspend timer cur (fun t => { t with nextWakeup := (ticks + timer) % 2 ^ 16 }) k)
  | .waitUntilTicks ticks => .ok (suspend timer cur (fun t => { t with nextWakeup := ticks }) k)
  | .waitUntilNw => .ok (suspend timer cur (fun t => { t with nwFlag := true }) k)
  | .wait time =>
    let note := fun t : Tcb => { t with numPeriods := 1, nextWakeup := (timeToTicks time + timer) % 2 ^ 16 }
    .ok (suspend timer cur note k)
  | .setNextWakeup time =>
    if timeToTicks time ≤ timePad then .ok k
    else .ok (k.setTcb cur { k.tcb cur with nextWakeup := (timeToTicks time + timer) % 2 ^ 16 })
  | .terminateTask => Nrk.terminateTask cur k
  | .finish => .ok (Nrk.finish cur k)
  | .signalCreate => .ok (Nrk.signalCreate k)
  | .signalRegister s => .ok (Nrk.signalRegister s cur k)
  | .signalUnregister s => .ok (Nrk.signalUnregister s cur k)
  | .signalDelete s => .ok (Nrk.signalDelete s k)
  | .eventSignal s => .ok (Nrk.eventSignal s k)
  | .eventWait mask => .ok (Nrk.eventWait mask cur k)
  | .staleStore signals registered active eventSuspend =>
    let t :=
      { k.tcb cur with
        registeredSignalMask := registered
        activeSignalMask := active
        eventSuspend := eventSuspend }
    .ok { k.setTcb cur t with signalList := signals }
  | .staleDelete s => .ok (deleteAll s k)
  | .staleSignal s => .ok (signalAll s k)

/-! ## Runs -/

/-- What happens to the kernel. -/
inductive Event
  | activate (task : TaskType)
  | start
  | tick (timer timer' : Nat)
  | call (timer : Nat) (call : Call)
  deriving DecidableEq

def Event.exec (k : Kernel) : Event → Except Fault Kernel
  | .activate task => activateTask task k
  | .start => Nrk.start k
  | .tick timer timer' => scheduler timer timer' k
  | .call timer c =>
    match k.curTask with
    | none => .error .nullPointer
    | some cur => c.exec timer cur k

def kernel : Lts Kernel Event where
  step k e := (e.exec k).toOption

/-- Whether the loop of a call sets a task to SUSPENDED. -/
def Call.hits : Call → Tcb → Bool
  | .signalDelete s, t | .staleDelete s, t => t.deletes s
  | .eventSignal s, t | .staleSignal s, t => t.awaits s
  | _, _ => false

/-- No task that is still in the ready queue is suspended by another one. It could be: between the halves of
    `nrk_event_wait`, or where it does not wait for the signal that is deleted. -/
def Timely (k : Kernel) (c : Call) : Prop := ∀ t, c.hits (k.tcb t) = true → (k.tcb t).taskState ≠ .ready

/-- In `nrk_terminate_task` a task goes on to be FINISHED, and then to its wait. -/
def Continues (k : Kernel) (cur : TaskId) (c : Call) : Prop :=
  (cur ∈ k.leaving ↔ c = .finish) ∧ ((k.tcb cur).taskState = .finished → c = .waitUntilNextPeriod)

/-- What the program around the kernel does. Before `nrk_start` it activates basic tasks, which have a priority and a
    period. Then ticks come, but none while `nrk_terminate_task` takes the running task out of the ready queue and sets it
    to FINISHED. A call is one of the task that runs, which is neither idle nor waiting. -/
def Event.Allowed (k : Kernel) : Event → Prop
  | .activate task =>
    k.curTask = none ∧ task.type = .basic ∧ 0 < task.prio ∧ 0 < timeToTicks task.period ∧
      if task.firstActivation then k.taskInitCnt < maxTasks else (k.tcb task.taskID).taskID ≠ none
  | .start => k.curTask = none
  | .tick _ _ => ∃ cur, k.curTask = some cur ∧ cur ∉ k.leaving
  | .call _ c =>
    ∃ cur, k.curTask = some cur ∧ cur ≠ idleTaskID ∧ (k.tcb cur).suspendFlag = false ∧ Continues k cur c ∧ Timely k c

instance (k : Kernel) (c : Call) : Decidable (Timely k c) :=
  inferInstanceAs (Decidable (∀ t, c.hits (k.tcb t) = true → _))

instance (k : Kernel) (cur : TaskId) (c : Call) : Decidable (Continues k cur c) :=
  inferInstanceAs (Decidable (_ ∧ (_ → _)))

instance (k : Kernel) : DecidablePred fun e : Event => e.Allowed k
  | .activate task =>
    inferInstanceAs (Decidable (k.curTask = none ∧ task.type = .basic ∧ 0 < task.prio ∧ 0 < timeToTicks task.period ∧
      if task.firstActivation then k.taskInitCnt < maxTasks else (k.tcb task.taskID).taskID ≠ none))
  | .start => inferInstanceAs (Decidable (k.curTask = none))
  | .tick _ _ => inferInstanceAs (Decidable (∃ cur, k.curTask = some cur ∧ cur ∉ k.leaving))
  | .call _ c =>
    inferInstanceAs (Decidable (∃ cur, k.curTask = some cur ∧ cur ≠ idleTaskID ∧ (k.tcb cur).suspendFlag = false ∧
      Continues k cur c ∧ Timely k c))

/-! ## The tasks of `Simple Tasks` -/

/-- `TaskOne`, every 60 ms. -/
def taskOne : TaskType := { prio := 2, period := ⟨0, 60000000⟩ }

/-- `TaskTwo`, every 30 ms. -/
def taskTwo : TaskType := { prio := 3, period := ⟨0, 30000000⟩ }

/-- `main`, and then the tasks, which wait for their next period each time they run. -/
def simpleTasks : List Event :=
  [.activate taskOne, .activate taskTwo, .start, .call 5 .waitUntilNextPeriod, .tick 0 0]

/-- The kernel after `nrk_init`. -/
def Kernel.booted : Kernel :=
  match Kernel.init with
  | .ok k => k
  | .error _ => .zero

end Glove.Nrk
