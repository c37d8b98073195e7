import Glove.Theorems.Scheduler

/-! # A wait takes the ticks that it asks for

Each tick adds to the system time the ticks since the one before. Where every tick is done before the wake-up that it
picked, a suspended task gets ready at the tick at which these make up its wait: none comes too late. -/

namespace Glove.Nrk

/-- The task `t` is suspended for `w` ticks more, and the next tick comes no later. -/
structure Waits (t : TaskId) (w : Nat) (k : Kernel) : Prop where
  taskID : (k.tcb t).taskID = some t
  taskState : (k.tcb t).taskState = .suspended
  wakeup : (k.tcb t).nextWakeup = w
  numPeriods : (k.tcb t).numPeriods = 1
  pos : 0 < w
  prevTimerVal : k.prevTimerVal ≤ w
  nextWakeup : k.nextWakeup ≤ w

section Block
variable {t t' : Tcb} {ticks : Nat}

/-- What the loop does to the block of a suspended task that the tick is not too late for. -/
theorem Tcb.pass_suspended (hid : t.taskID ≠ some idleTaskID) (hstate : t.taskState = .suspended)
    (hle : ticks ≤ t.nextWakeup) (hpass : t.pass ticks = .ok t') :
    (ticks < t.nextWakeup →
        t'.taskState = .suspended ∧ t'.nextWakeup = t.nextWakeup - ticks ∧ t'.numPeriods = t.numPeriods) ∧
      (ticks = t.nextWakeup → t.numPeriods = 1 → t'.taskState = .ready) := by
  obtain ⟨u, hu, rfl⟩ : ∃ u, Tcb.age ticks { t with suspendFlag := false } = .ok u ∧
      t' = if u.taskState = .suspended ∧ u.nextWakeup = 0 then u.wake else u := by
    rw [Tcb.pass] at hpass
    cases hu : Tcb.age ticks { t with suspendFlag := false } with
    | error e =>
      rw [hu] at hpass
      cases hpass
    | ok u =>
      rw [hu] at hpass
      exact ⟨u, rfl, (Except.ok.inj hpass).symm⟩
  have hage : u.taskState = .suspended ∧ u.nextWakeup = t.nextWakeup - ticks ∧ u.numPeriods = t.numPeriods := by
    have hcond : t.taskID ≠ some idleTaskID ∧ t.taskState ≠ .finished := ⟨hid, by simp [hstate]⟩
    simp only [Tcb.age, if_pos hcond, Tcb.bookkeep, if_pos hle] at hu
    split_ifs at hu <;> cases hu <;> exact ⟨hstate, rfl, rfl⟩
  obtain ⟨hsusp, hwakeup, hperiods⟩ := hage
  refine ⟨fun hlt => ?_, fun heq hone => ?_⟩
  · rw [if_neg (by omega)]
    exact ⟨hsusp, hwakeup, hperiods⟩
  · rw [if_pos ⟨hsusp, by omega⟩]
    simp [Tcb.wake, hperiods, hone]

end Block

section Steps
variable {k k' : Kernel} {ts : List TaskId} {cur t : TaskId} {w : Nat}

theorem Waits.of_tcb (h : Waits t w k) (htcb : k'.tcb t = k.tcb t) (hprev : k'.prevTimerVal ≤ w)
    (hnext : k'.nextWakeup ≤ w) : Waits t w k' := by
  refine ⟨?_, ?_, ?_, ?_, h.pos, hprev, hnext⟩
  · rw [htcb, h.taskID]
  · rw [htcb, h.taskState]
  · rw [htcb, h.wakeup]
  · rw [htcb, h.numPeriods]

/-- A wait of another task brings the tick forward. -/
theorem Waits.hasten (h : Waits t w k) (timer : Nat) : Waits t w (hasten timer k) := by
  refine h.of_tcb (by rw [hasten_tcb]) ?_ ?_
  all_goals
    have hprev := h.prevTimerVal
    have hnext := h.nextWakeup
    unfold Nrk.hasten
    split_ifs
  · exact le_trans (by simp_all) hnext
  · exact hprev
  · exact le_trans (by simp_all) hnext
  · exact hnext

theorem Waits.setTcb (h : Waits t w k) (hne : t ≠ cur) (x : Tcb) : Waits t w (k.setTcb cur x) :=
  h.of_tcb (Function.update_of_ne hne _ _) h.prevTimerVal h.nextWakeup

theorem Tcb.delete_times (s : Signal) (x : Tcb) :
    (x.delete s).nextWakeup = x.nextWakeup ∧ (x.delete s).numPeriods = x.numPeriods := by
  simp only [Tcb.delete]
  split_ifs <;> exact ⟨rfl, rfl⟩

theorem Tcb.signal_other {s : Signal} {x : Tcb} (h : ¬x.awaits s = true) : x.signal s = x := by
  obtain ⟨hsig, hrsrc⟩ := not_or.mp fun hor => h (decide_eq_true hor)
  simp only [Tcb.signal, if_neg hsig, if_neg hrsrc]

theorem Waits.deleteAll (h : Waits t w k) (s : Signal) : Waits t w (deleteAll s k) := by
  obtain ⟨hwakeup, hperiods⟩ := Tcb.delete_times s (k.tcb t)
  refine ⟨(Tcb.delete_alike s _).taskID.trans h.taskID, ?_, hwakeup.trans h.wakeup, hperiods.trans h.numPeriods, h.pos,
    h.prevTimerVal, h.nextWakeup⟩
  simp only [Nrk.deleteAll, Tcb.delete_state, h.taskState, ite_self]

theorem Waits.signalAll (h : Waits t w k) {s : Signal} (hmiss : ¬(k.tcb t).awaits s = true) :
    Waits t w (signalAll s k) :=
  h.of_tcb (Tcb.signal_other hmiss) h.prevTimerVal h.nextWakeup

/-- The signal that a call sends. -/
def Call.signalled? : Call → Option Signal
  | .eventSignal s | .staleSignal s => some s
  | _ => none

/-- What another task calls does not wake `t`, unless it signals what `t` waits for. -/
theorem Waits.call (h : Waits t w k) (hne : t ≠ cur) {c : Call} {timer : Nat}
    (hmiss : ∀ s ∈ c.signalled?, ¬(k.tcb t).awaits s = true) (hexec : c.exec timer cur k = .ok k') :
    Waits t w k' := by
  cases c with
  | waitUntilNextPeriod | waitUntilNextNPeriods p | waitTicks ticks | waitUntilTicks ticks | waitUntilNw | wait time =>
    cases hexec
    exact (h.setTcb hne _).hasten timer
  | setNextWakeup time =>
    simp only [Call.exec] at hexec
    split_ifs at hexec <;> cases hexec
    · exact h
    · exact h.setTcb hne _
  | terminateTask =>
    cases hq : remFromReadyQ (k.tcb cur).taskID k.readyQ with
    | error e =>
      rw [Call.exec, Nrk.terminateTask, Kernel.dequeue, hq] at hexec
      cases hexec
    | ok q =>
      rw [Call.exec, Nrk.terminateTask, Kernel.dequeue, hq] at hexec
      cases hexec
      exact h.of_tcb rfl h.prevTimerVal h.nextWakeup
  | finish =>
    cases hexec
    exact h.of_tcb (Function.update_of_ne hne _ _) h.prevTimerVal h.nextWakeup
  | signalCreate =>
    simp only [Call.exec, Nrk.signalCreate] at hexec
    cases hfree : freeSignal k.signalList <;> rw [hfree] at hexec <;> cases hexec
    · exact h
    · exact h.of_tcb rfl h.prevTimerVal h.nextWakeup
  | signalRegister s =>
    simp only [Call.exec, Nrk.signalRegister] at hexec
    split_ifs at hexec <;> cases hexec
    · exact h.setTcb hne _
    · exact h
  | signalUnregister s =>
    simp only [Call.exec, Nrk.signalUnregister] at hexec
    split_ifs at hexec <;> cases hexec
    · exact h.setTcb hne _
    · exact h
  | signalDelete s =>
    simp only [Call.exec, Nrk.signalDelete] at hexec
    split_ifs at hexec <;> cases hexec
    · exact h
    · exact h.deleteAll s
  | eventSignal s =>
    simp only [Call.exec, Nrk.eventSignal] at hexec
    split_ifs at hexec <;> cases hexec
    · exact h
    · exact h.signalAll (hmiss s rfl)
  | eventWait mask =>
    simp only [Call.exec, Nrk.eventWait] at hexec
    split_ifs at hexec <;> cases hexec
    · exact h.setTcb hne _
    · exact h
  | staleStore signals registered active eventSuspend =>
    cases hexec
    exact h.of_tcb (Function.update_of_ne hne _ _) h.prevTimerVal h.nextWakeup
  | staleDelete s =>
    cases hexec
    exact h.deleteAll s
  | staleSignal s =>
    cases hexec
    exact h.signalAll (hmiss s rfl)

/-- What a tick that is done in time leaves. -/
theorem scheduler_inTime {k₁ : Kernel} {id : TaskId} {nextWake timer timer' : Nat}
    (hpick : pick k = .ok (k₁, id, nextWake)) (hmax : nextWake ≤ maxSchedWakeupTime)
    (htime : ∀ s ∈ (pick k).toOption, timer < s.2.2) (htick : scheduler timer timer' k = .ok k') :
    k' = { k₁ with curTask := some id, prevTimerVal := nextWake, nextWakeup := nextWake } := by
  have hlt : timer < nextWake := htime (k₁, id, nextWake) (by rw [hpick]; rfl)
  have htimer : ¬timer + 1 > nextWake := by omega
  have hsmall : nextWake % 2 ^ 8 = nextWake := Nat.mod_eq_of_lt (by simp only [maxSchedWakeupTime] at hmax; omega)
  simp only [scheduler, hpick, bind, Except.bind, if_neg htimer, hsmall] at htick
  exact (Except.ok.inj htick).symm

/-- A tick that is done in time: the task waits for what is left, or it is ready. -/
theorem Waits.tick (h : Waits t w k) (hs : Scheduled k ts) (hcur : k.curTask = some cur)
    (hid : (k.tcb cur).taskID = some cur) (hne : t ≠ cur) {timer timer' : Nat}
    (htime : ∀ s ∈ (pick k).toOption, timer < s.2.2) (htick : scheduler timer timer' k = .ok k') :
    (k.prevTimerVal < w → Waits t (w - k.prevTimerVal) k') ∧
      (k.prevTimerVal = w → (k'.tcb t).taskState = .ready) := by
  obtain ⟨k₁, ts₁, id, nextWake, hpick, h₁, hmax, hpass⟩ := pick_ok hs hcur hid
  obtain ⟨hid₁, hblock, hearly⟩ := hpass t h.taskID
  have hidle : (k.tcb t).taskID ≠ some idleTaskID := by
    rw [h.taskID]
    rintro heq
    have hready := (hs.table.ready idleTaskID).mp hs.table.idle
    rw [← Option.some.inj heq, h.taskState] at hready
    cases hready
  have hle : k.prevTimerVal ≤ (k.tcb t).nextWakeup := h.wakeup ▸ h.prevTimerVal
  obtain ⟨hleft, hdone⟩ := Tcb.pass_suspended hidle h.taskState hle (hblock hne)
  rw [h.wakeup] at hleft hdone
  obtain rfl := scheduler_inTime hpick hmax htime htick
  refine ⟨fun hlt => ?_, fun heq => hdone heq h.numPeriods⟩
  obtain ⟨hstate, hwakeup, hperiods⟩ := hleft hlt
  have hbound : nextWake ≤ w - k.prevTimerVal := hwakeup ▸ hearly hstate (by omega)
  exact ⟨hid₁, hstate, hwakeup, hperiods.trans h.numPeriods, by omega, hbound, hbound⟩

/-- A tick that is done in time leaves no suspended task with a wake-up before the next tick. -/
theorem waits_of_tick (hs : Scheduled k ts) (hcur : k.curTask = some cur) (hid : (k.tcb cur).taskID = some cur)
    {timer timer' : Nat} (htime : ∀ s ∈ (pick k).toOption, timer < s.2.2) (htick : scheduler timer timer' k = .ok k')
    (ht : (k.tcb t).taskID = some t) (hsusp : (k'.tcb t).taskState = .suspended) (hwait : (k'.tcb t).nextWakeup ≠ 0)
    (hone : (k'.tcb t).numPeriods = 1) : Waits t (k'.tcb t).nextWakeup k' := by
  obtain ⟨k₁, ts₁, id, nextWake, hpick, h₁, hmax, hpass⟩ := pick_ok hs hcur hid
  obtain ⟨hid₁, -, hearly⟩ := hpass t ht
  obtain rfl := scheduler_inTime hpick hmax htime htick
  have hbound := hearly hsusp hwait
  exact ⟨hid₁, hsusp, rfl, hone, Nat.pos_of_ne_zero hwait, hbound, hbound⟩

end Steps

/-! ## Runs -/

/-- The ticks of the timer that the kernel counts at an event. -/
def passed (k : Kernel) : Event → List Nat
  | .tick _ _ => [k.prevTimerVal]
  | _ => []

/-- A tick of the kernel is done before the wake-up that it picks. -/
def InTime (k : Kernel) : Event → Prop
  | .tick timer _ => ∀ s ∈ (pick k).toOption, timer < s.2.2
  | _ => True

/-- A signal that the task waits for. -/
def Signals (t : TaskId) (k : Kernel) : Event → Prop
  | .call _ c => ∃ s ∈ c.signalled?, (k.tcb t).awaits s = true
  | _ => False

/-- An event in the wait of the task `t`, which nothing else ends. -/
def DuringWait (t : TaskId) (k : Kernel) (e : Event) : Prop :=
  e.Allowed k ∧ InTime k e ∧ ¬Signals t k e ∧ (k.tcb t).taskState = .suspended

instance (k : Kernel) : DecidablePred (InTime k)
  | .tick timer _ => inferInstanceAs (Decidable (∀ s ∈ (pick k).toOption, timer < s.2.2))
  | .activate _ => isTrue trivial
  | .start => isTrue trivial
  | .call _ _ => isTrue trivial

instance (t : TaskId) (k : Kernel) : DecidablePred (Signals t k)
  | .call _ c => inferInstanceAs (Decidable (∃ s ∈ c.signalled?, (k.tcb t).awaits s = true))
  | .activate _ => isFalse id
  | .start => isFalse id
  | .tick _ _ => isFalse id

instance (t : TaskId) (k : Kernel) : DecidablePred (DuringWait t k) := fun e =>
  inferInstanceAs (Decidable (e.Allowed k ∧ InTime k e ∧ ¬Signals t k e ∧ (k.tcb t).taskState = .suspended))

/-- The wait of `t` after the ticks `vs`. -/
def WaitLeft (t : TaskId) (w : Nat) (s : Kernel × List Nat) : Prop :=
  s.1.Sound ∧ s.1.curTask ≠ none ∧
    ((∃ left, Waits t left s.1 ∧ left + s.2.sum = w) ∨ (s.1.tcb t).taskState = .ready ∧ s.2.sum = w)

theorem waitLeft_step {t : TaskId} {w : Nat} {s s' : Kernel × List Nat} {e : Event} (hduring : DuringWait t s.1 e)
    (hstep : (kernel.record passed).step s e = some s') (h : WaitLeft t w s) : WaitLeft t w s' := by
  obtain ⟨k, vs⟩ := s
  obtain ⟨k', ws⟩ := s'
  obtain ⟨hallowed, htime, hmiss, hsusp⟩ := hduring
  obtain ⟨hsound, hcur, hleft⟩ := h
  obtain ⟨hk, rfl⟩ := Lts.record_step_eq_some.mp hstep
  obtain ⟨k'', hexec, hsound'⟩ := exec_ok hsound hallowed
  obtain rfl := Except.ok.inj (hexec.symm.trans (kernel_step_eq_some.mp hk))
  obtain ⟨left, hw, hsum⟩ : ∃ left, Waits t left k ∧ left + vs.sum = w := by
    obtain hwait | ⟨hready, -⟩ := hleft
    · exact hwait
    · cases hsusp.symm.trans hready
  obtain ⟨cur, hc⟩ := Option.ne_none_iff_exists'.mp hcur
  have hrun := hsound.running cur hc
  have hne : t ≠ cur := by
    rintro rfl
    obtain ⟨-, hready | hfin⟩ := hrun
    · cases hsusp.symm.trans hready
    · cases hsusp.symm.trans hfin
  cases e with
  | activate task => exact absurd hallowed.1 hcur
  | start => exact absurd hallowed hcur
  | tick timer timer' =>
    obtain ⟨ts, hs⟩ := hsound.scheduled_of_tick hallowed
    obtain ⟨hless, hdone⟩ := hw.tick hs hc hrun.1 hne htime hexec
    obtain ⟨k₁, ts₁, id, hk₁, -, hcur₁⟩ := scheduler_ok hs hc hrun.1 timer timer'
    obtain rfl := Except.ok.inj (hexec.symm.trans hk₁)
    refine ⟨hsound', by simp [hcur₁], ?_⟩
    simp only [passed, List.sum_append, List.sum_singleton]
    obtain hlt | heq := hw.prevTimerVal.lt_or_eq
    · exact .inl ⟨_, hless hlt, by omega⟩
    · exact .inr ⟨hdone heq, by omega⟩
  | call timer c =>
    obtain ⟨k₁, hk₁, -, hcur₁⟩ := call_sound hsound hallowed
    obtain rfl := Except.ok.inj (hexec.symm.trans hk₁)
    have hcall : c.exec timer cur k = .ok k'' := by
      rw [Event.exec, hc] at hexec
      exact hexec
    refine ⟨hsound', by rw [hcur₁]; exact hcur, .inl ⟨left, hw.call hne ?_ hcall, by simpa [passed] using hsum⟩⟩
    exact fun s hs hawaits => hmiss ⟨s, hs, hawaits⟩

/-- From a tick that is done in time, and leaves a task suspended for some ticks and no further periods, the task waits
    for just these ticks, whatever else happens that does not signal it: until then it is suspended for what is left of
    them, and the tick that completes them makes it ready. -/
theorem wait_exact {k₀ k₁ k k' : Kernel} {pre es : List Event} {vs : List Nat} {timer timer' : Nat} {t : TaskId}
    (hinit : Kernel.init = .ok k₀) (hallowed : kernel.Meets (fun k e => e.Allowed k) k₀ (pre ++ [.tick timer timer']))
    (hpre : kernel.run k₀ pre = some k₁) (htick : kernel.step k₁ (.tick timer timer') = some k)
    (htime : InTime k₁ (.tick timer timer')) (hid : (k₁.tcb t).taskID = some t)
    (hsusp : (k.tcb t).taskState = .suspended) (hwait : (k.tcb t).nextWakeup ≠ 0) (hone : (k.tcb t).numPeriods = 1)
    (hduring : (kernel.record passed).Meets (fun s e => DuringWait t s.1 e) (k, []) es)
    (hrun : (kernel.record passed).run (k, []) es = some (k', vs)) :
    if (k'.tcb t).taskState = .suspended then
      0 < (k'.tcb t).nextWakeup ∧ (k'.tcb t).nextWakeup + vs.sum = (k.tcb t).nextWakeup
    else (k'.tcb t).taskState = .ready ∧ vs.sum = (k.tcb t).nextWakeup := by
  replace htick : scheduler timer timer' k₁ = .ok k := kernel_step_eq_some.mp htick
  have hsound₁ := run_sound hinit (hallowed.initial (List.prefix_append _ _)) hpre
  have htick₁ : (Event.tick timer timer').Allowed k₁ := hallowed pre _ [] k₁ rfl hpre
  obtain ⟨k₂, hk₂, hsound⟩ := exec_ok hsound₁ htick₁
  obtain rfl := Except.ok.inj (htick.symm.trans hk₂)
  obtain ⟨ts, hs⟩ := hsound₁.scheduled_of_tick htick₁
  obtain ⟨cur, hc, -⟩ := htick₁
  have hrun₁ := hsound₁.running cur hc
  have hwaits := waits_of_tick hs hc hrun₁.1 htime htick hid hsusp hwait hone
  have hcur : k.curTask ≠ none := by
    obtain ⟨k₃, ts₃, id, hk₃, -, hcur₃⟩ := scheduler_ok hs hc hrun₁.1 timer timer'
    obtain rfl := Except.ok.inj (htick.symm.trans hk₃)
    simp [hcur₃]
  have hstart : WaitLeft t (k.tcb t).nextWakeup (k, []) := ⟨hsound, hcur, .inl ⟨_, hwaits, rfl⟩⟩
  obtain ⟨-, -, ⟨left, hleft, hsum⟩ | ⟨hready, hsum⟩⟩ :=
    Lts.run_invariant (fun s e s' hC hstep h => waitLeft_step hC hstep h) hduring hstart hrun
  · rw [if_pos hleft.taskState, hleft.wakeup]
    exact ⟨hleft.pos, hsum⟩
  · have hne : (k'.tcb t).taskState ≠ .suspended := fun h => by cases hready.symm.trans h
    rw [if_neg hne]
    exact ⟨hready, hsum⟩

/-- The kernel after the events `es`. -/
def reached (es : List Event) : Kernel := (kernel.run Kernel.booted es).getD Kernel.booted

theorem run_reached (es : List Event) (h : (kernel.run Kernel.booted es).isSome = true) :
    kernel.run Kernel.booted es = some (reached es) := by
  obtain ⟨k, hk⟩ := Option.isSome_iff_exists.mp h
  rw [reached, hk]
  rfl

/-- `TaskTwo` has run and waits for its next period. -/
def twoWaits : List Event := simpleTasks ++ [.call 5 .waitUntilNextPeriod]

/-- `TaskOne` runs twice, and then waits as well. -/
def oneRuns : List Event :=
  [.call 5 .waitUntilNextPeriod, .tick 0 0, .call 5 .waitUntilNextPeriod, .tick 0 0, .tick 0 0]

theorem wait_exact_taskTwo : ∃ k' vs,
    (kernel.record passed).run (reached (twoWaits ++ [.tick 0 0]), []) oneRuns = some (k', vs) ∧
      (k'.tcb 2).taskState = .ready ∧ vs.sum = 16 := by
  have hpre := run_reached twoWaits (by decide +kernel)
  have htick := run_reached (twoWaits ++ [.tick 0 0]) (by decide +kernel)
  rw [Lts.run_concat, hpre] at htick
  have hready : ((kernel.record passed).run (reached (twoWaits ++ [.tick 0 0]), []) oneRuns).any
      (fun s => (s.1.tcb 2).taskState = .ready) = true := by decide +kernel
  obtain ⟨⟨k', vs⟩, hrun, hstate⟩ := (Option.any_eq_true _ _).mp hready
  have hexact := wait_exact (t := 2) rfl (by decide +kernel) hpre htick (by decide +kernel) (by decide +kernel)
    (by decide +kernel) (by decide +kernel) (by decide +kernel) (by decide +kernel) hrun
  have hne : (k'.tcb 2).taskState ≠ .suspended := by
    rw [show (k'.tcb 2).taskState = .ready from of_decide_eq_true hstate]
    decide
  have hwait : ((reached (twoWaits ++ [.tick 0 0])).tcb 2).nextWakeup = 16 := by decide +kernel
  rw [if_neg hne, hwait] at hexact
  exact ⟨k', vs, hrun, hexact⟩

end Glove.Nrk
