import Mathlib.Data.Fintype.Card
import Glove.Scheduler
import Glove.Theorems.ReadyQueue

/-! # What the scheduler keeps

The ready queue holds the tasks that are READY, each once and by priority, and the idle task behind them. As long as it
does, no call and no tick reads through a null pointer, and a tick switches to a task of the highest priority. Between
the halves of `nrk_terminate_task` the running task is READY and not in the queue, which a tick must not see. -/

namespace Glove.Nrk

/-! ## The table and the queue -/

/-- The table of the blocks, where the tasks `ts` are queued. -/
structure Table (tcb : TcbTable) (ts : List TaskId) : Prop where
  nodup : ts.Nodup
  sorted : ts.Pairwise fun a b => (tcb b).taskPrio ≤ (tcb a).taskPrio
  ready : ∀ t, t ∈ ts ↔ (tcb t).taskState = .ready
  active : ∀ t ∈ ts, (tcb t).taskID = some t
  id : ∀ t, (tcb t).taskID = none ∨ (tcb t).taskID = some t
  flat : ∀ t, (tcb t).elevatedPrioFlag = false
  idle : idleTaskID ∈ ts
  lowest : (tcb idleTaskID).taskPrio = 0
  resting : (tcb idleTaskID).suspendFlag = false
  basic : ∀ t, t ≠ idleTaskID → (tcb t).taskID = some t → 0 < (tcb t).taskPrio ∧ 0 < (tcb t).period

/-- Two blocks of the same task. -/
structure Alike (x y : Tcb) : Prop where
  taskID : y.taskID = x.taskID
  taskPrio : y.taskPrio = x.taskPrio
  elevatedPrioFlag : y.elevatedPrioFlag = x.elevatedPrioFlag
  period : y.period = x.period

theorem Alike.refl (x : Tcb) : Alike x x := ⟨rfl, rfl, rfl, rfl⟩

theorem Alike.update {tcb : TcbTable} {i : TaskId} {x : Tcb} (h : Alike (tcb i) x) (t : TaskId) :
    Alike (tcb t) (Function.update tcb i x t) := by
  refine (Function.forall_update_iff tcb fun t y => Alike (tcb t) y).mpr ⟨h, fun t _ => ?_⟩ t
  exact .refl (tcb t)

section Table
variable {tcb tcb' : TcbTable} {ts : List TaskId}

theorem Table.length_le (h : Table tcb ts) : ts.length ≤ maxTasks := by
  simpa using h.nodup.length_le_card

/-- Blocks that change, where no task gets ready. -/
theorem Table.sublist {ts' : List TaskId} (h : Table tcb ts) (hsub : ts'.Sublist ts) (halike : ∀ t, Alike (tcb t) (tcb' t))
    (hready : ∀ t, t ∈ ts' ↔ (tcb' t).taskState = .ready) (hidle : idleTaskID ∈ ts')
    (hresting : (tcb' idleTaskID).suspendFlag = false) : Table tcb' ts' where
  nodup := h.nodup.sublist hsub
  sorted := (h.sorted.sublist hsub).imp fun hab => by rwa [(halike _).taskPrio, (halike _).taskPrio]
  ready := hready
  active t ht := (halike t).taskID.trans (h.active t (hsub.subset ht))
  id t := by
    rw [(halike t).taskID]
    exact h.id t
  flat t := (halike t).elevatedPrioFlag.trans (h.flat t)
  idle := hidle
  lowest := (halike _).taskPrio.trans h.lowest
  resting := hresting
  basic t ht hid := by
    rw [(halike t).taskPrio, (halike t).period]
    exact h.basic t ht ((halike t).taskID.symm.trans hid)

theorem Table.alike (h : Table tcb ts) (halike : ∀ t, Alike (tcb t) (tcb' t))
    (hready : ∀ t, (tcb' t).taskState = .ready ↔ (tcb t).taskState = .ready)
    (hresting : (tcb' idleTaskID).suspendFlag = false) : Table tcb' ts :=
  h.sublist (List.Sublist.refl ts) halike (fun t => (h.ready t).trans (hready t).symm) h.idle hresting

/-- A task that ceases to be ready. -/
theorem Table.erase {i : TaskId} {x : Tcb} (h : Table tcb ts) (hi : i ≠ idleTaskID) (halike : Alike (tcb i) x)
    (hstate : x.taskState ≠ .ready) : Table (Function.update tcb i x) (ts.erase i) := by
  refine h.sublist List.erase_sublist halike.update (fun t => ?_) ((List.mem_erase_of_ne hi.symm).mpr h.idle) ?_
  · rw [h.nodup.mem_erase_iff, h.ready]
    by_cases ht : t = i
    · subst ht
      simp [hstate]
    · simp [ht]
  · rw [Function.update_of_ne hi.symm]
    exact h.resting

theorem pairwise_orderedInsert {tcb : TcbTable} {i : TaskId} (hflat : ∀ t, (tcb t).elevatedPrioFlag = false)
    (h : ts.Pairwise fun a b => (tcb b).taskPrio ≤ (tcb a).taskPrio) :
    (ts.orderedInsert (fun a b => outranks tcb a b) i).Pairwise fun a b => (tcb b).taskPrio ≤ (tcb a).taskPrio := by
  induction ts with
  | nil => simp
  | cons t ts ih =>
    obtain ⟨ht, hts⟩ := List.pairwise_cons.mp h
    rw [List.orderedInsert]
    by_cases hout : outranks tcb i t
    · rw [if_pos hout]
      have hlt : (tcb t).taskPrio < (tcb i).taskPrio := by simpa [outranks, hflat] using hout
      refine List.pairwise_cons.mpr ⟨fun u hu => ?_, h⟩
      obtain rfl | hu := List.mem_cons.mp hu
      · exact hlt.le
      · exact (ht u hu).trans hlt.le
    · rw [if_neg hout]
      have hle : (tcb i).taskPrio ≤ (tcb t).taskPrio := by simpa [outranks, hflat] using hout
      refine List.pairwise_cons.mpr ⟨fun u hu => ?_, ih hts⟩
      obtain rfl | hu := (List.mem_orderedInsert _).mp hu
      · exact hle
      · exact ht u hu

/-- A task that is not queued, and gets another block. -/
theorem Table.replace {i : TaskId} {x : Tcb} (h : Table tcb ts) (hi : i ∉ ts) (hid : x.taskID = some i)
    (hflat : x.elevatedPrioFlag = false) (hbasic : 0 < x.taskPrio ∧ 0 < x.period) (hstate : x.taskState ≠ .ready) :
    Table (Function.update tcb i x) ts where
  nodup := h.nodup
  sorted := by
    refine h.sorted.imp_of_mem fun {a b} ha hb hab => ?_
    have hne : ∀ t ∈ ts, t ≠ i := fun t ht => ne_of_mem_of_not_mem ht hi
    rwa [Function.update_of_ne (hne a ha), Function.update_of_ne (hne b hb)]
  ready := (Function.forall_update_iff tcb fun t x => t ∈ ts ↔ x.taskState = .ready).mpr
    ⟨iff_of_false hi hstate, fun t _ => h.ready t⟩
  active t ht := by
    rw [Function.update_of_ne (ne_of_mem_of_not_mem ht hi)]
    exact h.active t ht
  id := (Function.forall_update_iff tcb fun t x => x.taskID = none ∨ x.taskID = some t).mpr
    ⟨.inr hid, fun t _ => h.id t⟩
  flat := (Function.forall_update_iff tcb fun _ x => x.elevatedPrioFlag = false).mpr ⟨hflat, fun t _ => h.flat t⟩
  idle := h.idle
  lowest := by
    rw [Function.update_of_ne (ne_of_mem_of_not_mem h.idle hi)]
    exact h.lowest
  resting := by
    rw [Function.update_of_ne (ne_of_mem_of_not_mem h.idle hi)]
    exact h.resting
  basic := (Function.forall_update_iff tcb fun t x =>
      t ≠ idleTaskID → x.taskID = some t → 0 < x.taskPrio ∧ 0 < x.period).mpr
    ⟨fun _ _ => hbasic, fun t _ => h.basic t⟩

/-- A task that gets ready. -/
theorem Table.insert {i : TaskId} (h : Table tcb ts) (hi : i ∉ ts) (hid : (tcb i).taskID = some i)
    {x : Tcb} (halike : Alike (tcb i) x) (hstate : x.taskState = .ready) :
    Table (Function.update tcb i x)
      (ts.orderedInsert (fun a b => outranks (Function.update tcb i x) a b) i) := by
  have hne : ∀ t ∈ ts, t ≠ i := fun t ht => ne_of_mem_of_not_mem ht hi
  have hidle := hne _ h.idle
  have hflat : ∀ t, (Function.update tcb i x t).elevatedPrioFlag = false := fun t =>
    (halike.update t).elevatedPrioFlag.trans (h.flat t)
  have hperm := List.perm_orderedInsert (fun a b => outranks (Function.update tcb i x) a b) i ts
  have hmem : ∀ t, t ∈ ts.orderedInsert (fun a b => outranks (Function.update tcb i x) a b) i ↔ t = i ∨ t ∈ ts := fun t =>
    List.mem_orderedInsert _
  exact
    { nodup := hperm.nodup_iff.mpr (List.nodup_cons.mpr ⟨hi, h.nodup⟩)
      sorted := by
        refine pairwise_orderedInsert hflat (h.sorted.imp_of_mem fun {a b} ha hb hab => ?_)
        rwa [Function.update_of_ne (hne a ha), Function.update_of_ne (hne b hb)]
      ready := fun t => by
        rw [hmem]
        by_cases ht : t = i
        · subst ht
          simp [hstate]
        · simp [ht, h.ready]
      active := fun t ht => by
        rw [(halike.update t).taskID]
        obtain rfl | ht := (hmem t).mp ht
        · exact hid
        · exact h.active t ht
      id := fun t => by
        rw [(halike.update t).taskID]
        exact h.id t
      flat := hflat
      idle := (hmem _).mpr (.inr h.idle)
      lowest := (halike.update _).taskPrio.trans h.lowest
      resting := by
        rw [Function.update_of_ne hidle]
        exact h.resting
      basic := fun t ht hid' => by
        rw [(halike.update t).taskPrio, (halike.update t).period]
        exact h.basic t ht ((halike.update t).taskID.symm.trans hid') }

end Table

/-! ## The kernel -/

/-- The kernel with the tasks `ts` in its ready queue. -/
structure Scheduled (k : Kernel) (ts : List TaskId) : Prop where
  table : Table k.tcb ts
  reps : k.readyQ.Reps ts
  count : 0 < k.taskInitCnt
  fresh : ∀ t : TaskId, k.taskInitCnt ≤ t.val → (k.tcb t).taskID = none
  leaving : k.leaving = []

/-- Nothing changed but the block `i` and the ready queue. -/
structure Frame (i : TaskId) (k k' : Kernel) : Prop where
  tcb : ∀ t, t ≠ i → k'.tcb t = k.tcb t
  curTask : k'.curTask = k.curTask
  prevTimerVal : k'.prevTimerVal = k.prevTimerVal
  nextWakeup : k'.nextWakeup = k.nextWakeup

theorem Frame.refl (i : TaskId) (k : Kernel) : Frame i k k := ⟨fun _ _ => rfl, rfl, rfl, rfl⟩

theorem Frame.trans {i : TaskId} {k₁ k₂ k₃ : Kernel} (h : Frame i k₁ k₂) (h' : Frame i k₂ k₃) : Frame i k₁ k₃ :=
  ⟨fun t ht => (h'.tcb t ht).trans (h.tcb t ht), h'.curTask.trans h.curTask, h'.prevTimerVal.trans h.prevTimerVal,
    h'.nextWakeup.trans h.nextWakeup⟩

theorem frame_setTcb (k : Kernel) (i : TaskId) (x : Tcb) (q : ReadyQ) : Frame i k { k.setTcb i x with readyQ := q } :=
  ⟨fun _ ht => Function.update_of_ne ht _ _, rfl, rfl, rfl⟩

section Kernel
variable {k : Kernel} {ts : List TaskId} {i : TaskId} {x : Tcb}

/-- A block that changes without its task getting ready or ceasing to be. -/
theorem Scheduled.setTcb (h : Scheduled k ts) (halike : Alike (k.tcb i) x)
    (hstate : x.taskState = .ready ↔ (k.tcb i).taskState = .ready) (hresting : i = idleTaskID → x.suspendFlag = false) :
    Scheduled (k.setTcb i x) ts where
  table := by
    rw [Kernel.setTcb_tcb]
    refine h.table.alike halike.update ?_ ?_
    · exact (Function.forall_update_iff k.tcb fun t y => y.taskState = .ready ↔ (k.tcb t).taskState = .ready).mpr
        ⟨hstate, fun _ _ => .rfl⟩
    · by_cases hi : idleTaskID = i
      · subst hi
        simpa using hresting rfl
      · rw [Function.update_of_ne hi]
        exact h.table.resting
  reps := h.reps
  count := h.count
  fresh t ht := (halike.update t).taskID.trans (h.fresh t ht)
  leaving := h.leaving

/-- Adding a task to the ready queue succeeds: the idle task stands behind it. -/
theorem Scheduled.enqueue (h : Scheduled k ts) (hi : i ∉ ts) (hid : (k.tcb i).taskID = some i)
    (halike : Alike (k.tcb i) x) (hstate : x.taskState = .ready) :
    ∃ q ts', (k.setTcb i x).enqueue i = .ok { k.setTcb i x with readyQ := q } ∧
      Scheduled { k.setTcb i x with readyQ := q } ts' := by
  have htable := h.table.insert hi hid halike hstate
  have hlen := h.table.length_le
  have hout : outranks (Function.update k.tcb i x) i idleTaskID = true := by
    have hne : i ≠ idleTaskID := (ne_of_mem_of_not_mem h.table.idle hi).symm
    have hprio : 0 < x.taskPrio := by
      rw [halike.taskPrio]
      exact (h.table.basic i hne hid).1
    simp [outranks, Function.update_of_ne hne.symm, h.table.lowest, hprio]
  have hspec := add_refines h.reps (Function.update k.tcb i x) i
  rw [QueueOp.spec, if_neg (by omega), if_pos (.inr ⟨_, h.table.idle, hout⟩)] at hspec
  obtain ⟨q, hq, hreps⟩ := hspec.of_ok
  refine ⟨q, _, ?_, htable, hreps, h.count, fun t ht => (halike.update t).taskID.trans (h.fresh t ht), h.leaving⟩
  simp [Kernel.enqueue, Kernel.setTcb, hq, bind, Except.bind, pure, Except.pure]

/-- Taking a task out of the ready queue succeeds: the idle task stays. -/
theorem Scheduled.remove (h : Scheduled k ts) (hi : i ≠ idleTaskID) (halike : Alike (k.tcb i) x)
    (hstate : x.taskState ≠ .ready) :
    ∃ q, remFromReadyQ (some i) k.readyQ = .ok q ∧ Scheduled { k.setTcb i x with readyQ := q } (ts.erase i) := by
  have hsole : ts ≠ [i] := by
    rintro rfl
    exact hi (List.mem_singleton.mp h.table.idle).symm
  have hspec := rem_refines h.reps i
  rw [QueueOp.spec, if_neg hsole] at hspec
  obtain ⟨q, hq, hreps⟩ := hspec.of_ok
  exact ⟨q, hq, h.table.erase hi halike hstate, hreps, h.count,
    fun t ht => (halike.update t).taskID.trans (h.fresh t ht), h.leaving⟩

theorem Scheduled.dequeue (h : Scheduled k ts) (hi : i ≠ idleTaskID) (halike : Alike (k.tcb i) x)
    (hstate : x.taskState ≠ .ready) :
    ∃ q, (k.setTcb i x).dequeue (some i) = .ok { k.setTcb i x with readyQ := q } ∧
      Scheduled { k.setTcb i x with readyQ := q } (ts.erase i) := by
  obtain ⟨q, hq, hs⟩ := h.remove hi halike hstate
  exact ⟨q, by simp [Kernel.dequeue, Kernel.setTcb, hq, bind, Except.bind, pure, Except.pure], hs⟩

end Kernel

/-! ## A tick -/

/-- The task that runs is ready, if it did not finish. -/
def Running (k : Kernel) (cur : TaskId) : Prop :=
  (k.tcb cur).taskID = some cur ∧ ((k.tcb cur).taskState = .ready ∨ (k.tcb cur).taskState = .finished)

theorem Tcb.park_alike (t : Tcb) : Alike t t.park := by
  unfold Tcb.park
  split_ifs <;> exact ⟨rfl, rfl, rfl, rfl⟩

theorem Tcb.park_state (t : Tcb) : t.park.taskState ≠ .ready := by
  unfold Tcb.park
  split_ifs <;> simp

theorem Tcb.charge_alike (t : Tcb) (ticks : Nat) : Alike t (t.charge ticks) := by
  simp only [Tcb.charge]
  split_ifs <;> exact ⟨rfl, rfl, rfl, rfl⟩

/-- The task goes on exactly where something is left of its reserve. -/
theorem Tcb.charge_state (t : Tcb) (ticks : Nat) :
    (t.charge ticks).taskState = if (t.charge ticks).cpuRemaining = 0 then .suspended else t.taskState := by
  simp only [Tcb.charge]
  split_ifs <;> simp_all

section Tick
variable {k : Kernel} {ts : List TaskId} {cur : TaskId}

theorem suspendCurrent_ok (h : Scheduled k ts) (hid : (k.tcb cur).taskID = some cur) :
    ∃ k' ts', suspendCurrent cur k = .ok k' ∧ Scheduled k' ts' ∧ Frame cur k k' ∧ (k'.tcb cur).taskID = some cur := by
  by_cases hcond : (k.tcb cur).suspendFlag = true ∧ (k.tcb cur).taskState ≠ .finished
  · have hne : cur ≠ idleTaskID := by
      rintro rfl
      rw [h.table.resting] at hcond
      cases hcond.1
    obtain ⟨q, hq, hs⟩ := h.dequeue hne (Tcb.park_alike _) (Tcb.park_state _)
    refine ⟨_, _, ?_, hs, frame_setTcb k cur _ q, by simp [(Tcb.park_alike _).taskID, hid]⟩
    rw [suspendCurrent, if_pos hcond, hid, hq]
  · exact ⟨k, ts, by rw [suspendCurrent, if_neg hcond], h, .refl cur k, hid⟩

theorem chargeReserve_ok (h : Scheduled k ts) (hid : (k.tcb cur).taskID = some cur) :
    ∃ k' ts', chargeReserve cur k = .ok k' ∧ Scheduled k' ts' ∧ Frame cur k k' ∧ (k'.tcb cur).taskID = some cur := by
  by_cases hcond : (k.tcb cur).cpuReserve ≠ 0 ∧ (k.tcb cur).taskID ≠ some idleTaskID ∧ (k.tcb cur).taskState ≠ .finished
  · have hne : cur ≠ idleTaskID := fun heq => hcond.2.1 (heq ▸ hid)
    have halike := (k.tcb cur).charge_alike k.prevTimerVal
    have hstate := (k.tcb cur).charge_state k.prevTimerVal
    simp only [chargeReserve, if_pos hcond]
    by_cases hzero : ((k.tcb cur).charge k.prevTimerVal).cpuRemaining = 0
    · rw [if_pos hzero] at hstate ⊢
      obtain ⟨q, hq, hs⟩ := h.dequeue hne halike (by simp [hstate])
      exact ⟨_, _, by rw [halike.taskID, hid, hq], hs, frame_setTcb k cur _ q, by simp [halike.taskID, hid]⟩
    · rw [if_neg hzero] at hstate ⊢
      exact ⟨_, ts, rfl, h.setTcb halike (by rw [hstate]) fun heq => absurd heq hne, frame_setTcb k cur _ k.readyQ,
        by simp [halike.taskID, hid]⟩
  · exact ⟨k, ts, by simp only [chargeReserve, if_neg hcond], h, .refl cur k, hid⟩

theorem Tcb.bookkeep_ok {t : Tcb} {ticks : Nat} (hperiod : 0 < t.period) :
    ∃ t', t.bookkeep ticks = .ok t' ∧ Alike t t' ∧ t'.taskState = t.taskState ∧ t'.suspendFlag = t.suspendFlag := by
  have hne : t.period ≠ 0 := by omega
  simp only [Tcb.bookkeep, if_neg hne]
  split_ifs <;> exact ⟨_, rfl, ⟨rfl, rfl, rfl, rfl⟩, rfl, rfl⟩

theorem Tcb.wake_alike (t : Tcb) : Alike t t.wake := by
  simp only [Tcb.wake]
  split_ifs <;> exact ⟨rfl, rfl, rfl, rfl⟩

theorem Tcb.wake_suspendFlag (t : Tcb) : t.wake.suspendFlag = false := by
  simp only [Tcb.wake]
  split_ifs <;> rfl

theorem Tcb.age_ok (t : Tcb) (ticks : Nat) (hperiod : t.taskID ≠ some idleTaskID → 0 < t.period) :
    ∃ t', t.age ticks = .ok t' ∧ Alike t t' ∧ t'.taskState = t.taskState ∧ t'.suspendFlag = t.suspendFlag := by
  by_cases hcond : t.taskID ≠ some idleTaskID ∧ t.taskState ≠ .finished
  · rw [Tcb.age, if_pos hcond]
    exact Tcb.bookkeep_ok (hperiod hcond.1)
  · exact ⟨t, by rw [Tcb.age, if_neg hcond], .refl t, rfl, rfl⟩

/-- The loop fails at no block of a task, and makes no other task ready than a suspended one. -/
theorem Tcb.pass_ok (t : Tcb) (ticks : Nat) (hperiod : t.taskID ≠ some idleTaskID → 0 < t.period) :
    ∃ t', t.pass ticks = .ok t' ∧ Alike t t' ∧ t'.suspendFlag = false ∧
      (t.taskState ≠ .suspended → t'.taskState = t.taskState) := by
  obtain ⟨u, hu, halike, hstate, hflag⟩ := Tcb.age_ok { t with suspendFlag := false } ticks hperiod
  have hpass : t.pass ticks = .ok (if u.taskState = .suspended ∧ u.nextWakeup = 0 then u.wake else u) := by
    rw [Tcb.pass, hu]
    rfl
  refine ⟨_, hpass, ?_⟩
  by_cases hwake : u.taskState = .suspended ∧ u.nextWakeup = 0
  · rw [if_pos hwake]
    have hw := u.wake_alike
    refine ⟨⟨hw.1.trans halike.1, hw.2.trans halike.2, hw.3.trans halike.3, hw.4.trans halike.4⟩, u.wake_suspendFlag,
      fun hne => absurd (hstate.symm.trans hwake.1) hne⟩
  · rw [if_neg hwake]
    exact ⟨⟨halike.1, halike.2, halike.3, halike.4⟩, hflag, fun _ => hstate⟩

/-- A turn of the loop: a suspended task whose time has come gets ready, and the earliest wake-up is not after its own. -/
theorem wakeTask_ok (h : Scheduled k ts) (i : TaskId) (nextWake : Nat) :
    ∃ k' ts' nextWake', wakeTask (k, nextWake) i = .ok (k', nextWake') ∧ Scheduled k' ts' ∧ Frame i k k' ∧
      nextWake' ≤ nextWake ∧ ((k.tcb i).taskID = some i → (k.tcb i).pass k.prevTimerVal = .ok (k'.tcb i) ∧
        ((k.tcb i).taskState = .suspended → (k'.tcb i).nextWakeup ≠ 0 → nextWake' ≤ (k'.tcb i).nextWakeup)) := by
  obtain hnone | hid := h.table.id i
  · exact ⟨k, ts, nextWake, by simp [wakeTask, hnone], h, .refl i k, le_rfl, fun hid => by simp [hnone] at hid⟩
  have hperiod : (k.tcb i).taskID ≠ some idleTaskID → 0 < (k.tcb i).period := fun hne =>
    (h.table.basic i (fun heq => hne (heq ▸ hid)) hid).2
  obtain ⟨t, ht, halike, hflag, hkeep⟩ := Tcb.pass_ok (k.tcb i) k.prevTimerVal hperiod
  have hsome : (k.tcb i).taskID ≠ none := by simp [hid]
  have hearliest : (if t.nextWakeup ≠ 0 ∧ t.nextWakeup < nextWake then t.nextWakeup else nextWake) ≤ nextWake ∧
      (t.nextWakeup ≠ 0 →
        (if t.nextWakeup ≠ 0 ∧ t.nextWakeup < nextWake then t.nextWakeup else nextWake) ≤ t.nextWakeup) := by
    split_ifs <;> omega
  simp only [wakeTask, if_neg hsome, ht]
  by_cases hsusp : (k.tcb i).taskState = .suspended
  · have hi : i ∉ ts := fun hmem => by simp [(h.table.ready i).mp hmem] at hsusp
    by_cases hready : t.taskState = .ready
    · obtain ⟨q, ts', hq, hs⟩ := h.enqueue hi hid halike hready
      refine ⟨_, ts', _, by simp only [bind, Except.bind, if_pos hsusp, if_pos hready, hq]; rfl, hs, frame_setTcb k i t q,
        hearliest.1, fun _ => ⟨by simp, fun _ hne => ?_⟩⟩
      simpa using hearliest.2 (by simpa using hne)
    · refine ⟨_, ts, _, by simp only [bind, Except.bind, if_pos hsusp, if_neg hready]; rfl,
        h.setTcb halike ?_ fun _ => hflag, frame_setTcb k i t k.readyQ, hearliest.1, fun _ => ⟨by simp, fun _ hne => ?_⟩⟩
      · simp [hready, hsusp]
      · simpa using hearliest.2 (by simpa using hne)
  · refine ⟨_, ts, _, by simp only [bind, Except.bind, if_neg hsusp]; rfl, h.setTcb halike ?_ fun _ => hflag,
      frame_setTcb k i t k.readyQ, le_rfl, fun _ => ⟨by simp, fun h => absurd h hsusp⟩⟩
    rw [hkeep hsusp]

theorem pickWakeup_le (id : TaskId) (t : Tcb) (nextWake : Nat) :
    pickWakeup id t nextWake ≤ nextWake ∧ pickWakeup id t nextWake ≤ maxSchedWakeupTime := by
  simp only [pickWakeup, maxSchedWakeupTime, sleepWakeupTime]
  split_ifs <;> omega

/-- The scheduler picks the first task of the ready queue, and a wake-up that is not after that of a suspended task. -/
theorem pick_ok (h : Scheduled k ts) (hcur : k.curTask = some cur) (hid : (k.tcb cur).taskID = some cur) :
    ∃ k' ts' id nextWake, pick k = .ok (k', id, nextWake) ∧ Scheduled k' (id :: ts') ∧ nextWake ≤ maxSchedWakeupTime ∧
      ∀ t, (k.tcb t).taskID = some t → (k'.tcb t).taskID = some t ∧
        (t ≠ cur → (k.tcb t).pass k.prevTimerVal = .ok (k'.tcb t)) ∧
        ((k'.tcb t).taskState = .suspended → (k'.tcb t).nextWakeup ≠ 0 → nextWake ≤ (k'.tcb t).nextWakeup) := by
  have h₀ : Scheduled { k with systemTime := k.systemTime.advance k.prevTimerVal } ts :=
    ⟨h.table, h.reps, h.count, h.fresh, h.leaving⟩
  obtain ⟨k₁, ts₁, hk₁, h₁, hf₁, hid₁⟩ := suspendCurrent_ok h₀ hid
  obtain ⟨k₂, ts₂, hk₂, h₂, hf₂, hid₂⟩ := chargeReserve_ok h₁ hid₁
  -- what the loop did to the blocks that it has gone through
  obtain ⟨⟨k₃, nextWake⟩, hk₃, ⟨ts₃, h₃⟩, hprev, hdone⟩ := foldlM_ok (f := wakeTask)
    (I := fun pre s => (∃ ts, Scheduled s.1 ts) ∧ s.1.prevTimerVal = k₂.prevTimerVal ∧ ∀ t, (k₂.tcb t).taskID = some t →
      if t ∈ pre then (k₂.tcb t).pass k₂.prevTimerVal = .ok (s.1.tcb t) ∧
          ((k₂.tcb t).taskState = .suspended → (s.1.tcb t).nextWakeup ≠ 0 → s.2 ≤ (s.1.tcb t).nextWakeup)
      else s.1.tcb t = k₂.tcb t)
    (List.finRange maxTasks) (a := (k₂, 60000)) ⟨⟨ts₂, h₂⟩, rfl, fun t _ => by simp⟩
    fun pre i post s hsplit ⟨⟨ts, hs⟩, hprev, hdone⟩ => by
      obtain ⟨k', ts', nextWake', hk', hs', hf, hle, hpass⟩ := wakeTask_ok hs i s.2
      refine ⟨_, hk', ⟨ts', hs'⟩, hf.prevTimerVal.trans hprev, fun t ht => ?_⟩
      have hnodup : (pre ++ i :: post).Nodup := hsplit ▸ List.nodup_finRange maxTasks
      have hd := hdone t ht
      by_cases hti : t = i
      · subst hti
        have hpre : t ∉ pre := fun hmem => (List.nodup_append.mp hnodup).2.2 t hmem t List.mem_cons_self rfl
        rw [if_neg hpre] at hd
        rw [if_pos (by simp), ← hd, ← hprev]
        exact hpass (hd ▸ ht)
      · by_cases hpre : t ∈ pre
        · rw [if_pos hpre] at hd
          rw [if_pos (by simp [hpre]), hf.tcb t hti]
          exact ⟨hd.1, fun hsusp hne => hle.trans (hd.2 hsusp hne)⟩
        · rw [if_neg hpre] at hd
          rw [if_neg (by simp [hpre, hti]), hf.tcb t hti, hd]
  obtain ⟨id, rest, rfl⟩ := List.exists_cons_of_ne_nil (List.ne_nil_of_mem h₃.table.idle)
  have hhead : getHighReadyTaskID k₃.readyQ = .ok id := h₃.reps.getHighReadyTaskID
  obtain ⟨hle, hmax⟩ := pickWakeup_le id (k₃.tcb id) nextWake
  refine ⟨k₃, rest, id, pickWakeup id (k₃.tcb id) nextWake, ?_, h₃, hmax, fun t ht => ?_⟩
  · rw [hcur] at hk₁
    simp only [pick, hcur, hk₁, bind, Except.bind, hk₂, hk₃, hhead]
    rfl
  · have hframe := hf₁.trans hf₂
    have hidt : (k₂.tcb t).taskID = some t := by
      by_cases htc : t = cur
      · exact htc ▸ hid₂
      · rw [hframe.tcb t htc]
        exact ht
    have hd := hdone t hidt
    rw [if_pos (List.mem_finRange t)] at hd
    have hperiod : (k₂.tcb t).taskID ≠ some idleTaskID → 0 < (k₂.tcb t).period := fun hne =>
      (h₂.table.basic t (fun heq => hne (heq ▸ hidt)) hidt).2
    obtain ⟨t', ht', halike, -, hkeep⟩ := Tcb.pass_ok (k₂.tcb t) k₂.prevTimerVal hperiod
    obtain rfl := Except.ok.inj (ht'.symm.trans hd.1)
    refine ⟨halike.taskID.trans hidt, fun htc => ?_, fun hsusp hne => hle.trans (hd.2 ?_ hne)⟩
    · rw [← hframe.tcb t htc, ← hframe.prevTimerVal]
      exact hd.1
    · -- the loop suspends no task
      by_contra hstate
      exact hstate ((hkeep hstate).symm.trans hsusp)

theorem scheduler_ok (h : Scheduled k ts) (hcur : k.curTask = some cur) (hid : (k.tcb cur).taskID = some cur)
    (timer timer' : Nat) :
    ∃ k' ts' id, scheduler timer timer' k = .ok k' ∧ Scheduled k' (id :: ts') ∧ k'.curTask = some id := by
  obtain ⟨k₁, ts₁, id, nextWake, hpick, h₁, -⟩ := pick_ok h hcur hid
  refine ⟨_, ts₁, id, by simp only [scheduler, hpick, bind, Except.bind]; rfl, ?_, rfl⟩
  exact ⟨h₁.table, h₁.reps, h₁.count, h₁.fresh, h₁.leaving⟩

end Tick

/-! ## Tasks -/

section Tasks
variable {k : Kernel} {ts : List TaskId} {cur : TaskId}

/-- The block of the idle task before it is ready. -/
def idleTcb : Tcb := { taskID := some idleTaskID, taskState := .suspended, numPeriods := 1 }

/-- The table that `nrk_init` leaves. -/
def initTcb : TcbTable :=
  Function.update (Function.update Kernel.zero.tcb idleTaskID idleTcb) idleTaskID { idleTcb with taskState := .ready }

theorem init_table : Table initTcb [idleTaskID] where
  nodup := by simp
  sorted := by simp
  ready := by decide
  active := by decide
  id := by decide
  flat := by decide
  idle := by simp
  lowest := rfl
  resting := rfl
  basic := by decide

theorem init_ok : ∃ k, Kernel.init = .ok k ∧ Scheduled k [idleTaskID] ∧ k.curTask = none := by
  obtain ⟨q, hq, hreps⟩ : ∃ q, addToReadyQ initTcb idleTaskID ReadyQ.init = .ok q ∧ q.Reps [idleTaskID] :=
    SameOutcome.of_ok (add_refines reps_init initTcb idleTaskID)
  refine ⟨{ Kernel.zero with tcb := initTcb, taskInitCnt := 1, readyQ := q }, ?_, ?_, rfl⟩
  · have hinit : Kernel.init =
        (addToReadyQ initTcb idleTaskID ReadyQ.init).bind fun q =>
          .ok { Kernel.zero with tcb := initTcb, taskInitCnt := 1, readyQ := q } := rfl
    rw [hinit, hq]
    rfl
  · have hfresh : ∀ t : TaskId, 1 ≤ t.val → (initTcb t).taskID = none := by decide
    exact ⟨init_table, hreps, Nat.one_pos, hfresh, rfl⟩

theorem makeReady_ok {i : TaskId} (h : Scheduled k ts) (hi : i ∉ ts) (hid : (k.tcb i).taskID = some i) :
    ∃ k' ts', makeReady i k = .ok k' ∧ Scheduled k' ts' ∧ Frame i k k' := by
  by_cases hzero : (k.tcb i).nextWakeup = 0
  · obtain ⟨q, ts', hq, hs⟩ := h.enqueue (x := { k.tcb i with taskState := .ready }) hi hid ⟨rfl, rfl, rfl, rfl⟩ rfl
    exact ⟨_, ts', by rw [makeReady, if_pos hzero, hq], hs, frame_setTcb k i _ q⟩
  · exact ⟨k, ts, by rw [makeReady, if_neg hzero], h, .refl i k⟩

/-- The block that the next basic task gets. -/
theorem tcbInit_ok {task : TaskType} (h : Scheduled k ts) (hbasic : task.type = .basic) (hprio : 0 < task.prio)
    (hperiod : 0 < timeToTicks task.period) (hcnt : k.taskInitCnt < maxTasks) :
    ∃ k' i, tcbInit task k = .ok (i, k') ∧ Scheduled k' ts ∧ i ∉ ts ∧ (k'.tcb i).taskID = some i ∧ Frame i k k' := by
  have hnone := h.fresh ⟨k.taskInitCnt, hcnt⟩ le_rfl
  have hi : (⟨k.taskInitCnt, hcnt⟩ : TaskId) ∉ ts := fun hmem => by simp [h.table.active _ hmem] at hnone
  have hkind : task.type ≠ .idle := by simp [hbasic]
  have hcount : k.taskInitCnt + 1 ≠ (idleTaskID : TaskId).val := Nat.succ_ne_zero _
  simp only [tcbInit, if_pos hkind, if_neg hcount, dif_pos hcnt]
  refine ⟨_, _, rfl, ⟨h.table.replace hi rfl (h.table.flat _) ⟨hprio, hperiod⟩ (by simp), h.reps, Nat.succ_pos _, ?_,
    h.leaving⟩, hi, ?_, fun _ ht => Function.update_of_ne ht _ _, rfl, rfl, rfl⟩
  · intro t (ht : k.taskInitCnt + 1 ≤ t.val)
    have hne : t ≠ ⟨k.taskInitCnt, hcnt⟩ := by
      rintro rfl
      exact absurd ht (Nat.not_succ_le_self _)
    simp only [Kernel.setTcb_tcb, Function.update_of_ne hne]
    exact h.fresh t (by omega)
  · simp

theorem activateTask_ok {task : TaskType} (h : Scheduled k ts) (hallowed : (Event.activate task).Allowed k) :
    ∃ k' ts', activateTask task k = .ok k' ∧ Scheduled k' ts' ∧ k'.curTask = k.curTask := by
  obtain ⟨-, hbasic, hprio, hperiod, hfirst⟩ := hallowed
  by_cases hact : task.firstActivation
  · rw [if_pos hact] at hfirst
    obtain ⟨k₁, i, hk₁, h₁, hi, hid, hf₁⟩ := tcbInit_ok h hbasic hprio hperiod hfirst
    obtain ⟨k₂, ts₂, hk₂, h₂, hf₂⟩ := makeReady_ok h₁ hi hid
    refine ⟨k₂, ts₂, ?_, h₂, (hf₁.trans hf₂).curTask⟩
    simp only [activateTask, if_pos hact, hk₁, bind, Except.bind, hk₂]
  · rw [if_neg hact] at hfirst
    by_cases hsusp : (k.tcb task.taskID).taskState = .suspended
    · have hi : task.taskID ∉ ts := fun hmem => by simp [(h.table.ready _).mp hmem] at hsusp
      obtain ⟨k', ts', hk', h', hf⟩ := makeReady_ok h hi ((h.table.id _).resolve_left hfirst)
      refine ⟨k', ts', ?_, h', hf.curTask⟩
      simp only [activateTask, if_neg hact, if_neg (not_not.mpr hsusp), hk']
    · exact ⟨k, ts, by simp only [activateTask, if_neg hact, if_pos hsusp], h, rfl⟩

end Tasks

/-! ## Calls -/

section Calls
variable {k : Kernel} {ts : List TaskId} {cur : TaskId}

theorem Scheduled.hasten (h : Scheduled k ts) (timer : Nat) : Scheduled (hasten timer k) ts := by
  unfold Nrk.hasten
  split_ifs
  · exact ⟨h.table, h.reps, h.count, h.fresh, h.leaving⟩
  · exact h

theorem hasten_tcb (timer : Nat) : (hasten timer k).tcb = k.tcb := by
  unfold hasten
  split_ifs <;> rfl

theorem hasten_curTask (timer : Nat) : (hasten timer k).curTask = k.curTask := by
  unfold hasten
  split_ifs <;> rfl

/-- A change to the block of the task that runs, which leaves its state. -/
theorem setTcb_running {x : Tcb} (h : Scheduled k ts) (hrun : Running k cur) (hcur : cur ≠ idleTaskID)
    (halike : Alike (k.tcb cur) x) (hstate : x.taskState = (k.tcb cur).taskState) :
    Scheduled (k.setTcb cur x) ts ∧ Running (k.setTcb cur x) cur := by
  refine ⟨h.setTcb halike (by rw [hstate]) fun heq => absurd heq hcur, ?_⟩
  simpa [Running, halike.taskID, hstate] using hrun

theorem suspend_ok (note : Tcb → Tcb) (h : Scheduled k ts) (hrun : Running k cur) (hcur : cur ≠ idleTaskID)
    (hnote : ∀ t, Alike t (note t) ∧ (note t).taskState = t.taskState) (timer : Nat) :
    Scheduled (suspend timer cur note k) ts ∧ Running (suspend timer cur note k) cur ∧
      (suspend timer cur note k).curTask = k.curTask := by
  obtain ⟨halike, hstate⟩ := hnote (k.tcb cur)
  obtain ⟨hs, hr⟩ := setTcb_running (x := { note (k.tcb cur) with suspendFlag := true }) h hrun hcur
    ⟨halike.1, halike.2, halike.3, halike.4⟩ hstate
  refine ⟨hs.hasten timer, ?_, hasten_curTask timer⟩
  rwa [Running, suspend, hasten_tcb]

/-- A loop over the blocks that leaves each as it is, or suspends a task that is not ready. -/
theorem Scheduled.map {f : Tcb → Tcb} {hit : Tcb → Bool} (h : Scheduled k ts) (halike : ∀ t, Alike t (f t))
    (hflag : ∀ t, (f t).suspendFlag = t.suspendFlag)
    (hstate : ∀ t, (f t).taskState = if hit t then .suspended else t.taskState)
    (htimely : ∀ t, hit (k.tcb t) = true → (k.tcb t).taskState ≠ .ready) (signals : BitVec 32) :
    Scheduled { k with tcb := fun i => f (k.tcb i), signalList := signals } ts where
  table := by
    refine h.table.alike (fun t => halike _) (fun t => ?_) ((hflag _).trans h.table.resting)
    rw [hstate]
    by_cases ht : hit (k.tcb t)
    · simp [ht, htimely t ht]
    · simp [ht]
  reps := h.reps
  count := h.count
  fresh t ht := (halike _).taskID.trans (h.fresh t ht)
  leaving := h.leaving

theorem Tcb.delete_alike (s : Signal) (t : Tcb) : Alike t (t.delete s) := by
  simp only [Tcb.delete]
  split_ifs <;> exact ⟨rfl, rfl, rfl, rfl⟩

theorem Tcb.delete_suspendFlag (s : Signal) (t : Tcb) : (t.delete s).suspendFlag = t.suspendFlag := by
  simp only [Tcb.delete]
  split_ifs <;> rfl

theorem Tcb.delete_state (s : Signal) (t : Tcb) :
    (t.delete s).taskState = if t.deletes s then .suspended else t.taskState := by
  simp only [Tcb.delete, Tcb.deletes]
  split_ifs <;> simp_all

theorem Tcb.signal_alike (s : Signal) (t : Tcb) : Alike t (t.signal s) := by
  simp only [Tcb.signal]
  split_ifs <;> exact ⟨rfl, rfl, rfl, rfl⟩

theorem Tcb.signal_suspendFlag (s : Signal) (t : Tcb) : (t.signal s).suspendFlag = t.suspendFlag := by
  simp only [Tcb.signal]
  split_ifs <;> rfl

theorem Tcb.signal_state (s : Signal) (t : Tcb) :
    (t.signal s).taskState = if t.awaits s then .suspended else t.taskState := by
  by_cases hsig : t.eventSuspend = sigEventSuspended ∧ t.activeSignalMask &&& sig s ≠ 0
  · have hawaits : t.awaits s = true := decide_eq_true (.inl hsig)
    rw [if_pos hawaits]
    simp only [Tcb.signal, if_pos hsig]
    split_ifs <;> rfl
  · by_cases hrsrc : t.eventSuspend = rsrcEventSuspended ∧ t.activeSignalMask = sig s
    · have hawaits : t.awaits s = true := decide_eq_true (.inr hrsrc)
      rw [if_pos hawaits]
      simp only [Tcb.signal, if_neg hsig, if_pos hrsrc]
    · have hawaits : ¬t.awaits s = true := fun h => (of_decide_eq_true h).elim hsig hrsrc
      rw [if_neg hawaits]
      simp only [Tcb.signal, if_neg hsig, if_neg hrsrc]

theorem Running.map {f : Tcb → Tcb} {hit : Tcb → Bool} (hrun : Running k cur) (hfin : (k.tcb cur).taskState ≠ .finished)
    (halike : ∀ t, Alike t (f t)) (hstate : ∀ t, (f t).taskState = if hit t then .suspended else t.taskState)
    (htimely : ∀ t, hit (k.tcb t) = true → (k.tcb t).taskState ≠ .ready) (signals : BitVec 32) :
    Running { k with tcb := fun i => f (k.tcb i), signalList := signals } cur := by
  have hready := hrun.2.resolve_right hfin
  have hmiss : ¬hit (k.tcb cur) = true := fun h => htimely cur h hready
  exact ⟨(halike _).taskID.trans hrun.1, .inl (by rw [hstate, if_neg hmiss, hready])⟩

theorem deleteAll_ok (s : Signal) (h : Scheduled k ts) (hrun : Running k cur)
    (hfin : (k.tcb cur).taskState ≠ .finished)
    (htimely : ∀ t, (k.tcb t).deletes s = true → (k.tcb t).taskState ≠ .ready) :
    Scheduled (deleteAll s k) ts ∧ Running (deleteAll s k) cur :=
  ⟨h.map (Tcb.delete_alike s) (Tcb.delete_suspendFlag s) (Tcb.delete_state s) htimely _,
    hrun.map hfin (Tcb.delete_alike s) (Tcb.delete_state s) htimely _⟩

theorem signalAll_ok (s : Signal) (h : Scheduled k ts) (hrun : Running k cur)
    (hfin : (k.tcb cur).taskState ≠ .finished)
    (htimely : ∀ t, (k.tcb t).awaits s = true → (k.tcb t).taskState ≠ .ready) :
    Scheduled (signalAll s k) ts ∧ Running (signalAll s k) cur :=
  ⟨h.map (Tcb.signal_alike s) (Tcb.signal_suspendFlag s) (Tcb.signal_state s) htimely k.signalList,
    hrun.map hfin (Tcb.signal_alike s) (Tcb.signal_state s) htimely k.signalList⟩

/-- What a call of the task that runs leaves, if it is not one of the halves of `nrk_terminate_task`. -/
theorem call_ok (h : Scheduled k ts) (hrun : Running k cur) (hidle : cur ≠ idleTaskID) {c : Call}
    (hcontinues : Continues k cur c) (hc : c ≠ .terminateTask ∧ c ≠ .finish) (htimely : Timely k c) (timer : Nat) :
    ∃ k' ts', c.exec timer cur k = .ok k' ∧ Scheduled k' ts' ∧ k'.curTask = k.curTask ∧ Running k' cur := by
  have hwait : ∀ note : Tcb → Tcb, (∀ t, Alike t (note t) ∧ (note t).taskState = t.taskState) →
      ∃ k' ts', (.ok (suspend timer cur note k) : Except Fault Kernel) = .ok k' ∧ Scheduled k' ts' ∧
        k'.curTask = k.curTask ∧ Running k' cur := fun note hnote =>
    have ⟨hs, hr, hc⟩ := suspend_ok note h hrun hidle hnote timer
    ⟨_, ts, rfl, hs, hc, hr⟩
  have hnote : ∀ x, Alike (k.tcb cur) x → x.taskState = (k.tcb cur).taskState →
      ∃ k' ts', (.ok (k.setTcb cur x) : Except Fault Kernel) = .ok k' ∧ Scheduled k' ts' ∧
        k'.curTask = k.curTask ∧ Running k' cur := fun x halike hstate =>
    have ⟨hs, hr⟩ := setTcb_running h hrun hidle halike hstate
    ⟨_, ts, rfl, hs, rfl, hr⟩
  have hsame : ∃ k' ts', (.ok k : Except Fault Kernel) = .ok k' ∧ Scheduled k' ts' ∧
      k'.curTask = k.curTask ∧ Running k' cur := ⟨k, ts, rfl, h, rfl, hrun⟩
  have hfin : c ≠ .waitUntilNextPeriod → (k.tcb cur).taskState ≠ .finished := fun hne hfin => hne (hcontinues.2 hfin)
  cases c with
  | waitUntilNextPeriod => exact hwait _ fun t => ⟨⟨rfl, rfl, rfl, rfl⟩, rfl⟩
  | waitUntilNextNPeriods p => exact hwait _ fun t => ⟨⟨rfl, rfl, rfl, rfl⟩, rfl⟩
  | waitTicks ticks => exact hwait _ fun t => ⟨⟨rfl, rfl, rfl, rfl⟩, rfl⟩
  | waitUntilTicks ticks => exact hwait _ fun t => ⟨⟨rfl, rfl, rfl, rfl⟩, rfl⟩
  | waitUntilNw => exact hwait _ fun t => ⟨⟨rfl, rfl, rfl, rfl⟩, rfl⟩
  | wait time => exact hwait _ fun t => ⟨⟨rfl, rfl, rfl, rfl⟩, rfl⟩
  | setNextWakeup time =>
    simp only [Call.exec]
    split_ifs
    · exact hsame
    · exact hnote _ ⟨rfl, rfl, rfl, rfl⟩ rfl
  | terminateTask => exact absurd rfl hc.1
  | finish => exact absurd rfl hc.2
  | signalCreate =>
    simp only [Call.exec, Nrk.signalCreate]
    cases freeSignal k.signalList with
    | none => exact hsame
    | some s => exact ⟨_, ts, rfl, ⟨h.table, h.reps, h.count, h.fresh, h.leaving⟩, rfl, hrun⟩
  | signalRegister s =>
    simp only [Call.exec, Nrk.signalRegister]
    split_ifs
    · exact hnote _ ⟨rfl, rfl, rfl, rfl⟩ rfl
    · exact hsame
  | signalUnregister s =>
    simp only [Call.exec, Nrk.signalUnregister]
    split_ifs
    · exact hnote _ ⟨rfl, rfl, rfl, rfl⟩ rfl
    · exact hsame
  | signalDelete s =>
    simp only [Call.exec, Nrk.signalDelete]
    split_ifs
    · exact hsame
    · obtain ⟨hs, hr⟩ := deleteAll_ok s h hrun (hfin nofun) htimely
      exact ⟨_, ts, rfl, hs, rfl, hr⟩
  | eventSignal s =>
    simp only [Call.exec, Nrk.eventSignal]
    split_ifs
    · exact hsame
    · obtain ⟨hs, hr⟩ := signalAll_ok s h hrun (hfin nofun) htimely
      exact ⟨_, ts, rfl, hs, rfl, hr⟩
  | eventWait mask =>
    simp only [Call.exec, Nrk.eventWait]
    split_ifs
    · exact hnote _ ⟨rfl, rfl, rfl, rfl⟩ rfl
    · exact hsame
  | staleStore signals registered active eventSuspend =>
    let x := { k.tcb cur with
      registeredSignalMask := registered, activeSignalMask := active, eventSuspend := eventSuspend }
    obtain ⟨hs, hr⟩ := setTcb_running (x := x) h hrun hidle ⟨rfl, rfl, rfl, rfl⟩ rfl
    exact ⟨_, ts, rfl, ⟨hs.table, hs.reps, hs.count, hs.fresh, hs.leaving⟩, rfl, hr⟩
  | staleDelete s =>
    obtain ⟨hs, hr⟩ := deleteAll_ok s h hrun (hfin nofun) htimely
    exact ⟨_, ts, rfl, hs, rfl, hr⟩
  | staleSignal s =>
    obtain ⟨hs, hr⟩ := signalAll_ok s h hrun (hfin nofun) htimely
    exact ⟨_, ts, rfl, hs, rfl, hr⟩

/-- Between the halves of `nrk_terminate_task`: the queue is in order again once the task is FINISHED. -/
structure Leaving (k : Kernel) (cur : TaskId) (ts : List TaskId) : Prop where
  leaving : k.leaving = [cur]
  curTask : k.curTask = some cur
  finished : Scheduled (finish cur k) ts

theorem terminateTask_ok (h : Scheduled k ts) (hcur : k.curTask = some cur) (hrun : Running k cur)
    (hidle : cur ≠ idleTaskID) :
    ∃ k', terminateTask cur k = .ok k' ∧ Leaving k' cur (ts.erase cur) ∧ Running k' cur ∧ k'.curTask = k.curTask := by
  obtain ⟨q, hq, hs⟩ := h.remove (x := { k.tcb cur with taskState := .finished }) hidle ⟨rfl, rfl, rfl, rfl⟩ (by simp)
  have hdequeue : k.dequeue (k.tcb cur).taskID = .ok { k with readyQ := q } := by
    rw [hrun.1, Kernel.dequeue, hq]
    rfl
  refine ⟨{ k with readyQ := q, leaving := [cur] }, ?_, ⟨rfl, hcur, ?_⟩, hrun, rfl⟩
  · rw [terminateTask, hdequeue]
    show Except.ok { k with readyQ := q, leaving := cur :: k.leaving } = _
    rw [h.leaving]
  · exact ⟨hs.table, hs.reps, hs.count, hs.fresh, List.erase_cons_head cur []⟩

theorem Leaving.not_mem (h : Leaving k cur ts) : cur ∉ ts := fun hmem => by
  have hready := (h.finished.table.ready cur).mp hmem
  simp [finish] at hready

/-- The queue holds the other READY tasks. -/
theorem Leaving.mem_iff (h : Leaving k cur ts) (t : TaskId) :
    t ∈ ts ↔ (k.tcb t).taskState = .ready ∧ t ∉ k.leaving := by
  rw [h.leaving, List.mem_singleton]
  by_cases ht : t = cur
  · subst ht
    exact iff_of_false h.not_mem fun hmem => hmem.2 rfl
  · have hready := h.finished.table.ready t
    simp only [finish, Kernel.setTcb_tcb, Function.update_of_ne ht] at hready
    rw [hready, and_iff_left ht]

theorem Leaving.sorted (h : Leaving k cur ts) : ts.Pairwise fun a b => (k.tcb b).taskPrio ≤ (k.tcb a).taskPrio := by
  refine h.finished.table.sorted.imp_of_mem fun {a b} ha hb hab => ?_
  have hne : ∀ t ∈ ts, t ≠ cur := fun t ht => ne_of_mem_of_not_mem ht h.not_mem
  simpa only [finish, Kernel.setTcb_tcb, Function.update_of_ne (hne a ha), Function.update_of_ne (hne b hb)] using hab

end Calls

/-! ## Runs -/

/-- The kernel in a run: its ready queue is in order, or will be once the running task is FINISHED; and the task that runs
    is READY or has finished. -/
structure Kernel.Sound (k : Kernel) : Prop where
  running : ∀ cur, k.curTask = some cur → Running k cur
  queue : ∃ ts, Scheduled k ts ∨ ∃ cur, Leaving k cur ts

/-- Where a tick may come, the ready queue is in order. -/
theorem Kernel.Sound.scheduled {k : Kernel} (h : k.Sound) (hleaving : ∀ cur, k.curTask = some cur → cur ∉ k.leaving) :
    ∃ ts, Scheduled k ts := by
  obtain ⟨ts, hs | ⟨cur, hl⟩⟩ := h.queue
  · exact ⟨ts, hs⟩
  · exact absurd (by simp [hl.leaving]) (hleaving cur hl.curTask)

theorem Kernel.Sound.scheduled_of_tick {k : Kernel} (h : k.Sound) {timer timer' : Nat}
    (hallowed : (Event.tick timer timer').Allowed k) : ∃ ts, Scheduled k ts := by
  obtain ⟨cur, hcur, hleaving⟩ := hallowed
  exact h.scheduled fun c hc => Option.some.inj (hcur.symm.trans hc) ▸ hleaving

theorem call_sound {k : Kernel} (h : k.Sound) {timer : Nat} {c : Call} (hallowed : (Event.call timer c).Allowed k) :
    ∃ k', (Event.call timer c).exec k = .ok k' ∧ k'.Sound ∧ k'.curTask = k.curTask := by
  obtain ⟨cur, hcur, hidle, -, hcontinues, htimely⟩ := hallowed
  have hrun := h.running cur hcur
  -- the running task stays the same
  have hsound : ∀ k' ts', k'.curTask = k.curTask → Running k' cur → (Scheduled k' ts' ∨ ∃ cur, Leaving k' cur ts') →
      k'.Sound := fun k' ts' hcur' hrun' hqueue =>
    ⟨fun c hc => Option.some.inj (hcur.symm.trans (hcur'.symm.trans hc)) ▸ hrun', ts', hqueue⟩
  simp only [Event.exec, hcur]
  obtain ⟨ts, hs | ⟨cur', hl⟩⟩ := h.queue
  · have hfinish : c ≠ .finish := fun heq => by simpa [hs.leaving] using hcontinues.1.mpr heq
    by_cases hterminate : c = .terminateTask
    · subst hterminate
      obtain ⟨k', hk', hl', hrun', hcur'⟩ := terminateTask_ok hs hcur hrun hidle
      exact ⟨k', hk', hsound k' _ hcur' hrun' (.inr ⟨cur, hl'⟩), hcur' ▸ hcur⟩
    · obtain ⟨k', ts', hk', hs', hcur', hrun'⟩ := call_ok hs hrun hidle hcontinues ⟨hterminate, hfinish⟩ htimely timer
      exact ⟨k', hk', hsound k' ts' hcur' hrun' (.inl hs'), hcur' ▸ hcur⟩
  · obtain rfl := Option.some.inj (hcur.symm.trans hl.curTask)
    obtain rfl : c = .finish := hcontinues.1.mp (by simp [hl.leaving])
    have hrun' : Running (finish cur k) cur := by simp [Running, finish, hrun.1]
    exact ⟨_, rfl, hsound _ ts rfl hrun' (.inl hl.finished), hcur⟩

theorem exec_ok {k : Kernel} (h : k.Sound) {e : Event} (hallowed : e.Allowed k) :
    ∃ k', e.exec k = .ok k' ∧ k'.Sound := by
  cases e with
  | activate task =>
    obtain ⟨ts, hs⟩ := h.scheduled fun cur hcur => nomatch hallowed.1.symm.trans hcur
    obtain ⟨k', ts', hk', hs', hcur'⟩ := activateTask_ok hs hallowed
    have hnone : k'.curTask = none := hcur'.trans hallowed.1
    exact ⟨k', hk', fun cur hcur => (nomatch hnone.symm.trans hcur), ts', .inl hs'⟩
  | start =>
    obtain ⟨ts, hs⟩ := h.scheduled fun cur hcur => nomatch hallowed.symm.trans hcur
    obtain ⟨id, rest, rfl⟩ := List.exists_cons_of_ne_nil (List.ne_nil_of_mem hs.table.idle)
    have hhead : getHighReadyTaskID k.readyQ = .ok id := hs.reps.getHighReadyTaskID
    refine ⟨{ k with curTask := some id, prevTimerVal := 0, nextWakeup := 254 }, ?_, fun cur hcur => ?_, id :: rest,
      .inl ⟨hs.table, hs.reps, hs.count, hs.fresh, hs.leaving⟩⟩
    · simp only [Event.exec, start, hhead]
      rfl
    · obtain rfl := Option.some.inj hcur
      have hmem : id ∈ id :: rest := List.mem_cons_self
      exact ⟨hs.table.active id hmem, .inl ((hs.table.ready id).mp hmem)⟩
  | tick timer timer' =>
    obtain ⟨ts, hs⟩ := h.scheduled_of_tick hallowed
    obtain ⟨cur, hcur, -⟩ := hallowed
    obtain ⟨k', ts', id, hk', hs', hcur'⟩ := scheduler_ok hs hcur (h.running cur hcur).1 timer timer'
    refine ⟨k', hk', fun c hc => ?_, id :: ts', .inl hs'⟩
    obtain rfl := Option.some.inj (hcur'.symm.trans hc)
    have hmem : id ∈ id :: ts' := List.mem_cons_self
    exact ⟨hs'.table.active id hmem, .inl ((hs'.table.ready id).mp hmem)⟩
  | call timer c =>
    obtain ⟨k', hk', hsound, -⟩ := call_sound h hallowed
    exact ⟨k', hk', hsound⟩

theorem kernel_step_eq_some {k k' : Kernel} {e : Event} : kernel.step k e = some k' ↔ e.exec k = .ok k' := by
  cases h : e.exec k <;> simp [kernel, h, Except.toOption]

theorem run_sound {k₀ k : Kernel} {es : List Event} (hinit : Kernel.init = .ok k₀)
    (hallowed : kernel.Meets (fun k e => e.Allowed k) k₀ es) (hrun : kernel.run k₀ es = some k) : k.Sound := by
  refine Lts.run_invariant (fun k e k' hC hstep hk => ?_) hallowed ?_ hrun
  · obtain ⟨k'', hk'', hsound⟩ := exec_ok hk hC
    exact Except.ok.inj (hk''.symm.trans (kernel_step_eq_some.mp hstep)) ▸ hsound
  · obtain ⟨k, hk, hs, hcur⟩ := init_ok
    obtain rfl := Except.ok.inj (hinit.symm.trans hk)
    exact ⟨fun cur h => (nomatch hcur.symm.trans h), _, .inl hs⟩

/-- In every run from `nrk_init` the ready queue holds the READY tasks, each once and by priority; only the running task
    may be missing, between the halves of `nrk_terminate_task`. Nothing that the program around the kernel may do is
    undefined: no null pointer, no division by a period of zero, no list without an end. A tick switches to a READY task
    that no other one outranks. -/
theorem kernel_scheduled {k₀ k : Kernel} {es : List Event} (hinit : Kernel.init = .ok k₀)
    (hallowed : kernel.Meets (fun k e => e.Allowed k) k₀ es) (hrun : kernel.run k₀ es = some k) :
    (∃ ts, k.readyQ.Reps ts ∧ ts.Nodup ∧ (∀ t, t ∈ ts ↔ (k.tcb t).taskState = .ready ∧ t ∉ k.leaving) ∧
      ts.Pairwise fun a b => (k.tcb b).taskPrio ≤ (k.tcb a).taskPrio) ∧
    (∀ t ∈ k.leaving, k.curTask = some t) ∧
    (∀ e : Event, e.Allowed k → ∃ k', e.exec k = .ok k') ∧
    ∀ timer timer' k', (Event.tick timer timer').Allowed k → scheduler timer timer' k = .ok k' →
      ∃ cur, k'.curTask = some cur ∧ (k'.tcb cur).taskState = .ready ∧
        ∀ t, (k'.tcb t).taskState = .ready → (k'.tcb t).taskPrio ≤ (k'.tcb cur).taskPrio := by
  have hsound := run_sound hinit hallowed hrun
  refine ⟨?_, ?_, fun e he => ?_, fun timer timer' k' htick hk' => ?_⟩
  · obtain ⟨ts, hs | ⟨cur, hl⟩⟩ := hsound.queue
    · exact ⟨ts, hs.reps, hs.table.nodup, fun t => by simp [hs.table.ready, hs.leaving], hs.table.sorted⟩
    · exact ⟨ts, hl.finished.reps, hl.finished.table.nodup, hl.mem_iff, hl.sorted⟩
  · obtain ⟨ts, hs | ⟨cur, hl⟩⟩ := hsound.queue
    · simp [hs.leaving]
    · simp [hl.leaving, hl.curTask]
  · obtain ⟨k', hk', -⟩ := exec_ok hsound he
    exact ⟨k', hk'⟩
  · obtain ⟨ts, hs⟩ := hsound.scheduled_of_tick htick
    obtain ⟨cur, hcur, -⟩ := htick
    obtain ⟨k'', ts', id, hk'', hs', hcur'⟩ := scheduler_ok hs hcur (hsound.running cur hcur).1 timer timer'
    obtain rfl := Except.ok.inj (hk'.symm.trans hk'')
    refine ⟨id, hcur', (hs'.table.ready id).mp List.mem_cons_self, fun t ht => ?_⟩
    obtain rfl | hmem := List.mem_cons.mp ((hs'.table.ready t).mpr ht)
    · exact le_rfl
    · exact (List.pairwise_cons.mp hs'.table.sorted).1 t hmem

theorem kernel_scheduled_simpleTasks : ∃ k, kernel.run Kernel.booted simpleTasks = some k ∧
    (∃ ts, k.readyQ.Reps ts ∧ ts.Nodup ∧ (∀ t, t ∈ ts ↔ (k.tcb t).taskState = .ready ∧ t ∉ k.leaving) ∧
      ts.Pairwise fun a b => (k.tcb b).taskPrio ≤ (k.tcb a).taskPrio) ∧
    ∃ k', scheduler 0 0 k = .ok k' := by
  have hrun : (kernel.run Kernel.booted simpleTasks).isSome = true := by decide
  obtain ⟨k, hk⟩ := Option.isSome_iff_exists.mp hrun
  have hallowed : kernel.Meets (fun k e => e.Allowed k) Kernel.booted (simpleTasks ++ [.tick 0 0]) := by decide
  have htick : (Event.tick 0 0).Allowed k := hallowed simpleTasks (.tick 0 0) [] k rfl hk
  obtain ⟨hqueue, -, hexec, -⟩ := kernel_scheduled rfl (hallowed.initial (List.prefix_append _ _)) hk
  exact ⟨k, hk, hqueue, hexec (.tick 0 0) htick⟩

/-- A tick between the halves: `TaskTwo` stays READY with the highest priority, and `TaskOne` runs from then on. -/
example : (kernel.run Kernel.booted
    [.activate taskOne, .activate taskTwo, .start, .call 5 .terminateTask, .tick 0 0, .tick 0 0]).any (fun k =>
      (k.tcb 2).taskState = .ready ∧ (k.tcb 1).taskPrio < (k.tcb 2).taskPrio ∧ k.curTask = some 1) = true := by
  decide +kernel

end Glove.Nrk
