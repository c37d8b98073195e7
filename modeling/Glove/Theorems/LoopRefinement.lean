import Glove.Theorems.History
import Glove.Theorems.Consensus

/-! The loop over candidates runs macro-steps. Between two tops it polls, and a consensus is a macro-step
    whose answer, if it opens an IMU loop, is the branch that ends the IMU loop. -/

namespace Glove
open Mealy ImuFsm Consensus Sensing

/-- A gesture that opens the IMU loop `w` from `f`. -/
structure Opens (f : Fsm) (c : Char) (w : Window) : Prop where
  quiet : (f.withGesture c).run.keyOut? = none
  window : window? (f.withGesture c).run.curState = some w

theorem Opens.macroStep {f : Fsm} {c : Char} {w : Window} (h : Opens f c w) (answer : Answer) :
    f.macroStep ⟨c, answer⟩ = (f.withGesture c).run.answered answer := by
  simp only [Fsm.macroStep, h.quiet, h.window]

/-- An answer that the IMU loop can give in the state the gesture leads to. -/
def Deliverable (f : Fsm) (s : MacroStep) : Prop :=
  ∀ w, window? (f.withGesture s.gesture).run.curState = some w →
    ∃ x, imuBranch w (f.withGesture s.gesture).run.curState x = some s.answer

/-- The machine at the last top: the loop is there, or in the IMU loop that a gesture opened. -/
structure Follows (P : Char → Prop) (l : Loop) (f : Fsm) : Prop where
  atRest : f.AtRest
  top : l.pc = .top → l.fsm = f ∧ l.timer = ⟨false, 0⟩
  imu : ∀ w, l.pc = .imu w → ∃ c, P c ∧ Opens f c w ∧ l.fsm = (f.withGesture c).run

/-- The inputs of a step: candidates whose first character is one of `P`, and IMU loops that end with
    an answer of `A`. -/
structure Reads (P : Char → Prop) (A : Answer → Prop) (l : Loop) (i : Input) : Prop where
  poll : ∀ candidate, i = .poll candidate → P (firstChar candidate)
  imu : ∀ w x answer, l.pc = .imu w → i = .imu x → imuBranch w l.fsm.curState x = some answer → A answer

/-- The macro-steps of a run that reads candidates of `P` and answers of `A`. -/
structure Allowed (P : Char → Prop) (A : Answer → Prop) (f : Fsm) (s : MacroStep) : Prop where
  gesture : P s.gesture
  answer : A s.answer
  deliverable : Deliverable f s

section Steps
variable {P : Char → Prop} {A : Answer → Prop} {l : Loop} {f : Fsm}

theorem filterMap_runObs (f : Fsm) : (Loop.runObs f).filterMap Obs.byte? = f.run.keyOut?.toList := by
  unfold Loop.runObs
  cases f.run.keyOut? <;> rfl

theorem pollStep_none {candidate : String} {queue : List String}
    (h : pushCandidate consensusN l.consensusQueue candidate = some (none, queue)) :
    l.pollStep candidate = ({ l with consensusQueue := queue }, []) := by
  simp only [Loop.pollStep, h]

theorem pollStep_opens {candidate result : String} {queue : List String} {w : Window}
    (h : pushCandidate consensusN l.consensusQueue candidate = some (some result, queue))
    (ho : Opens l.fsm (firstChar result) w) :
    l.pollStep candidate = ({ l with
      consensusQueue := queue, fsm := (l.fsm.withGesture (firstChar result)).run, pc := .imu w,
      timer := l.timer.start }, Loop.runObs (l.fsm.withGesture (firstChar result))) := by
  simp only [Loop.pollStep, h, ho.quiet, ho.window, Option.isSome_none, Bool.false_eq_true, if_false]

theorem pollStep_whole {candidate result : String} {queue : List String}
    (h : pushCandidate consensusN l.consensusQueue candidate = some (some result, queue))
    (ho : ∀ w, ¬Opens l.fsm (firstChar result) w) (answer : Answer) :
    l.pollStep candidate = ({ l with
      consensusQueue := queue, fsm := (l.fsm.macroStep ⟨firstChar result, answer⟩).1 },
        Loop.runObs (l.fsm.withGesture (firstChar result))) ∧
      (l.fsm.withGesture (firstChar result)).run.keyOut?.toList = (l.fsm.macroStep ⟨firstChar result, answer⟩).2 := by
  cases hkey : (l.fsm.withGesture (firstChar result)).run.keyOut? with
  | some byte => simp [Loop.pollStep, Fsm.macroStep, h, hkey]
  | none =>
    cases hwin : window? (l.fsm.withGesture (firstChar result)).run.curState with
    | some w => exact absurd ⟨hkey, hwin⟩ (ho w)
    | none => simp [Loop.pollStep, Fsm.macroStep, h, hkey, hwin]

/-- The pass that ends an IMU loop is the end of the macro-step that opened it. -/
theorem imuStep_answer {c : Char} {w : Window} {x : ImuSample} {answer : Answer} (ho : Opens f c w)
    (hl : l.fsm = (f.withGesture c).run) (hbranch : imuBranch w l.fsm.curState x = some answer) :
    (l.imuStep w x).1 =
        { l with pc := .top, fsm := (f.macroStep ⟨c, answer⟩).1, timer := ⟨false, 0⟩ } ∧
      (l.imuStep w x).2.filterMap Obs.byte? = (f.macroStep ⟨c, answer⟩).2 := by
  rw [ho.macroStep, ← hl]
  cases answer with
  | motion m =>
    simp only [Loop.imuStep, hbranch]
    exact ⟨rfl, filterMap_runObs _⟩
  | timeout =>
    simp only [Loop.imuStep, hbranch]
    exact ⟨rfl, rfl⟩

theorem imuStep_none {w : Window} {x : ImuSample} (hbranch : imuBranch w l.fsm.curState x = none) :
    l.imuStep w x = ({ l with timer := { l.timer with elapsedMs := x.readMs } }, []) := by
  simp only [Loop.imuStep, hbranch]

theorem Follows.withQueue (h : Follows P l f) (queue : List String) :
    Follows P { l with consensusQueue := queue } f := ⟨h.atRest, h.top, h.imu⟩

theorem poll_refines (hA : A .timeout) (h : Follows P l f) (hpc : l.pc = .top) {candidate : String}
    (hP : P (firstChar candidate)) :
    ∃ js, Follows P (l.pollStep candidate).1 (glove.after f js) ∧
      (l.pollStep candidate).2.filterMap Obs.byte? = glove.outputs f js ∧
      ∀ x ∈ glove.trace f js, Allowed P A x.before x.input := by
  obtain ⟨rfl, htimer⟩ := h.top hpc
  cases hpush : pushCandidate consensusN l.consensusQueue candidate with
  | none =>
    have hstep : l.pollStep candidate = (l, []) := by simp only [Loop.pollStep, hpush]
    rw [hstep]
    exact ⟨[], h, rfl, fun x hx => nomatch hx⟩
  | some res =>
    obtain ⟨_ | result, queue⟩ := res
    · rw [pollStep_none hpush]
      exact ⟨[], h.withQueue queue, rfl, fun x hx => nomatch hx⟩
    · obtain rfl := pushCandidate_result hpush
      by_cases ho : ∃ w, Opens l.fsm (firstChar result) w
      · obtain ⟨w, ho⟩ := ho
        rw [pollStep_opens hpush ho]
        refine ⟨[], ⟨h.atRest, fun htop => ?_, fun w' hw => ?_⟩, ?_, fun x hx => nomatch hx⟩
        · cases htop
        · cases hw
          exact ⟨_, hP, ho, rfl⟩
        · rw [filterMap_runObs, ho.quiet]
          rfl
      · have ho : ∀ w, ¬Opens l.fsm (firstChar result) w := fun w hw => ho ⟨w, hw⟩
        obtain ⟨hstep, hsends⟩ := pollStep_whole hpush ho .timeout
        rw [hstep]
        refine ⟨[⟨firstChar result, .timeout⟩], ⟨(h.atRest.performs _).atRest, fun _ => ⟨rfl, htimer⟩, fun w hw => ?_⟩,
          ?_, fun x hx => ?_⟩
        · rw [hpc] at hw
          cases hw
        · rw [filterMap_runObs, hsends]
          exact (List.append_nil _).symm
        · obtain rfl := List.mem_singleton.mp hx
          refine ⟨hP, hA, fun w hw => ?_⟩
          -- A state that opens an IMU loop is a WAIT state, and no `KEY_OUT` leads there.
          cases hkey : (l.fsm.withGesture (firstChar result)).run.keyOut? with
          | none => exact absurd ⟨hkey, hw⟩ (ho w)
          | some byte =>
            have hrest := (h.atRest.performs ⟨firstChar result, .timeout⟩).atRest
            simp only [Fsm.macroStep, hkey] at hrest
            rw [hrest.window?_eq_none] at hw
            cases hw

theorem imu_refines (h : Follows P l f) {w : Window} (hpc : l.pc = .imu w) {x : ImuSample}
    (hA : ∀ answer, imuBranch w l.fsm.curState x = some answer → A answer) :
    ∃ js, Follows P (l.imuStep w x).1 (glove.after f js) ∧
      (l.imuStep w x).2.filterMap Obs.byte? = glove.outputs f js ∧
      ∀ y ∈ glove.trace f js, Allowed P A y.before y.input := by
  obtain ⟨c, hP, ho, hl⟩ := h.imu w hpc
  cases hbranch : imuBranch w l.fsm.curState x with
  | none =>
    rw [imuStep_none hbranch]
    refine ⟨[], ⟨h.atRest, fun htop => ?_, h.imu⟩, rfl, fun y hy => nomatch hy⟩
    rw [hpc] at htop
    cases htop
  | some answer =>
    obtain ⟨hstep, hsends⟩ := imuStep_answer ho hl hbranch
    rw [hstep, hsends]
    refine ⟨[⟨c, answer⟩], ⟨(h.atRest.performs _).atRest, fun _ => ⟨rfl, rfl⟩, fun w hw => nomatch hw⟩,
      (List.append_nil _).symm, fun y hy => ?_⟩
    obtain rfl := List.mem_singleton.mp hy
    refine ⟨hP, hA answer hbranch, fun w' hw' => ?_⟩
    rw [ho.window] at hw'
    cases hw'
    exact ⟨x, hl ▸ hbranch⟩

end Steps

variable {P : Char → Prop} {A : Answer → Prop}

theorem loop_refines (hA : A .timeout) :
    Refines loop glove Obs.byte? (Follows P) (Reads P A) (Allowed P A) := by
  intro l f i h hreads
  have hskip : loop.step l i = (l, []) → ∃ js, Follows P (loop.step l i).1 (glove.after f js) ∧
      (loop.step l i).2.filterMap Obs.byte? = glove.outputs f js ∧
      ∀ x ∈ glove.trace f js, Allowed P A x.before x.input := by
    intro hstep
    rw [hstep]
    exact ⟨[], h, rfl, fun x hx => nomatch hx⟩
  cases hpc : l.pc with
  | top =>
    cases i with
    | poll candidate =>
      rw [loop_step_poll hpc]
      exact poll_refines hA h hpc (hreads.poll candidate rfl)
    | imu x => exact hskip (loop_step_imu_top hpc)
  | imu w =>
    cases i with
    | poll candidate => exact hskip (loop_step_poll_imu hpc)
    | imu x =>
      rw [loop_step_imu hpc]
      exact imu_refines h hpc fun answer => hreads.imu w x answer hpc rfl

theorem init_follows (data : InstanceData) : Follows P (Loop.init data) (Fsm.init data) :=
  ⟨init_atRest data, fun _ => ⟨rfl, rfl⟩, fun _ hw => nomatch hw⟩

/-- Every run of the loop is a run of macro-steps that sends the same bytes; at a top the state machine
    is where the macro-steps leave it. -/
theorem loop_run (hA : A .timeout) {l : Loop} {f : Fsm} (h : Follows P l f) (is : List Input)
    (hreads : ∀ x ∈ loop.trace l is, Reads P A x.before x.input) :
    ∃ ss, Follows P (loop.after l is) (glove.after f ss) ∧
      (loop.outputs l is).filterMap Obs.byte? = glove.outputs f ss ∧
      ∀ x ∈ glove.trace f ss, Allowed P A x.before x.input :=
  (loop_refines hA).run h is hreads

end Glove
