import Glove.Theorems.LoopRefinement

/-! The protocol between the main loop and the state machine. A gesture is read at rest and a motion or a
    timeout in a WAIT state; an IMU loop that ends delivers one of the two; and a pass of the outer loop
    sends at most one byte, right after the step that ended with `KEY_OUT`. -/

namespace Glove
open Mealy ImuFsm

/-- The nine `STATE_WAIT_*` states. -/
def IsWait (st : State) : Prop := st ≠ .stateDefault ∧ st ≠ .fnLayerActive

theorem isWait_of_window? {st : State} {w : Window} (h : window? st = some w) : IsWait st := by
  constructor <;> rintro rfl <;> cases h

/-- The event that a call of `run_state` is passed. -/
def Obs.input? : Obs → Option Event
  | .runState _ input _ _ => some input
  | .sent _ => none

/-- What the end of an IMU loop does. -/
def answerObs (f : Fsm) : Answer → List Obs
  | .motion m => Loop.runObs (f.withMotion m.toChar)
  | .timeout => [.runState f.curState .timeoutIn f.withTimeout.run.curState f.withTimeout.run.vars.data.event]

/-! ### One step -/

section Steps
variable {l : Loop} {f : Fsm}

/-- A step does nothing but wait or push, or reads a gesture at a top, or ends an IMU loop. -/
theorem loop_step_inv (l : Loop) (i : Input) :
    ((loop.step l i).2 = [] ∧ (loop.step l i).1.pc = l.pc) ∨
    (l.pc = .top ∧ ∃ c, (loop.step l i).2 = Loop.runObs (l.fsm.withGesture c) ∧
      ((loop.step l i).1.pc = .top ∨ ∃ w, (loop.step l i).1.pc = .imu w ∧ Opens l.fsm c w)) ∨
    (∃ w answer, l.pc = .imu w ∧ (loop.step l i).1.pc = .top ∧ (loop.step l i).2 = answerObs l.fsm answer) := by
  cases hpc : l.pc with
  | top =>
    cases i with
    | imu x => exact Or.inl (by simp [loop_step_imu_top hpc, hpc])
    | poll candidate =>
      rw [loop_step_poll hpc]
      cases hpush : Consensus.pushCandidate Consensus.consensusN l.consensusQueue candidate with
      | none => exact Or.inl (by simp [Loop.pollStep, hpush, hpc])
      | some res =>
        obtain ⟨_ | result, queue⟩ := res
        · exact Or.inl (by simp [Loop.pollStep, hpush, hpc])
        · refine Or.inr (Or.inl ⟨rfl, Sensing.firstChar result, ?_⟩)
          by_cases ho : ∃ w, Opens l.fsm (Sensing.firstChar result) w
          · obtain ⟨w, ho⟩ := ho
            rw [pollStep_opens hpush ho]
            exact ⟨rfl, Or.inr ⟨w, rfl, ho⟩⟩
          · rw [(pollStep_whole hpush (fun w hw => ho ⟨w, hw⟩) .timeout).1]
            exact ⟨rfl, Or.inl hpc⟩
  | imu w =>
    cases i with
    | poll candidate => exact Or.inl (by simp [loop_step_poll_imu hpc, hpc])
    | imu x =>
      rw [loop_step_imu hpc]
      cases hbranch : imuBranch w l.fsm.curState x with
      | none => exact Or.inl (by rw [imuStep_none hbranch]; exact ⟨rfl, hpc⟩)
      | some answer =>
        refine Or.inr (Or.inr ⟨w, answer, rfl, ?_, ?_⟩) <;> cases answer <;> simp only [Loop.imuStep, hbranch] <;> rfl

theorem runObs_cases (f : Fsm) :
    Loop.runObs f = [.runState f.curState f.vars.data.event f.run.curState f.run.vars.data.event] ∨
    ∃ byte, Loop.runObs f = [.runState f.curState f.vars.data.event f.run.curState .keyOut, .sent byte] := by
  unfold Loop.runObs
  cases hkey : f.run.keyOut? with
  | none => exact Or.inl rfl
  | some byte => exact Or.inr ⟨byte, by rw [(Fsm.keyOut?_eq_some.mp hkey).1]⟩

theorem answerObs_cases (f : Fsm) (answer : Answer) :
    ∃ input st output, (input = .motionIn ∨ input = .timeoutIn) ∧
      (answerObs f answer = [.runState f.curState input st output] ∨
        ∃ byte, answerObs f answer = [.runState f.curState input st .keyOut, .sent byte]) := by
  cases answer with
  | motion m =>
    rcases runObs_cases (f.withMotion m.toChar) with h | ⟨byte, h⟩
    · exact ⟨.motionIn, _, _, Or.inl rfl, Or.inl h⟩
    · exact ⟨.motionIn, _, .keyOut, Or.inl rfl, Or.inr ⟨byte, h⟩⟩
  | timeout => exact ⟨.timeoutIn, _, _, Or.inr rfl, Or.inl rfl⟩

theorem answerObs_inputs (f : Fsm) (answer : Answer) :
    (answerObs f answer).filterMap Obs.input? = [.motionIn] ∨
      (answerObs f answer).filterMap Obs.input? = [.timeoutIn] := by
  obtain ⟨input, st, output, rfl | rfl, h | ⟨byte, h⟩⟩ := answerObs_cases f answer <;> rw [h]
  · exact Or.inl rfl
  · exact Or.inl rfl
  · exact Or.inr rfl
  · exact Or.inr rfl

/-- A step sends at most one byte, right after a call that ends with `KEY_OUT`. -/
theorem loop_step_sent (l : Loop) (i : Input) {byte : Char} (h : .sent byte ∈ (loop.step l i).2) :
    ∃ st input st', (loop.step l i).2 = [.runState st input st' .keyOut, .sent byte] := by
  have hobs : (loop.step l i).2 = [] ∨ (∃ st input st' output, (loop.step l i).2 = [.runState st input st' output]) ∨
      ∃ st input st' byte', (loop.step l i).2 = [.runState st input st' .keyOut, .sent byte'] := by
    rcases loop_step_inv l i with ⟨hobs, -⟩ | ⟨-, c, hobs, -⟩ | ⟨w, answer, -, -, hobs⟩
    · exact Or.inl hobs
    · rcases runObs_cases (l.fsm.withGesture c) with h' | ⟨byte', h'⟩
      · exact Or.inr (Or.inl ⟨_, _, _, _, hobs.trans h'⟩)
      · exact Or.inr (Or.inr ⟨_, _, _, byte', hobs.trans h'⟩)
    · obtain ⟨input, st, output, -, h' | ⟨byte', h'⟩⟩ := answerObs_cases l.fsm answer
      · exact Or.inr (Or.inl ⟨_, _, _, _, hobs.trans h'⟩)
      · exact Or.inr (Or.inr ⟨_, _, _, byte', hobs.trans h'⟩)
  rcases hobs with hobs | ⟨st, input, st', output, hobs⟩ | ⟨st, input, st', byte', hobs⟩ <;> rw [hobs] at h ⊢
  · cases h
  · simp at h
  · obtain rfl : byte = byte' := by simpa using h
    exact ⟨st, input, st', rfl⟩

theorem loop_step_bytes (l : Loop) (i : Input) : ((loop.step l i).2.filterMap Obs.byte?).length ≤ 1 := by
  by_cases h : ∃ byte, .sent byte ∈ (loop.step l i).2
  · obtain ⟨byte, h⟩ := h
    obtain ⟨st, input, st', hobs⟩ := loop_step_sent l i h
    rw [hobs]
    exact Nat.le_refl 1
  · have hnil : (loop.step l i).2.filterMap Obs.byte? = [] := by
      rw [List.filterMap_eq_nil_iff]
      intro o ho
      cases o with
      | runState => rfl
      | sent byte => exact absurd ⟨byte, ho⟩ h
    rw [hnil]
    exact Nat.zero_le 1

theorem loop_step_opens {i : Input} {w : Window} (htop : l.pc = .top) (hopen : (loop.step l i).1.pc = .imu w) :
    (loop.step l i).2.filterMap Obs.byte? = [] := by
  rcases loop_step_inv l i with ⟨-, hpc⟩ | ⟨-, c, hobs, hpc | ⟨w', -, ho⟩⟩ | ⟨w', answer, himu, -, -⟩
  · rw [hpc, htop] at hopen
    cases hopen
  · rw [hpc] at hopen
    cases hopen
  · rw [hobs, filterMap_runObs, ho.quiet]
    rfl
  · rw [htop] at himu
    cases himu

end Steps

/-! ### IMU loops and passes of the outer loop -/

section Segments
variable {l : Loop}

/-- The inputs `seg` are read without a top in between. -/
def Inside (l : Loop) (seg : List Input) : Prop := ∀ p, p <+: seg → p ≠ seg → (loop.after l p).pc ≠ .top

theorem Inside.tail {i : Input} {seg : List Input} (h : Inside l (i :: seg)) : Inside (loop.step l i).1 seg :=
  fun p hp hne => h (i :: p) (List.cons_prefix_cons.mpr ⟨rfl, hp⟩) fun heq => hne (List.cons.inj heq).2

/-- Inside an IMU loop nothing happens until the pass that ends it. -/
theorem imu_segment {w : Window} {seg : List Input} (hpc : l.pc = .imu w) (hin : Inside l seg) :
    (loop.outputs l seg = [] ∧ (loop.after l seg).pc = .imu w) ∨
    ((loop.after l seg).pc = .top ∧ ∃ f answer, loop.outputs l seg = answerObs f answer) := by
  induction seg generalizing l with
  | nil => exact Or.inl ⟨rfl, hpc⟩
  | cons i seg ih =>
    rw [outputs_cons, after_cons]
    rcases loop_step_inv l i with ⟨hobs, hpc'⟩ | ⟨htop, -⟩ | ⟨w', answer, -, htop, hobs⟩
    · rw [hobs]
      exact ih (hpc'.trans hpc) hin.tail
    · rw [hpc] at htop
      cases htop
    · -- The loop is at a top, so the segment ends here.
      have hnil : seg = [] := by
        by_contra hne
        exact hin.tail [] List.nil_prefix (Ne.symm hne) htop
      subst hnil
      exact Or.inr ⟨htop, l.fsm, answer, by rw [hobs, outputs_nil, List.append_nil]⟩

theorem imu_segment_bytes {w : Window} {seg : List Input} (hpc : l.pc = .imu w) (hin : Inside l seg) :
    ((loop.outputs l seg).filterMap Obs.byte?).length ≤ 1 := by
  rcases imu_segment hpc hin with ⟨hobs, -⟩ | ⟨-, f, answer, hobs⟩ <;> rw [hobs]
  · exact Nat.zero_le 1
  · obtain ⟨input, st, output, -, h | ⟨byte, h⟩⟩ := answerObs_cases f answer <;> rw [h]
    · exact Nat.zero_le 1
    · exact Nat.le_refl 1

/-- The inputs of one pass of the outer loop: no top in between, after the first. -/
def Pass (l : Loop) (seg : List Input) : Prop :=
  ∀ p, p <+: seg → p ≠ [] → p ≠ seg → (loop.after l p).pc ≠ .top

theorem pass_bytes {seg : List Input} (htop : l.pc = .top) (hpass : Pass l seg) :
    ((loop.outputs l seg).filterMap Obs.byte?).length ≤ 1 := by
  cases seg with
  | nil => exact Nat.zero_le 1
  | cons i seg =>
    rw [outputs_cons, List.filterMap_append, List.length_append]
    have hin : Inside (loop.step l i).1 seg := fun p hp hne =>
      hpass (i :: p) (List.cons_prefix_cons.mpr ⟨rfl, hp⟩) (List.cons_ne_nil _ _) fun heq => hne (List.cons.inj heq).2
    cases hpc : (loop.step l i).1.pc with
    | top =>
      have hnil : seg = [] := by
        by_contra hne
        exact hin [] List.nil_prefix (Ne.symm hne) hpc
      subst hnil
      exact loop_step_bytes l i
    | imu w =>
      rw [loop_step_opens htop hpc]
      simpa using imu_segment_bytes hpc hin

end Segments

/-! ### Runs -/

theorem reads_all (l : Loop) (i : Input) : Reads (fun _ => True) (fun _ => True) l i :=
  ⟨fun _ _ => trivial, fun _ _ _ _ _ _ => trivial⟩

theorem loop_follows (data : InstanceData) (is : List Input) :
    ∃ f, Follows (fun _ => True) (loop.after (Loop.init data) is) f := by
  obtain ⟨ss, hfol, -⟩ := loop_run (A := fun _ => True) trivial (init_follows data) is fun x _ => reads_all _ _
  exact ⟨_, hfol⟩

theorem top_atRest (data : InstanceData) (is : List Input) (htop : (loop.after (Loop.init data) is).pc = .top) :
    (loop.after (Loop.init data) is).fsm.AtRest ∧ (loop.after (Loop.init data) is).timer = ⟨false, 0⟩ := by
  obtain ⟨f, hfol⟩ := loop_follows data is
  obtain ⟨heq, htimer⟩ := hfol.top htop
  exact ⟨heq ▸ hfol.atRest, htimer⟩

theorem call_state (data : InstanceData) (is : List Input) {st st' : State} {input output : Event}
    (h : .runState st input st' output ∈ loop.outputs (Loop.init data) is) :
    (input = .gestureIn ∧ (st = .stateDefault ∨ st = .fnLayerActive)) ∨
      ((input = .motionIn ∨ input = .timeoutIn) ∧ IsWait st) := by
  obtain ⟨x, hx, ho⟩ := List.mem_flatMap.mp h
  obtain ⟨pre, i, post, rfl, rfl⟩ := mem_trace_iff.mp hx
  obtain ⟨f, hfol⟩ := loop_follows data pre
  rcases loop_step_inv (loop.after (Loop.init data) pre) i with ⟨hobs, -⟩ | ⟨htop, c, hobs, -⟩ |
    ⟨w, answer, himu, -, hobs⟩
  · simp only [hobs] at ho
    cases ho
  · simp only [hobs] at ho
    have hrest : (loop.after (Loop.init data) pre).fsm.AtRest := (hfol.top htop).1 ▸ hfol.atRest
    left
    rcases runObs_cases ((loop.after (Loop.init data) pre).fsm.withGesture c) with h' | ⟨byte, h'⟩ <;>
      rw [h'] at ho <;> simp only [List.mem_cons, List.not_mem_nil, or_false, reduceCtorEq] at ho <;> cases ho <;>
      exact ⟨rfl, hrest⟩
  · simp only [hobs] at ho
    obtain ⟨c, -, hopen, hl⟩ := hfol.imu w himu
    have hwait : IsWait (loop.after (Loop.init data) pre).fsm.curState := by
      rw [hl]
      exact isWait_of_window? hopen.window
    right
    obtain ⟨input', st'', output', hin, h' | ⟨byte, h'⟩⟩ :=
        answerObs_cases (loop.after (Loop.init data) pre).fsm answer <;>
      rw [h'] at ho <;> simp only [List.mem_cons, List.not_mem_nil, or_false, reduceCtorEq] at ho <;> cases ho <;>
      exact ⟨hin, hwait⟩

/-- In every run of the loop, for all candidates, comparisons and timer readings. -/
theorem loop_protocol (data : InstanceData) (is : List Input) :
    ((loop.after (Loop.init data) is).pc = .top →
      (loop.after (Loop.init data) is).fsm.AtRest ∧ (loop.after (Loop.init data) is).timer = ⟨false, 0⟩) ∧
    (∀ st input st' output, .runState st input st' output ∈ loop.outputs (Loop.init data) is →
      (input = .gestureIn ∧ (st = .stateDefault ∨ st = .fnLayerActive)) ∨
        ((input = .motionIn ∨ input = .timeoutIn) ∧ IsWait st)) ∧
    (∀ w seg, (loop.after (Loop.init data) is).pc = .imu w → Inside (loop.after (Loop.init data) is) seg →
      (loop.after (loop.after (Loop.init data) is) seg).pc = .top →
        (loop.outputs (loop.after (Loop.init data) is) seg).filterMap Obs.input? = [.motionIn] ∨
        (loop.outputs (loop.after (Loop.init data) is) seg).filterMap Obs.input? = [.timeoutIn]) ∧
    (∀ seg, (loop.after (Loop.init data) is).pc = .top → Pass (loop.after (Loop.init data) is) seg →
      ((loop.outputs (loop.after (Loop.init data) is) seg).filterMap Obs.byte?).length ≤ 1) ∧
    (∀ i byte, .sent byte ∈ (loop.step (loop.after (Loop.init data) is) i).2 → ∃ st input st',
      (loop.step (loop.after (Loop.init data) is) i).2 = [.runState st input st' .keyOut, .sent byte]) := by
  refine ⟨top_atRest data is, fun st input st' output h => call_state data is h, fun w seg hpc hin htop => ?_,
    fun seg htop hpass => pass_bytes htop hpass, fun i byte h => loop_step_sent _ i h⟩
  rcases imu_segment hpc hin with ⟨-, himu⟩ | ⟨-, f, answer, hobs⟩
  · rw [htop] at himu
    cases himu
  · rw [hobs]
    exact answerObs_inputs f answer

end Glove
