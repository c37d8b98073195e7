import Glove.Theorems.Typable
import Glove.Theorems.Polling
import Glove.Theorems.HandOff

/-! Signing a text. Every text over the keys is a sequence of macro-steps, each of them four candidates and at most one
    motion, and each candidate six samples; so there are samples on which the glove sends the text, and the
    host types it. -/

namespace Glove
open Mealy ImuFsm Consensus Sensing

/-! ### The macro-steps of a text -/

/-- The macro-steps that sign a text from the letter layer. -/
def signing (text : List Char) : List MacroStep := text.flatMap fun key => typing .letters key ++ [keyStep key]

theorem keyboard_types {key : Char} (hkey : key ∈ typable) {k : Keyboard} (hk : k.layer = .letters) :
    keyboard.outputs k (typing .letters key ++ [keyStep key]) = [key] ∧
      (keyboard.after k (typing .letters key ++ [keyStep key])).layer = .letters := by
  have hall : ∀ repeated, typable.all (fun key =>
      let k : Keyboard := ⟨.letters, '.', repeated⟩
      let rest := (if key ∈ digits then [shiftStep] else []) ++ [keyStep key]
      keyboard.outputs k rest = [key] ∧ (keyboard.after k rest).layer = .letters) = true := by
    intro repeated
    cases repeated <;> decide
  obtain ⟨layer, remembered, repeated⟩ := k
  cases hk
  -- The clear sends nothing, and what was remembered does not matter after it.
  have hrest := of_decide_eq_true (List.all_eq_true.mp (hall repeated) key hkey)
  exact hrest

theorem keyboard_signs {text : List Char} (htext : ∀ key ∈ text, key ∈ typable) {k : Keyboard} (hk : k.layer = .letters) :
    keyboard.outputs k (signing text) = text := by
  induction text generalizing k with
  | nil => rfl
  | cons key text ih =>
    obtain ⟨hout, hlayer⟩ := keyboard_types (htext key List.mem_cons_self) hk
    rw [signing, List.flatMap_cons, outputs_append, hout]
    exact congrArg (key :: ·) (ih (fun key hkey => htext key (List.mem_cons_of_mem _ hkey)) hlayer)

/-- A sign of the table and a motion; the gyroscope is read after 'j' only. -/
def Signed (s : MacroStep) : Prop := s.gesture ∈ signs ∧ s.answer ≠ .timeout ∧ (s.answer = .motion .g → s.gesture = 'j')

instance (s : MacroStep) : Decidable (Signed s) := inferInstanceAs (Decidable (_ ∧ _ ∧ (_ → _)))

theorem Fsm.AtRest.trace_signable {f : Fsm} (hf : f.AtRest) {ss : List MacroStep} (hss : ∀ s ∈ ss, Signed s) :
    ∀ x ∈ glove.trace f ss, Signable x.before x.input := by
  intro x hx
  obtain ⟨pre, s, post, rfl, rfl⟩ := mem_trace_iff.mp hx
  obtain ⟨hsign, hmotion, hg⟩ := hss s (by simp)
  obtain ⟨c, m | _⟩ := s
  · exact (hf.after pre).signable hsign fun hm => hg (congrArg Answer.motion hm)
  · exact absurd rfl hmotion

theorem signing_signed {text : List Char} (htext : ∀ key ∈ text, key ∈ typable) : ∀ s ∈ signing text, Signed s := by
  intro s hs
  obtain ⟨key, hkey, hs⟩ := List.mem_flatMap.mp hs
  exact typing_signs .letters (htext key hkey) hs

/-! ### The inputs of a macro-step -/

/-- The loop is at a top with an empty queue. -/
structure AtTop (l : Loop) (f : Fsm) : Prop where
  pc : l.pc = .top
  queue : l.consensusQueue = []
  fsm : l.fsm = f

/-- A step that reads what control is waiting for, and only signs of the table. -/
def Fits (l : Loop) : Input → Prop
  | .poll candidate => l.pc = .top ∧ candidate ∈ keys.map (·.key)
  | .imu _ => l.pc ≠ .top

theorem singleton_mem {c : Char} (hc : c ∈ signs) : String.singleton c ∈ keys.map (·.key) := by
  have hall : signs.all (fun c => String.singleton c ∈ keys.map (·.key)) = true := by decide
  exact of_decide_eq_true (List.all_eq_true.mp hall c hc)

theorem firstChar_singleton (c : Char) : firstChar (String.singleton c) = c := by simp [firstChar]

section Inputs
variable {l : Loop} {f : Fsm} {s : MacroStep}

/-- Every step of the run on `is` fits. -/
def AllFit (l : Loop) (is : List Input) : Prop := ∀ x ∈ loop.trace l is, Fits x.before x.input

theorem allFit_nil : AllFit l [] := fun _ hx => absurd hx List.not_mem_nil

theorem allFit_cons {i : Input} {is : List Input} (hi : Fits l i) (his : AllFit (loop.step l i).1 is) :
    AllFit l (i :: is) := fun x hx => by
  rcases List.mem_cons.mp hx with rfl | hx
  · exact hi
  · exact his x hx

theorem AllFit.append {is js : List Input} (his : AllFit l is) (hjs : AllFit (loop.after l is) js) :
    AllFit l (is ++ js) := by
  intro x hx
  rw [trace_append] at hx
  rcases List.mem_append.mp hx with hx | hx
  · exact his x hx
  · exact hjs x hx

/-- Candidates short of a consensus only fill the queue. -/
theorem polls_short {c : Char} {n : Nat} (hc : c ∈ signs) (hpc : l.pc = .top)
    (hlen : l.consensusQueue.length + n < consensusN) :
    let is := List.replicate n (Input.poll (String.singleton c))
    AllFit l is ∧ loop.outputs l is = [] ∧
      loop.after l is = { l with consensusQueue := l.consensusQueue ++ List.replicate n (String.singleton c) } := by
  induction n generalizing l with
  | zero => exact ⟨allFit_nil, rfl, by simp⟩
  | succ n ih =>
    have hpush : pushCandidate consensusN l.consensusQueue (String.singleton c) =
        some (none, l.consensusQueue ++ [String.singleton c]) := pushCandidate_short (by omega)
    have hstep : loop.step l (.poll (String.singleton c)) =
        ({ l with consensusQueue := l.consensusQueue ++ [String.singleton c] }, []) := by
      rw [loop_step_poll hpc, pollStep_none hpush]
    obtain ⟨hfit, hout, hafter⟩ := ih (l := (loop.step l (.poll (String.singleton c))).1)
      (by rw [hstep]; exact hpc) (by rw [hstep]; simp; omega)
    refine ⟨allFit_cons ⟨hpc, singleton_mem hc⟩ hfit, ?_, ?_⟩
    · rw [List.replicate_succ, outputs_cons, hout, hstep]
      rfl
    · rw [List.replicate_succ, after_cons, hafter, hstep]
      simp [List.replicate_succ]

/-- The candidate that makes the consensus, and the pass of the IMU loop that it opens. -/
theorem consensus_inputs (hpc : l.pc = .top) (hs : Signable l.fsm s)
    (hpush : pushCandidate consensusN l.consensusQueue (String.singleton s.gesture) =
      some (some (String.singleton s.gesture), [])) :
    ∃ is, AllFit l is ∧ AtTop (loop.after l is) (l.fsm.macroStep s).1 ∧
      (loop.outputs l is).filterMap Obs.byte? = (l.fsm.macroStep s).2 := by
  obtain ⟨hsign, -, hdeliverable⟩ := hs
  have hpoll : Fits l (.poll (String.singleton s.gesture)) := ⟨hpc, singleton_mem hsign⟩
  by_cases ho : ∃ w, Opens l.fsm s.gesture w
  · obtain ⟨w, ho⟩ := ho
    obtain ⟨x, hbranch⟩ := hdeliverable w ho.window
    have hopen := pollStep_opens hpush (by rw [firstChar_singleton]; exact ho)
    rw [firstChar_singleton, ← loop_step_poll hpc] at hopen
    generalize hl' : ({ l with
      consensusQueue := [], fsm := (l.fsm.withGesture s.gesture).run, pc := .imu w,
      timer := l.timer.start } : Loop) = l' at hopen
    have hpc' : l'.pc = .imu w := by rw [← hl']
    have hfsm' : l'.fsm = (l.fsm.withGesture s.gesture).run := by rw [← hl']
    have hqueue' : l'.consensusQueue = [] := by rw [← hl']
    obtain ⟨hstep, hobs⟩ := imuStep_answer ho hfsm' (hfsm' ▸ hbranch)
    refine ⟨[.poll (String.singleton s.gesture), .imu x], ?_, ?_, ?_⟩
    · refine allFit_cons hpoll (allFit_cons ?_ allFit_nil)
      rw [hopen]
      exact fun htop => by rw [hpc'] at htop; cases htop
    · rw [after_cons, hopen, after_cons, loop_step_imu hpc', hstep]
      exact ⟨rfl, hqueue', rfl⟩
    · rw [outputs_cons, hopen, outputs_cons, loop_step_imu hpc', List.filterMap_append, filterMap_runObs, ho.quiet]
      simpa using hobs
  · -- No IMU loop is opened, so the answer is not read.
    have ho : ∀ w, ¬Opens l.fsm (firstChar (String.singleton s.gesture)) w := fun w hw =>
      ho ⟨w, by rwa [firstChar_singleton] at hw⟩
    obtain ⟨hstep, hsends⟩ := pollStep_whole hpush ho s.answer
    rw [firstChar_singleton, ← loop_step_poll hpc] at hstep
    rw [firstChar_singleton] at hsends
    refine ⟨[.poll (String.singleton s.gesture)], allFit_cons hpoll allFit_nil, ?_, ?_⟩
    · rw [after_cons, hstep]
      exact ⟨hpc, rfl, rfl⟩
    · rw [outputs_cons, hstep, outputs_nil, List.append_nil, filterMap_runObs]
      exact hsends

/-- Four candidates of a sign and at most one pass of an IMU loop are the macro-step. -/
theorem macroStep_inputs (hl : AtTop l f) (hs : Signable f s) :
    ∃ is, AllFit l is ∧ AtTop (loop.after l is) (f.macroStep s).1 ∧
      (loop.outputs l is).filterMap Obs.byte? = (f.macroStep s).2 := by
  obtain ⟨hpc, hqueue, rfl⟩ := hl
  obtain ⟨hfit, hout, hafter⟩ := polls_short (l := l) (n := 3) hs.sign hpc (by rw [hqueue]; decide)
  generalize hl' : loop.after l (List.replicate 3 (.poll (String.singleton s.gesture))) = l' at hafter
  have hfsm' : l'.fsm = l.fsm := by rw [hafter]
  have hqueue' : l'.consensusQueue = List.replicate 3 (String.singleton s.gesture) := by rw [hafter, hqueue]; rfl
  have hfull : ¬l'.consensusQueue.length + 1 < consensusN := by
    rw [hqueue', List.length_replicate]
    decide
  have hpush : pushCandidate consensusN l'.consensusQueue (String.singleton s.gesture) =
      some (some (String.singleton s.gesture), []) :=
    pushCandidate_agree hfull fun x hx => by rw [hqueue'] at hx; exact (List.mem_replicate.mp hx).2
  obtain ⟨is, hfit', htop, hbytes⟩ := consensus_inputs (by rw [hafter]; exact hpc) (hfsm' ▸ hs) hpush
  refine ⟨List.replicate 3 (.poll (String.singleton s.gesture)) ++ is, hfit.append (hl' ▸ hfit'), ?_, ?_⟩
  · rw [after_append, hl', ← hfsm']
    exact htop
  · rw [outputs_append, hout, hl', List.nil_append, ← hfsm']
    exact hbytes

theorem macroSteps_inputs {ss : List MacroStep} (hl : AtTop l f)
    (hss : ∀ x ∈ glove.trace f ss, Signable x.before x.input) :
    ∃ is, AllFit l is ∧ (loop.outputs l is).filterMap Obs.byte? = glove.outputs f ss := by
  induction ss generalizing l f with
  | nil => exact ⟨[], allFit_nil, rfl⟩
  | cons s ss ih =>
    obtain ⟨is, hfit, htop, hbytes⟩ := macroStep_inputs hl (hss _ List.mem_cons_self)
    obtain ⟨js, hfit', hbytes'⟩ := ih htop fun x hx => hss x (List.mem_cons_of_mem _ hx)
    refine ⟨is ++ js, hfit.append hfit', ?_⟩
    rw [outputs_append, List.filterMap_append, hbytes, hbytes']
    rfl

end Inputs

/-! ### The samples of a candidate -/

/-- The data register with the sample `v`. -/
def adcWord (v : Int) : BitVec 32 := BitVec.ofNat 32 (16 * v.toNat)

theorem extractData_adcWord {v : Int} (h : 0 ≤ v ∧ v < 4096) : (extractData (adcWord v) : Int) = v := by
  have hword : (16 * v.toNat) % 2 ^ 32 = 16 * v.toNat := Nat.mod_eq_of_lt (by omega)
  have hshift : 16 * v.toNat / 2 ^ 4 = v.toNat := Nat.mul_div_cancel_left _ (by decide)
  have hmask : v.toNat &&& 4095 = v.toNat % 2 ^ 12 := Nat.and_two_pow_sub_one_eq_mod _ 12
  simp only [extractData, adcWord, BitVec.toNat_and, BitVec.toNat_ushiftRight, BitVec.toNat_ofNat,
    Nat.shiftRight_eq_div_pow]
  rw [hword, hshift]
  norm_num [hmask]
  omega

/-- The registers of a pass of `Poll` that reads `k`. -/
def Sensing.SensorReading.samples (k : SensorReading) : List (BitVec 32) :=
  [adcWord k.thumb, adcWord k.finger1, adcWord k.finger2, adcWord k.finger3, adcWord k.finger4, adcWord k.palm]

theorem keys_differ : ∀ j ∈ keys, ∀ k ∈ keys, j.thumb = k.thumb → j.finger1 = k.finger1 → j.key = k.key := by decide

section Samples
variable {k : SensorReading}

theorem eq_of_squaredDistance {j x : SensorReading} (h : j.squaredDistance x ≤ 0) :
    j.thumb = x.thumb ∧ j.finger1 = x.finger1 := by
  have hthumb := sq_nonneg (j.thumb - x.thumb)
  have hfinger1 := sq_nonneg (j.finger1 - x.finger1)
  have hfinger2 := sq_nonneg (j.finger2 - x.finger2)
  have hfinger3 := sq_nonneg (j.finger3 - x.finger3)
  have hfinger4 := sq_nonneg (j.finger4 - x.finger4)
  have hpalm := sq_nonneg (j.palm - x.palm)
  unfold SensorReading.squaredDistance at h
  exact ⟨sub_eq_zero.mp ((pow_eq_zero_iff two_ne_zero).mp (by linarith)),
    sub_eq_zero.mp ((pow_eq_zero_iff two_ne_zero).mp (by linarith))⟩

/-- A reading that is a key of the table is taken for it. -/
theorem convert_self (hk : k ∈ keys) (key : String) : convert keys { k with key := key } = k.key := by
  have hzero : k.distanceFromKey { k with key := key } = 0 := by
    rw [distanceFromKey_eq_sqrt]
    simp [SensorReading.squaredDistance]
  rw [convert_eq]
  refine Nearest.foldl_step_label hk (by rw [hzero]; decide) fun j hj hne => ?_
  rw [hzero, distanceFromKey_eq_sqrt, Nat.cast_pos, Nat.sqrt_pos, Int.lt_toNat]
  by_contra hle
  -- At distance zero the thumb and the first finger agree, and no two keys have both in common.
  obtain ⟨hthumb, hfinger1⟩ := eq_of_squaredDistance (not_lt.mp hle)
  exact hne (keys_differ j hj k hk hthumb hfinger1)

theorem poll_samples {adgdr : Nat → BitVec 32} {pos : Nat} {r : SensorReading} (hk : k ∈ keys)
    (hadc : ∀ n < 6, adgdr (pos + n) = k.samples.getD n 0) :
    poll adgdr pos r = ⟨0, { k with key := r.key }, pos + 6⟩ := by
  have hin := keys_fieldsIn k hk
  have hread : ∀ {v : Int}, (adcMin : Int) ≤ v ∧ v ≤ adcMax → (extractData (adcWord v) : Int) = v := fun h =>
    extractData_adcWord (by unfold adcMin adcMax at h; omega)
  have h0 : adgdr pos = adcWord k.thumb := hadc 0 (by decide)
  have h1 : adgdr (pos + 1) = adcWord k.finger1 := hadc 1 (by decide)
  have h2 : adgdr (pos + 2) = adcWord k.finger2 := hadc 2 (by decide)
  have h3 : adgdr (pos + 3) = adcWord k.finger3 := hadc 3 (by decide)
  have h4 : adgdr (pos + 4) = adcWord k.finger4 := hadc 4 (by decide)
  have h5 : adgdr (pos + 5) = adcWord k.palm := hadc 5 (by decide)
  have haccepted : ∀ {v : Int}, (adcMin : Int) ≤ v ∧ v ≤ adcMax → Accepted (extractData (adcWord v)) := fun h => by
    have heq := hread h
    unfold Accepted
    omega
  have hres : (poll adgdr pos r).res = 0 := by
    rw [poll_res_iff]
    intro n hn
    interval_cases n
    · exact h0 ▸ haccepted hin.thumb
    · exact h1 ▸ haccepted hin.finger1
    · exact h2 ▸ haccepted hin.finger2
    · exact h3 ▸ haccepted hin.finger3
    · exact h4 ▸ haccepted hin.finger4
    · exact h5 ▸ haccepted hin.palm
  have hreading : (poll adgdr pos r).reading = { k with key := r.key } := by
    rw [(poll_success hres).1, h0, h1, h2, h3, h4, h5, hread hin.thumb, hread hin.finger1, hread hin.finger2,
      hread hin.finger3, hread hin.finger4, hread hin.palm]
  have hnext := poll_next hres
  cases hpoll : poll adgdr pos r with
  | mk res reading next =>
    rw [hpoll] at hres hreading hnext
    dsimp only at hres hreading hnext
    rw [hres, hreading, hnext]

end Samples

/-! ### The hardware of a run -/

/-- The registers of the candidate of an input. -/
def Input.words : Input → List (BitVec 32)
  | .poll candidate => ((keys.find? (·.key = candidate)).map SensorReading.samples).getD []
  | .imu _ => []

def Input.passes : Input → List ImuSample
  | .poll _ => []
  | .imu x => [x]

/-- The hardware that delivers `words` and `passes`, and then anything. -/
def Env.of (words : List (BitVec 32)) (passes : List ImuSample) : Env :=
  ⟨fun n => words.getD n 0, fun n => passes.getD n (.only .x)⟩

section Hardware
variable {is : List Input} {words : List (BitVec 32)} {passes : List ImuSample} {m : Main}

theorem words_poll {candidate : String} (h : candidate ∈ keys.map (·.key)) :
    ∃ k ∈ keys, k.key = candidate ∧ (Input.poll candidate).words = k.samples := by
  obtain ⟨k, hk, hkey⟩ := List.mem_map.mp h
  cases hfind : keys.find? (·.key = candidate) with
  | none =>
    have hnot := List.find?_eq_none.mp hfind k hk
    exact absurd (decide_eq_true hkey) hnot
  | some k' =>
    have hkey' := List.find?_some hfind
    refine ⟨k', List.mem_of_find?_eq_some hfind, of_decide_eq_true hkey', ?_⟩
    rw [Input.words, hfind]
    rfl

/-- The mode runs the loop on the inputs whose samples the hardware delivers. -/
theorem normalMode_delivers (hadc : m.adcPos = words.length) (himu : m.imuPos = passes.length) (hfit : AllFit m.loop is) :
    (normalMode (.of (words ++ is.flatMap Input.words) (passes ++ is.flatMap Input.passes))).outputs m
      (List.replicate is.length ()) = loop.outputs m.loop is := by
  induction is generalizing words passes m with
  | nil => rfl
  | cons i is ih =>
    generalize henv : Env.of (words ++ (i :: is).flatMap Input.words) (passes ++ (i :: is).flatMap Input.passes) = env
    have hi : Fits m.loop i := hfit _ List.mem_cons_self
    have hrest : AllFit (loop.step m.loop i).1 is := fun x hx => hfit x (List.mem_cons_of_mem _ hx)
    rw [List.length_cons, List.replicate_succ, outputs_cons, outputs_cons]
    cases i with
    | poll candidate =>
      obtain ⟨hpc, hmem⟩ := hi
      obtain ⟨k, hk, hkey, hwords⟩ := words_poll hmem
      have hadgdr : ∀ n < 6, env.adgdr (m.adcPos + n) = k.samples.getD n 0 := by
        intro n hn
        have hlen : n < k.samples.length := hn
        rw [← henv, hadc, List.flatMap_cons, hwords]
        simp only [Env.of, List.getD_eq_getElem?_getD]
        rw [List.getElem?_append_right (Nat.le_add_right _ _), Nat.add_sub_cancel_left, List.getElem?_append_left hlen]
      have hpoll := poll_samples (r := m.sensorReading) hk hadgdr
      have hstep := @normalMode_step_poll env m () hpc (by rw [hpoll])
      rw [hpoll] at hstep
      dsimp only at hstep
      rw [convert_self hk, hkey] at hstep
      rw [hstep, ← henv, List.flatMap_cons, List.flatMap_cons, hwords, ← List.append_assoc, Input.passes, List.nil_append]
      exact congrArg (_ ++ ·) (ih (by rw [List.length_append, hadc]; rfl) himu hrest)
    | imu x =>
      cases hpc : m.loop.pc with
      | top => exact absurd hpc hi
      | imu w =>
        have hpass : env.imu m.imuPos = x := by
          rw [← henv, himu, List.flatMap_cons]
          simp [Env.of, Input.passes, List.getD_eq_getElem?_getD]
        have hstep := @normalMode_step_imu env m w () hpc
        rw [hpass] at hstep
        dsimp only at hstep
        rw [hstep, ← henv, List.flatMap_cons, List.flatMap_cons, Input.words, List.nil_append, Input.passes,
          ← List.append_assoc]
        exact congrArg (_ ++ ·) (ih hadc (by rw [List.length_append, himu]; rfl) hrest)

end Hardware

/-- Macro-steps that can be signed from the start are what the mode does on some samples. -/
theorem macroSteps_signed (data : InstanceData) (memory : SensorReading) {ss : List MacroStep}
    (hss : ∀ s ∈ ss, Signed s) :
    ∃ env ticks, ((normalMode env).outputs (Main.init data memory) ticks).filterMap Obs.byte? =
      glove.outputs (Fsm.init data) ss := by
  have hstart : AtTop (Loop.init data) (Fsm.init data) := ⟨rfl, rfl, rfl⟩
  obtain ⟨is, hfit, hbytes⟩ := macroSteps_inputs hstart ((init_atRest data).trace_signable hss)
  have hdelivers := @normalMode_delivers _ [] [] (Main.init data memory) rfl rfl hfit
  exact ⟨_, _, (congrArg (List.filterMap Obs.byte?) hdelivers).trans hbytes⟩

/-! ### The host -/

open FakeKb in
/-- A schedule in which each character is typed before the next one comes. -/
def oneByOne (text : List Char) : List Action :=
  text.flatMap fun c => [.reader (.receive c), .reader .publish, .writer .acquire, .writer .test, .writer .fetch,
    .writer .send, .writer .release]

open FakeKb in
theorem oneByOne_run (spell : List Char → List Char) (text : List Char) {s : InputMode} (hreader : s.reader = .read)
    (hwriter : s.writer = .acquire) :
    ∃ t, (inputMode false spell).run s (oneByOne text) = some t ∧ t.received = s.received ++ text ∧
      t.sent = s.sent ++ text := by
  induction text generalizing s with
  | nil => exact ⟨s, rfl, (List.append_nil _).symm, (List.append_nil _).symm⟩
  | cons c text ih =>
    obtain ⟨item, flag, reader, writer, received, sent⟩ := s
    cases hreader
    cases hwriter
    obtain ⟨t, hrun, hreceived, hsent⟩ := ih (s := ⟨[c], false, .read, .acquire, received ++ [c], sent ++ [c]⟩) rfl rfl
    refine ⟨t, ?_, by simpa using hreceived, by simpa using hsent⟩
    rw [oneByOne, List.flatMap_cons, Lts.run_append]
    exact hrun

/-! ### Texts -/

/-- The samples and motions of a text. -/
theorem text_signed (data : InstanceData) (memory : SensorReading) {text : List Char}
    (htext : ∀ key ∈ text, key ∈ typable) :
    ∃ env ticks, ((normalMode env).outputs (Main.init data memory) ticks).filterMap Obs.byte? = text := by
  obtain ⟨env, ticks, hbytes⟩ := macroSteps_signed data memory (signing_signed htext)
  refine ⟨env, ticks, hbytes.trans ?_⟩
  rw [glove_outputs, keyboard_signs htext rfl]

/-- For every text over the letters, the digits but '0', the space and the backspace there are samples and motions on
    which the glove sends the text, whatever its memory held at the start, and a schedule in which the host
    types it with autocorrect off. -/
theorem text_typed (data : InstanceData) (memory : SensorReading) (spell : List Char → List Char) (text : List Char)
    (htext : ∀ key ∈ text, key ∈ typable) :
    (∃ env ticks, ((normalMode env).outputs (Main.init data memory) ticks).filterMap Obs.byte? = text) ∧
      ∃ as s, (FakeKb.inputMode false spell).run .init as = some s ∧ s.received = text ∧ s.sent = text := by
  constructor
  · exact text_signed data memory htext
  · obtain ⟨s, hrun, hreceived, hsent⟩ := oneByOne_run spell text (s := .init) rfl rfl
    exact ⟨_, s, hrun, hreceived, hsent⟩

/-- A doubled letter, a digit and a space. -/
theorem text_typed_ll :
    (∃ env ticks, ((normalMode env).outputs (Main.init zeroed ⟨0, 0, 0, 0, 0, 0, ""⟩) ticks).filterMap Obs.byte? =
        ['a', 'l', 'l', ' ', '4']) ∧
      ∃ as s, (FakeKb.inputMode false id).run .init as = some s ∧ s.received = ['a', 'l', 'l', ' ', '4'] ∧
        s.sent = ['a', 'l', 'l', ' ', '4'] := by
  have hall : ['a', 'l', 'l', ' ', '4'].all (fun key => key ∈ typable) = true := by decide
  exact text_typed zeroed ⟨0, 0, 0, 0, 0, 0, ""⟩ id ['a', 'l', 'l', ' ', '4']
    fun key hkey => of_decide_eq_true (List.all_eq_true.mp hall key hkey)

end Glove
