import Glove.Keyboard

/-! The state machine is the keyboard: a macro-step from a state at rest performs what its sign means,
    and ends at rest. -/

namespace Glove
open ImuFsm

/-- The states in which a gesture is read. -/
def Fsm.AtRest (f : Fsm) : Prop := f.curState = .stateDefault ∨ f.curState = .fnLayerActive

/-- The layer of a state at rest. -/
def Fsm.layer (f : Fsm) : Layer := if f.curState = .fnLayerActive then .function else .letters

/-- The keyboard that the globals stand for in a layer: `data` does not count. -/
def Vars.on (v : Vars) (layer : Layer) : Keyboard := ⟨layer, v.prevKey, v.repeated⟩

def Fsm.keyboard (f : Fsm) : Keyboard := Vars.on f.vars f.layer

/-- The WAIT state of a family. -/
def Family.state : Family → State
  | .gq => .stateWaitGq
  | .ij => .stateWaitIj
  | .five => .stateWait5
  | .a => .stateWaitA
  | .sxt => .stateWaitSxt
  | .co => .stateWaitCo
  | .hu => .stateWaitHu
  | .pk => .stateWaitPk
  | .dz => .stateWaitDz

/-- `f` is at rest, and what it stands for and sends is what the act `a` does to the keyboard `k`. -/
structure Does (f : Fsm) (k : Keyboard) (a : Act) : Prop where
  atRest : f.AtRest
  keyboard : f.keyboard = (k.perform a).1
  sends : f.keyOut?.toList = (k.perform a).2

namespace Does
variable (v : Vars)

/-! ### The acts -/

theorem select (layer : Layer) (key shape : Char) :
    Does ⟨.stateDefault, checkPrevKeyAndSetAnother v key shape⟩ (Vars.on v layer) (.select key shape) := by
  unfold checkPrevKeyAndSetAnother
  by_cases h : v.prevKey = shape
  · rw [if_pos h]
    refine ⟨Or.inl rfl, ?_, ?_⟩
    · simp [Fsm.keyboard, Fsm.layer, Vars.on, Keyboard.perform, h, Vars.setEvent]
    · simp [Fsm.keyOut?, Vars.on, Keyboard.perform, h, Vars.setEvent]
  · rw [if_neg h]
    refine ⟨Or.inl rfl, ?_, ?_⟩
    · simp [Fsm.keyboard, Fsm.layer, Vars.on, Keyboard.perform, h, Vars.setEvent, Vars.setKey]
    · simp [Fsm.keyOut?, Vars.on, Keyboard.perform, h, Vars.setEvent, Vars.setKey]

theorem letter (key : Char) :
    Does ⟨.stateDefault, checkPrevKeyAndSet v key⟩ (Vars.on v .letters) (.letter key) := select v .letters key key

theorem nothing {f : Fsm} {k : Keyboard} (hrest : f.AtRest) (hk : f.keyboard = k)
    (hev : f.vars.data.event ≠ .keyOut) : Does f k .nothing :=
  ⟨hrest, hk, by simp [Fsm.keyOut?, hev, Keyboard.perform]⟩

theorem shift : Does ⟨.fnLayerActive, v.setEvent .noop⟩ (Vars.on v .letters) .shift :=
  ⟨Or.inr rfl, rfl, rfl⟩

theorem backspace : Does ⟨.stateDefault, (v.setEvent .keyOut).setKey '!'⟩ (Vars.on v .letters) .backspace :=
  ⟨Or.inl rfl, rfl, rfl⟩

theorem clear : Does ⟨.stateDefault, { v.setEvent .noop with prevKey := '.' }⟩ (Vars.on v .letters) .clear :=
  ⟨Or.inl rfl, rfl, rfl⟩

end Does

/-! ### Gestures -/

section Gestures
variable {v : Vars}

/-- `aux` after a gesture that opens the IMU loop of a family: only the family of `m` and `n` writes it. -/
def Family.noteAux (family : Family) (gesture : Char) (v : Vars) : Vars :=
  match family with
  | .sxt => v.setAux (if gesture = 'm' then 'm' else 'n')
  | _ => v

theorem doStateDefault_family {family : Family} (hev : v.data.event = .gestureIn)
    (hfam : family? v.data.key = some family) :
    doStateDefault v = (family.state, family.noteAux v.data.key (v.setEvent .noop)) := by
  unfold family? at hfam
  split at hfam <;> cases hfam <;> rename_i hkey <;> simp [doStateDefault, hev, hkey, Family.state, Family.noteAux]

theorem doStateDefault_digit (hev : v.data.event = .gestureIn) (hfam : family? v.data.key = none)
    (hdigit : v.data.key ∈ digits) : doStateDefault v = (.stateDefault, v.setEvent .noop) := by
  unfold doStateDefault
  rw [if_pos hev]
  dsimp only
  split
  all_goals first
    | (rename_i hkey; rw [hkey] at hfam; cases hfam)
    | rw [if_pos hdigit]

theorem doStateDefault_letter (hev : v.data.event = .gestureIn) (hfam : family? v.data.key = none)
    (hdigit : v.data.key ∉ digits) :
    doStateDefault v = (.stateDefault, checkPrevKeyAndSet (v.setEvent .noop) v.data.key) := by
  unfold doStateDefault
  rw [if_pos hev]
  dsimp only
  split
  all_goals first
    | (rename_i hkey; rw [hkey] at hfam; cases hfam)
    | (rw [if_neg hdigit]; rfl)

theorem doStateFn_digit {digit : Char} (hev : v.data.event = .gestureIn) (hdigit : digit? v.data.key = some digit) :
    doStateFn v = (.stateDefault, checkPrevKeyAndSetAnother v digit v.data.key) := by
  unfold digit? at hdigit
  split at hdigit <;> cases hdigit <;> rename_i hkey <;> simp [doStateFn, hev, hkey]

theorem doStateFn_other (hev : v.data.event = .gestureIn) (hdigit : digit? v.data.key = none) :
    doStateFn v = (.fnLayerActive, v.setEvent .noop) := by
  unfold doStateFn
  rw [if_pos hev]
  dsimp only
  split
  all_goals first
    | (rename_i hkey; rw [hkey] at hdigit; cases hdigit)
    | rfl

end Gestures

/-! ### Motions -/

/-- A motion in a WAIT state does what it means after the sign that led there. -/
theorem Family.motion_does {c : Char} {family : Family} {v : Vars} (m : Motion)
    (haux : family = .sxt → v.data.aux = if c = 'm' then 'm' else 'n') :
    Does (Fsm.withMotion ⟨family.state, v⟩ m.toChar).run (Vars.on v .letters) (family.meaning c m) := by
  cases family with
  | gq =>
    cases m
    case y => exact Does.letter _ 'g'
    case Z => exact Does.letter _ 'q'
    all_goals exact Does.nothing (Or.inl rfl) rfl Event.noConfusion
  | ij =>
    cases m
    case g => exact Does.letter _ 'j'
    case X => exact Does.letter _ 'i'
    all_goals exact Does.nothing (Or.inl rfl) rfl Event.noConfusion
  | dz =>
    cases m
    case X => exact Does.letter _ 'd'
    case y => exact Does.letter _ 'z'
    all_goals exact Does.nothing (Or.inl rfl) rfl Event.noConfusion
  | five =>
    cases m
    case y =>
      -- A repeat is carried out or swallowed by the `repeated` flag.
      obtain ⟨data, prevKey, _ | _⟩ := v <;> exact ⟨Or.inl rfl, rfl, rfl⟩
    case z => exact Does.letter _ ' '
    case Z => exact Does.backspace _
    all_goals exact Does.clear _
  | a =>
    cases m
    case Z => exact Does.shift _
    case X => exact Does.letter _ 'a'
    case y => exact Does.letter _ '\x0f'
    all_goals exact Does.nothing (Or.inl rfl) rfl Event.noConfusion
  | sxt =>
    cases m
    case Z => exact Does.letter _ 'x'
    case y => exact Does.letter _ 't'
    case Y => exact Does.letter _ 's'
    all_goals
      show Does _ _ (.letter _)
      rw [← haux rfl]
      exact Does.letter _ v.data.aux
  | co =>
    cases m
    case Z => exact Does.letter _ 'o'
    all_goals exact Does.letter _ 'c'
  | hu =>
    cases m
    case y => exact Does.letter _ 'h'
    all_goals exact Does.letter _ 'u'
  | pk =>
    cases m
    case Z => exact Does.letter _ 'p'
    all_goals exact Does.letter _ 'k'

theorem Family.timeout_does (family : Family) (v : Vars) :
    Does (Fsm.withTimeout ⟨family.state, v⟩).run (Vars.on v .letters) .nothing := by
  cases family <;> exact Does.nothing (Or.inl rfl) rfl Event.noConfusion

/-! ### Macro-steps -/

namespace Fsm
variable {f : Fsm} {c : Char}

theorem AtRest.window?_eq_none (h : f.AtRest) : window? f.curState = none := by
  rcases h with h | h <;> rw [h] <;> rfl

theorem window?_family (family : Family) : (window? family.state).isSome = true := by
  cases family <;> rfl

theorem keyboard_letters (h : f.curState = .stateDefault) : f.keyboard = Vars.on f.vars .letters := by
  simp [Fsm.keyboard, layer, h]

theorem keyboard_function (h : f.curState = .fnLayerActive) : f.keyboard = Vars.on f.vars .function := by
  simp [Fsm.keyboard, layer, h]

theorem gesture_family {family : Family} (h : f.curState = .stateDefault) (hfam : family? c = some family) :
    (f.withGesture c).run =
      ⟨family.state, family.noteAux c (((f.vars.setEvent .gestureIn).setKey c).setEvent .noop)⟩ := by
  have hstep := doStateDefault_family (v := (f.withGesture c).vars) rfl hfam
  unfold run withGesture at *
  dsimp only
  rw [h]
  show (⟨(doStateDefault _).1, (doStateDefault _).2⟩ : Fsm) = _
  rw [hstep]
  rfl

theorem noteAux_aux {family : Family} (v : Vars) (hsxt : family = .sxt) :
    (family.noteAux c v).data.aux = if c = 'm' then 'm' else 'n' := by
  subst hsxt
  rfl

theorem on_noteAux (family : Family) (v : Vars) (layer : Layer) :
    Vars.on (family.noteAux c v) layer = Vars.on v layer := by
  cases family <;> rfl

theorem keyOut?_noteAux (family : Family) (v : Vars) (st : State) :
    keyOut? ⟨st, family.noteAux c (v.setEvent .noop)⟩ = none := by
  cases family <;> rfl

/-- Any other gesture of either layer ends at rest. -/
theorem gesture_does (h : f.AtRest) (hfam : f.curState = .stateDefault → family? c = none) (answer : Answer) :
    Does (f.withGesture c).run f.keyboard (act f.layer ⟨c, answer⟩) := by
  rcases h with h | h
  · have hrun : (f.withGesture c).run =
        ⟨(doStateDefault (f.withGesture c).vars).1, (doStateDefault (f.withGesture c).vars).2⟩ := by
      rw [run, withGesture, h]
      rfl
    have hfam := hfam h
    rw [hrun, keyboard_letters h]
    simp only [layer, h, act, hfam, reduceCtorEq, if_false]
    by_cases hdigit : c ∈ digits
    · rw [doStateDefault_digit rfl hfam hdigit, if_pos hdigit]
      exact Does.nothing (Or.inl rfl) rfl Event.noConfusion
    · rw [doStateDefault_letter rfl hfam hdigit, if_neg hdigit]
      exact Does.letter _ c
  · have hrun : (f.withGesture c).run =
        ⟨(doStateFn (f.withGesture c).vars).1, (doStateFn (f.withGesture c).vars).2⟩ := by
      rw [run, withGesture, h]
      rfl
    rw [hrun, keyboard_function h]
    simp only [layer, h, act, if_true]
    cases hdigit : digit? c with
    | some digit =>
      rw [doStateFn_digit rfl hdigit]
      exact Does.select _ .function digit c
    | none =>
      rw [doStateFn_other rfl hdigit]
      exact Does.nothing (Or.inr rfl) rfl Event.noConfusion

end Fsm

/-- A macro-step ends at rest, and its effect is that of the keyboard's step. -/
structure Performs (f : Fsm) (s : MacroStep) : Prop where
  atRest : (f.macroStep s).1.AtRest
  keyboard : (f.macroStep s).1.keyboard = (f.keyboard.step s).1
  sends : (f.macroStep s).2 = (f.keyboard.step s).2

theorem Fsm.AtRest.performs {f : Fsm} (h : f.AtRest) (s : MacroStep) : Performs f s := by
  obtain ⟨c, answer⟩ := s
  by_cases hfam : f.curState = .stateDefault ∧ ∃ family, family? c = some family
  · obtain ⟨hst, family, hfam⟩ := hfam
    -- The gesture opens an IMU loop, and its answer does what the family says.
    have hdoes : ∃ g : Fsm, f.macroStep ⟨c, answer⟩ = (g, g.keyOut?.toList) ∧
        Does g f.keyboard (act f.layer ⟨c, answer⟩) := by
      have hgest := Fsm.gesture_family hst hfam
      have hnone : (f.withGesture c).run.keyOut? = none := by rw [hgest]; exact Fsm.keyOut?_noteAux ..
      obtain ⟨w, hw⟩ := Option.isSome_iff_exists.mp (Fsm.window?_family family)
      have hwin : window? (f.withGesture c).run.curState = some w := by rw [hgest]; exact hw
      have hstep : f.macroStep ⟨c, answer⟩ = (f.withGesture c).run.answered answer := by
        simp only [Fsm.macroStep, hnone, hwin]
      have hon : f.keyboard =
          Vars.on (family.noteAux c (((f.vars.setEvent .gestureIn).setKey c).setEvent .noop)) .letters := by
        rw [Fsm.on_noteAux]
        exact Fsm.keyboard_letters hst
      rw [hstep, hgest, hon]
      simp only [Fsm.layer, hst, act, hfam, reduceCtorEq, if_false]
      cases answer with
      | motion m => exact ⟨_, rfl, Family.motion_does m (Fsm.noteAux_aux _)⟩
      | timeout =>
        have hdoes := Family.timeout_does family
          (family.noteAux c (((f.vars.setEvent .gestureIn).setKey c).setEvent .noop))
        exact ⟨_, Prod.ext rfl hdoes.sends.symm, hdoes⟩
    obtain ⟨g, hg, hdoes⟩ := hdoes
    refine ⟨?_, ?_, ?_⟩ <;> rw [hg]
    · exact hdoes.atRest
    · exact hdoes.keyboard
    · exact hdoes.sends
  · have hfam' : f.curState = .stateDefault → family? c = none := by
      intro hst
      cases hf : family? c with
      | none => rfl
      | some family => exact absurd ⟨hst, family, hf⟩ hfam
    have hdoes := Fsm.gesture_does h hfam' answer
    have hstep : f.macroStep ⟨c, answer⟩ =
        ((f.withGesture c).run, (f.withGesture c).run.keyOut?.toList) := by
      simp only [Fsm.macroStep]
      cases hkey : (f.withGesture c).run.keyOut? with
      | some byte => rfl
      | none => simp [hdoes.atRest.window?_eq_none]
    refine ⟨?_, ?_, ?_⟩ <;> rw [hstep]
    · exact hdoes.atRest
    · exact hdoes.keyboard
    · exact hdoes.sends

/-- The machine at rest and the keyboard it stands for. -/
def StandsFor (f : Fsm) (k : Keyboard) : Prop := f.AtRest ∧ f.keyboard = k

theorem glove_simulates : Mealy.Simulates glove keyboard StandsFor := by
  rintro f k s ⟨hrest, rfl⟩
  have h := hrest.performs s
  exact ⟨⟨h.atRest, h.keyboard⟩, h.sends⟩

theorem init_standsFor (data : InstanceData) : StandsFor (Fsm.init data) Keyboard.init := ⟨Or.inl rfl, rfl⟩

/-- The glove types what the keyboard types, whatever `data` holds at the start. -/
theorem glove_outputs (data : InstanceData) (ss : List MacroStep) :
    glove.outputs (Fsm.init data) ss = keyboard.outputs Keyboard.init ss :=
  glove_simulates.outputs (init_standsFor data) ss

end Glove
