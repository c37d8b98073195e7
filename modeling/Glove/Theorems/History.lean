import Glove.Theorems.Refinement
import Glove.Theorems.Acts

/-! Histories of the glove: what each macro-step of a run asked for and sent, and which shape the run
    remembers. `prev_key` holds that shape, with two values that no sign has for a run that sent
    nothing yet and for the clear branch. -/

namespace Glove
open Mealy

/-- A step of a run of the glove. -/
abbrev Step := Taken Fsm MacroStep Char

/-- What a macro-step asks for in the layer of `f`. -/
def Fsm.act (f : Fsm) (s : MacroStep) : Act := Glove.act f.layer s

def Step.act (x : Step) : Act := x.before.act x.input

/-- The step that a state at rest takes on `s`. -/
def Fsm.stepOn (f : Fsm) (s : MacroStep) : Step := ⟨f, s, (f.macroStep s).2⟩

theorem Fsm.AtRest.after {f : Fsm} (h : f.AtRest) (ss : List MacroStep) : (glove.after f ss).AtRest :=
  after_invariant (I := Fsm.AtRest) (fun _ s hf => (hf.performs s).atRest) h ss

theorem init_atRest (data : ImuFsm.InstanceData) : (Fsm.init data).AtRest := Or.inl rfl

/-- An uninitialised `data` whose memory is zero. -/
abbrev zeroed : ImuFsm.InstanceData := ⟨.gestureIn, '\x00', '\x00'⟩

/-! ### Steps -/

section Steps
variable {f : Fsm} {s : MacroStep}

theorem Fsm.AtRest.keyboard_macroStep (h : f.AtRest) :
    (f.macroStep s).1.keyboard = (f.keyboard.perform (f.act s)).1 := (h.performs s).keyboard

theorem Fsm.AtRest.prevKey_macroStep (h : f.AtRest) :
    (f.macroStep s).1.vars.prevKey = (f.keyboard.perform (f.act s)).1.remembered :=
  congrArg Keyboard.remembered h.keyboard_macroStep

theorem Fsm.AtRest.layer_macroStep (h : f.AtRest) :
    (f.macroStep s).1.layer = (f.keyboard.perform (f.act s)).1.layer :=
  congrArg Keyboard.layer h.keyboard_macroStep

theorem Fsm.AtRest.sends_macroStep (h : f.AtRest) : (f.macroStep s).2 = (f.keyboard.perform (f.act s)).2 :=
  (h.performs s).sends

/-- A step sends at most one byte, and then its last event is `KEY_OUT` with that byte as the key. -/
theorem Fsm.macroStep_sends {f : Fsm} {s : MacroStep} :
    (f.macroStep s).2 = (f.macroStep s).1.keyOut?.toList ∨ (f.macroStep s).2 = [] := by
  unfold macroStep
  dsimp only
  cases hkey : (f.withGesture s.gesture).run.keyOut? with
  | some byte => exact Or.inl (by simp [hkey])
  | none =>
    cases hwin : window? (f.withGesture s.gesture).run.curState with
    | none => exact Or.inr rfl
    | some w =>
      cases s.answer with
      | motion m => exact Or.inl rfl
      | timeout => exact Or.inr rfl

theorem Fsm.keyOut?_eq_some {byte : Char} :
    f.keyOut? = some byte ↔ f.vars.data.event = .keyOut ∧ f.vars.data.key = byte := by
  unfold keyOut?
  split <;> simp_all

theorem Fsm.keyOut_of_sends {byte : Char} (h : (f.macroStep s).2 = [byte]) :
    (f.macroStep s).1.vars.data.event = .keyOut ∧ (f.macroStep s).1.vars.data.key = byte := by
  rcases macroStep_sends (f := f) (s := s) with hsend | hsend
  · rw [h] at hsend
    cases hkey : (f.macroStep s).1.keyOut? with
    | none => rw [hkey] at hsend; cases hsend
    | some byte' =>
      rw [hkey] at hsend
      cases hsend
      exact keyOut?_eq_some.mp hkey
  · rw [h] at hsend
    cases hsend

end Steps

/-! ### The shape a run remembers -/

/-- What a step does to the shape to remember: a selection that is sent sets it, a clear drops it. -/
def noteShape (last : Option Char) (x : Step) : Option Char :=
  match x.act with
  | .select _ shape => if x.answer = [] then last else some shape
  | .clear => none
  | _ => last

/-- The shape of the last selection sent, unless the clear branch was taken since. -/
def lastShape (t : List Step) : Option Char := t.foldl noteShape none

@[simp] theorem lastShape_concat (t : List Step) (x : Step) : lastShape (t ++ [x]) = noteShape (lastShape t) x := by
  simp [lastShape]

/-- `prev_key` is the remembered shape, or one of its two values for no shape. -/
def Holds (prevKey : Char) : Option Char → Prop
  | some shape => prevKey = shape
  | none => prevKey = '\x00' ∨ prevKey = '.'

/-- A run is at rest, and `prev_key` holds the shape it remembers. -/
def Remembers (t : List Step) (f : Fsm) : Prop := f.AtRest ∧ Holds f.vars.prevKey (lastShape t)

theorem remembers_step {t : List Step} {f : Fsm} (s : MacroStep) (h : Remembers t f) :
    Remembers (t ++ [f.stepOn s]) (f.macroStep s).1 := by
  obtain ⟨hrest, hholds⟩ := h
  refine ⟨(hrest.performs s).atRest, ?_⟩
  have hprev := hrest.prevKey_macroStep (s := s)
  have hsends : (f.stepOn s).answer = (f.keyboard.perform (f.act s)).2 := hrest.sends_macroStep
  have hact : (f.stepOn s).act = f.act s := rfl
  have hkeep : f.keyboard.remembered = f.vars.prevKey := rfl
  rw [lastShape_concat, noteShape, hprev, hsends, hact]
  cases f.act s with
  | select key shape =>
    by_cases heq : f.keyboard.remembered = shape
    · simpa [Keyboard.perform, heq, ← hkeep] using hholds
    · simp [Keyboard.perform, heq, Holds]
  | shift => exact hholds
  | backspace => exact hholds
  | replay =>
    cases hrep : f.keyboard.repeated <;> simpa [Keyboard.perform, hrep, hkeep] using hholds
  | clear => exact Or.inr rfl
  | nothing => exact hholds

theorem remembers_run (data : ImuFsm.InstanceData) (ss : List MacroStep) :
    Remembers (glove.trace (Fsm.init data) ss) (glove.after (Fsm.init data) ss) := by
  have hstart : Remembers [] (Fsm.init data) := ⟨init_atRest data, Or.inl rfl⟩
  simpa using trace_invariant (M := glove) (I := Remembers) (fun _ _ s h => remembers_step s h) hstart ss

end Glove
