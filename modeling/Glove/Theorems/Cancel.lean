import Glove.Theorems.Protocol

/-! Cancelled gestures. A gesture whose IMU loop ends by its timeout, or by a motion that has no meaning
    in the WAIT state, leaves only stale values in `data`, and the run without it does the same. -/

namespace Glove
open Mealy ImuFsm

/-- The motions without a meaning in a state. -/
def Unassigned : State → Motion → Prop
  | .stateWaitGq, m => m ≠ .y ∧ m ≠ .Z
  | .stateWaitDz, m => m ≠ .X ∧ m ≠ .y
  | .stateWaitIj, m => m ≠ .g ∧ m ≠ .X
  | .stateWaitA, m => m ≠ .Z ∧ m ≠ .X ∧ m ≠ .y
  | _, _ => False

/-- The macro-step enters a WAIT state and ends there by the timeout or by a motion without a meaning. -/
structure Cancelled (f : Fsm) (s : MacroStep) : Prop where
  waits : IsWait (f.withGesture s.gesture).run.curState
  ends : s.answer = .timeout ∨ ∃ m, s.answer = .motion m ∧ Unassigned (f.withGesture s.gesture).run.curState m

theorem Family.meaning_unassigned {c : Char} {family : Family} {m : Motion} (h : Unassigned family.state m) :
    family.meaning c m = .nothing := by
  cases family <;> cases m <;> first | rfl | simp [Family.state, Unassigned] at h

/-- A gesture that ends in a WAIT state is a sign of a family in the letter layer. -/
theorem Fsm.AtRest.family_of_wait {f : Fsm} {c : Char} (h : f.AtRest) (hwait : IsWait (f.withGesture c).run.curState) :
    f.curState = .stateDefault ∧ ∃ family, family? c = some family := by
  by_contra hnone
  have hfam : f.curState = .stateDefault → family? c = none := by
    intro hst
    cases hf : family? c with
    | none => rfl
    | some family => exact absurd ⟨hst, family, hf⟩ hnone
  rcases (Fsm.gesture_does h hfam .timeout).atRest with hst | hst
  · exact hwait.1 hst
  · exact hwait.2 hst

theorem Cancelled.act {f : Fsm} {s : MacroStep} (hrest : f.AtRest) (h : Cancelled f s) : f.act s = .nothing := by
  obtain ⟨hst, family, hfam⟩ := hrest.family_of_wait h.waits
  have hgest : (f.withGesture s.gesture).run.curState = family.state := by rw [Fsm.gesture_family hst hfam]
  have hlayer : f.layer = .letters := by simp [Fsm.layer, hst]
  obtain ⟨c, answer⟩ := s
  rw [Fsm.act, hlayer]
  rcases h.ends with htimeout | ⟨m, hmotion, hunassigned⟩
  · obtain rfl : answer = .timeout := htimeout
    simp [Glove.act, hfam]
  · obtain rfl : answer = .motion m := hmotion
    rw [hgest] at hunassigned
    simp [Glove.act, hfam, Family.meaning_unassigned hunassigned]

/-- Two machines at rest that stand for the same keyboard: their `data` may differ. -/
def SameKeyboard (f g : Fsm) : Prop := f.AtRest ∧ g.AtRest ∧ f.keyboard = g.keyboard

theorem SameKeyboard.trans {f g h : Fsm} (hfg : SameKeyboard f g) (hgh : SameKeyboard g h) : SameKeyboard f h :=
  ⟨hfg.1, hgh.2.1, hfg.2.2.trans hgh.2.2⟩

theorem sameKeyboard_simulates : Simulates glove glove SameKeyboard := by
  rintro f g s ⟨hf, hg, heq⟩
  have hfs := hf.performs s
  have hgs := hg.performs s
  refine ⟨⟨hfs.atRest, hgs.atRest, ?_⟩, ?_⟩
  · exact hfs.keyboard.trans ((congrArg (fun k => (Keyboard.step k s).1) heq).trans hgs.keyboard.symm)
  · exact hfs.sends.trans ((congrArg (fun k => (Keyboard.step k s).2) heq).trans hgs.sends.symm)

theorem SameKeyboard.curState {f g : Fsm} (h : SameKeyboard f g) : f.curState = g.curState := by
  obtain ⟨hf, hg, heq⟩ := h
  have hlayer : f.layer = g.layer := congrArg Keyboard.layer heq
  rcases hf with hf | hf <;> rcases hg with hg | hg <;> simp [Fsm.layer, hf, hg] at hlayer ⊢

theorem Cancelled.silent {f : Fsm} {s : MacroStep} (hrest : f.AtRest) (h : Cancelled f s) :
    Silent glove SameKeyboard f s := by
  have hkeyboard := hrest.keyboard_macroStep (s := s)
  have hsends := hrest.sends_macroStep (s := s)
  rw [h.act hrest] at hkeyboard hsends
  exact ⟨hsends, (hrest.performs s).atRest, hrest, hkeyboard⟩

/-- From every run any cancelled macro-steps, marked in `marked`, can be left out: the bytes, the state of
    the state machine and its globals stay the same. -/
theorem cancelled_transparent (data : InstanceData) (marked : List (MacroStep × Bool))
    (hcancelled : ∀ pre s post, marked = pre ++ (s, true) :: post →
      Cancelled (glove.after (Fsm.init data) (pre.map (·.1))) s) :
    glove.outputs (Fsm.init data) (marked.map (·.1)) = glove.outputs (Fsm.init data) (unmarked marked) ∧
      (glove.after (Fsm.init data) (marked.map (·.1))).curState =
        (glove.after (Fsm.init data) (unmarked marked)).curState ∧
      (glove.after (Fsm.init data) (marked.map (·.1))).vars.prevKey =
        (glove.after (Fsm.init data) (unmarked marked)).vars.prevKey ∧
      (glove.after (Fsm.init data) (marked.map (·.1))).vars.repeated =
        (glove.after (Fsm.init data) (unmarked marked)).vars.repeated := by
  have hstart : SameKeyboard (Fsm.init data) (Fsm.init data) := ⟨init_atRest data, init_atRest data, rfl⟩
  have hsilent : ∀ pre s post, marked = pre ++ (s, true) :: post →
      Silent glove SameKeyboard (glove.after (Fsm.init data) (pre.map (·.1))) s := fun pre s post heq =>
    (hcancelled pre s post heq).silent ((init_atRest data).after _)
  obtain ⟨hsame, hout⟩ := erase_silent sameKeyboard_simulates SameKeyboard.trans hstart hsilent
  exact ⟨hout, hsame.curState, congrArg Keyboard.remembered hsame.2.2, congrArg Keyboard.repeated hsame.2.2⟩

theorem cancelled_transparent_m :
    glove.outputs (Fsm.init zeroed) [⟨'b', .timeout⟩, ⟨'m', .timeout⟩, ⟨'e', .timeout⟩] =
      glove.outputs (Fsm.init zeroed) [⟨'b', .timeout⟩, ⟨'e', .timeout⟩] := by
  refine (cancelled_transparent zeroed
    [(⟨'b', .timeout⟩, false), (⟨'m', .timeout⟩, true), (⟨'e', .timeout⟩, false)] fun pre s post heq => ?_).1
  rcases pre with _ | ⟨x, _ | ⟨y, _ | ⟨z, pre⟩⟩⟩
  · cases heq
  · cases heq
    exact ⟨⟨by decide, by decide⟩, Or.inl rfl⟩
  · cases heq
  · cases pre <;> cases heq

end Glove
