import Glove.Theorems.History

/-! The duplicate filter over runs. It compares shapes, not keys: a selection is sent whenever its shape
    differs from the one the run remembers, and the function layer remembers the gesture that signed a
    digit, not the digit. -/

namespace Glove
open Sensing

/-- A step that ends with the event `KEY_OUT` and the key `key`, and sends it. -/
def Types (f : Fsm) (s : MacroStep) (key : Char) : Prop :=
  (f.macroStep s).1.vars.data.event = .keyOut ∧ (f.macroStep s).1.vars.data.key = key ∧ (f.macroStep s).2 = [key]

/-! ### Selections -/

theorem select_types {f : Fsm} {s : MacroStep} {key shape : Char} (hrest : f.AtRest)
    (hact : f.act s = .select key shape) (hne : f.vars.prevKey ≠ shape) : Types f s key := by
  have hsends : (f.macroStep s).2 = [key] := by
    rw [hrest.sends_macroStep, hact]
    simp [Keyboard.perform, Fsm.keyboard, Vars.on, hne]
  obtain ⟨hevent, hkey⟩ := Fsm.keyOut_of_sends hsends
  exact ⟨hevent, hkey, hsends⟩

/-- In every run, a completed selection of a key is sent when its shape differs from the shape of the
    last selection sent, or when none was sent since the start or since the clear branch. -/
theorem selection_sent (data : ImuFsm.InstanceData) (ss : List MacroStep) (s : MacroStep) (key shape : Char)
    (hsign : ∀ x ∈ ss ++ [s], x.gesture ∈ signs)
    (hact : (glove.after (Fsm.init data) ss).act s = .select key shape)
    (hnew : lastShape (glove.trace (Fsm.init data) ss) ≠ some shape) :
    Types (glove.after (Fsm.init data) ss) s key := by
  obtain ⟨hrest, hholds⟩ := remembers_run data ss
  refine select_types hrest hact ?_
  cases hlast : lastShape (glove.trace (Fsm.init data) ss) with
  | some last =>
    rw [hlast] at hholds hnew
    intro heq
    exact hnew (congrArg some (hholds.symm.trans heq))
  | none =>
    rw [hlast] at hholds
    have hspecial := (act_not_special hact (hsign s (by simp))).2
    rcases hholds with h | h <;> rw [h] <;> rintro rfl
    · exact hspecial (by decide)
    · exact hspecial (by decide)

theorem selection_sent_after_clear :
    Types (glove.after (Fsm.init zeroed) [⟨'b', .timeout⟩, ⟨'5', .motion .X⟩]) ⟨'b', .timeout⟩ 'b' :=
  selection_sent _ _ _ 'b' 'b' (by decide) (by decide) (by decide)

/-- A digit signed with a letter keeps that letter from being sent, though the last key was the digit. -/
theorem selection_lost : ¬∀ (data : ImuFsm.InstanceData) (ss : List MacroStep) (s : MacroStep) (key shape : Char),
    (∀ x ∈ ss ++ [s], x.gesture ∈ signs) → (glove.after (Fsm.init data) ss).act s = .select key shape →
    (glove.outputs (Fsm.init data) ss).getLast? ≠ some key → Types (glove.after (Fsm.init data) ss) s key := by
  intro h
  have hlost := h zeroed [⟨'a', .motion .Z⟩, ⟨'f', .timeout⟩] ⟨'f', .timeout⟩ 'f' 'f' (by decide)
    (by decide) (by decide)
  exact absurd hlost.2.2 (by decide)

end Glove
