import Mathlib.Algebra.Ring.Parity
import Glove.Lib.History
import Glove.Theorems.Repeat

/-! Repeat gestures that are swallowed. `repeated` is set by a repeat that is carried out and cleared only by the
    next repeat, so every second repeat of a run is swallowed, whatever was sent in between. -/

namespace Glove
open Mealy Past ImuFsm Sensing

/-! ### Histories -/

/-- The number of repeat gestures of a history. -/
def replays (t : List Step) : Nat := t.countP fun x => x.act = .replay

/-- The last byte of a history was sent by a repeat gesture. -/
def SentByRepeat : List Step → Prop := Since (fun x => x.act = .replay ∧ x.answer ≠ []) fun y => y.answer = []

/-- Nothing was sent after the last repeat gesture of a history. -/
def QuietSinceRepeat : List Step → Prop :=
  Since (fun x => x.act = .replay) fun y => y.act ≠ .replay ∧ y.answer = []

section Concat
variable {t : List Step} {x : Step}

theorem replays_concat : replays (t ++ [x]) = replays t + if x.act = .replay then 1 else 0 := by
  simp [replays, List.countP_append, List.countP_singleton]

theorem sentByRepeat_concat :
    SentByRepeat (t ++ [x]) ↔ (x.act = .replay ∧ x.answer ≠ []) ∨ (SentByRepeat t ∧ x.answer = []) := since_concat

theorem quietSinceRepeat_concat :
    QuietSinceRepeat (t ++ [x]) ↔ x.act = .replay ∨ (QuietSinceRepeat t ∧ x.act ≠ .replay ∧ x.answer = []) :=
  since_concat

end Concat

/-- A run at rest: the flag is the parity of its repeats, and while it is set the last byte is that of a repeat
    exactly when nothing was sent since. -/
structure Flags (t : List Step) (f : Fsm) : Prop where
  atRest : f.AtRest
  parity : f.vars.repeated = true ↔ Odd (replays t)
  last : f.vars.repeated = true → (SentByRepeat t ↔ QuietSinceRepeat t)

theorem perform_repeated {k : Keyboard} {a : Act} (h : a ≠ .replay) : (k.perform a).1.repeated = k.repeated := by
  cases a with
  | select key shape =>
    simp only [Keyboard.perform]
    split <;> rfl
  | shift => rfl
  | backspace => rfl
  | replay => exact absurd rfl h
  | clear => rfl
  | nothing => rfl

theorem flags_step {t : List Step} {f : Fsm} (s : MacroStep) (h : Flags t f) :
    Flags (t ++ [f.stepOn s]) (f.macroStep s).1 := by
  have hrest := (h.atRest.performs s).atRest
  have hflag : (f.macroStep s).1.vars.repeated = (f.keyboard.perform (f.act s)).1.repeated :=
    congrArg Keyboard.repeated h.atRest.keyboard_macroStep
  have hanswer : (f.stepOn s).answer = (f.keyboard.perform (f.act s)).2 := h.atRest.sends_macroStep
  have hact : (f.stepOn s).act = f.act s := rfl
  have hkeep : f.keyboard.repeated = f.vars.repeated := rfl
  by_cases hreplay : f.act s = .replay
  · rw [hreplay] at hflag hanswer hact
    have hcount : replays (t ++ [f.stepOn s]) = replays t + 1 := by rw [replays_concat, if_pos hact]
    cases hrep : f.keyboard.repeated with
    | true =>
      -- The repeat is swallowed and the flag cleared.
      have hcleared : (f.macroStep s).1.vars.repeated = false := by simp [hflag, Keyboard.perform, hrep]
      refine ⟨hrest, ?_, fun hset => absurd (hcleared.symm.trans hset) Bool.false_ne_true⟩
      rw [hcleared, hcount, Nat.odd_add_one, ← h.parity, ← hkeep, hrep]
      simp
    | false =>
      have hset : (f.macroStep s).1.vars.repeated = true := by simp [hflag, Keyboard.perform, hrep]
      have hsends : (f.stepOn s).answer ≠ [] := by simp [hanswer, Keyboard.perform, hrep]
      refine ⟨hrest, ?_, fun _ => ?_⟩
      · rw [hset, hcount, Nat.odd_add_one, ← h.parity, ← hkeep, hrep]
        simp
      · rw [sentByRepeat_concat, quietSinceRepeat_concat]
        exact ⟨fun _ => Or.inl hact, fun _ => Or.inl ⟨hact, hsends⟩⟩
  · rw [perform_repeated hreplay, hkeep] at hflag
    rw [← hact] at hreplay
    refine ⟨hrest, ?_, fun hset => ?_⟩
    · rw [hflag, replays_concat, if_neg hreplay, Nat.add_zero]
      exact h.parity
    · have hlast := h.last (hflag.symm.trans hset)
      rw [sentByRepeat_concat, quietSinceRepeat_concat, hlast]
      simp [hreplay]

theorem flags_run (data : InstanceData) (ss : List MacroStep) :
    Flags (glove.trace (Fsm.init data) ss) (glove.after (Fsm.init data) ss) := by
  have hstart : Flags [] (Fsm.init data) :=
    ⟨init_atRest data, by simp [Fsm.init, replays], fun h => absurd h Bool.false_ne_true⟩
  simpa using trace_invariant (M := glove) (I := Flags) (fun _ _ s h => flags_step s h) hstart ss

/-! ### The repeat gesture -/

/-- A repeat gesture that ends in `NOOP` without a byte. -/
def Swallowed (f : Fsm) : Prop := (f.macroStep repeatStep).1.vars.data.event = .noop ∧ (f.macroStep repeatStep).2 = []

theorem swallowed_iff {f : Fsm} (hst : f.curState = .stateDefault) : Swallowed f ↔ f.vars.repeated = true := by
  obtain ⟨st, data, prevKey, repeated⟩ := f
  obtain rfl : st = .stateDefault := hst
  cases repeated with
  | true => exact ⟨fun _ => rfl, fun _ => ⟨rfl, rfl⟩⟩
  | false => exact ⟨fun h => absurd h.2 (List.cons_ne_nil _ _), fun h => absurd h Bool.false_ne_true⟩

/-- In every run, a repeat gesture is swallowed only right after a byte of a repeat exactly when an even number of
    repeats came before it or nothing was sent since the last of them. -/
theorem repeat_swallowed_iff (data : InstanceData) (ss : List MacroStep)
    (hst : (glove.after (Fsm.init data) ss).curState = .stateDefault) :
    (Swallowed (glove.after (Fsm.init data) ss) → SentByRepeat (glove.trace (Fsm.init data) ss)) ↔
      Even (replays (glove.trace (Fsm.init data) ss)) ∨ QuietSinceRepeat (glove.trace (Fsm.init data) ss) := by
  have h := flags_run data ss
  rw [swallowed_iff hst, ← Nat.not_odd_iff_even, ← h.parity, ← imp_iff_not_or]
  exact forall_congr' h.last

theorem repeat_swallowed_iff_b :
    (Swallowed (glove.after (Fsm.init zeroed) [⟨'b', .timeout⟩, repeatStep]) →
        SentByRepeat (glove.trace (Fsm.init zeroed) [⟨'b', .timeout⟩, repeatStep])) ↔
      Even (replays (glove.trace (Fsm.init zeroed) [⟨'b', .timeout⟩, repeatStep])) ∨
        QuietSinceRepeat (glove.trace (Fsm.init zeroed) [⟨'b', .timeout⟩, repeatStep]) :=
  repeat_swallowed_iff _ _ (by decide)

/-- A letter after a repeat does not clear the flag: the next repeat is swallowed. -/
theorem repeat_swallowed_after_letter : ¬∀ (data : InstanceData) (ss : List MacroStep), (∀ s ∈ ss, s.gesture ∈ signs) →
    (glove.after (Fsm.init data) ss).curState = .stateDefault → Swallowed (glove.after (Fsm.init data) ss) →
    SentByRepeat (glove.trace (Fsm.init data) ss) := by
  intro h
  have hlast := h zeroed [⟨'b', .timeout⟩, repeatStep, ⟨'e', .timeout⟩] (by decide) (by decide)
    ⟨by decide, by decide⟩
  have hsplit : glove.trace (Fsm.init zeroed) [⟨'b', .timeout⟩, repeatStep, ⟨'e', .timeout⟩] =
      glove.trace (Fsm.init zeroed) [⟨'b', .timeout⟩, repeatStep] ++
        [(glove.after (Fsm.init zeroed) [⟨'b', .timeout⟩, repeatStep]).stepOn ⟨'e', .timeout⟩] := rfl
  rw [hsplit, sentByRepeat_concat] at hlast
  rcases hlast with ⟨hact, -⟩ | ⟨-, hanswer⟩
  · exact absurd hact (by decide)
  · exact absurd hanswer (by decide)

end Glove
