import Glove.Theorems.Repeat

/-! The function layer over runs: where digits come from, and what an activation of the layer sends. -/

namespace Glove
open Mealy ImuFsm Sensing

/-! ### Steps in the layer -/

theorem layer_function_iff {f : Fsm} : f.layer = .function ↔ f.curState = .fnLayerActive := by
  unfold Fsm.layer
  split <;> simp_all

/-- A step in the function layer stays, sends nothing and keeps `prev_key`, or it leaves with a digit,
    which it sends unless its sign is in `prev_key`. -/
theorem function_step {f : Fsm} (hst : f.curState = .fnLayerActive) (s : MacroStep) :
    ((f.macroStep s).1.curState = .fnLayerActive ∧ (f.macroStep s).2 = [] ∧
        (f.macroStep s).1.vars.prevKey = f.vars.prevKey) ∨
      ((f.macroStep s).1.curState ≠ .fnLayerActive ∧
        ∃ digit ∈ digits, (f.macroStep s).2 = if f.vars.prevKey = s.gesture then [] else [digit]) := by
  have hrest : f.AtRest := Or.inr hst
  have hlayer : f.layer = .function := layer_function_iff.mpr hst
  have hprev := hrest.prevKey_macroStep (s := s)
  have hafter := hrest.layer_macroStep (s := s)
  have hsends := hrest.sends_macroStep (s := s)
  have hact : f.act s = act .function s := by rw [Fsm.act, hlayer]
  rw [hact] at hprev hafter hsends
  rcases act_function s with ⟨hnothing, -⟩ | ⟨digit, hselect, hdigit⟩
  · rw [hnothing] at hprev hafter hsends
    exact Or.inl ⟨layer_function_iff.mp (hafter.trans hlayer), hsends, hprev⟩
  · rw [hselect] at hafter hsends
    refine Or.inr ⟨fun hstay => ?_, digit, digit?_mem hdigit, ?_⟩
    · rw [layer_function_iff.mpr hstay] at hafter
      by_cases heq : f.keyboard.remembered = s.gesture <;> simp [Keyboard.perform, heq] at hafter
    · rw [hsends]
      by_cases heq : f.keyboard.remembered = s.gesture
      · rw [if_pos (show f.vars.prevKey = s.gesture from heq)]
        simp [Keyboard.perform, heq]
      · rw [if_neg (show f.vars.prevKey ≠ s.gesture from heq)]
        simp [Keyboard.perform, heq]

theorem Remembers.prevKey_iff {t : List Step} {f : Fsm} (h : Remembers t f) {c : Char} (hc : c ∈ signs) :
    f.vars.prevKey = c ↔ lastShape t = some c := by
  have hholds := h.2
  cases hlast : lastShape t with
  | some shape =>
    rw [hlast] at hholds
    rw [show f.vars.prevKey = shape from hholds, Option.some.injEq]
  | none =>
    rw [hlast] at hholds
    refine ⟨fun heq => absurd (signs_not_special hc) ?_, fun h => nomatch h⟩
    rcases hholds with h | h <;> rw [← heq, h] <;> decide

/-! ### Where digits come from -/

theorem meaning_replay {family : Family} {c : Char} {m : Motion} (h : family.meaning c m = .replay) :
    family = .five ∧ m = .y := by
  cases family <;> cases m <;> first | exact ⟨rfl, rfl⟩ | cases h

theorem family?_five {c : Char} (h : family? c = some .five) : c = '5' := by
  unfold family? at h
  split at h <;> first | rfl | cases h

theorem act_letters_replay {s : MacroStep} (h : act .letters s = .replay) : s = repeatStep := by
  rcases act_letters s with ⟨family, m, hfam, hm, hact⟩ | hact | ⟨hact, -⟩ <;> rw [hact] at h
  · obtain ⟨rfl, rfl⟩ := meaning_replay h
    obtain ⟨c, answer⟩ := s
    obtain rfl : answer = .motion .y := hm
    obtain rfl : c = '5' := family?_five hfam
    rfl
  · cases h
  · cases h

/-- A digit is sent in the function layer, or by a repeat of the last key. -/
theorem digit_sent {t : List Step} {f : Fsm} {s : MacroStep} {digit : Char} (h : Tracks t f) (hd : digit ∈ digits)
    (hsent : digit ∈ (f.macroStep s).2) :
    f.curState = .fnLayerActive ∨ (s = repeatStep ∧ lastKey (sent t) = some digit) := by
  rcases h.atRest with hst | hst
  · right
    have hlayer : f.layer = .letters := by simp [Fsm.layer, hst]
    have hact : f.act s = act .letters s := by rw [Fsm.act, hlayer]
    have hsends : (f.macroStep s).2 = (f.keyboard.perform (act .letters s)).2 := hact ▸ h.atRest.sends_macroStep
    rw [hsends] at hsent
    cases ha : act .letters s with
    | select key shape =>
      have hkey : digit = key := by
        by_cases heq : f.keyboard.remembered = shape
        · simp [ha, Keyboard.perform, heq] at hsent
        · simpa [ha, Keyboard.perform, heq] using hsent
      exact absurd (hkey ▸ hd) (act_letters_select ha).2
    | replay =>
      have hkey : digit = f.vars.prevKey := by
        cases hrep : f.keyboard.repeated with
        | true => simp [ha, Keyboard.perform, hrep] at hsent
        | false =>
          rw [ha, Keyboard.perform, hrep] at hsent
          exact List.mem_singleton.mp hsent
      refine ⟨act_letters_replay ha, ?_⟩
      rw [h.digit (hkey ▸ hd), hkey]
    | backspace =>
      have hkey : digit = '!' := by simpa [ha, Keyboard.perform] using hsent
      exact absurd (hkey ▸ hd) (by decide)
    | shift => simp [ha, Keyboard.perform] at hsent
    | clear => simp [ha, Keyboard.perform] at hsent
    | nothing => simp [ha, Keyboard.perform] at hsent
  · exact Or.inl hst

/-! ### Activations -/

theorem shift_step {f : Fsm} (hst : f.curState = .stateDefault) :
    (f.macroStep shiftStep).1.curState = .fnLayerActive ∧ (f.macroStep shiftStep).2 = [] ∧
      (f.macroStep shiftStep).1.vars.prevKey = f.vars.prevKey := by
  have hrest : f.AtRest := Or.inl hst
  have hact : f.act shiftStep = .shift := by simp [Fsm.act, Fsm.layer, hst]
  refine ⟨layer_function_iff.mp ?_, ?_, ?_⟩
  · rw [hrest.layer_macroStep, hact]
    rfl
  · rw [hrest.sends_macroStep, hact]
    rfl
  · rw [hrest.prevKey_macroStep, hact]
    rfl

/-- The steps `inside` all stay in the function layer, and `leaving` leaves it. -/
def LeavesAfter (f : Fsm) (inside : List MacroStep) (leaving : MacroStep) : Prop :=
  (∀ p, p <+: inside → (glove.after f p).curState = .fnLayerActive) ∧
    (glove.after f (inside ++ [leaving])).curState ≠ .fnLayerActive

/-- The layer sends exactly one digit until it is left, unless the sign that leaves it is in `prev_key`. -/
theorem function_outputs {f : Fsm} {inside : List MacroStep} {leaving : MacroStep} (h : LeavesAfter f inside leaving) :
    ∃ digit ∈ digits, glove.outputs f (inside ++ [leaving]) =
      if f.vars.prevKey = leaving.gesture then [] else [digit] := by
  induction inside generalizing f with
  | nil =>
    have hst : f.curState = .fnLayerActive := h.1 [] List.nil_prefix
    rcases function_step hst leaving with ⟨hstay, -⟩ | ⟨-, digit, hd, hout⟩
    · exact absurd hstay h.2
    · exact ⟨digit, hd, (List.append_nil _).trans hout⟩
  | cons s inside ih =>
    have hst : f.curState = .fnLayerActive := h.1 [] List.nil_prefix
    have hnext : (f.macroStep s).1.curState = .fnLayerActive := h.1 [s] (by simp)
    rcases function_step hst s with ⟨-, hquiet, hprev⟩ | ⟨hleft, -⟩
    · obtain ⟨digit, hd, hout⟩ := ih (f := (f.macroStep s).1)
        ⟨fun p hp => h.1 (s :: p) (List.cons_prefix_cons.mpr ⟨rfl, hp⟩), h.2⟩
      refine ⟨digit, hd, ?_⟩
      rw [← hprev, ← hout]
      exact congrArg (· ++ _) hquiet
    · exact absurd hnext hleft

/-- In every run: a digit is sent only by a step in the function layer, or by a repeat when it is the
    last key other than a backspace; and an activation of the layer that is left has sent exactly one
    digit, with the step that left it, unless the sign of that step was the remembered shape. -/
theorem function_layer (data : InstanceData) (ss : List MacroStep) (hsign : ∀ s ∈ ss, s.gesture ∈ signs) :
    (∀ s digit, digit ∈ digits → digit ∈ ((glove.after (Fsm.init data) ss).macroStep s).2 →
      (glove.after (Fsm.init data) ss).curState = .fnLayerActive ∨
        (s = repeatStep ∧ lastKey (glove.outputs (Fsm.init data) ss) = some digit)) ∧
    (∀ s, s.gesture ∈ signs → LeavesAfter (glove.after (Fsm.init data) ss) [] s → ∃ digit ∈ digits,
      ((glove.after (Fsm.init data) ss).macroStep s).2 =
        if lastShape (glove.trace (Fsm.init data) ss) = some s.gesture then [] else [digit]) ∧
    (∀ inside leaving, leaving.gesture ∈ signs → (glove.after (Fsm.init data) ss).curState = .stateDefault →
      LeavesAfter (glove.after (Fsm.init data) (ss ++ [shiftStep])) inside leaving → ∃ digit ∈ digits,
      glove.outputs (glove.after (Fsm.init data) ss) (shiftStep :: inside ++ [leaving]) =
        if lastShape (glove.trace (Fsm.init data) ss) = some leaving.gesture then [] else [digit]) := by
  have hrem := remembers_run data ss
  refine ⟨fun s digit => digit_sent (tracks_run data hsign), fun s hs hleaves => ?_,
    fun inside leaving hs hst hleaves => ?_⟩
  · obtain ⟨digit, hd, hout⟩ := function_outputs hleaves
    refine ⟨digit, hd, ?_⟩
    simp only [← hrem.prevKey_iff hs, ← hout]
    exact (List.append_nil _).symm
  · obtain ⟨-, hquiet, hprev⟩ := shift_step hst
    rw [after_append] at hleaves
    obtain ⟨digit, hd, hout⟩ := function_outputs hleaves
    refine ⟨digit, hd, ?_⟩
    simp only [← hrem.prevKey_iff hs, ← hprev]
    exact (congrArg (· ++ _) hquiet).trans hout

/-- An activation after the letter 'f', left with another sign, has sent its digit. -/
theorem function_layer_b :
    (∀ s digit, digit ∈ digits → digit ∈ ((glove.after (Fsm.init zeroed) [⟨'f', .timeout⟩]).macroStep s).2 →
      (glove.after (Fsm.init zeroed) [⟨'f', .timeout⟩]).curState = .fnLayerActive ∨
        (s = repeatStep ∧ lastKey (glove.outputs (Fsm.init zeroed) [⟨'f', .timeout⟩]) = some digit)) ∧
    ∃ digit ∈ digits, glove.outputs (glove.after (Fsm.init zeroed) [⟨'f', .timeout⟩])
      [shiftStep, ⟨'a', .timeout⟩, ⟨'b', .timeout⟩] = [digit] := by
  obtain ⟨hdigit, -, hactivation⟩ := function_layer zeroed [⟨'f', .timeout⟩] (by decide)
  refine ⟨hdigit, ?_⟩
  refine hactivation [⟨'a', .timeout⟩] ⟨'b', .timeout⟩ (by decide) (by decide) ⟨fun p hp => ?_, by decide⟩
  rcases List.prefix_cons_iff.mp hp with rfl | ⟨q, rfl, hq⟩
  · decide
  · rw [List.prefix_nil.mp hq]
    decide

/-- The layer is left without a digit when its sign was the last letter. -/
theorem function_layer_lossy : ¬∀ (data : InstanceData) (ss : List MacroStep) (s : MacroStep),
    (∀ x ∈ ss ++ [s], x.gesture ∈ signs) → (glove.after (Fsm.init data) ss).curState = .fnLayerActive →
    (glove.after (Fsm.init data) (ss ++ [s])).curState ≠ .fnLayerActive →
    ∃ digit ∈ digits, ((glove.after (Fsm.init data) ss).macroStep s).2 = [digit] := by
  intro h
  obtain ⟨digit, -, hout⟩ := h zeroed [⟨'f', .timeout⟩, shiftStep] ⟨'f', .timeout⟩ (by decide)
    (by decide) (by decide)
  have hquiet : ((glove.after (Fsm.init zeroed) [⟨'f', .timeout⟩, shiftStep]).macroStep ⟨'f', .timeout⟩).2 = [] := by
    decide
  rw [hquiet] at hout
  cases hout

end Glove
