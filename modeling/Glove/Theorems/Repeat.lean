import Glove.Lib.History
import Glove.Theorems.History

/-! The repeat gesture over runs. It sends what `prev_key` holds, and that is the last key only if the
    last key was its own shape and no clear came in between. -/

namespace Glove
open Mealy Past ImuFsm Sensing

/-! ### The last key -/

/-- The last key other than a backspace among the bytes sent. -/
def lastKey (bytes : List Char) : Option Char := (bytes.filter fun byte => byte ≠ '!').getLast?

theorem lastKey_append_backspaces (bytes : List Char) {rest : List Char} (h : ∀ byte ∈ rest, byte = '!') :
    lastKey (bytes ++ rest) = lastKey bytes := by
  have hrest : rest.filter (fun byte => byte ≠ '!') = [] := by simpa using h
  rw [lastKey, List.filter_append, hrest, List.append_nil, lastKey]

theorem lastKey_concat (bytes : List Char) {key : Char} (h : key ≠ '!') : lastKey (bytes ++ [key]) = some key := by
  simp [lastKey, h]

@[simp] theorem lastKey_concat_backspace (bytes : List Char) : lastKey (bytes ++ ['!']) = lastKey bytes := by
  simp [lastKey]

def sent (t : List Step) : List Char := t.flatMap (·.answer)

@[simp] theorem sent_concat (t : List Step) (x : Step) : sent (t ++ [x]) = sent t ++ x.answer := by
  simp [sent]

/-! ### What a repeat would send -/

/-- The last key of a history other than a backspace is `key`; it was a selection with the key as its
    shape, or a repeat, and no clear came since, but one that leaves `key` itself to be repeated. -/
def Repeatable (t : List Step) (key : Char) : Prop :=
  ∃ pre x post, t = pre ++ x :: post ∧ x.answer = [key] ∧ key ≠ '!' ∧ (x.act = .select key key ∨ x.act = .replay) ∧
    ∀ y ∈ post, (y.answer = [] ∨ y.answer = ['!']) ∧ (y.act = .clear → key = '.')

theorem repeatable_iff_since {t : List Step} {key : Char} :
    Repeatable t key ↔
      Since (fun x => x.answer = [key] ∧ key ≠ '!' ∧ (x.act = .select key key ∨ x.act = .replay))
        (fun y => (y.answer = [] ∨ y.answer = ['!']) ∧ (y.act = .clear → key = '.')) t := by
  simp only [Repeatable, Since, and_assoc]

theorem repeatable_concat {t : List Step} {x : Step} {key : Char} :
    Repeatable (t ++ [x]) key ↔
      (x.answer = [key] ∧ key ≠ '!' ∧ (x.act = .select key key ∨ x.act = .replay)) ∨
        (Repeatable t key ∧ (x.answer = [] ∨ x.answer = ['!']) ∧ (x.act = .clear → key = '.')) := by
  rw [repeatable_iff_since, since_concat, ← repeatable_iff_since]

/-- A history of signs: `prev_key` is no backspace, and it is the last key exactly when that is repeatable;
    a digit in it is the last key, and a full stop as the last key is in it. -/
structure Tracks (t : List Step) (f : Fsm) : Prop where
  atRest : f.AtRest
  noBackspace : f.vars.prevKey ≠ '!'
  repeats : ∀ key, lastKey (sent t) = some key → (f.vars.prevKey = key ↔ Repeatable t key)
  digit : f.vars.prevKey ∈ digits → lastKey (sent t) = some f.vars.prevKey
  stop : lastKey (sent t) = some '.' → f.vars.prevKey = '.'

section Tracks
variable {t : List Step} {f g : Fsm} {x : Step}

theorem lastKey_sent_keep (hanswer : x.answer = [] ∨ x.answer = ['!']) :
    lastKey (sent (t ++ [x])) = lastKey (sent t) := by
  rcases hanswer with hanswer | hanswer <;> simp [hanswer]

/-- A step that leaves `prev_key` alone and sends no key. -/
theorem Tracks.keep (h : Tracks t f) (hrest : g.AtRest) (hprev : g.vars.prevKey = f.vars.prevKey)
    (hquiet : x.act ≠ .clear ∧ x.answer = [] ∨ x.act = .backspace ∧ x.answer = ['!']) : Tracks (t ++ [x]) g := by
  have hanswer : x.answer = [] ∨ x.answer = ['!'] := hquiet.imp And.right And.right
  have hlast := lastKey_sent_keep (t := t) hanswer
  have hrepeat : ∀ key, Repeatable (t ++ [x]) key ↔ Repeatable t key := by
    intro key
    rw [repeatable_concat]
    rcases hquiet with ⟨hact, hnil⟩ | ⟨hact, hback⟩
    · simp [hnil, hact]
    · simp [hback, hact]
  refine ⟨hrest, ?_, fun key => ?_, ?_, ?_⟩
  · rw [hprev]
    exact h.noBackspace
  · rw [hlast, hprev, hrepeat]
    exact h.repeats key
  · rw [hlast, hprev]
    exact h.digit
  · rw [hlast, hprev]
    exact h.stop

/-- A step that sends a key and leaves `prev_key` at `shape`. -/
theorem Tracks.send {key shape : Char} (hrest : g.AtRest) (hprev : g.vars.prevKey = shape) (hanswer : x.answer = [key])
    (hact : x.act = .select key shape ∨ x.act = .replay ∧ shape = key) (hkey : key ≠ '!') (hshape : shape ≠ '!')
    (hown : shape ∈ digits ∨ key = '.' → shape = key) : Tracks (t ++ [x]) g := by
  have hlast : lastKey (sent (t ++ [x])) = some key := by rw [sent_concat, hanswer, lastKey_concat _ hkey]
  refine ⟨hrest, hprev ▸ hshape, fun key' heq => ?_, fun hmem => ?_, fun heq => ?_⟩
  · obtain rfl : key = key' := Option.some.inj (hlast.symm.trans heq)
    rw [hprev, repeatable_concat]
    rcases hact with hact | ⟨hact, rfl⟩
    · simp [hanswer, hact, hkey]
    · simp [hanswer, hact, hkey]
  · rw [hprev] at hmem ⊢
    rw [hlast, hown (Or.inl hmem)]
  · obtain rfl : key = '.' := Option.some.inj (hlast.symm.trans heq)
    rw [hprev, hown (Or.inr rfl)]

/-- A clear: what can be repeated from here on is the full stop. -/
theorem Tracks.clear (h : Tracks t f) (hrest : g.AtRest) (hprev : g.vars.prevKey = '.') (hact : x.act = .clear)
    (hanswer : x.answer = []) : Tracks (t ++ [x]) g := by
  have hlast := lastKey_sent_keep (t := t) (Or.inl hanswer)
  refine ⟨hrest, by rw [hprev]; decide, fun key heq => ?_, fun hmem => ?_, fun _ => hprev⟩
  · rw [hlast] at heq
    have hsame : Repeatable (t ++ [x]) key ↔ Repeatable t key ∧ key = '.' := by simp [repeatable_concat, hanswer, hact]
    rw [hprev, hsame]
    constructor
    · rintro rfl
      exact ⟨(h.repeats _ heq).mp (h.stop heq), rfl⟩
    · rintro ⟨-, rfl⟩
      rfl
  · rw [hprev] at hmem
    exact absurd hmem (by decide)

end Tracks

theorem tracks_step {t : List Step} {f : Fsm} {s : MacroStep} (hsign : s.gesture ∈ signs) (h : Tracks t f) :
    Tracks (t ++ [f.stepOn s]) (f.macroStep s).1 := by
  have hrest := (h.atRest.performs s).atRest
  have hprev := h.atRest.prevKey_macroStep (s := s)
  have hanswer : (f.stepOn s).answer = (f.keyboard.perform (f.act s)).2 := h.atRest.sends_macroStep
  have hstep : (f.stepOn s).act = f.act s := rfl
  have hkeep : f.keyboard.remembered = f.vars.prevKey := rfl
  cases hact : f.act s with
  | select key shape =>
    rw [hact] at hprev hanswer hstep
    by_cases heq : f.keyboard.remembered = shape
    · simp only [Keyboard.perform, heq, if_true] at hprev hanswer
      exact h.keep hrest (hprev.trans (heq.symm.trans hkeep)) (Or.inl ⟨by simp [hstep], hanswer⟩)
    · simp only [Keyboard.perform, heq, if_false] at hprev hanswer
      obtain ⟨hkey, hshape⟩ := act_not_special hact hsign
      refine .send hrest hprev hanswer (Or.inl hstep) (ne_backspace hkey) (ne_backspace hshape) ?_
      rintro (hmem | rfl)
      · exact act_shape_digit hact hmem
      · exact absurd (by decide) hkey
  | replay =>
    rw [hact] at hprev hanswer hstep
    cases hrep : f.keyboard.repeated with
    | true =>
      simp only [Keyboard.perform, hrep, if_true] at hprev hanswer
      exact h.keep hrest hprev (Or.inl ⟨by simp [hstep], hanswer⟩)
    | false =>
      simp only [Keyboard.perform, hrep, if_false, reduceCtorEq] at hprev hanswer
      exact .send hrest hprev hanswer (Or.inr ⟨hstep, rfl⟩) h.noBackspace h.noBackspace fun _ => rfl
  | clear =>
    rw [hact] at hprev hanswer hstep
    exact h.clear hrest hprev hstep hanswer
  | shift =>
    rw [hact] at hprev hanswer hstep
    exact h.keep hrest hprev (Or.inl ⟨by simp [hstep], hanswer⟩)
  | backspace =>
    rw [hact] at hprev hanswer hstep
    exact h.keep hrest hprev (Or.inr ⟨hstep, hanswer⟩)
  | nothing =>
    rw [hact] at hprev hanswer hstep
    exact h.keep hrest hprev (Or.inl ⟨by simp [hstep], hanswer⟩)

theorem tracks_run (data : InstanceData) {ss : List MacroStep} (hsign : ∀ s ∈ ss, s.gesture ∈ signs) :
    Tracks (glove.trace (Fsm.init data) ss) (glove.after (Fsm.init data) ss) := by
  have hstart : Tracks [] (Fsm.init data) :=
    ⟨init_atRest data, (by decide : '\x00' ≠ '!'), (fun _ h => nomatch h),
      fun h => absurd h (by decide : '\x00' ∉ digits), fun h => nomatch h⟩
  have hstep : ∀ t f s, ((∀ x ∈ t, x.input.gesture ∈ signs) → Tracks t f) →
      (∀ x ∈ t ++ [f.stepOn s], x.input.gesture ∈ signs) → Tracks (t ++ [f.stepOn s]) (f.macroStep s).1 := by
    intro t f s ih hall
    have hs : s.gesture ∈ signs := hall (f.stepOn s) (by simp)
    exact tracks_step hs (ih fun x hx => hall x (by simp [hx]))
  have hrun := trace_invariant (M := glove) (I := fun t f => (∀ x ∈ t, x.input.gesture ∈ signs) → Tracks t f) hstep
    (fun _ => hstart) ss
  refine hrun fun x hx => hsign x.input ?_
  rw [← trace_inputs glove (Fsm.init data) ss]
  exact List.mem_map_of_mem hx

/-! ### The repeat gesture -/

theorem repeat_sends {f : Fsm} (hst : f.curState = .stateDefault) (hrep : f.vars.repeated = false) :
    (f.macroStep repeatStep).2 = [f.vars.prevKey] := by
  have hact : f.act repeatStep = .replay := by simp [Fsm.act, Fsm.layer, hst]
  rw [Fsm.AtRest.sends_macroStep (Or.inl hst), hact]
  simp [Keyboard.perform, Fsm.keyboard, Vars.on, hrep]

/-- The last key of a history is the one that is repeatable. -/
theorem Repeatable.lastKey {t : List Step} {key : Char} (h : Repeatable t key) : lastKey (sent t) = some key := by
  obtain ⟨pre, x, post, rfl, hanswer, hkey, -, hpost⟩ := h
  have hsent : sent (pre ++ x :: post) = (sent pre ++ [key]) ++ sent post := by simp [sent, hanswer]
  rw [hsent, lastKey_append_backspaces _ fun byte hbyte => ?_, lastKey_concat _ hkey]
  obtain ⟨y, hy, hbyte⟩ := List.mem_flatMap.mp hbyte
  rcases (hpost y hy).1 with hnil | hback
  · rw [hnil] at hbyte
    cases hbyte
  · rw [hback] at hbyte
    exact List.mem_singleton.mp hbyte

/-- In every run, a repeat that is carried out sends the last key other than a backspace, and nothing if
    there is none, exactly when there is such a key and it is repeatable. -/
theorem repeat_sends_lastKey_iff (data : InstanceData) (ss : List MacroStep) (hsign : ∀ s ∈ ss, s.gesture ∈ signs)
    (hst : (glove.after (Fsm.init data) ss).curState = .stateDefault)
    (hrep : (glove.after (Fsm.init data) ss).vars.repeated = false) :
    ((glove.after (Fsm.init data) ss).macroStep repeatStep).2 =
        (lastKey (glove.outputs (Fsm.init data) ss)).toList ↔
      ∃ key, Repeatable (glove.trace (Fsm.init data) ss) key := by
  have h := tracks_run data hsign
  have hout : glove.outputs (Fsm.init data) ss = sent (glove.trace (Fsm.init data) ss) := rfl
  rw [repeat_sends hst hrep, hout]
  cases hlast : lastKey (sent (glove.trace (Fsm.init data) ss)) with
  | none =>
    refine ⟨fun h => (nomatch h), ?_⟩
    rintro ⟨key, hkey⟩
    rw [hkey.lastKey] at hlast
    cases hlast
  | some key =>
    have hiff := h.repeats key hlast
    constructor
    · intro hsends
      exact ⟨key, hiff.mp (List.singleton_inj.mp hsends)⟩
    · rintro ⟨key', hkey'⟩
      obtain rfl : key' = key := Option.some.inj (hkey'.lastKey.symm.trans hlast)
      exact congrArg (fun c => [c]) (hiff.mpr hkey')

theorem repeat_sends_lastKey_iff_b :
    ((glove.after (Fsm.init zeroed) [⟨'b', .timeout⟩, ⟨'5', .motion .Z⟩]).macroStep repeatStep).2 =
        (lastKey (glove.outputs (Fsm.init zeroed) [⟨'b', .timeout⟩, ⟨'5', .motion .Z⟩])).toList ↔
      ∃ key, Repeatable (glove.trace (Fsm.init zeroed) [⟨'b', .timeout⟩, ⟨'5', .motion .Z⟩]) key :=
  repeat_sends_lastKey_iff _ _ (by decide) (by decide) (by decide)

/-- After a digit signed with a letter a repeat sends the letter. -/
theorem repeat_misses_lastKey : ¬∀ (data : InstanceData) (ss : List MacroStep), (∀ s ∈ ss, s.gesture ∈ signs) →
    (glove.after (Fsm.init data) ss).curState = .stateDefault →
    (glove.after (Fsm.init data) ss).vars.repeated = false →
    ((glove.after (Fsm.init data) ss).macroStep repeatStep).2 =
      (lastKey (glove.outputs (Fsm.init data) ss)).toList := by
  intro h
  have hmiss := h zeroed [⟨'a', .motion .Z⟩, ⟨'f', .timeout⟩] (by decide) (by decide) (by decide)
  exact absurd hmiss (by decide)

end Glove
