import Glove.Keyboard

/-! What a macro-step can ask for: the keys and shapes of its selections. -/

namespace Glove
open ImuFsm Sensing

/-- The values that `prev_key` has before the first selection and after a clear, and the backspace. No
    sign of the table has one of them as its key or shape. -/
def special : List Char := ['\x00', '.', '!']

/-! ### Gestures with a meaning of their own -/

/-- The sign '5' with the motion `y`. -/
def repeatStep : MacroStep := ⟨'5', .motion .y⟩

/-- The sign 'a' with the motion `Z`. -/
def shiftStep : MacroStep := ⟨'a', .motion .Z⟩

/-- The sign '5' with a motion other than those of the repeat, the space and the backspace. -/
def clearStep : MacroStep := ⟨'5', .motion .X⟩

@[simp] theorem act_repeatStep : act .letters repeatStep = .replay := rfl

@[simp] theorem act_shiftStep : act .letters shiftStep = .shift := rfl

/-! ### Selections -/

section Selections
variable {s : MacroStep} {key shape : Char}

theorem meaning_select {family : Family} {c : Char} {m : Motion} (h : family.meaning c m = .select key shape) :
    key = shape ∧ key ∉ digits ∧ key ∉ special := by
  by_cases hc : c = 'm' <;> cases family <;> cases m <;>
    simp only [Family.meaning, Act.letter, hc, if_true, if_false, reduceCtorEq] at h <;> cases h <;> decide

/-- What a macro-step can mean in the letter layer. -/
theorem act_letters (s : MacroStep) :
    (∃ family m, family? s.gesture = some family ∧ s.answer = .motion m ∧ act .letters s = family.meaning s.gesture m) ∨
      act .letters s = .nothing ∨ (act .letters s = .letter s.gesture ∧ s.gesture ∉ digits) := by
  obtain ⟨c, answer⟩ := s
  cases hfam : family? c with
  | some family =>
    cases answer with
    | motion m => exact Or.inl ⟨family, m, rfl, rfl, by simp [act, hfam]⟩
    | timeout => exact Or.inr (Or.inl (by simp [act, hfam]))
  | none =>
    by_cases hd : c ∈ digits
    · exact Or.inr (Or.inl (by simp [act, hfam, hd]))
    · exact Or.inr (Or.inr ⟨by simp [act, hfam, hd], hd⟩)

/-- In the letter layer a key is its own shape, and no digit. -/
theorem act_letters_select (h : act .letters s = .select key shape) : key = shape ∧ key ∉ digits := by
  rcases act_letters s with ⟨family, m, -, -, hact⟩ | hact | ⟨hact, hd⟩ <;> rw [hact] at h
  · obtain ⟨heq, hdigit, -⟩ := meaning_select h
    exact ⟨heq, hdigit⟩
  · cases h
  · cases h
    exact ⟨rfl, hd⟩

theorem act_function (s : MacroStep) :
    act .function s = .nothing ∧ digit? s.gesture = none ∨
      ∃ digit, act .function s = .select digit s.gesture ∧ digit? s.gesture = some digit := by
  obtain ⟨c, answer⟩ := s
  cases hd : digit? c with
  | some digit => exact Or.inr ⟨digit, by simp [act, hd], rfl⟩
  | none => exact Or.inl ⟨by simp [act, hd], rfl⟩

theorem digit?_mem {c digit : Char} (h : digit? c = some digit) : digit ∈ digits := by
  unfold digit? at h
  split at h <;> cases h <;> decide

/-- A digit signed with a digit is signed with itself. -/
theorem digit?_self {c digit : Char} (h : digit? c = some digit) (hc : c ∈ digits) : c = digit := by
  unfold digit? at h
  split at h <;> cases h <;> first | rfl | exact absurd hc (by decide)

theorem act_shape_digit {layer : Layer} (h : act layer s = .select key shape) (hshape : shape ∈ digits) :
    shape = key := by
  cases layer with
  | letters => exact (act_letters_select h).1.symm
  | function =>
    rcases act_function s with ⟨hact, -⟩ | ⟨digit, hact, hd⟩ <;> rw [hact] at h
    · cases h
    · cases h
      exact digit?_self hd hshape

theorem digits_not_special {c : Char} (hc : c ∈ digits) : c ∉ special := by
  have hall : digits.all (fun c => c ∉ special) = true := by decide
  exact of_decide_eq_true (List.all_eq_true.mp hall c hc)

theorem signs_not_special {c : Char} (hc : c ∈ signs) : c ∉ special := by
  have hall : signs.all (fun c => c ∉ special) = true := by decide
  exact of_decide_eq_true (List.all_eq_true.mp hall c hc)

theorem ne_backspace {c : Char} (h : c ∉ special) : c ≠ '!' := by
  rintro rfl
  exact h (by decide)

theorem act_not_special {layer : Layer} (h : act layer s = .select key shape) (hs : s.gesture ∈ signs) :
    key ∉ special ∧ shape ∉ special := by
  cases layer with
  | letters =>
    obtain ⟨rfl, -⟩ := act_letters_select h
    suffices hkey : key ∉ special from ⟨hkey, hkey⟩
    rcases act_letters s with ⟨family, m, -, -, hact⟩ | hact | ⟨hact, -⟩ <;> rw [hact] at h
    · exact (meaning_select h).2.2
    · cases h
    · cases h
      exact signs_not_special hs
  | function =>
    rcases act_function s with ⟨hact, -⟩ | ⟨digit, hact, hd⟩ <;> rw [hact] at h
    · cases h
    · cases h
      exact ⟨digits_not_special (digit?_mem hd), signs_not_special hs⟩

end Selections

end Glove
