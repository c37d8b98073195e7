import Glove.Theorems.Protocol

/-! Every key stays typable: from every state at rest a clear forgets the remembered shape, and then the
    sign of the key sends it. -/

namespace Glove
open Mealy ImuFsm Sensing

/-! ### Deliverable motions -/

/-- A sample in which one comparison holds. -/
def ImuSample.only (m : Motion) : ImuSample where
  readMs := 0
  gzNeg := m = .g
  ayPos := m = .y
  ayNeg := m = .Y
  axPos := m = .x
  axNeg := m = .X
  azPos := m = .z
  azNeg := m = .Z

theorem imuBranch_only {m : Motion} (hm : m ≠ .g) (w : Window) (st : State) :
    imuBranch w st (.only m) = some (.motion m) := by
  cases w <;> cases m <;> first | exact absurd rfl hm | simp [imuBranch, ImuSample.only, timeoutMs]

theorem imuBranch_only_g : imuBranch .full .stateWaitIj (.only .g) = some (.motion .g) := by
  simp [imuBranch, ImuSample.only, timeoutMs]

/-- A sign of the table and, if it opens an IMU loop, a motion that the IMU loop can deliver. -/
structure Signable (f : Fsm) (s : MacroStep) : Prop where
  sign : s.gesture ∈ signs
  motion : (window? (f.withGesture s.gesture).run.curState).isSome → ∃ m, s.answer = .motion m
  deliverable : Deliverable f s

theorem Fsm.AtRest.window_j {f : Fsm} (h : f.AtRest) {w : Window}
    (hw : window? (f.withGesture 'j').run.curState = some w) :
    w = .full ∧ (f.withGesture 'j').run.curState = .stateWaitIj := by
  rcases h with hst | hst
  · rw [Fsm.gesture_family hst (show family? 'j' = some .ij from rfl)] at hw ⊢
    cases hw
    exact ⟨rfl, rfl⟩
  · have hnone : f.curState = .stateDefault → family? 'j' = none := fun h => by rw [hst] at h; cases h
    rw [(Fsm.gesture_does (Or.inr hst) hnone .timeout).atRest.window?_eq_none] at hw
    cases hw

/-- The gyroscope is read after 'j' only, and every other motion everywhere. -/
theorem Fsm.AtRest.signable {f : Fsm} (h : f.AtRest) {c : Char} {m : Motion} (hc : c ∈ signs) (hg : m = .g → c = 'j') :
    Signable f ⟨c, .motion m⟩ := by
  refine ⟨hc, fun _ => ⟨m, rfl⟩, fun w hw => ⟨.only m, ?_⟩⟩
  by_cases hm : m = .g
  · obtain rfl := hg hm
    obtain rfl := hm
    obtain ⟨rfl, hst⟩ := h.window_j hw
    rw [hst]
    exact imuBranch_only_g
  · exact imuBranch_only hm w _

/-! ### Typing a key -/

/-- The letters, the digits but '0', the space and the backspace. -/
def typable : List Char := "abcdefghijklmnopqrstuvwxyz123456789 !".toList

def keySign : Char → Char
  | ' ' | '!' => '5'
  | '2' => 'u'
  | '4' => 'b'
  | '6' => 'w'
  | '9' => 'f'
  | key => key

def keyMotion : Char → Motion
  | 'g' | 'z' | 't' | 'h' => .y
  | 'q' | 'x' | 'o' | 'p' | '!' => .Z
  | 's' => .Y
  | 'j' => .g
  | ' ' => .z
  | _ => .X

/-- The macro-step that sends a key in the layer of the key. -/
def keyStep (key : Char) : MacroStep := ⟨keySign key, .motion (keyMotion key)⟩

/-- The macro-steps that leave the function layer and forget the remembered shape. -/
def clearing : Layer → List MacroStep
  | .letters => [clearStep]
  | .function => [keyStep '1', clearStep]

/-- The macro-steps before that of the key. -/
def typing (layer : Layer) (key : Char) : List MacroStep :=
  clearing layer ++ if key ∈ digits then [shiftStep] else []

theorem typing_length (layer : Layer) (key : Char) : (typing layer key).length ≤ 3 := by
  unfold typing
  cases layer <;> split <;> decide

theorem clearing_after (layer : Layer) (remembered : Char) (repeated : Bool) :
    keyboard.after ⟨layer, remembered, repeated⟩ (clearing layer) = ⟨.letters, '.', repeated⟩ := by
  cases layer with
  | letters => rfl
  | function =>
    have hleave : keyboard.step ⟨.function, remembered, repeated⟩ (keyStep '1') =
        Keyboard.perform ⟨.function, remembered, repeated⟩ (.select '1' '1') := rfl
    rw [clearing, after_cons, hleave]
    by_cases h : remembered = '1'
    · rw [Keyboard.perform, if_pos h]
      rfl
    · rw [Keyboard.perform, if_neg h]
      rfl

theorem keyStep_sends {key : Char} (hkey : key ∈ typable) (repeated : Bool) :
    (keyboard.step (keyboard.after ⟨.letters, '.', repeated⟩ (if key ∈ digits then [shiftStep] else []))
      (keyStep key)).2 = [key] := by
  have hall : typable.all (fun key =>
      (keyboard.step (keyboard.after ⟨.letters, '.', repeated⟩ (if key ∈ digits then [shiftStep] else []))
        (keyStep key)).2 = [key]) = true := by
    cases repeated <;> decide
  exact of_decide_eq_true (List.all_eq_true.mp hall key hkey)

theorem typing_sends {key : Char} (hkey : key ∈ typable) (k : Keyboard) :
    (keyboard.step (keyboard.after k (typing k.layer key)) (keyStep key)).2 = [key] := by
  obtain ⟨layer, remembered, repeated⟩ := k
  rw [typing, after_append, clearing_after]
  exact keyStep_sends hkey repeated

theorem typing_signs (layer : Layer) {key : Char} (hkey : key ∈ typable) {s : MacroStep}
    (hs : s ∈ typing layer key ++ [keyStep key]) :
    s.gesture ∈ signs ∧ s.answer ≠ .timeout ∧ (s.answer = .motion .g → s.gesture = 'j') := by
  have hall : typable.all (fun key => (typing layer key ++ [keyStep key]).all fun s =>
      s.gesture ∈ signs ∧ s.answer ≠ .timeout ∧ (s.answer = .motion .g → s.gesture = 'j')) = true := by
    cases layer <;> decide
  exact of_decide_eq_true (List.all_eq_true.mp (List.all_eq_true.mp hall key hkey) s hs)

/-- From every top that a run of the loop reaches, every key is sent by the last of at most four
    macro-steps that can be signed. -/
theorem key_typable (data : InstanceData) (is : List Input) (htop : (loop.after (Loop.init data) is).pc = .top)
    (key : Char) (hkey : key ∈ typable) :
    ∃ steps last, (steps ++ [last]).length ≤ 4 ∧
      (∀ x ∈ glove.trace (loop.after (Loop.init data) is).fsm (steps ++ [last]), Signable x.before x.input) ∧
      ((glove.after (loop.after (Loop.init data) is).fsm steps).macroStep last).2 = [key] := by
  obtain ⟨hrest, -⟩ := top_atRest data is htop
  generalize (loop.after (Loop.init data) is).fsm = f at hrest
  refine ⟨typing f.layer key, keyStep key, ?_, fun x hx => ?_, ?_⟩
  · rw [List.length_append]
    exact Nat.add_le_add_right (typing_length f.layer key) 1
  · obtain ⟨pre, s, post, heq, rfl⟩ := mem_trace_iff.mp hx
    obtain ⟨hsign, hmotion, hg⟩ := typing_signs f.layer hkey (s := s) (by rw [heq]; simp)
    obtain ⟨c, m | _⟩ := s
    · exact (hrest.after pre).signable hsign fun hm => hg (congrArg Answer.motion hm)
    · exact absurd rfl hmotion
  · obtain ⟨hafter, hkeyboard⟩ := glove_simulates.after ⟨hrest, rfl⟩ (typing f.layer key)
    rw [(hafter.performs _).sends, hkeyboard]
    exact typing_sends hkey f.keyboard

/-- At the start every key can be sent, among them 'j' with the gyroscope. -/
theorem key_typable_j :
    ∃ steps last, (steps ++ [last]).length ≤ 4 ∧
      (∀ x ∈ glove.trace (Fsm.init zeroed) (steps ++ [last]), Signable x.before x.input) ∧
      ((glove.after (Fsm.init zeroed) steps).macroStep last).2 = ['j'] :=
  key_typable zeroed [] rfl 'j' (by decide)

end Glove
