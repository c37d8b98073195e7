import Glove.Theorems.Signing

/-! The bytes that cross from the glove to the host: which ones there are, and what the host makes of them. -/

namespace Glove
open Mealy ImuFsm Sensing

/-- The keys, and what else `prev_key` can be: at the start, after a clear, and after the motion `y` on the sign 'a', which
    sends it as well. -/
def sendable : List Char := typable ++ ['\x00', '.', '\x0f']

/-! ### Nothing else is sent -/

/-- What an act sends or remembers. -/
def Act.chars : Act → List Char
  | .select key shape => [key, shape]
  | _ => []

theorem act_chars (layer : Layer) {s : MacroStep} (hs : s.gesture ∈ signs) :
    ∀ c ∈ (act layer s).chars, c ∈ sendable ∧ c ≠ '!' := by
  have hall : ∀ answer, signs.all (fun c => (act layer ⟨c, answer⟩).chars.all fun c => c ∈ sendable ∧ c ≠ '!') = true := by
    rintro (m | _)
    · cases layer <;> cases m <;> decide
    · cases layer <;> decide
  intro c hc
  exact of_decide_eq_true (List.all_eq_true.mp (List.all_eq_true.mp (hall s.answer) s.gesture hs) c hc)

/-- The keyboard remembers something that it may send. -/
def Remembering (k : Keyboard) : Prop := k.remembered ∈ sendable

theorem perform_sendable {k : Keyboard} {a : Act} (ha : ∀ c ∈ a.chars, c ∈ sendable) (hk : Remembering k) :
    Remembering (k.perform a).1 ∧ ∀ byte ∈ (k.perform a).2, byte ∈ sendable := by
  cases a with
  | select key shape =>
    by_cases h : k.remembered = shape
    · simpa [Keyboard.perform, h, Remembering] using hk
    · simpa [Keyboard.perform, h, Remembering, Act.chars, and_comm] using ha
  | replay =>
    by_cases h : k.repeated = true
    · simpa [Keyboard.perform, h, Remembering] using hk
    · simpa [Keyboard.perform, h, Remembering] using hk
  | backspace => exact ⟨hk, by simp [Keyboard.perform]; decide⟩
  | clear => exact ⟨by simp [Keyboard.perform, Remembering]; decide, by simp [Keyboard.perform]⟩
  | shift => exact ⟨hk, by simp [Keyboard.perform]⟩
  | nothing => exact ⟨hk, by simp [Keyboard.perform]⟩

theorem keyboard_sendable {ss : List MacroStep} (hss : ∀ s ∈ ss, s.gesture ∈ signs) {k : Keyboard} (hk : Remembering k) :
    ∀ byte ∈ keyboard.outputs k ss, byte ∈ sendable := by
  induction ss generalizing k with
  | nil => exact fun byte h => absurd h List.not_mem_nil
  | cons s ss ih =>
    obtain ⟨hk', hbytes⟩ := perform_sendable (fun c hc => (act_chars k.layer (hss s List.mem_cons_self) c hc).1) hk
    intro byte h
    rw [outputs_cons] at h
    rcases List.mem_append.mp h with h | h
    · exact hbytes byte h
    · exact ih (fun s hs => hss s (List.mem_cons_of_mem _ hs)) hk' byte h

theorem normalMode_sendable (env : Env) (data : InstanceData) (memory : SensorReading) (ticks : List Unit) :
    ∀ byte ∈ ((normalMode env).outputs (Main.init data memory) ticks).filterMap Obs.byte?, byte ∈ sendable := by
  obtain ⟨ss, hbytes, hallowed⟩ := normalMode_run env data memory ticks
  rw [hbytes]
  refine keyboard_sendable (fun s hs => ?_) (show '\x00' ∈ sendable by decide)
  rw [← trace_inputs glove (Fsm.init data) ss] at hs
  obtain ⟨x, hx, rfl⟩ := List.mem_map.mp hs
  exact (hallowed x hx).1

/-! ### Each of them can be -/

/-- Macro-steps that send a byte from the start. -/
def sending : Char → List MacroStep
  | '\x00' => [repeatStep]
  | '.' => [clearStep, repeatStep]
  | '\x0f' => [⟨'a', .motion .y⟩]
  | key => signing [key]

theorem sending_sends {byte : Char} (h : byte ∈ sendable) :
    (∀ s ∈ sending byte, Signed s) ∧ byte ∈ keyboard.outputs Keyboard.init (sending byte) := by
  have hall : sendable.all (fun byte =>
      (sending byte).all (fun s => Signed s) ∧ byte ∈ keyboard.outputs Keyboard.init (sending byte)) = true := by decide
  obtain ⟨hsigned, hbyte⟩ := of_decide_eq_true (List.all_eq_true.mp hall byte h)
  exact ⟨fun s hs => of_decide_eq_true (List.all_eq_true.mp hsigned s hs), hbyte⟩

/-- The bytes that the glove can send are those of `sendable`, whatever its memory held at the start. -/
theorem sent_iff_sendable (data : InstanceData) (memory : SensorReading) (byte : Char) :
    (∃ env ticks, byte ∈ ((normalMode env).outputs (Main.init data memory) ticks).filterMap Obs.byte?) ↔
      byte ∈ sendable := by
  constructor
  · rintro ⟨env, ticks, h⟩
    exact normalMode_sendable env data memory ticks byte h
  · intro h
    obtain ⟨hsigned, hbyte⟩ := sending_sends h
    obtain ⟨env, ticks, hbytes⟩ := macroSteps_signed data memory hsigned
    exact ⟨env, ticks, by rw [hbytes, glove_outputs]; exact hbyte⟩

/-! ### What the host makes of them -/

/-- The script quotes the character as it is, or is the one of the delete key. -/
def Typed (byte : Char) : Prop :=
  FakeKb.decode (UInt8.ofNat byte.toNat) = some byte ∧ byte ≠ '"' ∧ byte ≠ '\\' ∧
    FakeKb.sendKey byte = if byte = '!' then "tell application \"System Events\" to key code 51"
      else "tell application \"System Events\" to keystroke \"" ++ byte.toString ++ "\""

theorem sendable_typed {byte : Char} (h : byte ∈ sendable) : Typed byte := by
  have hall : sendable.all (fun byte => FakeKb.decode (UInt8.ofNat byte.toNat) = some byte ∧ byte ≠ '"' ∧ byte ≠ '\\' ∧
      byte ≠ '`') = true := by decide
  obtain ⟨hdecode, hquote, hbackslash, hbackquote⟩ := of_decide_eq_true (List.all_eq_true.mp hall byte h)
  exact ⟨hdecode, hquote, hbackslash, by simp only [FakeKb.sendKey, hbackquote, if_false]⟩

/-- Every byte that the glove sends is a character for the host, and the script for it is a keystroke of a character
    that ends no string of the script, or the delete key; the branch of the backquote is not taken. -/
theorem normalMode_typed (env : Env) (data : InstanceData) (memory : SensorReading) (ticks : List Unit) :
    ∀ byte ∈ ((normalMode env).outputs (Main.init data memory) ticks).filterMap Obs.byte?, Typed byte := by
  intro byte h
  exact sendable_typed (normalMode_sendable env data memory ticks byte h)

/-- The repeat at the start sends a NUL, which is typed like any other character. -/
theorem normalMode_typed_nul : Typed '\x00' := by
  have hsigned : ∀ s ∈ [repeatStep], Signed s := by decide
  obtain ⟨env, ticks, hbytes⟩ := macroSteps_signed zeroed ⟨0, 0, 0, 0, 0, 0, ""⟩ hsigned
  exact normalMode_typed env zeroed ⟨0, 0, 0, 0, 0, 0, ""⟩ ticks '\x00' (by rw [hbytes]; decide)

end Glove
