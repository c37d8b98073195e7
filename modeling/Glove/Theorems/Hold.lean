import Glove.Theorems.LoopRefinement

/-! A held hand shape. As long as the same sign is read and no motion answers it, at most one key is sent:
    the key or the digit of the sign leaves the sign as the remembered shape, in the letter layer, and
    there it is not sent again. -/

namespace Glove
open Mealy ImuFsm Sensing

/-! ### The keyboard -/

/-- The sign `c`, held without a motion. -/
def held (c : Char) : MacroStep := ⟨c, .timeout⟩

/-- Holding the sign `c` sends nothing any more. -/
def Blocked (c : Char) (k : Keyboard) : Prop :=
  k.layer = .letters ∧ (act .letters (held c) = .nothing ∨ k.remembered = c)

theorem act_letters_held (c : Char) :
    act .letters (held c) = .nothing ∨ act .letters (held c) = .letter c := by
  rcases act_letters (held c) with ⟨family, m, -, hm, -⟩ | hact | ⟨hact, -⟩
  · cases hm
  · exact Or.inl hact
  · exact Or.inr hact

theorem blocked_select (k : Keyboard) (key c : Char) : Blocked c (k.perform (.select key c)).1 := by
  by_cases h : k.remembered = c
  · exact ⟨by simp [Keyboard.perform, h], Or.inr (by simp [Keyboard.perform, h])⟩
  · exact ⟨by simp [Keyboard.perform, h], Or.inr (by simp [Keyboard.perform, h])⟩

theorem select_length (k : Keyboard) (key c : Char) : (k.perform (.select key c)).2.length ≤ 1 := by
  by_cases h : k.remembered = c <;> simp [Keyboard.perform, h]

theorem blocked_step {c : Char} {k : Keyboard} (h : Blocked c k) :
    (keyboard.step k (held c)).2 = [] ∧ Blocked c (keyboard.step k (held c)).1 := by
  have hstep : keyboard.step k (held c) = k.perform (act .letters (held c)) := by
    rw [← h.1]
    rfl
  rw [hstep]
  rcases h with ⟨hlayer, hnothing | hrem⟩
  · rw [hnothing]
    exact ⟨rfl, hlayer, Or.inl hnothing⟩
  · rcases act_letters_held c with hact | hact <;> rw [hact]
    · exact ⟨rfl, hlayer, Or.inl hact⟩
    · exact ⟨by simp [Act.letter, Keyboard.perform, hrem], blocked_select k c c⟩

theorem held_step (c : Char) (k : Keyboard) :
    (keyboard.step k (held c)).2 = [] ∨
      ((keyboard.step k (held c)).2.length ≤ 1 ∧ Blocked c (keyboard.step k (held c)).1) := by
  have hselect : ∀ {key : Char}, act k.layer (held c) = .select key c →
      (keyboard.step k (held c)).2.length ≤ 1 ∧ Blocked c (keyboard.step k (held c)).1 := by
    intro key hact
    have hstep : keyboard.step k (held c) = k.perform (.select key c) := by
      rw [← hact]
      rfl
    rw [hstep]
    exact ⟨select_length k key c, blocked_select k key c⟩
  have hnothing : act k.layer (held c) = .nothing → (keyboard.step k (held c)).2 = [] := by
    intro hact
    show (k.perform (act k.layer (held c))).2 = []
    rw [hact]
    rfl
  cases hlayer : k.layer with
  | letters =>
    rcases act_letters_held c with hact | hact
    · exact Or.inl (hnothing (hlayer ▸ hact))
    · exact Or.inr (hselect (hlayer ▸ hact))
  | function =>
    cases hdigit : digit? c with
    | some digit =>
      have hact : act k.layer (held c) = .select digit c := by simp [hlayer, act, held, hdigit]
      exact Or.inr (hselect hact)
    | none => exact Or.inl (hnothing (by simp [hlayer, act, held, hdigit]))

theorem blocked_run {c : Char} {ss : List MacroStep} (hheld : ∀ s ∈ ss, s = held c) {k : Keyboard}
    (h : Blocked c k) : keyboard.outputs k ss = [] := by
  induction ss generalizing k with
  | nil => rfl
  | cons s ss ih =>
    obtain rfl := hheld s List.mem_cons_self
    obtain ⟨hout, hblocked⟩ := blocked_step h
    rw [outputs_cons, hout, ih (fun s hs => hheld s (List.mem_cons_of_mem _ hs)) hblocked, List.append_nil]

theorem held_run {c : Char} {ss : List MacroStep} (hheld : ∀ s ∈ ss, s = held c) (k : Keyboard) :
    (keyboard.outputs k ss).length ≤ 1 := by
  induction ss generalizing k with
  | nil => exact Nat.zero_le 1
  | cons s ss ih =>
    obtain rfl := hheld s List.mem_cons_self
    have hrest : ∀ s ∈ ss, s = held c := fun s hs => hheld s (List.mem_cons_of_mem _ hs)
    rw [outputs_cons, List.length_append]
    rcases held_step c k with hout | ⟨hle, hblocked⟩
    · simpa [hout] using ih hrest (keyboard.step k (held c)).1
    · simpa [blocked_run hrest hblocked] using hle

/-! ### The loop -/

/-- The IMU loop, if the step ends one, ends by its timeout. -/
def TimesOut (x : Taken Loop Input Obs) : Prop :=
  ∀ w sample answer, x.before.pc = .imu w → x.input = .imu sample →
    imuBranch w x.before.fsm.curState sample = some answer → answer = .timeout

/-- From every reachable top, a hold of one candidate whose IMU loops end by timeout sends at most one
    byte, however long it is. -/
theorem hold_sends_one (data : InstanceData) (is : List Input) (g : String) (seg : List Input)
    (htop : (loop.after (Loop.init data) is).pc = .top) (hpoll : ∀ candidate, .poll candidate ∈ seg → candidate = g)
    (htimeout : ∀ x ∈ loop.trace (loop.after (Loop.init data) is) seg, TimesOut x) :
    ((loop.outputs (loop.after (Loop.init data) is) seg).filterMap Obs.byte?).length ≤ 1 := by
  -- The run so far leads to a top; from there the hold is a run of macro-steps with the held sign.
  obtain ⟨ss, hfol, -⟩ := loop_run (P := fun _ => True) (A := fun _ => True) trivial (init_follows data) is
    fun x _ => ⟨fun _ _ => trivial, fun _ _ _ _ _ _ => trivial⟩
  obtain ⟨heq, htimer⟩ := hfol.top htop
  have hstart : Follows (fun c => c = firstChar g) (loop.after (Loop.init data) is) (glove.after (Fsm.init data) ss) :=
    ⟨hfol.atRest, hfol.top, fun w hw => by rw [htop] at hw; cases hw⟩
  have hreads : ∀ x ∈ loop.trace (loop.after (Loop.init data) is) seg,
      Reads (fun c => c = firstChar g) (fun answer => answer = .timeout) x.before x.input := by
    intro x hx
    refine ⟨fun candidate hin => ?_, fun w sample answer hpc hin => htimeout x hx w sample answer hpc hin⟩
    obtain ⟨pre, i, post, rfl, rfl⟩ := mem_trace_iff.mp hx
    rw [hpoll candidate (by simp [show i = .poll candidate from hin])]
  obtain ⟨js, -, hbytes, hallowed⟩ := loop_run (A := fun answer => answer = .timeout) rfl hstart seg hreads
  rw [hbytes, glove_simulates.outputs ⟨hfol.atRest, rfl⟩]
  refine held_run (c := firstChar g) (fun s hs => ?_) _
  rw [← trace_inputs glove (glove.after (Fsm.init data) ss) js] at hs
  obtain ⟨x, hx, rfl⟩ := List.mem_map.mp hs
  have h := hallowed x hx
  rw [held, ← h.gesture, ← h.answer]

theorem hold_sends_one_b :
    ((loop.outputs (Loop.init zeroed) (List.replicate 8 (.poll "b"))).filterMap Obs.byte?).length ≤ 1 := by
  refine hold_sends_one zeroed [] "b" (List.replicate 8 (.poll "b")) rfl (fun candidate h => ?_)
    fun x hx w sample answer hpc hin => ?_
  · simpa using (List.mem_replicate.mp h).2
  · obtain ⟨pre, i, post, heq, rfl⟩ := mem_trace_iff.mp hx
    have hmem : i ∈ List.replicate 8 (Input.poll "b") := by rw [heq]; simp
    rw [(List.mem_replicate.mp hmem).2] at hin
    cases hin

end Glove
