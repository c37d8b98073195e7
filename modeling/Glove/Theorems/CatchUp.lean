import Glove.Theorems.WakeUp

/-! The keyboard catches up. Without new characters the two threads take finitely many steps, whoever is scheduled,
    and they only stop when both wait and the last character was typed. -/

namespace Glove.FakeKb
open InputMode

/-- The steps that take a character from the glove. -/
def Receives : Action → Prop
  | .reader (.receive _) => True
  | _ => False

/-- Both threads wait, and nothing is handed over. -/
def Quiescent (s : InputMode) : Prop := s.reader = .read ∧ s.writer = .waiting ∧ s.itemAvailable = false

/-! ### The work left -/

/-- The steps of the writer from its test to `wait`. -/
def InputMode.testWork (s : InputMode) : Nat := if s.itemAvailable then s.item.length + 5 else 1

def InputMode.writerWork (s : InputMode) : Nat :=
  match s.writer with
  | .waiting => 0
  | .test => s.testWork
  | .acquire => s.testWork + 1
  | .notified => s.testWork + 1
  | .fetch => s.testWork + s.item.length + 3
  | .sending rest => s.testWork + rest.length + 2

/-- A hand-over sets the flag, which makes work for the writer. -/
def InputMode.work (s : InputMode) : Nat := s.writerWork + if s.reader = .publish then s.item.length + 7 else 0

section Work
variable {autocorrectOn : Bool} {spell : List Char → List Char} {s t : InputMode}

theorem publish_work (h : runReader autocorrectOn spell s .publish = some t) : t.work < s.work := by
  rcases runReader_cases h with ⟨c, hc, -⟩ | ⟨-, hpc, hfree, rfl⟩
  · cases hc
  · rcases lockFree_cases hfree with hw | hw | hw <;>
      simp [work, writerWork, testWork, notify, hw, hpc] <;> omega

theorem writer_work {a : WriterStep} (h : runWriter s a = some t) : t.work < s.work := by
  rcases runWriter_cases h with ⟨hpc, rfl⟩ | ⟨hpc, hflag, rfl⟩ | ⟨hpc, hflag, rfl⟩ | ⟨hpc, rfl⟩ | ⟨x, rest, hpc, rfl⟩ |
    ⟨hpc, rfl⟩
  · rcases hpc with hpc | hpc <;> simp [work, writerWork, testWork, hpc]
  · simp [work, writerWork, testWork, hpc, hflag]
    omega
  · simp [work, writerWork, testWork, hpc, hflag]
  · simp [work, writerWork, testWork, hpc]
  · simp [work, writerWork, testWork, hpc]
  · simp [work, writerWork, testWork, hpc]

theorem step_work {a : Action} (ha : ¬Receives a) (h : (inputMode autocorrectOn spell).step s a = some t) :
    t.work < s.work := by
  cases a with
  | reader a =>
    cases a with
    | receive c => exact absurd trivial ha
    | publish => exact @publish_work autocorrectOn spell s t h
  | writer a => exact writer_work h

end Work

/-! ### Where the threads stop -/

/-- A state in which neither thread can go on without a new character. -/
def Stopped (autocorrectOn : Bool) (spell : List Char → List Char) (s : InputMode) : Prop :=
  ∀ a, ¬Receives a → (inputMode autocorrectOn spell).step s a = none

theorem Stopped.quiescent {autocorrectOn : Bool} {spell : List Char → List Char} {s : InputMode}
    (h : Stopped autocorrectOn spell s) (hlost : ¬(s.itemAvailable = true ∧ s.writer = .waiting)) : Quiescent s := by
  have hstep : ∀ a, runWriter s a = none := fun a => h (.writer a) (fun h => h)
  cases hw : s.writer with
  | waiting =>
    refine ⟨?_, hw, by simpa [hw] using hlost⟩
    cases hr : s.reader with
    | read => rfl
    | publish =>
      -- The lock is free, so the reader could hand its character over.
      have hpublish : runReader autocorrectOn spell s .publish = none := h (.reader .publish) (fun h => h)
      simp [runReader, hr, lockFree, hw] at hpublish
  | acquire => simpa [runWriter, hw] using hstep .acquire
  | notified => simpa [runWriter, hw] using hstep .acquire
  | test =>
    have htest := hstep .test
    simp only [runWriter, hw, if_true] at htest
    split at htest <;> cases htest
  | fetch => simpa [runWriter, hw] using hstep .fetch
  | sending rest =>
    cases rest with
    | nil => simpa [runWriter, hw] using hstep .release
    | cons x rest => simpa [runWriter, hw] using hstep .send

/-! ### Runs -/

theorem quiescent_sent {autocorrectOn : Bool} {spell : List Char → List Char} {s : InputMode}
    {strings : List (List Char)} (hs : WakesUp autocorrectOn spell s strings) (hq : Quiescent s) :
    s.sent = strings.flatten ∧
      ∀ c ∈ s.received.getLast?, strings.getLast? = some (correct autocorrectOn spell [c]) := by
  obtain ⟨hreader, hwriter, hflag⟩ := hq
  refine ⟨by simpa [unsent, hwriter] using hs.sends, fun c hc => ?_⟩
  have hne : s.received ≠ [] := by
    rintro heq
    rw [heq] at hc
    cases hc
  obtain ⟨c', hc', hlast⟩ := hs.last hreader hne hwriter hflag
  obtain rfl : c = c' := Option.some.inj (hc.symm.trans hc')
  exact hlast

theorem stopped_sent {autocorrectOn : Bool} {spell : List Char → List Char} {as : List Action} {s : InputMode}
    {strings : List (List Char)}
    (hrecord : ((inputMode autocorrectOn spell).record sentString).run (init, []) as = some (s, strings))
    (hstopped : Stopped autocorrectOn spell s) :
    Quiescent s ∧ s.sent = strings.flatten ∧
      ∀ c ∈ s.received.getLast?, strings.getLast? = some (correct autocorrectOn spell [c]) := by
  have hwakes := (record_wakes hrecord).wakesUp
  have hq := hstopped.quiescent hwakes.noLostWakeUp
  exact ⟨hq, quiescent_sent hwakes hq⟩

/-- From every state that a run reaches: however the threads are scheduled, they take at most `work` steps without a
    new character, and where they stop both wait, and the last string that was sent is that of the last character
    received. -/
theorem inputMode_catchesUp (autocorrectOn : Bool) (spell : List Char → List Char) (as bs : List Action)
    (s t : InputMode) (hs : (inputMode autocorrectOn spell).run init as = some s) (hbs : ∀ a ∈ bs, ¬Receives a)
    (ht : (inputMode autocorrectOn spell).run s bs = some t) :
    bs.length ≤ s.work ∧
      ∃ strings, ((inputMode autocorrectOn spell).record sentString).run (init, []) (as ++ bs) = some (t, strings) ∧
        (Stopped autocorrectOn spell t → Quiescent t ∧ t.sent = strings.flatten ∧
          ∀ c ∈ t.received.getLast?, strings.getLast? = some (correct autocorrectOn spell [c])) := by
  have hlen : bs.length + t.work ≤ s.work :=
    Lts.run_length_le (I := fun _ => True) (fun s a t _ ha h => ⟨trivial, step_work ha h⟩) trivial hbs ht
  have hrun : (inputMode autocorrectOn spell).run init (as ++ bs) = some t := by rw [Lts.run_append, hs]; exact ht
  obtain ⟨strings, hrecord⟩ := (Lts.run_record []).mp hrun
  exact ⟨by omega, strings, hrecord, fun hstopped => stopped_sent hrecord hstopped⟩

/-- The character is handed over while the writer is before its first test. -/
theorem inputMode_catchesUp_one :
    let s : InputMode := ⟨['a'], true, .read, .test, ['a'], []⟩
    let t : InputMode := ⟨['a'], false, .read, .waiting, ['a'], ['a']⟩
    let as : List Action := [.reader (.receive 'a'), .reader .publish, .writer .acquire]
    let bs : List Action :=
      [.writer .test, .writer .fetch, .writer .send, .writer .release, .writer .acquire, .writer .test]
    bs.length ≤ s.work ∧
      ∃ strings, ((inputMode false id).record sentString).run (init, []) (as ++ bs) = some (t, strings) ∧
        (Stopped false id t → Quiescent t ∧ t.sent = strings.flatten ∧
          ∀ c ∈ t.received.getLast?, strings.getLast? = some (correct false id [c])) :=
  inputMode_catchesUp false id _ _ _ _ (by decide) (by simp [Receives]) (by decide)

end Glove.FakeKb
