import Glove.Theorems.HandOff

/-! The wake-ups of the writer. The flag is set and the writer notified in one step under the lock, so the writer
    never waits for a notification with the flag set; and once both threads wait, the last item that the
    reader assigned was sent. -/

namespace Glove.FakeKb
open InputMode

/-- The string that the writer starts to send with a step. -/
def sentString (s : InputMode) : Action → List (List Char)
  | .writer .fetch => [s.item]
  | _ => []

/-- What the reader made of the characters it received, in order: each is itself with autocorrect off. -/
def handed (autocorrectOn : Bool) (spell : List Char → List Char) (s : InputMode) : List (List Char) :=
  s.received.map fun c => correct autocorrectOn spell [c]

/-- The state of the two threads, and the strings that the writer started to send. -/
structure Wakes (autocorrectOn : Bool) (spell : List Char → List Char) (s : InputMode) (strings : List (List Char)) :
    Prop where
  noLoss : s.writer = .waiting → s.itemAvailable = false
  sends : s.sent ++ s.unsent = strings.flatten
  begun : s.Due ∨ s.reader = .publish → s.received ≠ []
  slot : s.received ≠ [] → (handed autocorrectOn spell s).getLast? = some s.item
  wasHanded : ∀ string ∈ strings, string ∈ handed autocorrectOn spell s
  last : s.reader = .read → s.received ≠ [] → ¬s.Due → strings.getLast? = some s.item

section Steps
variable {autocorrectOn : Bool} {spell : List Char → List Char} {s t : InputMode} {strings : List (List Char)}

theorem init_wakes : Wakes autocorrectOn spell init [] :=
  ⟨fun _ => rfl, rfl, fun h => absurd h (by decide), fun h => absurd rfl h, fun _ h => absurd h List.not_mem_nil,
    fun _ h => absurd rfl h⟩

theorem reader_wakes {a : ReaderStep} (h : runReader autocorrectOn spell s a = some t)
    (hs : Wakes autocorrectOn spell s strings) : Wakes autocorrectOn spell t strings := by
  obtain ⟨hnoLoss, hsends, hbegun, hslot, hstrings, hlast⟩ := hs
  rcases runReader_cases h with ⟨c, rfl, hpc, rfl⟩ | ⟨rfl, hpc, hfree, rfl⟩
  · -- The slot holds what was made of `c`, the last of what was received.
    have hhanded : handed autocorrectOn spell { s with
        item := correct autocorrectOn spell [c], reader := .publish, received := s.received ++ [c] } =
        handed autocorrectOn spell s ++ [correct autocorrectOn spell [c]] := by simp [handed]
    refine ⟨hnoLoss, hsends, fun _ => by simp, fun _ => ?_, fun string hstring => ?_, by simp⟩
    · rw [hhanded]
      simp
    · rw [hhanded]
      exact List.mem_append_left _ (hstrings string hstring)
  · -- A writer that waits is notified by the step that sets the flag, and sends nothing then.
    refine ⟨fun h => absurd h (notify_ne_waiting s.writer), ?_, fun _ => hbegun (Or.inr hpc), hslot, hstrings,
      fun _ _ hdue => absurd (Or.inl rfl) hdue⟩
    rw [← hsends]
    rcases lockFree_cases hfree with hw | hw | hw <;> simp [InputMode.unsent, notify, hw]

/-- A step of the writer starts a string exactly at `fetch`. -/
theorem sentString_writer {a : WriterStep} (h : runWriter s a = some t) :
    sentString s (.writer a) = if s.writer = .fetch then [s.item] else [] := by
  cases a <;> grind [runWriter, sentString]

/-- A step that starts no string and leaves an item as due as it was. -/
theorem Wakes.keep (h : Wakes autocorrectOn spell s strings) (hreader : t.reader = s.reader) (hitem : t.item = s.item)
    (hreceived : t.received = s.received) (hsends : t.sent ++ t.unsent = s.sent ++ s.unsent)
    (hwaiting : t.writer = .waiting → t.itemAvailable = false) (hdue : t.Due ↔ s.Due) :
    Wakes autocorrectOn spell t strings := by
  have hhanded : handed autocorrectOn spell t = handed autocorrectOn spell s := by unfold handed; rw [hreceived]
  refine ⟨hwaiting, by rw [hsends, h.sends], ?_, fun hne => ?_, ?_, fun hread hne hnot => ?_⟩
  · rw [hdue, hreader, hreceived]
    exact h.begun
  · rw [hhanded, hitem]
    exact h.slot (hreceived ▸ hne)
  · rw [hhanded]
    exact h.wasHanded
  · rw [hitem]
    exact h.last (hreader ▸ hread) (hreceived ▸ hne) (mt hdue.mpr hnot)

theorem writer_wakes {a : WriterStep} (h : runWriter s a = some t) (hs : Wakes autocorrectOn spell s strings) :
    Wakes autocorrectOn spell t (strings ++ sentString s (.writer a)) := by
  rw [sentString_writer h]
  rcases runWriter_cases h with ⟨hpc, rfl⟩ | ⟨hpc, hflag, rfl⟩ | ⟨hpc, hflag, rfl⟩ | ⟨hpc, rfl⟩ | ⟨x, rest, hpc, rfl⟩ |
    ⟨hpc, rfl⟩
  · have hfetch : s.writer ≠ .fetch := by rcases hpc with hpc | hpc <;> simp [hpc]
    rw [if_neg hfetch, List.append_nil]
    refine hs.keep rfl rfl rfl ?_ (by simp) ?_
    · rcases hpc with hpc | hpc <;> simp [unsent, hpc]
    · simp [Due, hfetch]
  · -- The flag is cleared, and the item stays due.
    have hfetch : s.writer ≠ .fetch := by simp [hpc]
    rw [if_neg hfetch, List.append_nil]
    exact hs.keep rfl rfl rfl (by simp [unsent, hpc]) (by simp) (by simp [Due, hflag])
  · have hfetch : s.writer ≠ .fetch := by simp [hpc]
    rw [if_neg hfetch, List.append_nil]
    exact hs.keep rfl rfl rfl (by simp [unsent, hpc]) (fun _ => hflag) (by simp [Due, hpc])
  · -- The string that is started is in the slot, and it is the last one handed over.
    rw [if_pos hpc]
    have hhanded := hs.slot (hs.begun (Or.inl (Or.inr hpc)))
    refine ⟨by simp, ?_, fun h => hs.begun ?_, hs.slot, fun string hstring => ?_, fun _ _ _ => by simp⟩
    · simpa [unsent, hpc] using hs.sends
    · exact h.imp_left fun hdue => Or.inr hpc
    · rcases List.mem_append.mp hstring with hstring | hstring
      · exact hs.wasHanded string hstring
      · rw [List.mem_singleton.mp hstring]
        exact List.mem_of_getLast? hhanded
  · have hfetch : s.writer ≠ .fetch := by simp [hpc]
    rw [if_neg hfetch, List.append_nil]
    exact hs.keep rfl rfl rfl (by simp [unsent, hpc]) (by simp) (by simp [Due, hpc])
  · have hfetch : s.writer ≠ .fetch := by simp [hpc]
    rw [if_neg hfetch, List.append_nil]
    exact hs.keep rfl rfl rfl (by simp [unsent, hpc]) (by simp) (by simp [Due, hpc])

end Steps

/-! ### Runs -/

theorem record_step_wakes {autocorrectOn : Bool} {spell : List Char → List Char} (x : InputMode × List (List Char))
    (a : Action) (y : InputMode × List (List Char))
    (h : ((inputMode autocorrectOn spell).record sentString).step x a = some y)
    (hx : Wakes autocorrectOn spell x.1 x.2) : Wakes autocorrectOn spell y.1 y.2 := by
  obtain ⟨s, strings⟩ := x
  obtain ⟨t, strings'⟩ := y
  obtain ⟨hstep, rfl⟩ := Lts.record_step_eq_some.mp h
  cases a with
  | reader a => simpa [sentString] using reader_wakes hstep hx
  | writer a => exact writer_wakes hstep hx

theorem record_wakes {autocorrectOn : Bool} {spell : List Char → List Char} {as : List Action} {s : InputMode}
    {strings : List (List Char)}
    (hrecord : ((inputMode autocorrectOn spell).record sentString).run (init, []) as = some (s, strings)) :
    Wakes autocorrectOn spell s strings :=
  Lts.run_invariant (I := fun x => Wakes autocorrectOn spell x.1 x.2) (fun x a y _ => record_step_wakes x a y)
    (fun _ _ _ _ _ _ => trivial : Lts.Meets _ (fun _ _ => True) _ _) init_wakes hrecord

/-- The writer does not wait for a notification while the flag is set; what was sent is a sequence of strings that the
    reader made of characters it had received; and when both threads wait, the last of them is that of the
    last character. -/
structure WakesUp (autocorrectOn : Bool) (spell : List Char → List Char) (s : InputMode) (strings : List (List Char)) :
    Prop where
  noLostWakeUp : ¬(s.itemAvailable = true ∧ s.writer = .waiting)
  sends : s.sent ++ s.unsent = strings.flatten
  received : ∀ string ∈ strings, ∃ c ∈ s.received, string = correct autocorrectOn spell [c]
  last : s.reader = .read → s.received ≠ [] → s.writer = .waiting → s.itemAvailable = false →
    ∃ c, s.received.getLast? = some c ∧ strings.getLast? = some (correct autocorrectOn spell [c])

theorem Wakes.wakesUp {autocorrectOn : Bool} {spell : List Char → List Char} {s : InputMode}
    {strings : List (List Char)} (h : Wakes autocorrectOn spell s strings) : WakesUp autocorrectOn spell s strings := by
  refine ⟨fun ⟨hflag, hwaiting⟩ => ?_, h.sends, fun string hstring => ?_, fun hread hne hwaiting hflag => ?_⟩
  · rw [h.noLoss hwaiting] at hflag
    cases hflag
  · obtain ⟨c, hc, heq⟩ := List.mem_map.mp (h.wasHanded string hstring)
    exact ⟨c, hc, heq.symm⟩
  · have hdue : ¬s.Due := by simp [Due, hflag, hwaiting]
    obtain ⟨c, hc⟩ := Option.isSome_iff_exists.mp (List.getLast?_isSome.mpr hne)
    have hslot := h.slot hne
    rw [handed, List.getLast?_map, hc, Option.map_some] at hslot
    exact ⟨c, hc, (h.last hread hne hdue).trans hslot.symm⟩

/-- In every interleaving, for every sequence of characters, no wake-up is lost. -/
theorem inputMode_wakesUp (autocorrectOn : Bool) (spell : List Char → List Char) (as : List Action) (s : InputMode)
    (hrun : (inputMode autocorrectOn spell).run init as = some s) :
    ∃ strings, ((inputMode autocorrectOn spell).record sentString).run (init, []) as = some (s, strings) ∧
      WakesUp autocorrectOn spell s strings := by
  obtain ⟨strings, hrecord⟩ := (Lts.run_record []).mp hrun
  exact ⟨strings, hrecord, (record_wakes hrecord).wakesUp⟩

/-- A character received while the one before it is sent. -/
theorem inputMode_wakesUp_two : ∃ strings, ((inputMode false id).record sentString).run (init, [])
    [.writer .acquire, .writer .test, .reader (.receive 'a'), .reader .publish, .writer .acquire, .writer .test,
      .writer .fetch, .reader (.receive 'b'), .writer .send, .writer .release, .reader .publish] =
      some (⟨['b'], true, .read, .acquire, ['a', 'b'], ['a']⟩, strings) ∧
    WakesUp false id ⟨['b'], true, .read, .acquire, ['a', 'b'], ['a']⟩ strings :=
  inputMode_wakesUp false id _ _ (by decide)

end Glove.FakeKb
