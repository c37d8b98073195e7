import Glove.FakeKb

/-! The hand-off of characters from `runReader` to `runWriter`. `item` is a slot for one character that
    the reader assigns without the lock, so a character that is not read yet may be overwritten; as long
    as that does not happen every character is typed once and in order. -/

namespace Glove.FakeKb
open InputMode

/-! ### Steps -/

section Steps
variable {autocorrectOn : Bool} {spell : List Char → List Char} {s t : InputMode}

theorem runReader_cases {a : ReaderStep} (h : runReader autocorrectOn spell s a = some t) :
    (∃ c, a = .receive c ∧ s.reader = .read ∧
      t = { s with item := correct autocorrectOn spell [c], reader := .publish, received := s.received ++ [c] }) ∨
    (a = .publish ∧ s.reader = .publish ∧ s.lockFree ∧
      t = { s with itemAvailable := true, reader := .read, writer := notify s.writer }) := by
  cases a with
  | receive c =>
    simp only [runReader] at h
    split at h
    · rename_i hpc
      exact Or.inl ⟨c, rfl, hpc, (Option.some.inj h).symm⟩
    · cases h
  | publish =>
    simp only [runReader] at h
    split at h
    · rename_i hpc
      exact Or.inr ⟨rfl, hpc.1, hpc.2, (Option.some.inj h).symm⟩
    · cases h

theorem runWriter_cases {a : WriterStep} (h : runWriter s a = some t) :
    ((s.writer = .acquire ∨ s.writer = .notified) ∧ t = { s with writer := .test }) ∨
    (s.writer = .test ∧ s.itemAvailable = true ∧ t = { s with itemAvailable := false, writer := .fetch }) ∨
    (s.writer = .test ∧ s.itemAvailable = false ∧ t = { s with writer := .waiting }) ∨
    (s.writer = .fetch ∧ t = { s with writer := .sending s.item }) ∨
    (∃ x rest, s.writer = .sending (x :: rest) ∧ t = { s with writer := .sending rest, sent := s.sent ++ [x] }) ∨
    (s.writer = .sending [] ∧ t = { s with writer := .acquire }) := by
  cases a with
  | acquire =>
    simp only [runWriter] at h
    split at h
    · rename_i hpc
      exact Or.inl ⟨hpc, (Option.some.inj h).symm⟩
    · cases h
  | test =>
    simp only [runWriter] at h
    split at h
    · rename_i hpc
      split at h
      · rename_i hflag
        exact Or.inr (Or.inl ⟨hpc, hflag, (Option.some.inj h).symm⟩)
      · rename_i hflag
        exact Or.inr (Or.inr (Or.inl ⟨hpc, eq_false_of_ne_true hflag, (Option.some.inj h).symm⟩))
    · cases h
  | fetch =>
    simp only [runWriter] at h
    split at h
    · rename_i hpc
      exact Or.inr (Or.inr (Or.inr (Or.inl ⟨hpc, (Option.some.inj h).symm⟩)))
    · cases h
  | send =>
    simp only [runWriter] at h
    split at h
    · rename_i x rest hpc
      exact Or.inr (Or.inr (Or.inr (Or.inr (Or.inl ⟨x, rest, hpc, (Option.some.inj h).symm⟩))))
    · cases h
  | release =>
    simp only [runWriter] at h
    split at h
    · rename_i hpc
      exact Or.inr (Or.inr (Or.inr (Or.inr (Or.inr ⟨hpc, (Option.some.inj h).symm⟩))))
    · cases h

theorem lockFree_cases (h : s.lockFree = true) : s.writer = .acquire ∨ s.writer = .waiting ∨ s.writer = .notified := by
  simpa [lockFree] using h

theorem notify_ne_waiting (w : WriterPc) : notify w ≠ .waiting := by
  by_cases h : w = .waiting
  · simp [notify, h]
  · simp [notify, h]

end Steps

/-! ### What is on its way -/

/-- The characters that the writer has read and not sent. -/
def InputMode.unsent (s : InputMode) : List Char :=
  match s.writer with
  | .sending rest => rest
  | _ => []

/-- The writer will read what `item` holds: the flag is set, or was just cleared for it. -/
def InputMode.Due (s : InputMode) : Prop := s.itemAvailable = true ∨ s.writer = .fetch

instance (s : InputMode) : Decidable s.Due := inferInstanceAs (Decidable (_ ∨ _))

/-- The characters received and not sent, in order. -/
def InputMode.onTheWay (s : InputMode) : List Char :=
  s.unsent ++ (if s.Due then s.item else []) ++ (if s.reader = .publish then s.item else [])

/-- A step that loses no character: `item` is not overwritten with another character while it is due,
    and the flag is not set while it is set. -/
def Safe (s : InputMode) : Action → Prop
  | .reader (.receive c) => s.Due → s.item = [c]
  | .reader .publish => s.itemAvailable = false
  | .writer _ => True

instance (s : InputMode) : ∀ a, Decidable (Safe s a)
  | .reader (.receive c) => inferInstanceAs (Decidable (s.Due → s.item = [c]))
  | .reader .publish => inferInstanceAs (Decidable (s.itemAvailable = false))
  | .writer _ => isTrue trivial

/-- Every character received was sent or is on its way, and the flag is set for one character at a time. -/
structure Accounts (s : InputMode) : Prop where
  received : s.received = s.sent ++ s.onTheWay
  fetched : s.writer = .fetch → s.itemAvailable = false

theorem init_accounts : Accounts init := ⟨rfl, fun h => nomatch h⟩

section Accounting
variable {spell : List Char → List Char} {s t : InputMode}

theorem reader_accounts {a : ReaderStep} (hsafe : Safe s (.reader a)) (h : runReader false spell s a = some t)
    (hs : Accounts s) : Accounts t := by
  obtain ⟨hreceived, hfetched⟩ := hs
  rcases runReader_cases h with ⟨c, rfl, hpc, rfl⟩ | ⟨rfl, hpc, hfree, rfl⟩
  · -- The slot holds `c` from here on; if it was due, it held `c` already.
    refine ⟨?_, hfetched⟩
    have hslot : (if s.Due then s.item else []) = if s.Due then [c] else [] := by
      by_cases hdue : s.Due
      · rw [if_pos hdue, if_pos hdue, hsafe hdue]
      · rw [if_neg hdue, if_neg hdue]
    have hway : s.onTheWay = s.unsent ++ if s.Due then [c] else [] := by
      rw [onTheWay, hslot, hpc, if_neg (show ReaderPc.read ≠ .publish by decide), List.append_nil]
    show s.received ++ [c] = s.sent ++ (s.unsent ++ (if s.Due then [c] else []) ++ [c])
    rw [hreceived, hway, List.append_assoc]
  · -- The lock is free, so the writer is not about to read the slot, and the flag was not set.
    have hflag : s.itemAvailable = false := hsafe
    rcases lockFree_cases hfree with hw | hw | hw <;>
      exact ⟨by simp [hreceived, onTheWay, unsent, Due, notify, hw, hflag, hpc], by simp [notify, hw]⟩

theorem writer_accounts {a : WriterStep} (h : runWriter s a = some t) (hs : Accounts s) : Accounts t := by
  obtain ⟨hreceived, hfetched⟩ := hs
  rcases runWriter_cases h with ⟨hpc, rfl⟩ | ⟨hpc, hflag, rfl⟩ | ⟨hpc, hflag, rfl⟩ | ⟨hpc, rfl⟩ | ⟨x, rest, hpc, rfl⟩ |
    ⟨hpc, rfl⟩
  · refine ⟨?_, fun h => nomatch h⟩
    rcases hpc with hpc | hpc <;> simp [hreceived, onTheWay, unsent, Due, hpc]
  · -- The flag is cleared, and the item stays due.
    exact ⟨by simp [hreceived, onTheWay, unsent, Due, hpc, hflag], fun _ => rfl⟩
  · exact ⟨by simp [hreceived, onTheWay, unsent, Due, hpc], fun h => nomatch h⟩
  · -- The item moves from the slot to the writer.
    exact ⟨by simp [hreceived, onTheWay, unsent, Due, hpc, hfetched hpc], fun h => nomatch h⟩
  · exact ⟨by simp [hreceived, onTheWay, unsent, Due, hpc], fun h => nomatch h⟩
  · exact ⟨by simp [hreceived, onTheWay, unsent, Due, hpc], fun h => nomatch h⟩

theorem step_accounts (s : InputMode) (a : Action) (t : InputMode) (hsafe : Safe s a)
    (h : (inputMode false spell).step s a = some t) (hs : Accounts s) : Accounts t := by
  cases a with
  | reader a => exact reader_accounts hsafe h hs
  | writer a => exact writer_accounts h hs

end Accounting

/-! ### Runs -/

/-- The characters typed are the first of those received, and all of them once both threads wait and the
    flag is not set. -/
structure HandedOff (s : InputMode) : Prop where
  inOrder : s.sent <+: s.received
  allSent : s.reader = .read → s.itemAvailable = false → s.writer = .waiting → s.sent = s.received

theorem Accounts.handedOff {s : InputMode} (h : Accounts s) : HandedOff s := by
  refine ⟨?_, fun hreader hflag hwriter => ?_⟩
  · rw [h.received]
    exact List.prefix_append _ _
  · rw [h.received]
    simp [onTheWay, unsent, Due, hreader, hflag, hwriter]

/-- In every interleaving whose steps are all safe, the hand-off is right in every state reached. -/
theorem safe_handedOff (spell : List Char → List Char) (as : List Action)
    (hsafe : (inputMode false spell).Meets Safe init as) {pre : List Action} {s : InputMode} (hpre : pre <+: as)
    (hrun : (inputMode false spell).run init pre = some s) : HandedOff s :=
  (Lts.run_invariant step_accounts (hsafe.initial hpre) init_accounts hrun).handedOff

/-- Two characters, the second received while the first is being sent. -/
theorem safe_handedOff_two : HandedOff ⟨['b'], false, .read, .waiting, ['a', 'b'], ['a', 'b']⟩ :=
  safe_handedOff id
    [.writer .acquire, .writer .test, .reader (.receive 'a'), .reader .publish, .writer .acquire, .writer .test,
      .writer .fetch, .reader (.receive 'b'), .writer .send, .writer .release, .reader .publish, .writer .acquire,
      .writer .test, .writer .fetch, .writer .send, .writer .release, .writer .acquire, .writer .test]
    (by decide) (List.prefix_refl _) (by decide)

/-- A second character received before the writer wakes up overwrites the first, which is never typed. -/
theorem handOff_loses : ¬∀ (spell : List Char → List Char) (as : List Action) (s : InputMode),
    (inputMode false spell).run init as = some s → HandedOff s := by
  intro h
  have hlost := h id
    [.writer .acquire, .writer .test, .reader (.receive 'a'), .reader .publish, .reader (.receive 'b'),
      .reader .publish, .writer .acquire, .writer .test, .writer .fetch, .writer .send]
    ⟨['b'], false, .read, .sending [], ['a', 'b'], ['b']⟩ (by decide)
  exact absurd hlost.inOrder (by decide)

end Glove.FakeKb
