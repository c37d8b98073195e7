import Glove.Theorems.WakeUp

/-! The order of what is typed. The slot holds the last character received, so the writer starts strings in the
    order of the characters; and the flag is set once for each character, so a character is typed at most
    twice: once for a flag that was set before it came, and once for its own. -/

namespace Glove.FakeKb
open InputMode

/-- The number of the character that the slot holds. -/
def InputMode.newest (s : InputMode) : Nat := s.received.length - 1

/-- The strings started so far are those of the characters `idxs`. The last character was started at most once until
    it is handed over, and not while it is due; and at most once while it is due. -/
structure Ordered (autocorrectOn : Bool) (spell : List Char → List Char) (s : InputMode) (strings : List (List Char))
    (idxs : List Nat) : Prop where
  started : strings.map some = idxs.map fun i => (handed autocorrectOn spell s)[i]?
  known : ∀ i ∈ idxs, i < s.received.length
  inOrder : idxs.Pairwise (· ≤ ·)
  twice : ∀ i, idxs.count i ≤ 2
  publish : s.reader = .publish → idxs.count s.newest ≤ if s.Due then 0 else 1
  read : s.reader = .read → s.Due → idxs.count s.newest ≤ 1
  fetched : s.writer = .fetch → s.itemAvailable = false

section Steps
variable {autocorrectOn : Bool} {spell : List Char → List Char} {s t : InputMode} {strings : List (List Char)}
  {idxs : List Nat}

theorem init_ordered : Ordered autocorrectOn spell init [] [] :=
  ⟨rfl, fun _ h => absurd h List.not_mem_nil, List.Pairwise.nil, fun _ => Nat.zero_le 2, fun _ => Nat.zero_le _,
    fun _ _ => Nat.zero_le 1, fun h => absurd h (by decide)⟩

theorem reader_ordered {a : ReaderStep} (h : runReader autocorrectOn spell s a = some t)
    (hs : Ordered autocorrectOn spell s strings idxs) : Ordered autocorrectOn spell t strings idxs := by
  obtain ⟨hstarted, hknown, hinOrder, htwice, hpublish, hread, hfetched⟩ := hs
  rcases runReader_cases h with ⟨c, rfl, hpc, rfl⟩ | ⟨rfl, hpc, hfree, rfl⟩
  · -- A new character was not started yet.
    have hnew : idxs.count s.received.length = 0 :=
      List.count_eq_zero.mpr fun hmem => Nat.lt_irrefl _ (hknown _ hmem)
    refine ⟨?_, fun i hi => ?_, hinOrder, htwice, fun _ => ?_, (by simp), hfetched⟩
    · rw [hstarted]
      refine List.map_congr_left fun i hi => ?_
      have hlt := hknown i hi
      simp [handed, List.getElem?_append_left, hlt]
    · have hlt := hknown i hi
      simp
      omega
    · simp [newest, hnew]
  · -- The lock is free, so the writer is not about to read the slot.
    refine ⟨hstarted, hknown, hinOrder, htwice, (by simp), fun _ _ => ?_, fun h => ?_⟩
    · have hle := hpublish hpc
      split at hle
      · exact Nat.le_succ_of_le hle
      · exact hle
    · rcases lockFree_cases hfree with hw | hw | hw <;> simp [notify, hw] at h

/-- A step of the writer that starts no string. -/
theorem Ordered.keep (h : Ordered autocorrectOn spell s strings idxs) (hreader : t.reader = s.reader)
    (hreceived : t.received = s.received) (hdue : t.Due ↔ s.Due)
    (hfetched : t.writer = .fetch → t.itemAvailable = false) : Ordered autocorrectOn spell t strings idxs := by
  have hhanded : handed autocorrectOn spell t = handed autocorrectOn spell s := by unfold handed; rw [hreceived]
  have hnewest : t.newest = s.newest := by unfold newest; rw [hreceived]
  refine ⟨?_, ?_, h.inOrder, h.twice, fun hpc => ?_, fun hpc hd => ?_, hfetched⟩
  · rw [hhanded]
    exact h.started
  · rw [hreceived]
    exact h.known
  · rw [hnewest, if_congr hdue rfl rfl]
    exact h.publish (hreader ▸ hpc)
  · rw [hnewest]
    exact h.read (hreader ▸ hpc) (hdue.mp hd)

/-- The string that is started is that of the last character. -/
theorem Ordered.fetch (h : Ordered autocorrectOn spell s strings idxs) (hwakes : Wakes autocorrectOn spell s strings)
    (hpc : s.writer = .fetch) :
    Ordered autocorrectOn spell { s with writer := .sending s.item } (strings ++ [s.item]) (idxs ++ [s.newest]) := by
  have hdue : s.Due := Or.inr hpc
  have hne : s.received ≠ [] := hwakes.begun (Or.inl hdue)
  have hpos : 0 < s.received.length := List.length_pos_iff.mpr hne
  have hslot : (handed autocorrectOn spell s)[s.newest]? = some s.item := by
    have hlast := hwakes.slot hne
    rw [List.getLast?_eq_getElem?] at hlast
    simpa [handed, newest] using hlast
  have hnotDue : ¬InputMode.Due { s with writer := .sending s.item } := by simp [Due, h.fetched hpc]
  have hcount : (idxs ++ [s.newest]).count s.newest = idxs.count s.newest + 1 := by simp
  refine ⟨?_, fun i hi => ?_, ?_, fun i => ?_, fun hpublish => ?_, fun _ hd => absurd hd hnotDue, by simp⟩
  · rw [List.map_append, List.map_append, h.started]
    exact congrArg _ (congrArg (fun x => [x]) hslot.symm)
  · rcases List.mem_append.mp hi with hi | hi
    · exact h.known i hi
    · rw [List.mem_singleton.mp hi, newest]
      exact Nat.sub_lt hpos Nat.one_pos
  · refine List.pairwise_append.mpr ⟨h.inOrder, List.pairwise_singleton _ _, fun i hi j hj => ?_⟩
    have hlt := h.known i hi
    rw [List.mem_singleton.mp hj, newest]
    omega
  · by_cases hi : i = s.newest
    · rw [hi, hcount]
      cases hr : s.reader with
      | read => exact Nat.succ_le_succ (h.read hr hdue)
      | publish =>
        have hle := h.publish hr
        rw [if_pos hdue] at hle
        omega
    · have hother : [s.newest].count i = 0 := List.count_eq_zero.mpr (by simpa using hi)
      rw [List.count_append, hother]
      exact h.twice i
  · have hle := h.publish hpublish
    rw [if_pos hdue] at hle
    rw [if_neg hnotDue]
    show (idxs ++ [s.newest]).count s.newest ≤ 1
    omega

theorem writer_ordered {a : WriterStep} (h : runWriter s a = some t) (hwakes : Wakes autocorrectOn spell s strings)
    (hs : Ordered autocorrectOn spell s strings idxs) :
    ∃ idxs', Ordered autocorrectOn spell t (strings ++ sentString s (.writer a)) idxs' := by
  rw [sentString_writer h]
  rcases runWriter_cases h with ⟨hpc, rfl⟩ | ⟨hpc, hflag, rfl⟩ | ⟨hpc, hflag, rfl⟩ | ⟨hpc, rfl⟩ | ⟨x, rest, hpc, rfl⟩ |
    ⟨hpc, rfl⟩
  · have hfetch : s.writer ≠ .fetch := by rcases hpc with hpc | hpc <;> simp [hpc]
    rw [if_neg hfetch, List.append_nil]
    exact ⟨idxs, hs.keep rfl rfl (by simp [Due, hfetch]) (by simp)⟩
  · -- The flag is cleared, and the item stays due.
    rw [if_neg (by simp [hpc]), List.append_nil]
    exact ⟨idxs, hs.keep rfl rfl (by simp [Due, hflag]) (by simp)⟩
  · rw [if_neg (by simp [hpc]), List.append_nil]
    exact ⟨idxs, hs.keep rfl rfl (by simp [Due, hpc]) (by simp)⟩
  · rw [if_pos hpc]
    exact ⟨idxs ++ [s.newest], hs.fetch hwakes hpc⟩
  · rw [if_neg (by simp [hpc]), List.append_nil]
    exact ⟨idxs, hs.keep rfl rfl (by simp [Due, hpc]) (by simp)⟩
  · rw [if_neg (by simp [hpc]), List.append_nil]
    exact ⟨idxs, hs.keep rfl rfl (by simp [Due, hpc]) (by simp)⟩

end Steps

/-! ### Runs -/

theorem record_step_ordered {autocorrectOn : Bool} {spell : List Char → List Char} (x : InputMode × List (List Char))
    (a : Action) (y : InputMode × List (List Char))
    (h : ((inputMode autocorrectOn spell).record sentString).step x a = some y)
    (hx : Wakes autocorrectOn spell x.1 x.2 ∧ ∃ idxs, Ordered autocorrectOn spell x.1 x.2 idxs) :
    Wakes autocorrectOn spell y.1 y.2 ∧ ∃ idxs, Ordered autocorrectOn spell y.1 y.2 idxs := by
  refine ⟨record_step_wakes x a y h hx.1, ?_⟩
  obtain ⟨s, strings⟩ := x
  obtain ⟨t, strings'⟩ := y
  obtain ⟨hwakes, idxs, hs⟩ := hx
  obtain ⟨hstep, rfl⟩ := Lts.record_step_eq_some.mp h
  cases a with
  | reader a =>
    rw [show sentString s (.reader a) = [] from rfl, List.append_nil]
    exact ⟨idxs, reader_ordered hstep hs⟩
  | writer a => exact writer_ordered hstep hwakes hs

theorem record_ordered {autocorrectOn : Bool} {spell : List Char → List Char} {as : List Action} {s : InputMode}
    {strings : List (List Char)}
    (hrecord : ((inputMode autocorrectOn spell).record sentString).run (init, []) as = some (s, strings)) :
    s.sent ++ s.unsent = strings.flatten ∧ ∃ idxs, Ordered autocorrectOn spell s strings idxs := by
  obtain ⟨hwakes, hordered⟩ :=
    Lts.run_invariant (C := fun _ _ => True)
      (I := fun x => Wakes autocorrectOn spell x.1 x.2 ∧ ∃ idxs, Ordered autocorrectOn spell x.1 x.2 idxs)
      (fun x a y _ => record_step_ordered x a y) (fun _ _ _ _ _ _ => trivial)
      ⟨init_wakes, [], init_ordered⟩ hrecord
  exact ⟨hwakes.sends, hordered⟩

/-- In every interleaving, for every sequence of characters: what was sent are the strings that the writer started, and
    these are the strings of the characters numbered `idxs`, whose numbers never go down and of which none comes up a
    third time. -/
theorem inputMode_inOrder (autocorrectOn : Bool) (spell : List Char → List Char) (as : List Action) (s : InputMode)
    (hrun : (inputMode autocorrectOn spell).run init as = some s) :
    ∃ strings, ((inputMode autocorrectOn spell).record sentString).run (init, []) as = some (s, strings) ∧
      s.sent ++ s.unsent = strings.flatten ∧
      ∃ idxs : List Nat,
        (strings.map some = idxs.map fun i => s.received[i]?.map fun c => correct autocorrectOn spell [c]) ∧
        idxs.Pairwise (· ≤ ·) ∧ ∀ i, idxs.count i ≤ 2 := by
  obtain ⟨strings, hrecord⟩ := (Lts.run_record []).mp hrun
  obtain ⟨hsends, idxs, hordered⟩ := record_ordered hrecord
  refine ⟨strings, hrecord, hsends, idxs, ?_, hordered.inOrder, hordered.twice⟩
  rw [hordered.started]
  exact List.map_congr_left fun i _ => by simp [handed]

/-- The second character is received while the flag of the first is set: it is sent twice, the first not at all. -/
theorem inputMode_inOrder_twice :
    let s : InputMode := ⟨['b'], false, .read, .sending [], ['a', 'b'], ['b', 'b']⟩
    let as : List Action :=
      [.reader (.receive 'a'), .reader .publish, .reader (.receive 'b'), .writer .acquire, .writer .test, .writer .fetch,
        .writer .send, .writer .release, .reader .publish, .writer .acquire, .writer .test, .writer .fetch, .writer .send]
    ∃ strings, ((inputMode false id).record sentString).run (init, []) as = some (s, strings) ∧
      s.sent ++ s.unsent = strings.flatten ∧
      ∃ idxs : List Nat, (strings.map some = idxs.map fun i => s.received[i]?.map fun c => correct false id [c]) ∧
        idxs.Pairwise (· ≤ ·) ∧ ∀ i, idxs.count i ≤ 2 :=
  inputMode_inOrder false id _ _ (by decide)

end Glove.FakeKb
