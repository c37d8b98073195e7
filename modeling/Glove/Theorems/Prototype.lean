import Glove.Lib.Mailbox
import Glove.Prototype

/-! The prototype hands lines over through a mailbox: `item` is the slot, and it is full from the step that sets
    the flag to the print. So a line may be overwritten, and none is printed twice or out of order. -/

namespace Glove.Prototype
open T1 Mailbox

/-! ### Steps -/

section Steps
variable {s t : T1}

theorem runReader_cases {a : ReaderStep} (h : runReader s a = some t) :
    (a = .acquire ∧ (s.reader = .acquire ∨ s.reader = .notified) ∧ t = { s with reader := .test }) ∨
    (a = .test ∧ s.reader = .test ∧ s.itemAvailable = true ∧ t = { s with itemAvailable := false, reader := .print }) ∨
    (a = .test ∧ s.reader = .test ∧ s.itemAvailable = false ∧ t = { s with reader := .waiting }) ∨
    (a = .print ∧ s.reader = .print ∧ t = { s with reader := .release, printed := s.printed ++ [s.item] }) ∨
    (a = .release ∧ s.reader = .release ∧ t = { s with reader := .acquire }) := by
  cases a <;> grind [runReader]

theorem runWriter_cases {a : WriterStep} (h : runWriter s a = some t) :
    (∃ c, a = .input c ∧ s.writer = .input ∧ t = { s with writer := .publish c, typed := s.typed ++ [c] }) ∨
    (∃ c, a = .publish ∧ s.writer = .publish c ∧ s.lockFree ∧
      t = { s with item := c, itemAvailable := true, reader := notify s.reader, writer := .input,
                   handed := s.handed ++ [c] }) := by
  cases a <;> grind [runWriter]

theorem lockFree_cases (h : s.lockFree = true) : s.reader = .acquire ∨ s.reader = .waiting ∨ s.reader = .notified := by
  simpa [lockFree] using h

end Steps

/-! ### The mailbox -/

/-- The line that is handed over and not printed. -/
def T1.pending (s : T1) : Option (List Char) := if s.itemAvailable ∨ s.reader = .print then some s.item else none

/-- The lines that the user typed and the writer did not hand over yet. -/
def T1.unpublished (s : T1) : List (List Char) :=
  match s.writer with
  | .publish c => [c]
  | .input => []

/-- What a step does to the mailbox. -/
def mailboxOps (s : T1) : Action → List (Op (List Char))
  | .writer .publish =>
    match s.writer with
    | .publish c => [.put c]
    | .input => []
  | .reader .print => [.take]
  | _ => []

/-- The prototype stands for the mailbox: the flag is not set while the reader is about to print. -/
structure StandsFor (s : T1) (m : Mailbox (List Char)) : Prop where
  slot : m.slot = s.pending
  puts : m.puts = s.handed
  takes : m.takes = s.printed
  typed : s.typed = s.handed ++ s.unpublished
  cleared : s.reader = .print → s.itemAvailable = false

theorem init_standsFor : StandsFor T1.init .empty := ⟨rfl, rfl, rfl, rfl, fun h => absurd h (by decide)⟩

theorem reader_refines {s t : T1} {a : ReaderStep} {m : Mailbox (List Char)} (hm : StandsFor s m)
    (h : runReader s a = some t) :
    ∃ n, (mailbox _).run m (mailboxOps s (.reader a)) = some n ∧ StandsFor t n := by
  obtain ⟨hslot, hputs, htakes, htyped, hcleared⟩ := hm
  rcases runReader_cases h with ⟨rfl, hpc, rfl⟩ | ⟨rfl, hpc, hflag, rfl⟩ | ⟨rfl, hpc, hflag, rfl⟩ | ⟨rfl, hpc, rfl⟩ |
    ⟨rfl, hpc, rfl⟩
  · refine ⟨m, rfl, ?_, hputs, htakes, htyped, fun h => absurd h (by simp)⟩
    rcases hpc with hpc | hpc <;> simp [hslot, pending, hpc]
  · -- The flag is cleared, and the line stays in the slot.
    exact ⟨m, rfl, by simp [hslot, pending, hflag], hputs, htakes, htyped, fun _ => rfl⟩
  · exact ⟨m, rfl, by simp [hslot, pending, hflag, hpc], hputs, htakes, htyped, fun h => absurd h (by simp)⟩
  · have hfull : m.slot = some s.item := by simp [hslot, pending, hpc]
    refine ⟨⟨none, m.puts, m.takes ++ [s.item]⟩, ?_, ?_, hputs, by rw [htakes], htyped, fun h => absurd h (by simp)⟩
    · simp [mailboxOps, Lts.run, mailbox, Mailbox.step, hfull]
    · simp [pending, hcleared hpc]
  · exact ⟨m, rfl, by simp [hslot, pending, hpc], hputs, htakes, htyped, fun h => absurd h (by simp)⟩

theorem writer_refines {s t : T1} {a : WriterStep} {m : Mailbox (List Char)} (hm : StandsFor s m)
    (h : runWriter s a = some t) :
    ∃ n, (mailbox _).run m (mailboxOps s (.writer a)) = some n ∧ StandsFor t n := by
  obtain ⟨hslot, hputs, htakes, htyped, hcleared⟩ := hm
  rcases runWriter_cases h with ⟨c, rfl, hpc, rfl⟩ | ⟨c, rfl, hpc, hfree, rfl⟩
  · exact ⟨m, rfl, hslot, hputs, htakes, by simp [htyped, unpublished, hpc], hcleared⟩
  · -- The lock is free, so the reader is not about to print what the slot held.
    refine ⟨⟨some c, m.puts ++ [c], m.takes⟩, ?_, by simp [pending], by rw [hputs], htakes, ?_, ?_⟩
    · simp [mailboxOps, hpc, Lts.run, mailbox, Mailbox.step]
    · simp [htyped, unpublished, hpc]
    · rcases lockFree_cases hfree with hr | hr | hr <;> simp [notify, hr]

theorem prototype_refines : Lts.Refines prototype (mailbox (List Char)) mailboxOps StandsFor := by
  intro s a t m hm h
  cases a with
  | reader a => exact reader_refines hm h
  | writer a => exact writer_refines hm h

/-! ### Runs -/

/-- No line is handed over before the reader printed the one before it. -/
def Unhurried (s : T1) : Action → Prop
  | .writer .publish => s.pending = none
  | _ => True

theorem mailboxOps_vacant (s : T1) (a : Action) (m : Mailbox (List Char)) (hm : StandsFor s m) (ha : Unhurried s a) :
    (mailbox _).Meets Vacant m (mailboxOps s a) := by
  cases a with
  | reader a =>
    cases a with
    | print =>
      have hop : Vacant m (.take : Op (List Char)) := trivial
      exact Lts.meets_cons.mpr ⟨hop, fun _ _ => Lts.meets_nil⟩
    | acquire => exact Lts.meets_nil
    | test => exact Lts.meets_nil
    | release => exact Lts.meets_nil
  | writer a =>
    cases a with
    | input c => exact Lts.meets_nil
    | publish =>
      cases hpc : s.writer with
      | input =>
        simp only [mailboxOps, hpc]
        exact Lts.meets_nil
      | publish c =>
        have hop : Vacant m (.put c) := hm.slot.trans ha
        simp only [mailboxOps, hpc]
        exact Lts.meets_cons.mpr ⟨hop, fun _ _ => Lts.meets_nil⟩

/-- The lines that were printed, are handed over, or are with the writer. -/
def T1.lines (s : T1) : List (List Char) := s.printed ++ s.pending.toList ++ s.unpublished

/-- In every interleaving, for all lines: none is printed twice or out of order, the last one is printed once both
    threads wait, and all are if no line is handed over before the one before it was printed. -/
theorem prototype_prints (as : List Action) (s : T1) (hrun : prototype.run T1.init as = some s) :
    List.Sublist s.lines s.typed ∧ s.lines.getLast? = s.typed.getLast? ∧
      (prototype.Meets Unhurried T1.init as → s.lines = s.typed) := by
  obtain ⟨ops, m, hm, hstands, hvacant⟩ := prototype_refines.run mailboxOps_vacant init_standsFor hrun
  have hout : m.out = s.printed ++ s.pending.toList := by rw [out, hstands.slot, hstands.takes]
  obtain ⟨hin, hlast⟩ := delivers hm
  rw [hout, hstands.puts] at hin hlast
  rw [lines, hstands.typed]
  refine ⟨hin.append_right _, ?_, fun hmeets => ?_⟩
  · rw [List.getLast?_append, hlast, List.getLast?_append]
  · rw [← hout, lossless (hvacant hmeets) hm, hstands.puts]

/-- Two lines; the second is handed over before the reader wakes up, so the first is not printed. -/
theorem prototype_prints_second :
    let s : T1 := ⟨['b'], false, .release, .input, [['a'], ['b']], [['a'], ['b']], [['b']]⟩
    let as : List Action := [.reader .acquire, .reader .test, .writer (.input ['a']), .writer .publish,
      .writer (.input ['b']), .writer .publish, .reader .acquire, .reader .test, .reader .print]
    List.Sublist s.lines s.typed ∧ s.lines.getLast? = s.typed.getLast? ∧
      (prototype.Meets Unhurried T1.init as → s.lines = s.typed) :=
  prototype_prints _ _ (by decide)

end Glove.Prototype
