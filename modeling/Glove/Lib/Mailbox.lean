import Glove.Lib.Lts

/-! # Mailboxes

A slot for one item. Putting an item overwrites the one in the slot, and taking empties the slot. What is
taken is part of what was put, in its order; the last item put is the last one taken or still there; and
nothing is missing if every item was put into an empty slot. -/

structure Mailbox (α : Type) where
  slot : Option α
  puts : List α
  takes : List α

namespace Mailbox
variable {α : Type}

inductive Op (α : Type)
  | put (x : α)
  | take

def empty : Mailbox α := ⟨none, [], []⟩

/-- What was taken, and then what is still there. -/
def out (m : Mailbox α) : List α := m.takes ++ m.slot.toList

def step (m : Mailbox α) : Op α → Option (Mailbox α)
  | .put x => some ⟨some x, m.puts ++ [x], m.takes⟩
  | .take => m.slot.map fun x => ⟨none, m.puts, m.takes ++ [x]⟩

end Mailbox

def mailbox (α : Type) : Lts (Mailbox α) (Mailbox.Op α) := ⟨Mailbox.step⟩

namespace Mailbox
variable {α : Type} {m n : Mailbox α}

theorem take_out (h : (mailbox α).step m .take = some n) : n.out = m.out ∧ n.puts = m.puts := by
  obtain ⟨x, hslot, rfl⟩ := Option.map_eq_some_iff.mp h
  simp [out, hslot]

/-- The items come out in their order, and the last one is not lost. -/
structure Delivers (m : Mailbox α) : Prop where
  inOrder : List.Sublist m.out m.puts
  last : m.out.getLast? = m.puts.getLast?

theorem empty_delivers : Delivers (empty : Mailbox α) := ⟨List.Sublist.refl _, rfl⟩

theorem step_delivers {op : Op α} (h : (mailbox α).step m op = some n) (hm : Delivers m) : Delivers n := by
  cases op with
  | put x =>
    cases h
    refine ⟨?_, by simp [out]⟩
    -- The item in the slot is the one that is dropped.
    have htakes : List.Sublist m.takes m.puts := (List.sublist_append_left _ _).trans hm.inOrder
    exact htakes.append_right [x]
  | take =>
    obtain ⟨hout, hputs⟩ := take_out h
    exact ⟨by rw [hout, hputs]; exact hm.inOrder, by rw [hout, hputs]; exact hm.last⟩

theorem delivers {ops : List (Op α)} (hrun : (mailbox α).run empty ops = some m) : Delivers m :=
  Lts.run_invariant (C := fun _ _ => True) (fun _ _ _ _ h hm => step_delivers h hm) (fun _ _ _ _ _ _ => trivial)
    empty_delivers hrun

/-- Nothing in the slot is overwritten. -/
def Vacant (m : Mailbox α) : Op α → Prop
  | .put _ => m.slot = none
  | .take => True

theorem lossless {ops : List (Op α)} (hvacant : (mailbox α).Meets Vacant empty ops)
    (hrun : (mailbox α).run empty ops = some m) : m.out = m.puts := by
  refine Lts.run_invariant (I := fun m : Mailbox α => m.out = m.puts) (fun m op n hop h hm => ?_) hvacant rfl hrun
  cases op with
  | put x =>
    cases h
    have hslot : m.slot = none := hop
    have htakes : m.takes = m.puts := by simpa [out, hslot] using hm
    simp [out, htakes]
  | take =>
    obtain ⟨hout, hputs⟩ := take_out h
    rw [hout, hputs, hm]

end Mailbox
