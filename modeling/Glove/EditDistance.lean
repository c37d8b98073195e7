import Mathlib.Data.List.Basic

/-! # The distance of two words (`editDistDP` in `fake_kb.py`)

The table of the distances of all pairs of prefixes, filled row by row. `accesses` is a history of the
cells that were read and written. -/

namespace Glove.FakeKb

inductive Access
  | read (i j : Nat)
  | write (i j : Nat)
  deriving DecidableEq

structure Table where
  dp : List (List Nat)
  accesses : List Access

/-- Code that fills the table; an index out of range is an error. -/
abbrev Fill := StateT Table Option

def Table.cell (t : Table) (i j : Nat) : Option Nat := t.dp[i]?.bind fun row => row[j]?

def readCell (i j : Nat) : Fill Nat := fun t =>
  (t.cell i j).map fun d => (d, { t with accesses := t.accesses ++ [.read i j] })

def writeCell (i j d : Nat) : Fill Unit := fun t =>
  (t.cell i j).map fun _ => ((), ⟨t.dp.modify i (·.set j d), t.accesses ++ [.write i j]⟩)

section Fill
variable {α : Type} [DecidableEq α]

/-- The body of the two loops. -/
def fillCell (str1 str2 : List α) (i j : Nat) : Fill Unit := do
  if i = 0 then
    writeCell i j j
  else if j = 0 then
    writeCell i j i
  else
    let char1 ← str1[i - 1]?
    let char2 ← str2[j - 1]?
    if char1 = char2 then
      let d ← readCell (i - 1) (j - 1)
      writeCell i j d
    else
      let insert ← readCell i (j - 1)
      let remove ← readCell (i - 1) j
      let replace ← readCell (i - 1) (j - 1)
      writeCell i j (1 + min (min insert remove) replace)

/-- The distance, and the table it was read from. -/
def editDistDP (str1 str2 : List α) : Option (Nat × Table) :=
  let m := str1.length
  let n := str2.length
  let dp := List.replicate (m + 1) (List.replicate (n + 1) 0)
  let fill : Fill Nat := do
    forM (List.range (m + 1)) fun i => forM (List.range (n + 1)) fun j => fillCell str1 str2 i j
    readCell m n
  fill.run ⟨dp, []⟩

end Fill

end Glove.FakeKb
