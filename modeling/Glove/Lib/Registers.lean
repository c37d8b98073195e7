import Mathlib.Data.BitVec
import Mathlib.Data.List.Basic
import Mathlib.Logic.Function.Basic

/-! # Register files

A driver sets up a device by writing registers and by putting values into fields of them. What a register
holds after a sequence of writes is the last one to it, so a sequence stands for what it leaves behind, and
a later write replaces an entry of it. A field is a mask shifted to its place. Putting a value into a field
clears the bits of the mask and sets the bits of the value, which need not fit the mask: the bits outside
it are those that were there or came with the value. -/

namespace Registers
variable {α : Type} [DecidableEq α] {n : Nat}

/-! ### Writes -/

section Write
variable {β : Type} {regs regs' : α → β} {writes writes' : List (α × β)} {r : α}

/-- A sequence of writes. -/
def write (regs : α → β) (writes : List (α × β)) : α → β :=
  writes.foldl (fun regs w => Function.update regs w.1 w.2) regs

theorem write_cons (w : α × β) : write regs (w :: writes) = write (Function.update regs w.1 w.2) writes := rfl

theorem write_append : write regs (writes ++ writes') = write (write regs writes) writes' :=
  List.foldl_append

theorem write_congr (h : regs r = regs' r) : write regs writes r = write regs' writes r := by
  induction writes generalizing regs regs' with
  | nil => exact h
  | cons w writes ih => exact ih (by simp only [Function.update_apply, h])

theorem write_of_notMem (h : r ∉ writes.map (·.1)) : write regs writes r = regs r := by
  induction writes generalizing regs with
  | nil => rfl
  | cons w writes ih =>
    rw [List.map_cons, List.mem_cons, not_or] at h
    rw [write_cons, ih h.2, Function.update_of_ne h.1]

theorem write_of_mem (h : r ∈ writes.map (·.1)) : write regs writes r = write regs' writes r := by
  induction writes generalizing regs regs' with
  | nil => exact absurd h List.not_mem_nil
  | cons w writes ih =>
    rw [write_cons, write_cons]
    by_cases hrest : r ∈ writes.map (·.1)
    · exact ih hrest
    · obtain rfl : r = w.1 := (List.mem_cons.mp h).resolve_right hrest
      exact write_congr (by rw [Function.update_self, Function.update_self])

/-- Writes to all registers of earlier writes replace those. -/
theorem write_write (h : writes.map (·.1) ⊆ writes'.map (·.1)) :
    write (write regs writes) writes' = write regs writes' := by
  funext r
  by_cases hr : r ∈ writes'.map (·.1)
  · exact write_of_mem hr
  · rw [write_of_notMem hr, write_of_notMem hr, write_of_notMem fun hw => hr (h hw)]

end Write

/-! ### Fields -/

section Field
variable {m v v' b : BitVec n} {s : Nat}

/-- The bits outside the field, and the value shifted to its place. -/
def put (m : BitVec n) (s : Nat) (w v : BitVec n) : BitVec n := (w &&& (BitVec.allOnes n ^^^ (m <<< s))) ||| (v <<< s)

/-- A value put over another one: what of the other sticks out of the mask stays. -/
theorem put_or (hb : b &&& (m <<< s) = 0#n) : put m s (b ||| v <<< s) v' = b ||| (((v &&& ~~~m) ||| v') <<< s) := by
  apply BitVec.eq_of_getLsbD_eq
  intro i hi
  have hbit : (b.getLsbD i && (m <<< s).getLsbD i) = false := by
    rw [← BitVec.getLsbD_and, hb]
    simp
  simp only [BitVec.getLsbD_shiftLeft] at hbit
  simp only [put, BitVec.getLsbD_and, BitVec.getLsbD_or, BitVec.getLsbD_xor, BitVec.getLsbD_not, BitVec.getLsbD_allOnes,
    BitVec.getLsbD_shiftLeft]
  by_cases hs : i < s
  · simp [hi, hs]
  · have hi' : i - s < n := by omega
    simp only [hi, hs, hi'] at hbit ⊢
    cases hbi : b.getLsbD i <;> cases hmi : m.getLsbD (i - s) <;> simp_all

/-- A value that fits the mask is replaced. -/
theorem put_or_fits (hb : b &&& (m <<< s) = 0#n) (hv : v &&& ~~~m = 0#n) :
    put m s (b ||| v <<< s) v' = b ||| v' <<< s := by
  rw [put_or hb, hv, BitVec.zero_or]

end Field

/-! ### Fields of registers -/

section Modify
variable {regs regs' : α → BitVec n} {reg r : α} {m bits old new : BitVec n} {s : Nat} {writes : List (α × BitVec n)}

/-- Reads a register, puts a value into a field of it and writes it back. -/
def modifyField (regs : α → BitVec n) (reg : α) (m : BitVec n) (s : Nat) (bits : BitVec n) : α → BitVec n :=
  Function.update regs reg (put m s (regs reg) bits)

theorem modifyField_congr (hreg : regs reg = regs' reg) (hr : regs r = regs' r) :
    modifyField regs reg m s bits r = modifyField regs' reg m s bits r := by
  simp only [modifyField, Function.update_apply, hreg, hr]

/-- The writes with those to a register replaced. -/
def replace (writes : List (α × BitVec n)) (reg : α) (new : BitVec n) : List (α × BitVec n) :=
  writes.map fun w => if w.1 = reg then (reg, new) else w

@[simp]
theorem replace_keys : (replace writes reg new).map (·.1) = writes.map (·.1) := by
  rw [replace, List.map_map]
  refine List.map_congr_left fun w _ => ?_
  by_cases hw : w.1 = reg <;> simp [hw]

theorem write_replace_of_ne (h : r ≠ reg) : write regs (replace writes reg new) r = write regs writes r := by
  induction writes generalizing regs with
  | nil => rfl
  | cons w writes ih =>
    rw [replace, List.map_cons, ← replace, write_cons, write_cons, ih]
    by_cases hw : w.1 = reg
    · rw [if_pos hw]
      exact write_congr (by rw [Function.update_of_ne h, Function.update_of_ne (hw ▸ h)])
    · rw [if_neg hw]

theorem write_replace_self (h : reg ∈ writes.map (·.1)) : write regs (replace writes reg new) reg = new := by
  induction writes generalizing regs with
  | nil => exact absurd h List.not_mem_nil
  | cons w writes ih =>
    rw [replace, List.map_cons, ← replace, write_cons]
    by_cases hrest : reg ∈ writes.map (·.1)
    · exact ih hrest
    · obtain rfl : reg = w.1 := (List.mem_cons.mp h).resolve_right hrest
      rw [write_of_notMem (by rwa [replace_keys]), if_pos rfl, Function.update_self]

/-- A field of a register that was written: the write is replaced. -/
theorem modifyField_write (hreg : reg ∈ writes.map (·.1)) (hold : write regs writes reg = old)
    (hnew : put m s old bits = new) :
    modifyField (write regs writes) reg m s bits = write regs (replace writes reg new) := by
  funext r
  by_cases hr : r = reg
  · subst hr
    rw [modifyField, Function.update_self, hold, hnew, write_replace_self hreg]
  · rw [modifyField, Function.update_of_ne hr, write_replace_of_ne hr]

end Modify

end Registers
