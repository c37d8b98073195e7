import Glove.PrintKeyOut
import Glove.ImuFsm

/-! The scans of `print_key_out`. A scan stays in its array if the array is long enough or the character is found; the
    second array has eight characters and is scanned for ten, so it is left for every key that is not in it. -/

namespace Glove
open ImuFsm

section Contains
variable {α : Type} [DecidableEq α] {C : List α} {x : α}

/-- A scan ends with an answer if the character is in the part scanned, or if that part is in the array. -/
theorem containsFrom_eq (C : List α) (x : α) (i fuel : Nat) :
    containsFrom C x i fuel =
      if x ∈ (C.drop i).take fuel then some true else if i + fuel ≤ C.length ∨ fuel = 0 then some false else none := by
  induction fuel generalizing i with
  | zero => simp [containsFrom]
  | succ fuel ih =>
    rw [containsFrom]
    by_cases hi : i < C.length
    · rw [List.getElem?_eq_getElem hi, List.drop_eq_getElem_cons hi, List.take_succ_cons, Option.bind_some, ih]
      by_cases hx : C[i] = x
      · simp [hx]
      · have hx' : ¬x = C[i] := fun h => hx h.symm
        have hlen : i + 1 + fuel ≤ C.length ∨ fuel = 0 ↔ i + (fuel + 1) ≤ C.length := by omega
        simp [hx, hx', hlen]
    · have hnone : C[i]? = none := List.getElem?_eq_none (Nat.not_lt.mp hi)
      have hlen : ¬i + (fuel + 1) ≤ C.length := by omega
      rw [hnone, List.drop_eq_nil_of_le (Nat.not_lt.mp hi)]
      simp [hlen]

theorem contains_eq (C : List α) (x : α) (size : Nat) :
    contains C x size = if x ∈ C.take size then some true else if size ≤ C.length then some false else none := by
  rw [contains, containsFrom_eq, List.drop_zero, Nat.zero_add]
  by_cases hsize : size = 0
  · simp [hsize]
  · simp [hsize]

theorem contains_found (h : x ∈ C) {size : Nat} (hsize : C.length ≤ size) : contains C x size = some true := by
  rw [contains_eq, List.take_of_length_le hsize, if_pos h]

theorem contains_left (h : x ∉ C) {size : Nat} (hsize : C.length < size) : contains C x size = none := by
  rw [contains_eq, List.take_of_length_le (Nat.le_of_lt hsize), if_neg h, if_neg (Nat.not_le.mpr hsize)]

end Contains

/-- The digits are scanned for as many characters as there are. -/
theorem contains_digits (key : Char) : contains (cString "0123456789") key 10 = some (decide (key ∈ digits)) := by
  have htake : (cString "0123456789").take 10 = digits := by decide
  have hlen : 10 ≤ (cString "0123456789").length := by decide
  rw [contains_eq, htake, if_pos hlen]
  by_cases h : key ∈ digits
  · rw [if_pos h, decide_eq_true h]
  · rw [if_neg h, decide_eq_false h]

/-- `print_key_out` stays inside its arrays for the seven letters of the second one and its terminator, and reads past
    the end of it for every other key. -/
theorem printKeyOut_eq (key : Char) :
    printKeyOut key = if key ∈ cString "ijzgexo" then some (key, 100) else none := by
  have hlen : (cString "ijzgexo").length < 10 := by decide
  unfold printKeyOut
  rw [contains_digits]
  by_cases h : key ∈ cString "ijzgexo"
  · have hnone : (cString "ijzgexo").all (fun key => key ∉ digits) = true := by decide
    have hdigit : key ∉ digits := of_decide_eq_true (List.all_eq_true.mp hnone key h)
    rw [contains_found h (Nat.le_of_lt hlen), if_pos h]
    simp [hdigit]
  · rw [contains_left h hlen, if_neg h]
    rfl

end Glove
