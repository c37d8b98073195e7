import Mathlib.Data.List.Basic

/-! # The byte that leaves the glove (`print_key_out` in `main.cpp`, `util.h`)

A read past the end of an array is undefined in the source, so a scan that makes one is partial here. An
array of `char` ends with its terminator. -/

namespace Glove

section Contains
variable {α : Type} [DecidableEq α]

/-- The loop of `contains` from index `i` on, for `fuel` more passes. -/
def containsFrom (C : List α) (x : α) : Nat → Nat → Option Bool
  | _, 0 => some false
  | i, fuel + 1 => C[i]?.bind fun c => if c = x then some true else containsFrom C x (i + 1) fuel

def contains (C : List α) (x : α) (size : Nat) : Option Bool := containsFrom C x 0 size

end Contains

/-- The bytes of a string literal. -/
def cString (s : String) : List Char := s.toList ++ ['\x00']

/-- What `print_key_out` does with a key: the byte it sends, and the milliseconds it waits after it. Both scans
    are of ten characters. -/
def printKeyOut (key : Char) : Option (Char × Nat) := do
  let isDigit ← contains (cString "0123456789") key 10
  let isBad ← contains (cString "ijzgexo") key 10
  return (key, (if isDigit then 100 else 0) + if isBad then 100 else 0)

end Glove
