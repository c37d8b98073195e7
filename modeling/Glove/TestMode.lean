import Mathlib.Algebra.Order.Field.Rat
import Glove.EditDistance
import Glove.FakeKb

/-! # The test of the keyboard (`TestMode` in `fake_kb.py`)

Each word that ends in a space is scored against the word that the user expected. The user types the
expected words `answers`, one for each score. `received` and `scored` are histories: the characters that
`read` returned, and the words scored. -/

namespace Glove.FakeKb

/-- A score: the words, their distance and the length it counts against, and the two accuracies printed. -/
structure Scored where
  ideal : List Char
  actual : List Char
  wrong : Nat
  charLen : Nat
  accuracy : ℚ
  overall : ℚ

structure TestMode where
  item : List Char
  buffer : List Char
  wrong : Nat
  charLen : Nat
  totalWrong : Nat
  totalLen : Nat
  done : Bool
  asked : Nat
  received : List Char
  scored : List Scored

/-- `1 - abs(wrong/len)`; a division by zero is an error. -/
def accuracy (wrong len : Nat) : Option ℚ := if len = 0 then none else some (1 - |(wrong : ℚ) / len|)

namespace TestMode

/-- `__init__`. -/
def init : TestMode := ⟨[], [], 0, 0, 0, 0, false, 0, [], []⟩

/-- The score of `self.buffer.split(" ")[0]`. -/
def score (autocorrectOn : Bool) (spell : List Char → List Char) (t : TestMode) (ideal : List Char) :
    Option TestMode := do
  let actual := correct autocorrectOn spell (t.buffer.takeWhile (· ≠ ' '))
  let (wrong, _) ← editDistDP ideal actual
  let totalWrong := t.totalWrong + wrong
  let charLen := max ideal.length wrong
  let totalLen := t.totalLen + charLen
  let wordAccuracy ← accuracy wrong charLen
  let overall ← accuracy totalWrong totalLen
  return { t with
    buffer := [], wrong, charLen, totalWrong, totalLen, done := true, asked := t.asked + 1,
    scored := t.scored ++ [⟨ideal, actual, wrong, charLen, wordAccuracy, overall⟩] }

/-- A pass of `runReader` on the next character. -/
def runReader (autocorrectOn : Bool) (spell : List Char → List Char) (answers : Nat → List Char) (t : TestMode)
    (c : Char) : Option TestMode :=
  let t := { t with item := [c], buffer := t.buffer ++ [c], received := t.received ++ [c] }
  if ' ' ∈ t.buffer then t.score autocorrectOn spell (answers t.asked) else some t

end TestMode

def testMode (autocorrectOn : Bool) (spell : List Char → List Char) (answers : Nat → List Char) : Lts TestMode Char :=
  ⟨TestMode.runReader autocorrectOn spell answers⟩

end Glove.FakeKb
