import Glove.Lib.Lts

/-! # The prototype of the keyboard (`prototype_fake_kb.py`)

`T1`: the thread of `runWriter` hands each line that the user types to the thread of `runReader`, which
prints it. Unlike in `InputMode`, `item` is assigned under the lock. Everything between `acquire` and
`release` of the writer is one step. `typed`, `handed` and `printed` are histories: the lines that `input`
returned, those assigned to `item`, and those that the reader printed. -/

namespace Glove.Prototype

/-- Where `runReader` is: before `acquire`, at the test of the inner loop, in `wait`, in `wait` and notified,
    between the clear of the flag and the print, or before `release`. -/
inductive ReaderPc
  | acquire
  | test
  | waiting
  | notified
  | print
  | release
  deriving DecidableEq

/-- Where `runWriter` is: in `input`, or with the line `c` and the lock not yet taken. -/
inductive WriterPc
  | input
  | publish (c : List Char)
  deriving DecidableEq

structure T1 where
  item : List Char
  itemAvailable : Bool
  reader : ReaderPc
  writer : WriterPc
  typed : List (List Char)
  handed : List (List Char)
  printed : List (List Char)
  deriving DecidableEq

namespace T1

/-- `__init__`, and both threads at their start. -/
def init : T1 := ⟨[], false, .acquire, .input, [], [], []⟩

/-- No thread holds the lock: the writer holds it within a step only. -/
def lockFree (s : T1) : Bool := s.reader = .acquire ∨ s.reader = .waiting ∨ s.reader = .notified

end T1

inductive ReaderStep
  | acquire
  | test
  | print
  | release

inductive WriterStep
  | input (c : List Char)
  | publish

inductive Action
  | reader (a : ReaderStep)
  | writer (a : WriterStep)

def notify (r : ReaderPc) : ReaderPc := if r = .waiting then .notified else r

def runReader (s : T1) : ReaderStep → Option T1
  -- A notified reader takes the lock back and is at the test again.
  | .acquire => if s.reader = .acquire ∨ s.reader = .notified then some { s with reader := .test } else none
  | .test =>
    if s.reader = .test then
      if s.itemAvailable then some { s with itemAvailable := false, reader := .print }
      else some { s with reader := .waiting }
    else none
  | .print => if s.reader = .print then some { s with reader := .release, printed := s.printed ++ [s.item] } else none
  | .release => if s.reader = .release then some { s with reader := .acquire } else none

def runWriter (s : T1) : WriterStep → Option T1
  | .input c => if s.writer = .input then some { s with writer := .publish c, typed := s.typed ++ [c] } else none
  | .publish =>
    match s.writer with
    | .publish c =>
      if s.lockFree then
        some { s with item := c, itemAvailable := true, reader := notify s.reader, writer := .input,
                      handed := s.handed ++ [c] }
      else none
    | .input => none

/-- The two threads, in every interleaving. -/
def prototype : Lts T1 Action where
  step s
    | .reader a => runReader s a
    | .writer a => runWriter s a

end Glove.Prototype
