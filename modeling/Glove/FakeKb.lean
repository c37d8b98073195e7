import Glove.Lib.Lts

/-! # The keyboard of the host (`fake_kb.py`)

`InputMode`: the thread of `runReader` hands each character that comes over Bluetooth to the thread of
`runWriter`, which types it. `item` is assigned outside the lock; everything between `acquire` and
`release` of the reader is one step, and `wait` gives the lock back. `received` and `sent` are histories:
what the reader received, and what `sendKey` was called with. `sendKey` is its script; running it is not
modelled. -/

namespace Glove.FakeKb

/-- Where `runReader` is: in `read`, or with `item` assigned and the lock not yet taken. -/
inductive ReaderPc
  | read
  | publish
  deriving DecidableEq

/-- Where `runWriter` is: before `acquire`, at the test of the inner loop, in `wait`, in `wait` and
    notified, between the clear of the flag and the read of `item`, or sending. -/
inductive WriterPc
  | acquire
  | test
  | waiting
  | notified
  | fetch
  | sending (rest : List Char)
  deriving DecidableEq

structure InputMode where
  item : List Char
  itemAvailable : Bool
  reader : ReaderPc
  writer : WriterPc
  received : List Char
  sent : List Char
  deriving DecidableEq

namespace InputMode

/-- `__init__`, and both threads at their start. -/
def init : InputMode := ⟨[], false, .read, .acquire, [], []⟩

/-- No thread holds the lock: the reader holds it within a step only. -/
def lockFree (s : InputMode) : Bool := s.writer = .acquire ∨ s.writer = .waiting ∨ s.writer = .notified

end InputMode

inductive ReaderStep
  | receive (c : Char)
  | publish

inductive WriterStep
  | acquire
  | test
  | fetch
  | send
  | release

inductive Action
  | reader (a : ReaderStep)
  | writer (a : WriterStep)

/-- What the reader makes of a character. -/
def correct (autocorrectOn : Bool) (spell : List Char → List Char) (c : List Char) : List Char :=
  if autocorrectOn then
    let c' := spell c
    if c' ≠ c then c' else c
  else c

def notify (w : WriterPc) : WriterPc := if w = .waiting then .notified else w

def runReader (autocorrectOn : Bool) (spell : List Char → List Char) (s : InputMode) : ReaderStep → Option InputMode
  | .receive c =>
    if s.reader = .read then
      some { s with item := correct autocorrectOn spell [c], reader := .publish, received := s.received ++ [c] }
    else none
  | .publish =>
    if s.reader = .publish ∧ s.lockFree then
      some { s with itemAvailable := true, reader := .read, writer := notify s.writer }
    else none

def runWriter (s : InputMode) : WriterStep → Option InputMode
  -- A notified writer takes the lock back and is at the test again.
  | .acquire => if s.writer = .acquire ∨ s.writer = .notified then some { s with writer := .test } else none
  | .test =>
    if s.writer = .test then
      if s.itemAvailable then some { s with itemAvailable := false, writer := .fetch }
      else some { s with writer := .waiting }
    else none
  | .fetch => if s.writer = .fetch then some { s with writer := .sending s.item } else none
  | .send =>
    match s.writer with
    | .sending (x :: rest) => some { s with writer := .sending rest, sent := s.sent ++ [x] }
    | _ => none
  | .release => if s.writer = .sending [] then some { s with writer := .acquire } else none

/-- `read().decode("utf-8")` of one byte: a byte of a longer sequence is an error. -/
def decode (byte : UInt8) : Option Char := if byte < 128 then some (Char.ofNat byte.toNat) else none

/-- The script that `sendKey` passes to `osascript`. -/
def sendKey (key : Char) : String :=
  if key = '!' then "tell application \"System Events\" to key code 51"
  else if key = '`' then "tell application \"System Events\" to keystroke space"
  else "tell application \"System Events\" to keystroke \"" ++ key.toString ++ "\""

/-- The two threads, in every interleaving. -/
def inputMode (autocorrectOn : Bool) (spell : List Char → List Char) : Lts InputMode Action where
  step s
    | .reader a => runReader autocorrectOn spell s a
    | .writer a => runWriter s a

end Glove.FakeKb
