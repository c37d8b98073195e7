import Glove.Lib.Pipe
import Glove.Main
import Glove.FakeKb

/-! # The glove and the host (`main.cpp`, `fake_kb.py`)

The NORMAL mode of the glove, the bytes on their way over Bluetooth, and the two threads of `InputMode`. The
three of them run side by side. The link is taken to neither lose nor reorder bytes. -/

namespace Glove
open Sensing ImuFsm

abbrev System := Pipe Main Char FakeKb.InputMode

/-- `self.bt.read().decode("utf-8")` takes a byte and gives its character. A byte that is none stays where it is, as the
    thread that reads it ends. -/
def reads : FakeKb.Action → Option (Char → Bool)
  | .reader (.receive c) => some fun byte => FakeKb.decode (UInt8.ofNat byte.toNat) = some c
  | _ => none

/-- Both sides at their start. -/
def System.init (data : InstanceData) (memory : SensorReading) : System := ⟨Main.init data memory, [], .init⟩

def system (env : Env) (autocorrectOn : Bool) (spell : List Char → List Char) :
    Lts System (Pipe.Label Unit FakeKb.Action) :=
  pipe (normalMode env) Obs.byte? (FakeKb.inputMode autocorrectOn spell) reads

end Glove
