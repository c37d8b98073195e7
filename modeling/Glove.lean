import Glove.Lib.Mealy
import Glove.Lib.Lts
import Glove.Lib.History
import Glove.Lib.Edit
import Glove.Lib.LinkedList
import Glove.Lib.Mailbox
import Glove.Lib.Nearest
import Glove.Lib.Outcome
import Glove.Lib.Pipe
import Glove.Lib.Registers
import Glove.Lib.Rounding
import Glove.ImuFsm
import Glove.Consensus
import Glove.FlexSensor
import Glove.FlexSensors
import Glove.Loop
import Glove.Main
import Glove.Keyboard
import Glove.Calibration
import Glove.PrintKeyOut
import Glove.Lsm9ds0
import Glove.Sensor
import Glove.FakeKb
import Glove.Prototype
import Glove.System
import Glove.EditDistance
import Glove.TestMode
import Glove.ReadyQueue
import Glove.Scheduler
import Glove.Theorems.Refinement
import Glove.Theorems.Acts
import Glove.Theorems.History
import Glove.Theorems.Consensus
import Glove.Theorems.FlexSensors
import Glove.Theorems.LoopRefinement
import Glove.Theorems.Classifier
import Glove.Theorems.Polling
import Glove.Theorems.Candidates
import Glove.Theorems.Calibration
import Glove.Theorems.Protocol
import Glove.Theorems.Suppression
import Glove.Theorems.Repeat
import Glove.Theorems.Swallow
import Glove.Theorems.FunctionLayer
import Glove.Theorems.Hold
import Glove.Theorems.Cancel
import Glove.Theorems.Typable
import Glove.Theorems.Uninit
import Glove.Theorems.Rate
import Glove.Theorems.PrintKeyOut
import Glove.Theorems.Registers
import Glove.Theorems.Readings
import Glove.Theorems.Bias
import Glove.Theorems.Thresholds
import Glove.Theorems.Sensor
import Glove.Theorems.HandOff
import Glove.Theorems.WakeUp
import Glove.Theorems.InOrder
import Glove.Theorems.CatchUp
import Glove.Theorems.Prototype
import Glove.Theorems.Signing
import Glove.Theorems.Keystrokes
import Glove.Theorems.System
import Glove.Theorems.EditDistance
import Glove.Theorems.TestMode
import Glove.Theorems.ReadyQueue
import Glove.Theorems.Scheduler
import Glove.Theorems.WaitExact
