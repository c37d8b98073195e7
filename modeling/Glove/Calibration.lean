import Glove.Lib.Mealy
import Glove.FlexSensor

/-! # The TEST mode of `main` (`main.cpp`)

The loop that prints the lines of the key table. Each pass polls five readings and prints their average.
The readings live across passes, and start with whatever their memory held. -/

namespace Glove.Sensing

/-- The division of C++ truncates. `avg` keeps its key. -/
def averageReadings (srp1 srp2 srp3 srp4 srp5 avg : SensorReading) : SensorReading where
  thumb := (srp1.thumb + srp2.thumb + srp3.thumb + srp4.thumb + srp5.thumb).tdiv 5
  finger1 := (srp1.finger1 + srp2.finger1 + srp3.finger1 + srp4.finger1 + srp5.finger1).tdiv 5
  finger2 := (srp1.finger2 + srp2.finger2 + srp3.finger2 + srp4.finger2 + srp5.finger2).tdiv 5
  finger3 := (srp1.finger3 + srp2.finger3 + srp3.finger3 + srp4.finger3 + srp5.finger3).tdiv 5
  finger4 := (srp1.finger4 + srp2.finger4 + srp3.finger4 + srp4.finger4 + srp5.finger4).tdiv 5
  palm := (srp1.palm + srp2.palm + srp3.palm + srp4.palm + srp5.palm).tdiv 5
  key := avg.key

def SensorReading.printify (r : SensorReading) : String :=
  "keys.push_back(SensorReading(" ++ toString r.thumb ++ ", " ++ toString r.finger1 ++ ", " ++ toString r.finger2 ++
    ", " ++ toString r.finger3 ++ ", " ++ toString r.finger4 ++ ", " ++ toString r.palm ++ ", \n"

structure Calibration where
  adcPos : Nat
  sensorReading1 : SensorReading
  sensorReading2 : SensorReading
  sensorReading3 : SensorReading
  sensorReading4 : SensorReading
  sensorReading5 : SensorReading
  sensorReadingAverage : SensorReading

namespace Calibration

/-- The readings as their memory was, each with an empty key. -/
def init (memory : Calibration) : Calibration where
  adcPos := 0
  sensorReading1 := { memory.sensorReading1 with key := "" }
  sensorReading2 := { memory.sensorReading2 with key := "" }
  sensorReading3 := { memory.sensorReading3 with key := "" }
  sensorReading4 := { memory.sensorReading4 with key := "" }
  sensorReading5 := { memory.sensorReading5 with key := "" }
  sensorReadingAverage := { memory.sensorReadingAverage with key := "" }

/-- A pass of the loop: the results of the five calls of `Poll` are not looked at. -/
def step (adgdr : Nat → BitVec 32) (c : Calibration) : Calibration × List String :=
  let polled1 := poll adgdr c.adcPos c.sensorReading1
  let polled2 := poll adgdr polled1.next c.sensorReading2
  let polled3 := poll adgdr polled2.next c.sensorReading3
  let polled4 := poll adgdr polled3.next c.sensorReading4
  let polled5 := poll adgdr polled4.next c.sensorReading5
  let average := averageReadings polled1.reading polled2.reading polled3.reading polled4.reading polled5.reading
    c.sensorReadingAverage
  (⟨polled5.next, polled1.reading, polled2.reading, polled3.reading, polled4.reading, polled5.reading, average⟩,
    [average.printify])

end Calibration

/-- The TEST mode on the samples that the hardware delivers. -/
def testMode (adgdr : Nat → BitVec 32) : Mealy Calibration Unit String := ⟨fun c _ => c.step adgdr⟩

end Glove.Sensing
