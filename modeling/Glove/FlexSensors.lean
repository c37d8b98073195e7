import Glove.Lib.Mealy
import Glove.Consensus
import Glove.FlexSensor

/-! # The flexSensors build (`flexSensors/flex_sensor.cpp`, `flexSensors/main.cpp`)

The program before the glove: it prints the key of the hand shape to the serial console. Its table, its
distance and its polling are its own. `Poll` does not check the samples, and `main` does not look at what it
returns. -/

namespace Glove.FlexSensors
open Sensing Consensus

/-- Without the weight of the palm. -/
def distanceFromKey (k o : SensorReading) : Int :=
  Nat.sqrt (minDist k.thumb o.thumb + minDist k.finger1 o.finger1 + minDist k.finger2 o.finger2 +
    minDist k.finger3 o.finger3 + minDist k.finger4 o.finger4 + minDist k.palm o.palm).toNat

def keys : List SensorReading :=
  [⟨1700, 2600, 1450, 1800, 1675, 2450, "1"⟩,
    ⟨1800, 2750, 2625, 1750, 1750, 2350, "2"⟩,
    ⟨2825, 2750, 2600, 1750, 1700, 2700, "3"⟩,
    ⟨1700, 2725, 2650, 3000, 2700, 2700, "4"⟩,
    ⟨2750, 2725, 2550, 2900, 2700, 2800, "5"⟩,
    ⟨1550, 2750, 2600, 2750, 1600, 2300, "6"⟩,
    ⟨1750, 2750, 2500, 1700, 2650, 2500, "7"⟩,
    ⟨1850, 2700, 1400, 2900, 2800, 2750, "8"⟩,
    ⟨2000, 1550, 2700, 2900, 2750, 2800, "9"⟩,
    ⟨2300, 1600, 1600, 1800, 1600, 2600, "a"⟩,
    ⟨1700, 2850, 2700, 2950, 2750, 2500, "b"⟩,
    ⟨2000, 2050, 1700, 2200, 2050, 2800, "c"⟩,
    ⟨1800, 2750, 1500, 1750, 1750, 2750, "d"⟩,
    ⟨1800, 1450, 1500, 1800, 1750, 2800, "e"⟩,
    ⟨2000, 1650, 2850, 3000, 2700, 2850, "f"⟩,
    ⟨2400, 2600, 1750, 2000, 1750, 2450, "g"⟩,
    ⟨1900, 2750, 2750, 1900, 1850, 2600, "h"⟩,
    ⟨1850, 1650, 1600, 1950, 2650, 2750, "i"⟩,
    ⟨1950, 1850, 1650, 2100, 2650, 2700, "j"⟩,
    ⟨2600, 2700, 2700, 2000, 1850, 2450, "k"⟩,
    ⟨2900, 2900, 1550, 1900, 1750, 2650, "l"⟩,
    ⟨1950, 1800, 1750, 2000, 1750, 2550, "m"⟩,
    ⟨2100, 1900, 1900, 2100, 1750, 2600, "n"⟩,
    ⟨2050, 2000, 1700, 2100, 2050, 2800, "o"⟩,
    ⟨2300, 2900, 2100, 2350, 2100, 2750, "p"⟩,
    ⟨2400, 2550, 1450, 1700, 1650, 2500, "q"⟩,
    ⟨1900, 2800, 2100, 1850, 1850, 2500, "r"⟩,
    ⟨1950, 1450, 1475, 1800, 1750, 2650, "s"⟩,
    ⟨2450, 1800, 1500, 1950, 1700, 2500, "t"⟩,
    ⟨1950, 2750, 2600, 1875, 1750, 2500, "u"⟩,
    ⟨2000, 2900, 2750, 1900, 1800, 2500, "v"⟩,
    ⟨2000, 2900, 2750, 3000, 1825, 2400, "w"⟩,
    ⟨1650, 1850, 1550, 2025, 1650, 2500, "x"⟩,
    ⟨2900, 1700, 1650, 2000, 2500, 2750, "y"⟩,
    ⟨2000, 2700, 1600, 2000, 1700, 2700, "z"⟩]

def convertStep (flexReading : SensorReading) (best : String × Int) (k : SensorReading) : String × Int :=
  let tempScore := distanceFromKey k flexReading
  if tempScore < best.2 then (k.key, tempScore) else best

def convert (keys : List SensorReading) (flexReading : SensorReading) : String :=
  (keys.foldl (convertStep flexReading) ("-", 60000)).1

def adcChannels : List (BitVec 32) := [1, 2, 4, 8, 16, 32]

/-- `sizeof(adc_channels)`, which the loop of `Poll` takes for the number of channels. -/
def sizeofAdcChannels : Nat := 4 * adcChannels.length

/-- As for the glove, with the word of `adc_channels` that each conversion was set to: `none` for what lies past it. -/
structure Polled where
  res : Int
  reading : SensorReading
  next : Nat
  channels : List (Option (BitVec 32))

/-- The loop from `i` on, for as many passes as are left. -/
def pollFrom (adgdr : Nat → BitVec 32) : Nat → Nat → Polled → Polled
  | 0, _, p => { p with res := 0 }
  | fuel + 1, i, p =>
    let rawData := extractData (adgdr p.next)
    let p := { p with next := p.next + 1, channels := p.channels ++ [adcChannels[i]?] }
    if i ≤ 5 then pollFrom adgdr fuel (i + 1) { p with reading := p.reading.store i rawData }
    else { p with res := 1 }

def poll (adgdr : Nat → BitVec 32) (pos : Nat) (r : SensorReading) : Polled :=
  pollFrom adgdr sizeofAdcChannels 0 ⟨0, r, pos, []⟩

structure Main where
  adcPos : Nat
  sensorReading : SensorReading
  consensusQueue : List String

namespace Main

def init (memory : SensorReading) : Main := ⟨0, { memory with key := "" }, []⟩

/-- A pass of the loop, and the line that it prints to the console. -/
def step (adgdr : Nat → BitVec 32) (m : Main) : Main × List String :=
  let polled := poll adgdr m.adcPos m.sensorReading
  let candidate := convert keys polled.reading
  let m := { m with adcPos := polled.next, sensorReading := polled.reading }
  match hasConsensus (m.consensusQueue ++ [candidate]) with
  | some (true, queue) =>
    match getConsensus queue with
    | some (result, queue) => ({ m with consensusQueue := queue }, [result])
    | none => (m, [])
  | some (false, queue) => ({ m with consensusQueue := queue }, [])
  | none => (m, [])

end Main

def flexSensors (adgdr : Nat → BitVec 32) : Mealy Main Unit String := ⟨fun m _ => m.step adgdr⟩

end Glove.FlexSensors
