import Mathlib.Data.Nat.Sqrt
import Mathlib.Data.List.Basic

/-! # The flex sensors (`flex_sensor.h`, `flex_sensor.cpp`)

An `int` of the source is an `Int`. The ADC is a sequence of values of the data register `ADGDR`, one
for each conversion. -/

namespace Glove.Sensing

def adcMax : Nat := 3900

def adcMin : Nat := 100

structure SensorReading where
  thumb : Int
  finger1 : Int
  finger2 : Int
  finger3 : Int
  finger4 : Int
  palm : Int
  key : String

def minDist (in1 in2 : Int) : Int := (in1 - in2).natAbs * (in1 - in2).natAbs

/-- The square root of a `double`, converted to `int`, is the integer square root. -/
def SensorReading.distanceFromKey (k o : SensorReading) : Int :=
  Nat.sqrt (minDist k.thumb o.thumb + minDist k.finger1 o.finger1 + minDist k.finger2 o.finger2 +
    minDist k.finger3 o.finger3 + minDist k.finger4 o.finger4 + 3 * minDist k.palm o.palm).toNat

/-- The table that the constructor of `FlexSensorReader` fills. -/
def keys : List SensorReading :=
  [⟨991, 1255, 1083, 487, 786, 621, "1"⟩,
    ⟨1783, 1428, 2036, 516, 986, 557, "3"⟩,
    ⟨1627, 1338, 1927, 1045, 1813, 769, "5"⟩,
    ⟨1194, 1714, 1708, 517, 1889, 718, "7"⟩,
    ⟨1181, 1206, 1198, 1121, 2001, 747, "8"⟩,
    ⟨1682, 773, 963, 481, 610, 751, "a"⟩,
    ⟨1057, 1319, 2056, 1170, 1645, 810, "b"⟩,
    ⟨1495, 855, 1151, 581, 1245, 731, "c"⟩,
    ⟨1101, 1349, 1100, 505, 776, 668, "d"⟩,
    ⟨947, 791, 1067, 493, 783, 701, "e"⟩,
    ⟨1282, 1051, 2089, 1229, 1961, 745, "f"⟩,
    ⟨1380, 1049, 1199, 538, 831, 739, "g"⟩,
    ⟨1090, 1137, 1884, 545, 822, 731, "h"⟩,
    ⟨1061, 834, 1129, 497, 1527, 786, "i"⟩,
    ⟨1075, 825, 1180, 489, 1675, 715, "j"⟩,
    ⟨1392, 1330, 1975, 567, 811, 777, "k"⟩,
    ⟨1910, 1399, 1059, 558, 797, 685, "l"⟩,
    ⟨996, 826, 1185, 1068, 1062, 905, "m"⟩,
    ⟨1027, 836, 875, 589, 824, 697, "n"⟩,
    ⟨1425, 926, 1203, 576, 1006, 689, "o"⟩,
    ⟨1502, 1317, 1930, 606, 832, 735, "p"⟩,
    ⟨1642, 1049, 1106, 552, 812, 745, "q"⟩,
    ⟨1029, 1006, 1137, 475, 747, 614, "r"⟩,
    ⟨994, 955, 1114, 566, 939, 714, "s"⟩,
    ⟨997, 872, 1170, 538, 812, 718, "t"⟩,
    ⟨1029, 1272, 1983, 495, 665, 611, "u"⟩,
    ⟨1057, 1428, 2130, 518, 706, 666, "v"⟩,
    ⟨1137, 1421, 2115, 1264, 788, 610, "w"⟩,
    ⟨939, 1071, 1025, 574, 859, 640, "x"⟩,
    ⟨1792, 776, 1146, 572, 1914, 767, "y"⟩,
    ⟨911, 1335, 1129, 515, 797, 646, "z"⟩]

/-- `result.c_str()[0]`. -/
def firstChar (s : String) : Char := s.toList.headD '\x00'

/-- The gestures the table can name. -/
def signs : List Char := keys.map fun k => firstChar k.key

/-- One pass of the loop of `Convert`: the best key and its score so far. -/
def convertStep (flexReading : SensorReading) (best : String × Int) (k : SensorReading) : String × Int :=
  let tempScore := k.distanceFromKey flexReading
  if tempScore < best.2 then (k.key, tempScore) else best

def convert (keys : List SensorReading) (flexReading : SensorReading) : String :=
  (keys.foldl (convertStep flexReading) ("-", 60000)).1

/-- `(LPC_ADC->ADGDR >> 4) & 0xfff`. -/
def extractData (adgdr : BitVec 32) : Nat := ((adgdr >>> 4) &&& 0xfff#32).toNat

/-- The field of the reading that channel `i` of `Poll` writes. -/
def SensorReading.store (r : SensorReading) (i : Nat) (rawData : Nat) : SensorReading :=
  match i with
  | 0 => { r with thumb := rawData }
  | 1 => { r with finger1 := rawData }
  | 2 => { r with finger2 := rawData }
  | 3 => { r with finger3 := rawData }
  | 4 => { r with finger4 := rawData }
  | 5 => { r with palm := rawData }
  | _ => r

/-- The result of a pass of `Poll`: its return value, the reading, and the next conversion. -/
structure Polled where
  res : Int
  reading : SensorReading
  next : Nat

/-- The channels `is`, one conversion each from the conversion `pos` on. A sample out of range ends the
    pass and leaves the fields of the later channels as they were. -/
def pollChannels (adc : Nat → BitVec 32) : List Nat → Nat → SensorReading → Polled
  | [], pos, r => ⟨0, r, pos⟩
  | i :: is, pos, r =>
    let rawData := extractData (adc pos)
    if rawData > adcMax ∨ rawData < adcMin then ⟨1, r, pos + 1⟩
    else pollChannels adc is (pos + 1) (r.store i rawData)

def poll (adc : Nat → BitVec 32) (pos : Nat) (r : SensorReading) : Polled :=
  pollChannels adc [0, 1, 2, 3, 4, 5] pos r

end Glove.Sensing
