import Glove.FlexSensors
import Glove.Lib.Nearest
import Glove.Theorems.Consensus
import Glove.Theorems.Classifier

/-! The flexSensors build over whole runs. A pass takes seven conversions, as the loop of `Poll` runs past its array of six
    channels before it returns; the candidates of the passes are cut into blocks of ten, and those blocks whose candidates
    are all the same are printed. -/

namespace Glove.FlexSensors
open Sensing Consensus Block Mealy

variable {adgdr : Nat → BitVec 32}

/-! ### A pass -/

/-- The samples of pass `p`. -/
def sampled (adgdr : Nat → BitVec 32) (p : Nat) : SensorReading :=
  ⟨extractData (adgdr (7 * p)), extractData (adgdr (7 * p + 1)), extractData (adgdr (7 * p + 2)),
    extractData (adgdr (7 * p + 3)), extractData (adgdr (7 * p + 4)), extractData (adgdr (7 * p + 5)), ""⟩

def candidate (adgdr : Nat → BitVec 32) (p : Nat) : String := convert keys (sampled adgdr p)

/-- `Poll` returns 1 after seven conversions, of which it stores six; the channel of the seventh is read past the array. -/
theorem poll_eq (adgdr : Nat → BitVec 32) (pos : Nat) (r : SensorReading) :
    poll adgdr pos r = ⟨1, ⟨extractData (adgdr pos), extractData (adgdr (pos + 1)), extractData (adgdr (pos + 2)),
      extractData (adgdr (pos + 3)), extractData (adgdr (pos + 4)), extractData (adgdr (pos + 5)), r.key⟩, pos + 7,
      adcChannels.map some ++ [none]⟩ := rfl

/-! ### The candidates -/

theorem extractData_le (w : BitVec 32) : extractData w ≤ 4095 := by
  rw [extractData, BitVec.toNat_and]
  exact Nat.and_le_right

theorem convert_eq (ks : List SensorReading) (o : SensorReading) :
    convert ks o = (ks.foldl (Nearest.step (distanceFromKey · o) (·.key)) ("-", 60000)).1 := rfl

theorem sampled_fieldsIn (adgdr : Nat → BitVec 32) (p : Nat) : (sampled adgdr p).FieldsIn 0 4095 := by
  have hsample : ∀ w, 0 ≤ (extractData w : Int) ∧ (extractData w : Int) ≤ 4095 :=
    fun w => ⟨Int.natCast_nonneg _, by exact_mod_cast extractData_le w⟩
  exact ⟨hsample _, hsample _, hsample _, hsample _, hsample _, hsample _⟩

/-- The weight of the palm makes the distances of the glove the larger ones. -/
theorem distanceFromKey_le (k o : SensorReading) : distanceFromKey k o ≤ k.distanceFromKey o := by
  have hpalm : 0 ≤ minDist k.palm o.palm := Int.natCast_nonneg _
  refine Int.ofNat_le.mpr (Nat.sqrt_le_sqrt (Int.toNat_le_toNat ?_))
  omega

theorem keys_inRange : ∀ k ∈ keys, k.FieldsIn 0 4095 := by decide

/-- The candidate of a pass is the first key of the table with the least score. -/
theorem candidate_firstLeast (adgdr : Nat → BitVec 32) (p : Nat) :
    ∃ k, Nearest.IsFirstLeast (distanceFromKey · (sampled adgdr p)) keys k ∧ candidate adgdr p = k.key := by
  have hhead : (⟨1700, 2600, 1450, 1800, 1675, 2450, "1"⟩ : SensorReading) ∈ keys := List.mem_cons_self
  have hwithin : Within 4095 _ (sampled adgdr p) :=
    FieldsIn.within (keys_inRange _ hhead) (sampled_fieldsIn adgdr p) (by decide)
  have hlt : distanceFromKey ⟨1700, 2600, 1450, 1800, 1675, 2450, "1"⟩ (sampled adgdr p) < 60000 := by
    have hle := (distanceFromKey_le _ _).trans (Sensing.distanceFromKey_le hwithin)
    omega
  obtain ⟨k, heq, hfirst⟩ :
      ∃ k, keys.foldl (Nearest.step (distanceFromKey · (sampled adgdr p)) (·.key)) ("-", 60000) =
          (k.key, distanceFromKey k (sampled adgdr p)) ∧
        Nearest.IsFirstLeast (distanceFromKey · (sampled adgdr p)) keys k := Nearest.foldl_step_of_lt hhead hlt
  refine ⟨k, hfirst, ?_⟩
  rw [candidate, convert_eq, heq]

/-! ### Blocks -/

/-- What is printed for the ten passes of block `b`. -/
def blockResult (adgdr : Nat → BitVec 32) (b : Nat) : Option String :=
  if ∀ i < 10, candidate adgdr (10 * b + i) = candidate adgdr (10 * b + 9) then some (candidate adgdr (10 * b + 9))
  else none

def printed (adgdr : Nat → BitVec 32) (passes : Nat) : List String :=
  (List.range (passes / 10)).filterMap (blockResult adgdr)

/-- The candidates, counted from 1. -/
def stream (adgdr : Nat → BitVec 32) (t : Nat) : String := candidate adgdr (t - 1)

theorem blockResult_eq {t : Nat} (ht : t % 10 + 1 = 10) :
    blockResult adgdr (t / 10) =
      if ∀ x ∈ block 10 (stream adgdr) t, x = candidate adgdr t then some (candidate adgdr t) else none := by
  have hlast : 10 * (t / 10) + 9 = t := by omega
  have hconstant : (∀ i < 10, candidate adgdr (10 * (t / 10) + i) = candidate adgdr t) ↔
      ∀ x ∈ block 10 (stream adgdr) t, x = candidate adgdr t := by
    have hblock := block_constant_iff (c := stream adgdr) (r := candidate adgdr t) ht
    have hiff : (∀ x ∈ block 10 (stream adgdr) t, x = candidate adgdr t) ↔
        ∀ i, t + 1 - 10 < i → i ≤ t + 1 → stream adgdr i = candidate adgdr t := by
      rw [← hblock]
      exact ⟨fun h => ⟨h, rfl⟩, fun h => h.1⟩
    rw [hiff]
    constructor
    · intro h i hlo hhi
      have hi := h (i - 1 - 10 * (t / 10)) (by omega)
      rwa [show 10 * (t / 10) + (i - 1 - 10 * (t / 10)) = i - 1 by omega] at hi
    · intro h i hi
      exact h (10 * (t / 10) + i + 1) (by omega) (by omega)
  rw [blockResult, hlast]
  exact if_congr hconstant rfl rfl

theorem printed_succ (adgdr : Nat → BitVec 32) (t : Nat) :
    printed adgdr (t + 1) =
      printed adgdr t ++ if t % 10 + 1 = 10 then (blockResult adgdr (t / 10)).toList else [] := by
  unfold printed
  by_cases ht : t % 10 + 1 = 10
  · have hdiv : (t + 1) / 10 = t / 10 + 1 := by omega
    rw [if_pos ht, hdiv, List.range_succ, List.filterMap_append]
    cases hresult : blockResult adgdr (t / 10) <;> simp [hresult]
  · have hdiv : (t + 1) / 10 = t / 10 := by omega
    rw [if_neg ht, hdiv, List.append_nil]

/-! ### Runs -/

/-- The state at the start of pass `t`. -/
structure At (adgdr : Nat → BitVec 32) (t : Nat) (m : Main) : Prop where
  adcPos : m.adcPos = 7 * t
  key : m.sensorReading.key = ""
  queue : m.consensusQueue = block 10 (stream adgdr) t

section Step
variable {t : Nat} {m : Main}

theorem At.reading (h : At adgdr t m) : (poll adgdr m.adcPos m.sensorReading).reading = sampled adgdr t := by
  rw [poll_eq, h.adcPos, h.key]
  rfl

/-- A pass through `push_back` and the two functions of the queue. -/
theorem At.step_push (h : At adgdr t m) {result : Option String} {queue : List String}
    (hpush : pushCandidate consensusN m.consensusQueue (candidate adgdr t) = some (result, queue)) :
    (flexSensors adgdr).step m () = (⟨7 * t + 7, sampled adgdr t, queue⟩, result.toList) := by
  have hnext : (poll adgdr m.adcPos m.sensorReading).next = 7 * t + 7 := by rw [poll_eq, h.adcPos]
  have hcandidate : convert keys (sampled adgdr t) = candidate adgdr t := rfl
  rw [← push_hasConsensus_getConsensus] at hpush
  show m.step adgdr = _
  unfold Main.step
  simp only [h.reading, hnext, hcandidate]
  cases hfound : hasConsensus (m.consensusQueue ++ [candidate adgdr t]) with
  | none => simp [hfound] at hpush
  | some found =>
    obtain ⟨found, queue'⟩ := found
    cases found with
    | false =>
      simp [hfound] at hpush
      obtain ⟨rfl, rfl⟩ := hpush
      rfl
    | true =>
      cases hget : getConsensus queue' with
      | none => simp [hfound, hget] at hpush
      | some got =>
        simp [hfound, hget] at hpush
        obtain ⟨rfl, rfl⟩ := hpush
        simp [hget]

theorem At.step (h : At adgdr t m) :
    At adgdr (t + 1) ((flexSensors adgdr).step m ()).1 ∧
      printed adgdr (t + 1) = printed adgdr t ++ ((flexSensors adgdr).step m ()).2 := by
  have hlast : stream adgdr (t + 1) = candidate adgdr t := rfl
  rw [printed_succ]
  by_cases hshort : t % 10 + 1 < 10
  · have hpush : pushCandidate consensusN m.consensusQueue (candidate adgdr t) =
        some (none, block 10 (stream adgdr) (t + 1)) := by
      rw [pushCandidate_short (by rw [h.queue, length_block]; exact hshort), h.queue, block_succ hshort, hlast]
    rw [h.step_push hpush, if_neg (by omega)]
    exact ⟨⟨rfl, rfl, rfl⟩, rfl⟩
  · have hfull : t % 10 + 1 = 10 := by omega
    have hlength : ¬m.consensusQueue.length + 1 < consensusN := by rwa [h.queue, length_block]
    have hblock : block 10 (stream adgdr) (t + 1) = [] := block_of_dvd ((dvd_succ_iff (by decide)).mpr hfull)
    rw [if_pos hfull, blockResult_eq hfull]
    by_cases hall : ∀ x ∈ block 10 (stream adgdr) t, x = candidate adgdr t
    · have hpush := pushCandidate_agree hlength (h.queue ▸ hall)
      rw [h.step_push hpush, if_pos hall]
      exact ⟨⟨rfl, rfl, hblock.symm⟩, rfl⟩
    · have hpush := pushCandidate_differ hlength (h.queue ▸ hall)
      rw [h.step_push hpush, if_neg hall]
      exact ⟨⟨rfl, rfl, hblock.symm⟩, rfl⟩

end Step

theorem At.outputs {t : Nat} {m : Main} (h : At adgdr t m) (passes : List Unit) :
    printed adgdr (t + passes.length) = printed adgdr t ++ (flexSensors adgdr).outputs m passes := by
  induction passes generalizing t m with
  | nil => simp
  | cons u passes ih =>
    obtain ⟨hnext, hprinted⟩ := h.step
    have hrest := ih hnext
    rw [List.length_cons, Nat.add_comm passes.length 1, ← Nat.add_assoc, hrest, hprinted, outputs_cons, List.append_assoc]

/-- Over every run, what is printed are the candidates of the blocks of ten passes that agree. Each candidate is the first
    key of the table with the least score: its distance to six of the seven samples of the pass, cut to an integer. -/
theorem flexSensors_prints (adgdr : Nat → BitVec 32) (memory : SensorReading) (passes : List Unit) :
    (flexSensors adgdr).outputs (Main.init memory) passes =
        (List.range (passes.length / 10)).filterMap (blockResult adgdr) ∧
      (∀ p, ∃ k, Nearest.IsFirstLeast (distanceFromKey · (sampled adgdr p)) keys k ∧ candidate adgdr p = k.key) ∧
      ∀ pos r, (poll adgdr pos r).res = 1 ∧ (poll adgdr pos r).next = pos + 7 ∧
        (poll adgdr pos r).channels = adcChannels.map some ++ [none] := by
  have hinit : At adgdr 0 (Main.init memory) := ⟨rfl, rfl, block_zero.symm⟩
  have houtputs := hinit.outputs passes
  refine ⟨?_, candidate_firstLeast adgdr, fun pos r => by rw [poll_eq]; exact ⟨rfl, rfl, rfl⟩⟩
  rw [Nat.zero_add] at houtputs
  exact houtputs.symm

end Glove.FlexSensors
