import Mathlib.Data.List.Basic

/-! # The consensus queue (`consensus.h`; `flexSensors/main.cpp` has a copy)

The queue of candidates is a list, oldest first. Reading `consensus_queue[0]` of an empty queue is
undefined in the source, so the functions that read it are partial here. -/

namespace Glove.Consensus
variable {α : Type} [DecidableEq α]

/-- `CONSENSUS_N` of the glove. -/
def consensusN : Nat := 4

/-- The loop of `emptyQueue`, of at most `fuel` passes. -/
def popLoop : Nat → List α → List α
  | 0, queue => queue
  | fuel + 1, queue => if queue.length > 0 then popLoop fuel queue.dropLast else queue

/-- Pops until the queue is empty, one element a pass. -/
def emptyQueue (queue : List α) : List α := popLoop queue.length queue

/-- The answer, and the queue afterwards: cleared when the candidates disagree. -/
def hasConsensusOrClear (n : Nat) (queue : List α) : Option (Bool × List α) :=
  if queue.length < n then some (false, queue)
  else
    match queue with
    | [] => none
    | candidate :: rest =>
      if rest.any (· != candidate) then some (false, emptyQueue queue) else some (true, queue)

/-- The consensus value, and the cleared queue. -/
def getConsensusAndClear (queue : List α) : Option (α × List α) :=
  match queue with
  | [] => none
  | consensus :: _ => some (consensus, emptyQueue queue)

/-- The main loop's use of the queue: push a candidate, then take the consensus if there is one.
    `none` means that an empty queue was read. -/
def pushCandidate (n : Nat) (queue : List α) (candidate : α) : Option (Option α × List α) := do
  let (found, queue) ← hasConsensusOrClear n (queue ++ [candidate])
  if found then
    let (consensus, queue) ← getConsensusAndClear queue
    return (some consensus, queue)
  else return (none, queue)

end Glove.Consensus

namespace Glove.FlexSensors
open Consensus
variable {α : Type} [DecidableEq α]

/-- `CONSENSUS_N` of the flexSensors build. -/
def consensusN : Nat := 10

def hasConsensus (queue : List α) : Option (Bool × List α) := hasConsensusOrClear consensusN queue

def getConsensus (queue : List α) : Option (α × List α) := getConsensusAndClear queue

end Glove.FlexSensors
