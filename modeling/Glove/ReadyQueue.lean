import Mathlib.Data.List.Sort
import Mathlib.Data.Fintype.Basic
import Glove.Lib.LinkedList

/-! # The ready queue of nano-RK (`nrk_task.cpp`, `nrk_task.h`, `nrk.cpp`)

The kernel that `Simple Tasks` and `flexSensors` link. Its tasks that are ready stand in a doubly linked list by
priority; the cells of the array `_nrk_readyQ` that hold none are in a list of their own. -/

namespace Glove.Nrk

/-- `NRK_MAX_TASKS`. -/
abbrev maxTasks : Nat := 10

/-- An index into `nrk_task_TCB`. -/
abbrev TaskId := Fin maxTasks

/-- `NRK_IDLE_TASK_ID`. -/
abbrev idleTaskID : TaskId := 0

/-- What C leaves undefined. The last is the loop over a list whose links do not lead to its end. -/
inductive Fault
  | nullPointer
  | divisionByZero
  | outOfBounds
  | endlessLoop
  deriving DecidableEq, Repr

/-! ## Task control blocks -/

/-- The values of `task_state`. -/
inductive TaskState
  | running
  | waiting
  | ready
  | suspended
  | finished
  | eventSuspended
  deriving DecidableEq, Repr

/-- `NRK_TCB`, zero where nothing is given. A `task_ID` of -1 is `none`. -/
structure Tcb where
  elevatedPrioFlag : Bool := false
  suspendFlag : Bool := false
  nwFlag : Bool := false
  eventSuspend : Nat := 0
  taskID : Option TaskId := none
  taskState : TaskState := .running
  taskPrio : Nat := 0
  taskPrioCeil : Nat := 0
  registeredSignalMask : BitVec 32 := 0
  activeSignalMask : BitVec 32 := 0
  nextWakeup : Nat := 0
  nextPeriod : Nat := 0
  cpuRemaining : Nat := 0
  period : Nat := 0
  cpuReserve : Nat := 0
  numPeriods : Nat := 0
  deriving DecidableEq

/-- `nrk_task_TCB`. -/
abbrev TcbTable := TaskId → Tcb

/-! ## The queue -/

abbrev NodeRef := Fin (maxTasks + 1)

/-- `_nrk_readyQ`, `_head_node` and `_free_node`. -/
structure ReadyQ where
  nodes : Cells NodeRef TaskId
  headNode : Option NodeRef
  freeNode : Option NodeRef

/-- The queue that `nrk_init` sets up: every cell is free. -/
def ReadyQ.init : ReadyQ where
  nodes :=
    ⟨fun i =>
      { value := idleTaskID
        prev := if i = 0 then none else some (i - 1)
        next := if i = Fin.last maxTasks then none else some (i + 1) }⟩
  headNode := none
  freeNode := some 0

/-- Reading through a pointer. -/
def deref (p : Option NodeRef) : Except Fault NodeRef :=
  match p with
  | some i => .ok i
  | none => .error .nullPointer

/-- A loop over the list. A list without a cycle has at most as many cells as there are. -/
def search (nodes : Cells NodeRef TaskId) (stop : TaskId → Bool) (start : Option NodeRef) :
    Except Fault (Option NodeRef) :=
  match nodes.seek stop (maxTasks + 1) start with
  | some found => .ok found
  | none => .error .endlessLoop

/-- Where the loop of `nrk_add_to_readyQ` breaks: `task` goes in front of `next`. -/
def outranks (tcb : TcbTable) (task next : TaskId) : Bool :=
  ((tcb next).elevatedPrioFlag && (tcb next).taskPrioCeil < (tcb task).taskPrio) ||
    ((tcb task).elevatedPrioFlag && (tcb next).taskPrio < (tcb task).taskPrioCeil) ||
    (tcb next).taskPrio < (tcb task).taskPrio

/-- `nrk_add_to_readyQ` from where its loop ends: the free cell `cur` goes in front of `next`. -/
def insertNode (task : TaskId) (cur : NodeRef) (next : Option NodeRef) (q : ReadyQ) : Except Fault ReadyQ :=
  let nodes := q.nodes.setValue cur task
  let free := (nodes cur).next
  if next = q.headNode then
    match q.headNode with
    | some head =>
      .ok { nodes := ((nodes.setNext cur (some head)).setPrev cur none).setPrev head (some cur)
            headNode := some cur
            freeNode := free }
    | none => do
      let f ← deref free
      .ok { nodes := ((nodes.setNext cur none).setPrev cur none).setPrev f (some cur)
            headNode := some cur
            freeNode := free }
  else if next ≠ free then do
    let n ← deref next
    let nodes := (nodes.setPrev cur (nodes n).prev).setNext cur (some n)
    let p ← deref (nodes n).prev
    .ok { nodes := (nodes.setNext p (some cur)).setPrev n (some cur)
          headNode := q.headNode
          freeNode := free }
  else do
    let f ← deref free
    .ok { nodes := ((nodes.setNext cur none).setPrev cur (nodes f).prev).setPrev f (some cur)
          headNode := q.headNode
          freeNode := free }

/-- `nrk_add_to_readyQ`. -/
def addToReadyQ (tcb : TcbTable) (task : TaskId) (q : ReadyQ) : Except Fault ReadyQ :=
  match q.freeNode with
  | none => .ok q
  | some cur => do
    let next ← search q.nodes (outranks tcb task) q.headNode
    insertNode task cur next q

/-- The end of `nrk_rem_from_readyQ`: the cell goes to the front of the free ones. -/
def ReadyQ.release (q : ReadyQ) (cur : NodeRef) : ReadyQ :=
  let nodes :=
    match q.freeNode with
    | none => q.nodes.setNext cur none
    | some free => (q.nodes.setNext cur (some free)).setPrev free (some cur)
  { q with nodes := nodes.setPrev cur none, freeNode := some cur }

/-- `nrk_rem_from_readyQ` where the cell is not the head: its neighbours are linked to each other. -/
def unlinkNode (cur : NodeRef) (q : ReadyQ) : Except Fault ReadyQ := do
  let p ← deref (q.nodes cur).prev
  let nodes := q.nodes.setNext p (q.nodes cur).next
  match (nodes cur).next with
  | none => .ok (ReadyQ.release { q with nodes := nodes } cur)
  | some n => .ok (ReadyQ.release { q with nodes := nodes.setPrev n (nodes cur).prev } cur)

/-- `nrk_rem_from_readyQ`. -/
def remFromReadyQ (task : Option TaskId) (q : ReadyQ) : Except Fault ReadyQ :=
  match q.headNode with
  | none => .ok q
  | some head =>
    if some (q.nodes head).value = task then do
      let second ← deref (q.nodes head).next
      .ok (ReadyQ.release { q with nodes := q.nodes.setPrev second none, headNode := some second } head)
    else do
      let found ← search q.nodes (fun t => some t = task) (some head)
      match found with
      | none => .ok q
      | some cur => unlinkNode cur q

/-- `nrk_get_high_ready_task_ID`. -/
def getHighReadyTaskID (q : ReadyQ) : Except Fault TaskId := do
  let head ← deref q.headNode
  return (q.nodes head).value

/-! ## Runs of the queue -/

/-- A call, with the table of tasks as it is then. -/
inductive QueueOp
  | add (tcb : TcbTable) (task : TaskId)
  | rem (task : TaskId)

def QueueOp.exec (q : ReadyQ) : QueueOp → Except Fault ReadyQ
  | .add tcb task => addToReadyQ tcb task q
  | .rem task => remFromReadyQ (some task) q

/-- What the queue is for. A task goes in front of the first one that it outranks. The code cannot put it last behind
    others, nor take out the only one. -/
def QueueOp.spec (ts : List TaskId) : QueueOp → Except Fault (List TaskId)
  | .add tcb task =>
    if ts.length = maxTasks + 1 then .ok ts
    else if ts = [] ∨ ∃ t ∈ ts, outranks tcb task t then .ok (ts.orderedInsert (fun a b => outranks tcb a b) task)
    else .error .nullPointer
  | .rem task => if ts = [task] then .error .nullPointer else .ok (ts.erase task)

end Glove.Nrk
