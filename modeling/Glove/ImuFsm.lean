import Mathlib.Data.List.Basic

/-! # The Mealy machine of the glove (`imu_fsm.h`, `imu_fsm.cpp`)

A handler reads and writes the instance data it is passed and the two globals `prev_key` and
`repeated`, and returns the next state. The handlers print nothing that leaves the glove, so `printf`
and `wait_ms` do not appear. -/

namespace Glove.ImuFsm

/-- `state_t`, in the order of the enumeration. -/
inductive State
  | stateDefault
  | stateWaitGq
  | stateWaitIj
  | fnLayerActive
  | stateWait5
  | stateWaitA
  | stateWaitSxt
  | stateWaitCo
  | stateWaitHu
  | stateWaitPk
  | stateWaitDz
  deriving DecidableEq

inductive Event
  | gestureIn
  | motionIn
  | timeoutIn
  | keyOut
  | noop
  deriving DecidableEq

structure InstanceData where
  event : Event
  key : Char
  aux : Char
  deriving DecidableEq

/-- What a handler reads and writes: the instance data and the globals of `imu_fsm.cpp`. -/
structure Vars where
  data : InstanceData
  prevKey : Char
  repeated : Bool
  deriving DecidableEq

namespace Vars

def setEvent (v : Vars) (event : Event) : Vars := { v with data := { v.data with event } }

def setKey (v : Vars) (key : Char) : Vars := { v with data := { v.data with key } }

def setAux (v : Vars) (aux : Char) : Vars := { v with data := { v.data with aux } }

end Vars

def digits : List Char := ['0', '1', '2', '3', '4', '5', '6', '7', '8', '9']

/-- Sends `set` and remembers `prev`, unless `prev` is what `prev_key` already holds. -/
def checkPrevKeyAndSetAnother (v : Vars) (set prev : Char) : Vars :=
  if v.prevKey = prev then v.setEvent .noop
  else { (v.setEvent .keyOut).setKey set with prevKey := prev }

def checkPrevKeyAndSet (v : Vars) (key : Char) : Vars := checkPrevKeyAndSetAnother v key key

def doStateDefault (v : Vars) : State × Vars :=
  if v.data.event = .gestureIn then
    let gesture := v.data.key
    let v := v.setEvent .noop
    match gesture with
    | 'a' => (.stateWaitA, v)
    | '5' => (.stateWait5, v)
    | 'g' => (.stateWaitGq, v)
    | 'd' => (.stateWaitDz, v)
    | 'z' => (.stateWaitDz, v)
    | 'q' => (.stateWaitGq, v)
    | 'i' => (.stateWaitIj, v)
    | 'j' => (.stateWaitIj, v)
    | 'm' => (.stateWaitSxt, v.setAux 'm')
    | 'n' => (.stateWaitSxt, v.setAux 'n')
    | 's' => (.stateWaitSxt, v.setAux 'n')
    | 'x' => (.stateWaitSxt, v.setAux 'n')
    | 't' => (.stateWaitSxt, v.setAux 'n')
    | 'c' => (.stateWaitCo, v)
    | 'o' => (.stateWaitCo, v)
    | 'h' => (.stateWaitHu, v)
    | 'u' => (.stateWaitHu, v)
    | 'p' => (.stateWaitPk, v)
    | 'k' => (.stateWaitPk, v)
    | _ =>
      -- Digits are in the function layer.
      if gesture ∈ digits then (.stateDefault, v)
      else (.stateDefault, checkPrevKeyAndSet v v.data.key)
  else (.stateDefault, v)

def doStateWaitGq (v : Vars) : State × Vars :=
  if v.data.event = .motionIn then
    let motion := v.data.key
    if motion = 'y' then (.stateDefault, checkPrevKeyAndSet v 'g')
    else if motion = 'Z' then (.stateDefault, checkPrevKeyAndSet v 'q')
    else (.stateDefault, v)
  else (.stateDefault, v)

def doStateWaitDz (v : Vars) : State × Vars :=
  if v.data.event = .motionIn then
    let motion := v.data.key
    if motion = 'X' then (.stateDefault, checkPrevKeyAndSet v 'd')
    else if motion = 'y' then (.stateDefault, checkPrevKeyAndSet v 'z')
    else (.stateDefault, v)
  else (.stateDefault, v)

def doStateWaitIj (v : Vars) : State × Vars :=
  if v.data.event = .motionIn then
    let motion := v.data.key
    if motion = 'g' then (.stateDefault, checkPrevKeyAndSet v 'j')
    else if motion = 'X' then (.stateDefault, checkPrevKeyAndSet v 'i')
    else (.stateDefault, v)
  else (.stateDefault, v)

def doStateFn (v : Vars) : State × Vars :=
  if v.data.event = .gestureIn then
    let gesture := v.data.key
    match gesture with
    | 'g' => (.stateDefault, checkPrevKeyAndSetAnother v '1' 'g')
    | '1' => (.stateDefault, checkPrevKeyAndSetAnother v '1' '1')
    | 'd' => (.stateDefault, checkPrevKeyAndSetAnother v '1' 'd')
    | 'z' => (.stateDefault, checkPrevKeyAndSetAnother v '1' 'z')
    | 'q' => (.stateDefault, checkPrevKeyAndSetAnother v '1' 'q')
    | 'u' => (.stateDefault, checkPrevKeyAndSetAnother v '2' 'u')
    | 'v' => (.stateDefault, checkPrevKeyAndSetAnother v '2' 'v')
    | 'k' => (.stateDefault, checkPrevKeyAndSetAnother v '2' 'k')
    | 'h' => (.stateDefault, checkPrevKeyAndSetAnother v '2' 'h')
    | '3' => (.stateDefault, checkPrevKeyAndSetAnother v '3' '3')
    | 'b' => (.stateDefault, checkPrevKeyAndSetAnother v '4' 'b')
    | '5' => (.stateDefault, checkPrevKeyAndSetAnother v '5' '5')
    | 'w' => (.stateDefault, checkPrevKeyAndSetAnother v '6' 'w')
    | '7' => (.stateDefault, checkPrevKeyAndSetAnother v '7' '7')
    | '8' => (.stateDefault, checkPrevKeyAndSetAnother v '8' '8')
    | 'f' => (.stateDefault, checkPrevKeyAndSetAnother v '9' 'f')
    | _ => (.fnLayerActive, v.setEvent .noop)
  else (.stateDefault, v)

def doStateWait5 (v : Vars) : State × Vars :=
  if v.data.event = .motionIn then
    let motion := v.data.key
    if motion = 'y' then
      -- REPEAT: every other one is swallowed.
      if v.repeated then (.stateDefault, { v.setEvent .noop with repeated := false })
      else (.stateDefault, { (v.setEvent .keyOut).setKey v.prevKey with repeated := true })
    else if motion = 'z' then (.stateDefault, checkPrevKeyAndSet v '\x20')
    else if motion = 'Z' then (.stateDefault, (v.setEvent .keyOut).setKey '!')
    else (.stateDefault, { v.setEvent .noop with prevKey := '.' })
  else (.stateDefault, v)

def doStateWaitA (v : Vars) : State × Vars :=
  if v.data.event = .motionIn then
    let motion := v.data.key
    if motion = 'Z' then (.fnLayerActive, v.setEvent .noop)
    else if motion = 'X' then (.stateDefault, checkPrevKeyAndSet v 'a')
    else if motion = 'y' then (.stateDefault, checkPrevKeyAndSet v '\x0f')
    else (.stateDefault, v)
  else (.stateDefault, v)

def doStateWaitSxt (v : Vars) : State × Vars :=
  if v.data.event = .motionIn then
    let motion := v.data.key
    if motion = 'Z' then (.stateDefault, checkPrevKeyAndSet v 'x')
    else if motion = 'y' then (.stateDefault, checkPrevKeyAndSet v 't')
    else if motion = 'Y' then (.stateDefault, checkPrevKeyAndSet v 's')
    -- m or n, depending on what caused this state.
    else (.stateDefault, checkPrevKeyAndSet v v.data.aux)
  else (.stateDefault, v)

def doStateWaitCo (v : Vars) : State × Vars :=
  if v.data.event = .motionIn then
    let motion := v.data.key
    if motion = 'Z' then (.stateDefault, checkPrevKeyAndSet v 'o')
    else (.stateDefault, checkPrevKeyAndSet v 'c')
  else (.stateDefault, v)

def doStateWaitHu (v : Vars) : State × Vars :=
  if v.data.event = .motionIn then
    let motion := v.data.key
    if motion = 'y' then (.stateDefault, checkPrevKeyAndSet v 'h')
    else (.stateDefault, checkPrevKeyAndSet v 'u')
  else (.stateDefault, v)

def doStateWaitPk (v : Vars) : State × Vars :=
  if v.data.event = .motionIn then
    let motion := v.data.key
    if motion = 'Z' then (.stateDefault, checkPrevKeyAndSet v 'p')
    else (.stateDefault, checkPrevKeyAndSet v 'k')
  else (.stateDefault, v)

/-- `state_table`: one handler a state, in the order of `state_t`. -/
def stateTable : List (Vars → State × Vars) :=
  [doStateDefault,
    doStateWaitGq, doStateWaitIj,
    doStateFn,
    doStateWait5, doStateWaitA,
    doStateWaitSxt, doStateWaitCo,
    doStateWaitHu, doStateWaitPk,
    doStateWaitDz]

def State.index : State → Fin stateTable.length
  | .stateDefault => ⟨0, by decide⟩
  | .stateWaitGq => ⟨1, by decide⟩
  | .stateWaitIj => ⟨2, by decide⟩
  | .fnLayerActive => ⟨3, by decide⟩
  | .stateWait5 => ⟨4, by decide⟩
  | .stateWaitA => ⟨5, by decide⟩
  | .stateWaitSxt => ⟨6, by decide⟩
  | .stateWaitCo => ⟨7, by decide⟩
  | .stateWaitHu => ⟨8, by decide⟩
  | .stateWaitPk => ⟨9, by decide⟩
  | .stateWaitDz => ⟨10, by decide⟩

def runState (curState : State) (v : Vars) : State × Vars := stateTable.get curState.index v

end Glove.ImuFsm
