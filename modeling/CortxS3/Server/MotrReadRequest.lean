/-
A read request of `S3MotrReader`, from the call of `read_object_data` to the handlers of its caller.

The object is opened first when it is not open.  An operation that Motr does not take is reported twice
over: the function that launches it returns an error, and `s3_motr_op_pre_launch_failure` posts an
event to the main loop, which runs the handler of the operation as if it had failed later.

The buffers, the offset and the checksums are those of `S3MotrReader` elsewhere; here a read only comes
to an end in one way or another.  A reader has one operation at a time, which was launched or whose
failure was posted.
-/
import CortxS3.Lib.Runs

namespace CortxS3

namespace MotrReadRequest

inductive S3MotrReaderOpState where
  | start
  | failedToLaunch
  | failed
  | reading
  | success
  | missing
  | ooo
deriving DecidableEq

/-- The handlers of the caller. -/
inductive Notification where
  | onSuccess
  | onFailed
deriving DecidableEq

/-- What the reader waits for: an operation, or an event with the error that an operation was given. -/
inductive Pending where
  | opening
  | openFailurePosted (rc : Int)
  | readingData
  | readFailurePosted (rc : Int)
deriving DecidableEq

/-- A reader between requests. -/
structure Reader where
  state : S3MotrReaderOpState
  isObjectOpened : Bool
deriving DecidableEq

structure State where
  state : S3MotrReaderOpState
  isObjectOpened : Bool
  pending : Option Pending := none
  /-- The handlers that have run, in order. -/
  notified : List Notification := []
deriving DecidableEq

/-- What a read finds when it is launched: whether `init_read_op_ctx` gets its memory, and what
`motr_obj_op` returns. -/
structure ReadLaunch where
  memory : Bool
  objOpRc : Int
deriving DecidableEq

/-- `-ENOENT`. -/
def enoent : Int := -2

def notify (n : Notification) (s : State) : State := { s with notified := s.notified ++ [n] }

def readObject (launch : ReadLaunch) (s : State) : Bool × State :=
  if !launch.memory then (false, { s with state := .ooo })
  else if launch.objOpRc ≠ 0 then
    (false, { s with
      state := .failedToLaunch
      pending := some (.readFailurePosted launch.objOpRc) })
  else (true, { s with pending := some .readingData })

/-- `open_object`, with what `motr_entity_open` returns. -/
def openObject (entityOpenRc : Int) (s : State) : Int × State :=
  let s := { s with isObjectOpened := false }
  if entityOpenRc ≠ 0 then
    (entityOpenRc, { s with
      state := .failedToLaunch
      pending := some (.openFailurePosted entityOpenRc) })
  else (0, { s with pending := some .opening })

def readObjectData (entityOpenRc : Int) (launch : ReadLaunch) (r : Reader) : Bool × State :=
  let s : State := { state := .reading, isObjectOpened := r.isObjectOpened }
  if s.isObjectOpened then readObject launch s
  else
    let (retcode, s) := openObject entityOpenRc s
    if retcode ≠ 0 then (false, notify .onFailed s)
    else (true, s)

def openObjectSuccessful (launch : ReadLaunch) (s : State) : State :=
  let s := { s with isObjectOpened := true }
  if s.state = .reading then
    let (launched, s) := readObject launch s
    if !launched then
      -- out of memory; a read that Motr does not take has its event
      if s.state ≠ .failedToLaunch then notify .onFailed s else s
    else s
  else notify .onSuccess s

def openObjectFailed (rc : Int) (s : State) : State :=
  let s :=
    if s.state ≠ .failedToLaunch then
      { s with
        isObjectOpened := false
        state := if rc = enoent then .missing else .failed }
    else s
  notify .onFailed s

/-- `read_object_successful`, with what `ValidateStoredChksum` finds. -/
def readObjectSuccessful (readDiCheckEnabled valid : Bool) (s : State) : State :=
  if readDiCheckEnabled && !valid then notify .onFailed { s with state := .failed }
  else notify .onSuccess { s with state := .success }

def readObjectFailed (rc : Int) (s : State) : State :=
  notify .onFailed { s with state := if rc = enoent then .missing else .failed }

/-- What comes from the main loop. -/
inductive Event where
  /-- The open is done, and what a read finds when it is launched now. -/
  | openDone (rc : Int) (launch : ReadLaunch)
  | readDone (rc : Int) (valid : Bool)
  /-- The event of `s3_motr_op_pre_launch_failure`. -/
  | posted
deriving DecidableEq

/-- `motr_op_done_on_main_thread`. -/
def step (readDiCheckEnabled : Bool) (s : State) : Event → Option State
  | .openDone rc launch =>
    if s.pending = some .opening then
      let s := { s with pending := none }
      if rc = 0 then some (openObjectSuccessful launch s) else some (openObjectFailed rc s)
    else none
  | .readDone rc valid =>
    if s.pending = some .readingData then
      let s := { s with pending := none }
      if rc = 0 then some (readObjectSuccessful readDiCheckEnabled valid s)
      else some (readObjectFailed rc s)
    else none
  | .posted =>
    match s.pending with
    | some (.openFailurePosted rc) => some (openObjectFailed rc { s with pending := none })
    | some (.readFailurePosted rc) => some (readObjectFailed rc { s with pending := none })
    | _ => none

end MotrReadRequest

end CortxS3
