/-
The copy of the data of one Motr object, `S3ObjectDataCopier`.

A read and a write may be under way at the same time, and what has been read waits in one place until
the write before it has ended.  The copier is told to give up, by `set_s3_copy_failed`, when the copy
of another part has failed.

The data are buffers of `size_of_ev_buffer` bytes, whatever the unit size of the source is; `source k`
is the content of its buffer `k`.

Besides the copier the state has what is under way in Motr.  A call that could not be launched is
reported a second time: `s3_motr_op_pre_launch_failure` posts the failure to the event loop.  For the
read that opens the source, `read_object_data` also calls the failure handler at once.  A read for
which there is no memory is not reported again.  Whether a call is launched comes with the event in
which it is made.

Asserts are compiled out of a production server, so one that fails is noted and the code runs on.
`check_shutdown_and_rollback`, by which a copy ends without a report, is left out.
-/
import CortxS3.Basic
import CortxS3.Lib.Runs

namespace CortxS3

namespace S3ObjectDataCopier

inductive S3ErrorCode where
  | InternalError
  | ServiceUnavailable
deriving DecidableEq

/-- What `read_object_data` comes to. -/
inductive ReadLaunch where
  | launched
  | failedToLaunch
  | outOfMemory
deriving DecidableEq

/-- What `write_content` comes to. -/
inductive WriteLaunch where
  | launched
  | failedToLaunch
deriving DecidableEq

structure Config (α : Type) where
  sizeOfEvBuffer : Nat
  motrUnitSize : Nat
  motrUnitsPerRequest : Nat
  objectSize : Nat
  source : Nat → α

structure State (α : Type) where
  copyStarted : Bool := false
  bytesLeftToRead : Nat := 0
  copyFailed : Bool := false
  readInProgress : Bool := false
  writeInProgress : Bool := false
  dataBlocksRead : List α := []
  /-- `p_evbuffer_read` and `p_evbuffer_write` are not null. -/
  evbufferRead : Bool := false
  evbufferWrite : Bool := false
  s3Error : Option S3ErrorCode := none
  /-- Of the reader: the source is open, and the first buffer of the next read. -/
  isObjectOpened : Bool := false
  lastIndex : Nat := 0
  /-- The read that is under way, with what it returns, and the write. -/
  reading : Option (List α) := none
  writing : Bool := false
  /-- Launch failures that have been posted. -/
  readReports : Nat := 0
  writeReports : Nat := 0
  /-- What was passed to `write_content`. -/
  written : List α := []
  /-- Calls of the two handlers, and whether one came while something was under way. -/
  successes : Nat := 0
  failures : Nat := 0
  endedBusy : Bool := false
  assertFailed : Bool := false

variable {α : Type} (c : Config α)

/-! ### Helpers -/

def assert (ok : Bool) (s : State α) : State α :=
  if ok then s else { s with assertFailed := true }

/-- Something is under way in Motr. -/
def State.busy (s : State α) : Bool := s.reading.isSome || s.writing

def onSuccess (s : State α) : State α :=
  { s with successes := s.successes + 1, endedBusy := s.endedBusy || s.busy }

def onFailure (s : State α) : State α :=
  { s with failures := s.failures + 1, endedBusy := s.endedBusy || s.busy }

/-- `n_blocks`. -/
def unitsToRead (bytesLeft : Nat) : Nat :=
  min c.motrUnitsPerRequest ((bytesLeft + c.motrUnitSize - 1) / c.motrUnitSize)

/-- How many buffers `init_read_op_ctx` makes for a number of units. -/
def buffersFor (units : Nat) : Nat :=
  (units * c.motrUnitSize + (c.sizeOfEvBuffer - 1)) / c.sizeOfEvBuffer

/-! ### Callbacks of failure -/

def readDataBlockFailed (code : S3ErrorCode) (s : State α) : State α :=
  let s := { assert s.readInProgress s with
    readInProgress := false
    copyFailed := true
    s3Error := some code }
  if s.writeInProgress then s else onFailure s

def writeDataBlockFailed (code : S3ErrorCode) (s : State α) : State α :=
  let s := { assert s.writeInProgress s with
    writeInProgress := false
    copyFailed := true
    s3Error := some code }
  if s.readInProgress then s else onFailure s

/-! ### Launching -/

/-- `read_object_data`: the state after it, and what it returns. -/
def readObjectData (launch : ReadLaunch) (units : Nat) (s : State α) : State α × Bool :=
  match launch with
  | .launched =>
    let n := buffersFor c units
    ({ s with
      reading := some ((List.range n).map fun k => c.source (s.lastIndex + k))
      lastIndex := s.lastIndex + n }, true)
  | .failedToLaunch =>
    if s.isObjectOpened then ({ s with readReports := s.readReports + 1 }, false)
    else
      (readDataBlockFailed .ServiceUnavailable { s with readReports := s.readReports + 1 }, false)
  | .outOfMemory => (s, false)

def readDataBlock (launch : ReadLaunch) (s : State α) : State α :=
  let s := assert (!s.readInProgress) s
  let s := assert s.dataBlocksRead.isEmpty s
  let s := assert (!s.evbufferRead) s
  let s := assert (0 < s.bytesLeftToRead) s
  match readObjectData c launch (unitsToRead c s.bytesLeftToRead) s with
  | (s, true) => { s with readInProgress := true }
  | (s, false) =>
    let s := { s with
      copyFailed := true
      s3Error := some (if launch = .failedToLaunch then .ServiceUnavailable else .InternalError) }
    if s.writeInProgress then s else onFailure s

def writeDataBlock (launch : WriteLaunch) (s : State α) : State α :=
  let s := assert (!s.writeInProgress) s
  let s := assert (!s.dataBlocksRead.isEmpty) s
  let s := assert s.evbufferRead s
  let s := assert (!s.evbufferWrite) s
  let s := { s with
    evbufferWrite := s.evbufferRead
    evbufferRead := false
    written := s.written ++ s.dataBlocksRead
    dataBlocksRead := [] }
  match launch with
  | .launched => { s with writing := true, writeInProgress := true }
  | .failedToLaunch =>
    let s := { s with
      writeReports := s.writeReports + 1
      copyFailed := true
      s3Error := some .ServiceUnavailable }
    if s.readInProgress then s else onFailure s

/-! ### Callbacks of success -/

/-- `read_data_block_success`, for what the read has returned. -/
def readDataBlockSuccess (blocks : List α) (rl : ReadLaunch) (wl : WriteLaunch) (s : State α) :
    State α :=
  let s := { assert s.readInProgress s with readInProgress := false }
  if s.copyFailed then onFailure (assert (!s.writeInProgress) s)
  else
    let s := { assert s.dataBlocksRead.isEmpty s with dataBlocksRead := blocks }
    let s := { assert (!s.evbufferRead) s with evbufferRead := true }
    if s.dataBlocksRead.isEmpty then
      let s := { s with copyFailed := true, s3Error := some .InternalError }
      if s.writeInProgress then s else onFailure s
    else
      let s := { s with bytesLeftToRead := s.bytesLeftToRead - blocks.length * c.sizeOfEvBuffer }
      if s.writeInProgress then s
      else
        let s := writeDataBlock wl s
        if s.writeInProgress && s.bytesLeftToRead ≠ 0 then
          let s := assert s.dataBlocksRead.isEmpty s
          let s := assert (!s.evbufferRead) s
          readDataBlock c rl s
        else s

/-- The end of `write_data_block_success`. -/
def readOn (rl : ReadLaunch) (s : State α) : State α :=
  let s := assert (!s.copyFailed) s
  let s := assert s.dataBlocksRead.isEmpty s
  if s.bytesLeftToRead ≠ 0 then
    if s.readInProgress then s else readDataBlock c rl s
  else if s.writeInProgress then s
  else onSuccess s

def writeDataBlockSuccess (rl : ReadLaunch) (wl : WriteLaunch) (s : State α) : State α :=
  let s := { assert s.evbufferWrite s with evbufferWrite := false }
  let s := { assert s.writeInProgress s with writeInProgress := false }
  if s.copyFailed then onFailure (assert (!s.readInProgress) s)
  else if s.dataBlocksRead.isEmpty then readOn c rl s
  else
    let s := writeDataBlock wl s
    if s.copyFailed then s else readOn c rl s

/-! ### The machine -/

inductive Event where
  | copy (rl : ReadLaunch)
  | readSuccess (rl : ReadLaunch) (wl : WriteLaunch)
  | readFailed
  /-- A posted launch failure of a read, after which the state of the reader gives `code`. -/
  | readReport (code : S3ErrorCode)
  | writeSuccess (rl : ReadLaunch) (wl : WriteLaunch)
  | writeFailed
  | writeReport (code : S3ErrorCode)
  | setS3CopyFailed
deriving DecidableEq

def copy (rl : ReadLaunch) (s : State α) : State α :=
  readDataBlock c rl { s with
    copyStarted := true
    bytesLeftToRead := c.objectSize
    copyFailed := false
    readInProgress := false
    writeInProgress := false }

def step (s : State α) : Event → Option (State α)
  | .copy rl => if s.copyStarted then none else some (copy c rl s)
  | .readSuccess rl wl =>
    s.reading.map fun blocks =>
      readDataBlockSuccess c blocks rl wl { s with reading := none, isObjectOpened := true }
  | .readFailed =>
    if s.reading.isSome then some (readDataBlockFailed .InternalError { s with reading := none })
    else none
  | .readReport code =>
    if s.readReports ≠ 0 then
      some (readDataBlockFailed code { s with readReports := s.readReports - 1 })
    else none
  | .writeSuccess rl wl =>
    if s.writing then some (writeDataBlockSuccess c rl wl { s with writing := false })
    else none
  | .writeFailed =>
    if s.writing then some (writeDataBlockFailed .InternalError { s with writing := false })
    else none
  | .writeReport code =>
    if s.writeReports ≠ 0 then
      some (writeDataBlockFailed code { s with writeReports := s.writeReports - 1 })
    else none
  | .setS3CopyFailed => some { s with copyFailed := true }

def start : State α := {}

end S3ObjectDataCopier

end CortxS3
