/-
How `S3CopyObjectAction` copies an object in parts.

Each part has a copier of its own, and a bounded number of them run at a time.  The action starts a
first batch in a loop and every part after it from the success callback of another.  A copier reports
once, by one of two callbacks.

A callback may come while `copy_part_fragment` is still being called, as it does when the first read of
a part fails to start.  So starting a copy is not one step: `Control` says which copy is being started
and whether that is in the loop of `copy_fragments`, and the events are the callbacks and the return
of the call.  Only the copy that is being started can call back then.  When its call returns, the
callbacks that have led to it return as well, since they do nothing more.

The vector of copiers is indexed without a check.  Where the code would follow a null pointer or read
past the end of the vector, the machine has crashed.

Four fields are not in the source and no code reads them: which parts were started, which were copied,
which failed, and what has happened that ought not to (`Fault`).
-/
import CortxS3.Basic
import CortxS3.Lib.Runs

namespace CortxS3

namespace S3CopyObjectAction

/-- `MAX_FRAGMENTS_WITHOUT_WHITESPACE`. -/
def maxFragmentsWithoutWhitespace : Nat := 4

/-- `MAX_PART_SIZE_WITHOUT_WHITESPACE`. -/
def maxPartSizeWithoutWhitespace : Nat := 10485760

structure Config where
  /-- `MAX_PARALLEL_COPY`. -/
  maxParallelCopy : Nat
  totalObjects : Nat
  maxPartSize : Nat
deriving DecidableEq

/-- `max_parallel_copy`, after `copy_one_or_more_objects`. -/
def Config.parallel (c : Config) : Nat :=
  if c.maxParallelCopy > c.totalObjects then c.totalObjects else c.maxParallelCopy

/-- The client is kept waiting with white space. -/
def Config.startsResponse (c : Config) : Bool :=
  c.totalObjects > maxFragmentsWithoutWhitespace || c.maxPartSize > maxPartSizeWithoutWhitespace

/-- The values of `s3_put_action_state` that the callbacks set. -/
inductive S3PutObjectActionState where
  | newObjOidCreated
  | writeComplete
  | writeFailed
deriving DecidableEq

/-- What ought not to happen. -/
inductive Fault where
  | copyStartedAfterFailure
  | endedWithCopyInFlight
  | startResponseAfterResponse
deriving DecidableEq

/-- Where the action stands. -/
inductive Control where
  /-- It waits for a callback. -/
  | idle
  /-- It is at position `loop` of the loop in `copy_fragments`, or in a callback from the event loop,
  and the copy of `starting` is being started. -/
  | running (loop : Option Nat) (starting : Option Nat)
  | crashed
deriving DecidableEq

structure State where
  control : Control
  /-- `fragment_data_copier_list`; a copier that was reset is `false`. -/
  copiers : List Bool := []
  actionState : S3PutObjectActionState := .newObjOidCreated
  partsFragmentCopiedOrFailed : Int := 0
  partsFrgCopyInFlightCopiedOrFailed : Int
  partsFrgCopyInFlight : Int
  responseStarted : Bool := false
  /-- How often `next` was called. -/
  nextCalls : Nat := 0
  /-- How often `send_response_to_s3_client` was called. -/
  responses : Nat := 0
  started : List Nat := []
  copied : List Nat := []
  failed : List Nat := []
  faults : List Fault := []
deriving DecidableEq

/-- How many copies are running. -/
def State.inFlight (s : State) : Nat := s.copiers.count true

def State.note (s : State) (bad : Bool) (f : Fault) : State :=
  if bad then { s with faults := s.faults ++ [f] } else s

section Steps

variable (c : Config)

/-- The call of `copy_each_part_fragment`, at `loop`, up to where the copy may call back. -/
def copyEachPartFragment (s : State) (loop : Option Nat) (index : Nat) : State :=
  let copiers := s.copiers ++ [true]
  if copiers[index]? = some true then
    { s.note (s.actionState = .writeFailed) .copyStartedAfterFailure with
      copiers := copiers
      started := s.started ++ [index]
      control := .running loop (some index) }
  else { s with copiers := copiers, control := .crashed }

def next (s : State) : State :=
  { s.note (s.inFlight ≠ 0) .endedWithCopyInFlight with nextCalls := s.nextCalls + 1 }

/-- `send_response_to_s3_client`. -/
def sendResponseToS3Client (s : State) : State :=
  { s.note (s.inFlight ≠ 0) .endedWithCopyInFlight with responses := s.responses + 1 }

def startResponse (s : State) : State :=
  { s.note (s.responses ≠ 0) .startResponseAfterResponse with responseStarted := true }

def copyPartFragmentSuccess (s : State) (loop : Option Nat) (index : Nat) : State :=
  let s := { s with
    control := .running loop none
    copiers := s.copiers.set index false
    copied := s.copied ++ [index]
    partsFrgCopyInFlight := s.partsFrgCopyInFlight - 1
    partsFragmentCopiedOrFailed := s.partsFragmentCopiedOrFailed + 1 }
  if s.actionState = .writeFailed then
    if (c.totalObjects : Int) = s.partsFragmentCopiedOrFailed ∨ s.partsFrgCopyInFlight = 0 then
      sendResponseToS3Client s
    else s
  else if (c.totalObjects : Int) = s.partsFragmentCopiedOrFailed then
    next { s with actionState := .writeComplete }
  else if s.partsFrgCopyInFlightCopiedOrFailed < c.totalObjects ∧
      s.partsFrgCopyInFlight < c.parallel then
    let s := { s with
      partsFrgCopyInFlightCopiedOrFailed := s.partsFrgCopyInFlightCopiedOrFailed + 1
      partsFrgCopyInFlight := s.partsFrgCopyInFlight + 1 }
    copyEachPartFragment s loop (s.partsFrgCopyInFlightCopiedOrFailed - 1).toNat
  else s

/-- The other copiers are told to give up, which changes nothing here. -/
def copyPartFragmentFailed (s : State) (loop : Option Nat) (index : Nat) : State :=
  let s := { s with
    control := .running loop none
    actionState := .writeFailed
    copiers := s.copiers.set index false
    failed := s.failed ++ [index]
    partsFrgCopyInFlight := s.partsFrgCopyInFlight - 1
    partsFragmentCopiedOrFailed := s.partsFragmentCopiedOrFailed + 1 }
  if (c.totalObjects : Int) = s.partsFragmentCopiedOrFailed ∨ s.partsFrgCopyInFlight = 0 then
    sendResponseToS3Client s
  else s

inductive Event where
  | success (index : Nat)
  | failed (index : Nat)
  /-- The call that has started a copy returns. -/
  | return
deriving DecidableEq

/-- A callback of the copy of `index`. -/
def callback (s : State) (loop : Option Nat) : Event → Option State
  | .success index => some (copyPartFragmentSuccess c s loop index)
  | .failed index => some (copyPartFragmentFailed c s loop index)
  | .return => none

/-- The call returns to the loop of `copy_fragments`, or to the event loop. -/
def onReturn (s : State) : Option Nat → State
  | none => { s with control := .idle }
  | some i =>
    if i + 1 < c.parallel then copyEachPartFragment s (some (i + 1)) (i + 1)
    else if c.startsResponse then { startResponse s with control := .idle }
    else { s with control := .idle }

def Event.index : Event → Option Nat
  | .success index => some index
  | .failed index => some index
  | .return => none

def step (s : State) (e : Event) : Option State :=
  match s.control with
  | .idle =>
    match e.index with
    | some index => if s.copiers[index]? = some true then callback c s none e else none
    | none => none
  | .running loop starting =>
    match e.index with
    | some index => if starting = some index then callback c s loop e else none
    | none => some (onReturn c s loop)
  | .crashed => none

/-- `copy_fragments`, up to where the first copy may call back. -/
def start : State :=
  copyEachPartFragment
    { control := .idle
      partsFrgCopyInFlightCopiedOrFailed := c.parallel
      partsFrgCopyInFlight := c.parallel } (some 0) 0

end Steps

end S3CopyObjectAction

end CortxS3
