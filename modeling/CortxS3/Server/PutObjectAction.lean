/-
The upload of an object in one piece, `S3PutObjectAction`: how the body gets into Motr.

The action works through a list of tasks.  It loads metadata, creates a Motr object, notes it in the
probable-delete index, streams the body into it, saves the metadata and answers the client.  Then, or
when something has failed, a list of cleanup tasks takes the place of the first one.

Each task launches a call of Motr and goes on when it is answered.  While the body is streamed there are
two more who call: the request, when data has arrived or the client is too slow, and the one outstanding
write.  `write_in_progress` is all that keeps them apart.

What the calls do to the store is not modelled here, only that they are outstanding and how they are
answered.  The shutdown of the server and clients that go away are left out.
-/
import CortxS3.Server.RequestBody

namespace CortxS3

namespace S3PutObjectAction

/-- `MAX_COLLISION_RETRY_COUNT`. -/
def maxCollisionRetryCount : Nat := 20

structure UploadConfig extends BodyConfig where
  motrWritePayloadSize : Nat
  motrWritePayloadSize_pos : 0 < motrWritePayloadSize
  /-- How many calls load metadata before the object is created. -/
  fetches : Nat
  /-- `validate_put_request` finds nothing wrong. -/
  requestValid : Bool
  /-- There is no `content-md5`, or it fits. -/
  md5Matches : Bool
  /-- The object that is replaced has extended metadata. -/
  oldObjectExtended : Bool
  hasOldObject : Bool
  /-- `probable_del_rec_list` is not empty, when there is an old object. -/
  hasOldRecords : Bool
  /-- `old_obj_oids.size()`. -/
  oldObjects : Nat
  delayedDelete : Bool

inductive S3PutObjectActionState where
  | empty
  | validationFailed
  | probableEntryRecordFailed
  | newObjOidCreated
  | newObjOidCreationFailed
  | writeComplete
  | writeFailed
  | md5ValidationFailed
  | metadataSaved
  | metadataSaveFailed
  | completed
deriving DecidableEq

inductive Task where
  | fetchInfo
  | validatePutRequest
  | createObject
  | initiateDataStreaming
  | saveMetadata
  | sendResponseToS3Client
deriving DecidableEq

inductive CleanupTask where
  | markOldOidForDeletion
  | addOidForParallelLeakCheck
  | removeNewOidProbableRecord
  | deleteOldObject
  | markNewOidForDeletion
  | removeOldOidProbableRecord
  | deleteNewObject
deriving DecidableEq

/-- An outstanding call of Motr.  A call of the cleanup may be followed by others when it succeeds. -/
inductive Op where
  | fetchInfo
  | createObject
  | loadExtendedMetadata
  | putProbableRecords
  | write
  | saveMetadata
  | cleanup (followUps : Nat)
deriving DecidableEq

structure State where
  body : RequestBody
  tasks : List Task
  cleanupTasks : List CleanupTask := []
  actionState : S3PutObjectActionState := .empty
  triedCount : Nat := 0
  writeInProgress : Bool := false
  /-- `set_s3_error` was called. -/
  isErrorState : Bool := false
  cleanupStarted : Bool := false
  outstanding : List Op := []
  /-- How many responses have been sent. -/
  responses : Nat := 0
  done : Bool := false

def State.launch (s : State) (op : Op) : State := { s with outstanding := s.outstanding ++ [op] }

section Steps

variable (c : UploadConfig)

/-! ### The cleanup -/

/-- What a task of the cleanup launches.  With nothing to do it calls `next` at once. -/
def CleanupTask.op : CleanupTask → Option Op
  | .markOldOidForDeletion => if c.hasOldRecords then some (.cleanup 0) else none
  | .addOidForParallelLeakCheck => some (.cleanup 0)
  | .removeNewOidProbableRecord => some (.cleanup 0)
  | .deleteOldObject =>
    if c.delayedDelete || c.oldObjects = 0 then none
    -- the other objects, the version metadata, the records
    else some (.cleanup (c.oldObjects + if c.hasOldRecords then 1 else 0))
  | .markNewOidForDeletion => some (.cleanup 0)
  | .removeOldOidProbableRecord => if c.hasOldRecords then some (.cleanup 0) else none
  | .deleteNewObject => some (.cleanup 1)

/-- `next` in the cleanup. -/
def runCleanup (s : State) : List CleanupTask → State
  | [] => { s with cleanupTasks := [], done := true }
  | task :: rest =>
    match task.op c with
    | none => runCleanup s rest
    | some op => { s with cleanupTasks := rest }.launch op

def cleanupTasksOf (state : S3PutObjectActionState) : List CleanupTask :=
  match state with
  | .completed =>
    (if c.hasOldObject then [.markOldOidForDeletion] else []) ++
      [.addOidForParallelLeakCheck, .removeNewOidProbableRecord] ++
      (if c.hasOldObject then [.deleteOldObject] else [])
  | .newObjOidCreated | .writeFailed | .md5ValidationFailed | .metadataSaveFailed =>
    [.markNewOidForDeletion] ++ (if c.hasOldObject then [.removeOldOidProbableRecord] else []) ++
      [.deleteNewObject]
  | _ => []

/-- `startcleanup` and `start`.  With no task, `start` does nothing. -/
def startcleanup (s : State) : State :=
  let s := { s with tasks := [], cleanupStarted := true }
  match cleanupTasksOf c s.actionState with
  | [] => s
  | tasks => runCleanup c s tasks

def sendResponseToS3Client (s : State) : State :=
  let s := if s.isErrorState then s else { s with actionState := .completed }
  startcleanup c { s with responses := s.responses + 1, body := s.body.sendResponse }

/-- `set_s3_error`, and the response. -/
def fail (s : State) (state : S3PutObjectActionState) : State :=
  sendResponseToS3Client c { s with actionState := state, isErrorState := true }

def clientReadError (s : State) : State :=
  let s := { s with isErrorState := true }
  if s.body.readError = some .requestTimeout then sendResponseToS3Client c s else startcleanup c s

/-! ### Streaming -/

def writeObject (s : State) : State :=
  { s with
    body := s.body.getBuffers (min s.body.contentLength c.motrWritePayloadSize)
    writeInProgress := true }.launch .write

def consumeIncomingContent (s : State) : State :=
  if s.body.isS3ClientReadError then
    if s.body.readError = some .requestTimeout then
      sendResponseToS3Client c { s with isErrorState := true }
    else s
  else
    let s :=
      if !s.writeInProgress &&
          (s.body.isFreezed || c.motrWritePayloadSize ≤ s.body.contentLength) then writeObject c s
      else s
    if !s.body.isFreezed && c.motrWritePayloadSize * c.readAheadMultiple ≤ s.body.contentLength then
      { s with body := s.body.pause }
    else s

def initiateDataStreaming (s : State) : State :=
  if s.body.hasAllBodyContent then writeObject c s
  else if s.body.isS3ClientReadError then consumeIncomingContent c s
  else { s with body := s.body.listenForIncomingData c.motrWritePayloadSize }

/-! ### The tasks -/

/-- The tasks from here on, up to the first that waits. -/
def runTasks (s : State) : List Task → State
  | [] => { s with tasks := [], done := true }
  | .fetchInfo :: rest => { s with tasks := rest }.launch .fetchInfo
  | .validatePutRequest :: rest =>
    if c.requestValid then runTasks s rest
    else fail c { s with tasks := rest } .validationFailed
  | .createObject :: rest => { s with tasks := rest }.launch .createObject
  | .initiateDataStreaming :: rest =>
    if c.dataLength = 0 then runTasks s rest
    else initiateDataStreaming c { s with tasks := rest }
  | .saveMetadata :: rest =>
    if c.md5Matches then { s with tasks := rest }.launch .saveMetadata
    else fail c { s with tasks := rest } .md5ValidationFailed
  | .sendResponseToS3Client :: rest => sendResponseToS3Client c { s with tasks := rest }

def next (s : State) : State :=
  if s.body.isS3ClientReadError && !s.cleanupStarted then clientReadError c s
  else if s.cleanupStarted then runCleanup c s s.cleanupTasks
  else runTasks c s s.tasks

/-! ### The answers of Motr -/

inductive OpResult where
  | ok
  /-- The object that was to be created exists. -/
  | «exists»
  | failed
deriving DecidableEq

def createObjectAnswered (s : State) : OpResult → State
  | .ok =>
    let s := { s with actionState := .newObjOidCreated }
    if c.oldObjectExtended then s.launch .loadExtendedMetadata else s.launch .putProbableRecords
  | .exists =>
    if s.triedCount < maxCollisionRetryCount then
      { s with triedCount := s.triedCount + 1 }.launch .createObject
    else fail c s .newObjOidCreationFailed
  | .failed => fail c s .newObjOidCreationFailed

def writeObjectSuccessful (s : State) (isMemoryEnough : Bool) : State :=
  let s := { s with writeInProgress := false }
  if s.body.isS3ClientReadError then clientReadError c s
  else if c.motrWritePayloadSize ≤ s.body.contentLength ||
      (s.body.isFreezed && s.body.contentLength ≠ 0) then
    let s := writeObject c s
    if !isMemoryEnough then { s with body := s.body.pause }
    else if !s.body.isFreezed then { s with body := s.body.resume }
    else s
  else if s.body.isFreezed && s.body.contentLength = 0 then
    next c { s with actionState := .writeComplete }
  else if !isMemoryEnough then fail c s .writeFailed
  else s

def writeObjectFailed (s : State) : State :=
  let s := { s with writeInProgress := false, actionState := .writeFailed }
  if s.body.isS3ClientReadError then clientReadError c s else fail c s .writeFailed

def answered (s : State) (op : Op) (result : OpResult) (isMemoryEnough : Bool) : State :=
  match op, result with
  | .fetchInfo, .ok => next c s
  | .fetchInfo, _ => fail c s .validationFailed
  | .createObject, result => createObjectAnswered c s result
  | .loadExtendedMetadata, .ok => s.launch .putProbableRecords
  | .loadExtendedMetadata, _ => fail c s .writeFailed
  | .putProbableRecords, .ok => next c s
  | .putProbableRecords, _ => fail c s .probableEntryRecordFailed
  | .write, .ok => writeObjectSuccessful c s isMemoryEnough
  | .write, _ => writeObjectFailed c s
  | .saveMetadata, .ok => next c { s with actionState := .metadataSaved }
  | .saveMetadata, _ => fail c s .metadataSaveFailed
  | .cleanup (k + 1), .ok => s.launch (.cleanup k)
  | .cleanup _, _ => next c s

/-! ### Events -/

inductive Event where
  /-- A buffer of the body has arrived, and whether there is memory to go on. -/
  | data (len : Nat) (memoryAboveThreshold : Bool)
  | readTimeout
  /-- A call of Motr is answered.  The last is what the memory profile says after a write. -/
  | answer (op : Op) (result : OpResult) (isMemoryEnough : Bool)

def onData (s : State) (len : Nat) (memoryAboveThreshold : Bool) : State :=
  let s := { s with body := { s.body with readTimer := false } }
  if s.body.ignoreIncomingData then s
  else
    let (body, callback) := s.body.notifyIncomingData c.toBodyConfig [len] memoryAboveThreshold
    let s := { s with body := body }
    let s := if callback then consumeIncomingContent c s else s
    { s with body := s.body.notified c.toBodyConfig }

def onReadTimeout (s : State) : State :=
  let (body, callback) := s.body.triggerClientReadTimeout
  let s := { s with body := body }
  if callback then consumeIncomingContent c s else s

def step (s : State) : Event → Option State
  | .data len memoryAboveThreshold =>
    if s.body.isPaused || s.body.pendingInFlight = 0 then none
    else some (onData c s len memoryAboveThreshold)
  | .readTimeout => if s.body.readTimer then some (onReadTimeout c s) else none
  | .answer op result isMemoryEnough =>
    if s.outstanding.elem op then
      some (answered c { s with outstanding := s.outstanding.erase op } op result isMemoryEnough)
    else none

/-- `setup_steps`. -/
def allTasks : List Task :=
  List.replicate c.fetches .fetchInfo ++
    [.validatePutRequest, .createObject, .initiateDataStreaming, .saveMetadata,
      .sendResponseToS3Client]

/-- The action is started. -/
def start : State :=
  runTasks c { body := .initialise c.toBodyConfig, tasks := [] } (allTasks c)

end Steps

end S3PutObjectAction

end CortxS3
