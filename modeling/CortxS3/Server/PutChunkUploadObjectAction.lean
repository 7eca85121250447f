/-
The upload of an object in signed chunks, `S3PutChunkUploadObjectAction`.

The body comes in frames, and the parser strips them (`S3ChunkPayloadParser`).  Each frame leaves the
data of its chunk and, when its last byte has been read, a chunk detail with the signature and the digest
of the data.  The data goes to Motr; the details go to the auth server, one after the other
(`ChunkAuth`).  A chunk of size zero is taken for the last one.

So there are two pipelines, and each finds out through flags how far the other is.  Details are handed
over only with a write, or when everything has been written.  The container is freezed with the last byte
of data, which is not the last byte of the body: the frame of the last chunk comes after it.

A fragment of the body is modelled by what the parser makes of it: buffers of data, and the number of
frames that end in it.  What it makes of the body as a whole does not depend on where the fragments are cut.
The calls of Motr, the tasks and the cleanup are those of `S3PutObjectAction`.
-/
import CortxS3.Server.AuthClient
import CortxS3.Server.ChunkPayloadParser
import CortxS3.Server.PutObjectAction

namespace CortxS3

namespace S3PutChunkUploadObjectAction

open S3PutObjectAction (Task CleanupTask Op OpResult maxCollisionRetryCount)

/-- An upload in chunks.  There is no `content-md5` to compare with. -/
structure ChunkUploadConfig extends S3PutObjectAction.UploadConfig where
  authDisabled : Bool
  /-- The frames of the body. -/
  chunks : List S3ChunkDetail
  /-- The request, as the auth client sees it. -/
  request : RequestObject

inductive S3PutChunkUploadObjectActionState where
  | empty
  | validationFailed
  | probableEntryRecordFailed
  | newObjOidCreated
  | newObjOidCreationFailed
  | dataSignatureCheckFailed
  | writeFailed
  | metadataSaved
  | metadataSaveFailed
  | completed
deriving DecidableEq

structure State where
  body : RequestBody
  /-- The frames that have not been read to their ends. -/
  framesToCome : List S3ChunkDetail
  /-- `chunk_details` of the parser. -/
  chunkDetails : List S3ChunkDetail := []
  auth : ChunkAuth
  tasks : List Task
  cleanupTasks : List CleanupTask := []
  actionState : S3PutChunkUploadObjectActionState := .empty
  triedCount : Nat := 0
  authFailed : Bool := false
  writeFailed : Bool := false
  motrWriteInProgress : Bool := false
  motrWriteCompleted : Bool := false
  authInProgress : Bool := false
  authCompleted : Bool := false
  /-- `size_in_current_write` and `total_written` of the writer. -/
  sizeInCurrentWrite : Nat := 0
  totalWritten : Nat := 0
  /-- `set_s3_error` was called. -/
  isErrorState : Bool := false
  cleanupStarted : Bool := false
  outstanding : List Op := []
  /-- How many responses have been sent. -/
  responses : Nat := 0
  done : Bool := false

namespace State

def launch (s : State) (op : Op) : State := { s with outstanding := s.outstanding ++ [op] }

def authStarted (s : State) : Bool := s.auth.client.state = .started

def abortChunkAuthOp (s : State) : State :=
  { s with auth := { s.auth with client := { s.auth.client with chunkAuthAborted := true } } }

end State

section Steps

variable (c : ChunkUploadConfig)

/-! ### The cleanup -/

/-- `next` in the cleanup. -/
def runCleanup (s : State) : List CleanupTask → State
  | [] => { s with cleanupTasks := [], done := true }
  | task :: rest =>
    match task.op c.toUploadConfig with
    | none => runCleanup s rest
    | some op => { s with cleanupTasks := rest }.launch op

def cleanupTasksOf (state : S3PutChunkUploadObjectActionState) : List CleanupTask :=
  match state with
  | .completed =>
    (if c.hasOldObject then [.markOldOidForDeletion] else []) ++
      [.addOidForParallelLeakCheck, .removeNewOidProbableRecord] ++
      (if c.hasOldObject then [.deleteOldObject] else [])
  | .newObjOidCreated | .writeFailed | .metadataSaveFailed | .dataSignatureCheckFailed =>
    [.markNewOidForDeletion] ++ (if c.hasOldObject then [.removeOldOidProbableRecord] else []) ++
      [.deleteNewObject]
  | _ => []

/-- `startcleanup` and `start`.  With no task, `start` does nothing. -/
def startcleanup (s : State) : State :=
  let s := { s with tasks := [], cleanupStarted := true }
  match cleanupTasksOf c s.actionState with
  | [] => s
  | tasks => runCleanup c s tasks

/-- The response itself.  Without an error it is a success, whatever the state. -/
def respond (s : State) : State :=
  let s := if s.isErrorState then s else { s with actionState := .completed }
  startcleanup c { s with responses := s.responses + 1, body := s.body.sendResponse }

/-- While the auth server is being asked, the response is put off until it answers. -/
def sendResponseToS3Client (s : State) : State :=
  if s.authInProgress && s.authStarted then s.abortChunkAuthOp else respond c s

/-- `set_s3_error`, and the response. -/
def fail (s : State) (state : S3PutChunkUploadObjectActionState) : State :=
  sendResponseToS3Client c { s with actionState := state, isErrorState := true }

def clientReadError (s : State) : State :=
  let s := { s with isErrorState := true }
  if s.body.readError = some .requestTimeout then sendResponseToS3Client c s else startcleanup c s

/-! ### Streaming -/

/-- One detail is handed to the auth client. -/
def sendChunkDetail (s : State) (detail : S3ChunkDetail) : State :=
  if c.authDisabled then s
  else
    { s with
      auth :=
        if detail.chunkSize = 0 then
          s.auth.addLastChecksumForChunk detail.signature detail.payloadHash
        else s.auth.addChecksumForChunk detail.signature detail.payloadHash
      authInProgress := true }

def sendChunkDetailsIfAny (s : State) : State :=
  s.chunkDetails.foldl (sendChunkDetail c) { s with chunkDetails := [] }

def writeObject (s : State) : State :=
  let s := sendChunkDetailsIfAny c s
  let contentLength := min s.body.contentLength c.motrWritePayloadSize
  { s with
    body := s.body.getBuffers contentLength
    sizeInCurrentWrite := contentLength
    motrWriteInProgress := true }.launch .write

/-- A write that cannot be launched fails later, so the flag is set when `write_object` returns. -/
def consumeIncomingContent (s : State) : State :=
  if s.body.isS3ClientReadError then
    if !s.motrWriteInProgress then clientReadError c s else s
  else
    let s :=
      if !s.motrWriteInProgress &&
          (s.body.isFreezed || c.motrWritePayloadSize ≤ s.body.contentLength) then writeObject c s
      else s
    if !s.body.isFreezed && c.motrWritePayloadSize * c.readAheadMultiple ≤ s.body.contentLength then
      { s with body := s.body.pause }
    else s

def initiateDataStreaming (s : State) : State :=
  if s.body.hasAllBodyContent then writeObject c s
  else { s with body := s.body.listenForIncomingData c.motrWritePayloadSize }

/-! ### The tasks -/

/-- The tasks from here on, up to the first that waits. -/
def runTasks (s : State) : List Task → State
  | [] => { s with tasks := [], done := true }
  | .fetchInfo :: rest => { s with tasks := rest }.launch .fetchInfo
  | .validatePutRequest :: rest =>
    if c.requestValid then runTasks s rest
    else fail c { s with tasks := rest } .validationFailed
  | .createObject :: rest => { s with tasks := rest }.launch .createObject
  | .initiateDataStreaming :: rest =>
    if c.dataLength = 0 then runTasks s rest
    else initiateDataStreaming c { s with tasks := rest }
  | .saveMetadata :: rest => { s with tasks := rest }.launch .saveMetadata
  | .sendResponseToS3Client :: rest => sendResponseToS3Client c { s with tasks := rest }

def next (s : State) : State :=
  if s.body.isS3ClientReadError && !s.cleanupStarted then clientReadError c s
  else if s.cleanupStarted then runCleanup c s s.cleanupTasks
  else runTasks c s s.tasks

/-! ### The answers of Motr -/

def createObjectAnswered (s : State) : OpResult → State
  | .ok =>
    let s := { s with actionState := .newObjOidCreated }
    if c.oldObjectExtended then s.launch .loadExtendedMetadata else s.launch .putProbableRecords
  | .exists =>
    if s.triedCount < maxCollisionRetryCount then
      { s with triedCount := s.triedCount + 1 }.launch .createObject
    else fail c s .newObjOidCreationFailed
  | .failed => fail c s .newObjOidCreationFailed

/-- Everything that has come in is written. -/
def allWritten (s : State) : State :=
  let s := { s with motrWriteCompleted := true }
  if s.authCompleted then next c s else sendChunkDetailsIfAny c s

def writeObjectSuccessful (s : State) : State :=
  let s := { s with
    totalWritten := s.totalWritten + s.sizeInCurrentWrite
    motrWriteInProgress := false }
  if s.body.isS3ClientReadError then clientReadError c s
  else if s.authFailed then sendResponseToS3Client c s
  else
    let s :=
      if c.motrWritePayloadSize ≤ s.body.contentLength ||
          (s.body.isFreezed && s.body.contentLength ≠ 0) then writeObject c s
      else if s.body.isFreezed && s.body.contentLength = 0 then allWritten c s
      else s
    if !s.body.isFreezed then { s with body := s.body.resume } else s

def writeObjectFailed (s : State) : State :=
  let s := { s with
    motrWriteInProgress := false
    writeFailed := true
    actionState := .writeFailed
    body := s.body.pause }.abortChunkAuthOp
  if s.body.isS3ClientReadError then clientReadError c s
  else
    let s := { s with isErrorState := true, motrWriteCompleted := true }
    if !s.authInProgress then sendResponseToS3Client c s else s

/-- An error is set only when the save could not be launched. -/
def saveObjectMetadataFailed (s : State) (failedToLaunch : Bool) : State :=
  sendResponseToS3Client c { s with
    actionState := .metadataSaveFailed
    isErrorState := s.isErrorState || failedToLaunch }

def answered (s : State) (op : Op) (result : OpResult) (failedToLaunch : Bool) : State :=
  match op, result with
  | .fetchInfo, .ok => next c s
  | .fetchInfo, _ => fail c s .validationFailed
  | .createObject, result => createObjectAnswered c s result
  | .loadExtendedMetadata, .ok => s.launch .putProbableRecords
  | .loadExtendedMetadata, _ => fail c s .writeFailed
  | .putProbableRecords, .ok => next c s
  | .putProbableRecords, _ => fail c s .probableEntryRecordFailed
  | .write, .ok => writeObjectSuccessful c s
  | .write, _ => writeObjectFailed c s
  | .saveMetadata, .ok => next c { s with actionState := .metadataSaved }
  | .saveMetadata, _ => saveObjectMetadataFailed c s failedToLaunch
  | .cleanup (k + 1), .ok => s.launch (.cleanup k)
  | .cleanup _, _ => next c s

/-! ### The answers of the auth server -/

def chunkAuthSuccessful (s : State) : State :=
  let s := { s with authInProgress := false, authCompleted := true }
  if s.motrWriteCompleted then
    if s.writeFailed then sendResponseToS3Client c s else next c s
  else s

def chunkAuthFailed (s : State) : State :=
  let s := { s with
    actionState := .dataSignatureCheckFailed
    authInProgress := false
    authFailed := true
    authCompleted := true
    isErrorState := true }
  if s.motrWriteInProgress then s else sendResponseToS3Client c s

/-- The client takes up the next chunk, or tells the action that it is done. -/
def onAuthSuccess (s : State) (response : S3AuthResponseSuccess) : State :=
  let s := { s with auth := s.auth.chunkAuthSuccessful response }
  if s.auth.trace.getLast? = some .onSuccess then chunkAuthSuccessful c s else s

def onAuthFailure (s : State) : State := chunkAuthFailed c { s with auth := s.auth.chunkAuthFailed }

/-! ### Events -/

inductive Event where
  /-- A fragment of the body has arrived, and whether there is memory to go on. -/
  | data (bufs : List Nat) (frames : Nat) (memoryAboveThreshold : Bool)
  | readTimeout
  /-- A call of Motr is answered. -/
  | answer (op : Op) (result : OpResult) (failedToLaunch : Bool)
  | authSuccess (response : S3AuthResponseSuccess)
  | authFailure

/-- The parser sees a fragment unless it is dropped. -/
def parse (s : State) (frames : Nat) (memoryAboveThreshold : Bool) : State :=
  if memoryAboveThreshold && !s.body.isS3ClientReadError then
    { s with
      chunkDetails := s.chunkDetails ++ s.framesToCome.take frames
      framesToCome := s.framesToCome.drop frames }
  else s

def onData (s : State) (bufs : List Nat) (frames : Nat) (memoryAboveThreshold : Bool) : State :=
  let s := { s with body := { s.body with readTimer := false } }
  if s.body.ignoreIncomingData then s
  else
    let s := parse s frames memoryAboveThreshold
    let (body, callback) := s.body.notifyIncomingData c.toBodyConfig bufs memoryAboveThreshold
    let s := { s with body := body }
    let s := if callback then consumeIncomingContent c s else s
    { s with body := s.body.notified c.toBodyConfig }

def onReadTimeout (s : State) : State :=
  let (body, callback) := s.body.triggerClientReadTimeout
  let s := { s with body := body }
  if callback then consumeIncomingContent c s else s

def step (s : State) : Event → Option State
  | .data bufs frames memoryAboveThreshold =>
    if s.body.isPaused then none else some (onData c s bufs frames memoryAboveThreshold)
  | .readTimeout => if s.body.readTimer then some (onReadTimeout c s) else none
  | .answer op result failedToLaunch =>
    if s.outstanding.elem op then
      some (answered c { s with outstanding := s.outstanding.erase op } op result failedToLaunch)
    else none
  | .authSuccess response => if s.authStarted then some (onAuthSuccess c s response) else none
  | .authFailure => if s.authStarted then some (onAuthFailure c s) else none

/-- `setup_steps`. -/
def allTasks : List Task := S3PutObjectAction.allTasks c.toUploadConfig

/-- The action is started.  The auth client is shown as `init_chunk_auth_cycle` sets it up; nobody asks it
anything before. -/
def start : State :=
  runTasks c
    { body := .initialise c.toBodyConfig
      framesToCome := c.chunks
      auth := .start {} c.request
      tasks := []
      authCompleted := c.authDisabled } (allTasks c)

end Steps

end S3PutChunkUploadObjectAction

end CortxS3
