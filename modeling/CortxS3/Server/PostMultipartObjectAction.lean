/-
The initiation of a multipart upload (`server/s3_post_multipartobject_action.cc`).

The action runs a list of tasks.  A task launches a call of Motr or of the auth server, goes on with
the next task, or answers the client; the handlers of a call do the same.  An answer is followed by
the cleanup, which rolls back what has been made unless the metadata of the upload is saved.  The
action is done when `done()` is called.

The action waits for one call at a time.  What the call comes to, whether the client is still there
and whether the server is shutting down comes with the event.  The request has no body, so that
there is nothing that could not be read.  Of the metadata of the upload only the state is kept: what is in
it does not decide where the action goes.

`partIndex` and `metadata` say what Motr holds.  No code reads them.
-/
import CortxS3.Server.ProbableDeleteRecord

namespace CortxS3

namespace S3PostMultipartObjectAction

/-- `MAX_COLLISION_RETRY_COUNT`. -/
def maxCollisionRetryCount : Nat := 20

/-- The indexes that the metadata of the bucket names. -/
structure Bucket where
  objectListIndexOid : M0Uint128
  objectsVersionListIndexOid : M0Uint128
  multipartIndexOid : M0Uint128

/-- The index of the objects or that of their versions is not named. -/
def Bucket.NoLists (b : Bucket) : Prop :=
  b.objectListIndexOid = {} ∨ b.objectsVersionListIndexOid = {}
deriving Decidable

structure Request where
  authDisabled : Bool
  bucket : Bucket
  /-- The metadata of the object is extended. -/
  objectExtended : Bool
  /-- The header `x-amz-tagging`. -/
  xAmzTagging : Bytes
  /-- `parse_x_amz_tagging_header` and `validate_object_xml_tags`. -/
  validTags : Bytes → Bool

inductive Task where
  | loadMetadata
  | setAuthorizationMeta
  | checkAuthorization
  | validateXAmzTaggingIfPresent
  | checkBucketObjectState
  | createPartMetaIndex
  | saveUploadMetadata
  | sendResponseToS3Client
deriving DecidableEq

/-- What the action waits for. -/
inductive Phase where
  /-- The call of `start`. -/
  | start
  | loadBucketMetadata
  | loadObjectMetadata
  | loadExtendedMetadata
  | checkAuthorization
  | createPartIndex
  | saveMetadata
  | removePartIndex
  /-- Nothing. -/
  | idle
deriving DecidableEq

/-- How a call ends. -/
inductive OpResult where
  | success
  | missing
  /-- An index of this name is there already. -/
  | exists
  /-- The metadata that was read makes no sense. -/
  | invalid
  | failedToLaunch
  | failed
deriving DecidableEq

/-- The states of the metadata of the bucket, of the object and of the upload. -/
inductive MetadataState where
  | empty
  | present
  | missing
  | saved
  | invalid
  | failedToLaunch
  | failed
deriving DecidableEq

inductive S3PartMetadataState where
  | empty
  | missing
  | storeCreated
  | failedToLaunch
  | failed
  | indexDeleted
deriving DecidableEq

inductive Response where
  | uploadId
  | error (code : String)
deriving DecidableEq

/-- Ways for the server to end. -/
inductive Fault where
  /-- The assertion of `startcleanup`. -/
  | assertion
  /-- The metadata of the object is looked at where there is none. -/
  | nullObjectMetadata
deriving DecidableEq

structure State where
  phase : Phase := .start
  taskList : List Task
  /-- The task of the rollback, once there is something to roll back. -/
  rollbackListed : Bool := false
  rollbackStarted : Bool := false
  /-- The code of the error, in the state of an error. -/
  error : Option String := none
  isResponseScheduled : Bool := false
  clientConnected : Bool := true
  bucketMetadata : MetadataState := .empty
  /-- None as long as no metadata of the object has been asked for. -/
  objectMetadata : Option MetadataState := none
  objectMultipartMetadata : Option MetadataState := none
  partMetadata : Option S3PartMetadataState := none
  collisionAttemptCount : Nat := 0
  /-- What the client has been sent. -/
  responses : List Response := []
  /-- How often `done()` has been called. -/
  doneCalls : Nat := 0
  fault : Option Fault := none
  /-- The part index that the action has created is there. -/
  partIndex : Bool := false
  /-- It could not be removed. -/
  removalFailed : Bool := false
  /-- The metadata of the upload is stored. -/
  metadata : Bool := false
deriving DecidableEq

/-- What the action finds when a call has ended. -/
structure Event where
  result : OpResult := .success
  clientConnected : Bool := true
  shuttingDown : Bool := false
  /-- What the auth server says when it refuses. -/
  authErrorCode : String := "AccessDenied"

/-! ### The answer and what follows it -/

/-- A response, if there is someone to send it to. -/
def respond (s : State) (response : Response) : State :=
  if s.clientConnected then { s with responses := s.responses ++ [response] } else s

def done (s : State) : State :=
  { s with
    phase := .idle
    doneCalls := s.doneCalls + 1 }

/-- `rollback_start`, with the list of at most one task. -/
def rollbackStart (s : State) : State :=
  if s.rollbackStarted then s
  else
    let s := { s with rollbackStarted := true }
    if s.rollbackListed then { s with phase := .removePartIndex } else done s

/-- The server ends. -/
def fail (s : State) (fault : Fault) : State :=
  { s with
    phase := .idle
    fault := some fault }

def startcleanup (s : State) : State :=
  if s.objectMultipartMetadata = some .saved then
    if s.error = none then done s else fail s .assertion
  else rollbackStart s

def sendResponseToS3Client (s : State) : State :=
  let s :=
    if s.isResponseScheduled ∨ s.error ≠ none then respond s (.error (s.error.getD ""))
    else if s.objectMultipartMetadata = some .saved ∧ s.partMetadata = some .storeCreated then
      respond s .uploadId
    else s
  startcleanup s

/-- `set_s3_error`, and the answer. -/
def respondError (s : State) (code : String) : State :=
  sendResponseToS3Client { s with error := some code }

/-- `check_shutdown_and_rollback` for a server that is shutting down. -/
def rollbackForShutdown (s : State) : State :=
  if s.isResponseScheduled then s
  else sendResponseToS3Client { s with
    isResponseScheduled := true
    error := some (s.error.getD "ServiceUnavailable") }

/-! ### The tasks -/

def checkBucketObjectState (r : Request) (s : State) : State ⊕ State :=
  match s.bucketMetadata with
  | .present =>
    let s := { s with objectMultipartMetadata := some .empty }
    if r.bucket.multipartIndexOid = ({} : M0Uint128) then
      .inr (respondError s "MetaDataCorruption")
    else match s.objectMetadata with
      | none => .inr (fail s .nullObjectMetadata)
      | some .present => .inl s
      | some .missing => .inl s
      | some _ => .inr (respondError s "InternalError")
  -- nothing is sent here, and nothing goes on
  | .missing => .inr { s with
      phase := .idle
      error := some "NoSuchBucket" }
  | _ => .inr (respondError s "InternalError")

/-- `next`: the tasks that launch no call are followed by the next one. -/
def next (r : Request) (e : Event) : List Task → State → State
  | [], s => if e.shuttingDown then rollbackForShutdown s else done s
  | task :: rest, s =>
    if e.shuttingDown then rollbackForShutdown s
    else if s.clientConnected then
      let s := { s with taskList := rest }
      match task with
      | .loadMetadata => { s with phase := .loadBucketMetadata }
      | .setAuthorizationMeta => next r e rest s
      | .checkAuthorization => { s with phase := .checkAuthorization }
      | .validateXAmzTaggingIfPresent =>
        if r.validTags r.xAmzTagging then next r e rest s
        else respondError s "InvalidTagError"
      | .checkBucketObjectState =>
        match checkBucketObjectState r s with
        | .inl s => next r e rest s
        | .inr s => s
      | .createPartMetaIndex => { s with
          phase := .createPartIndex
          partMetadata := some .missing }
      | .saveUploadMetadata => { s with phase := .saveMetadata }
      | .sendResponseToS3Client => sendResponseToS3Client s
    else rollbackStart s

def setupSteps (r : Request) : List Task :=
  [.loadMetadata] ++
    (if r.authDisabled then [] else [.setAuthorizationMeta, .checkAuthorization]) ++
    (if r.xAmzTagging = [] then [] else [.validateXAmzTaggingIfPresent]) ++
    [.checkBucketObjectState, .createPartMetaIndex, .saveUploadMetadata, .sendResponseToS3Client]

def initial (r : Request) : State := { taskList := setupSteps r }

/-! ### What a call comes to -/

/-- `start`.  The first task, `load_metadata`, is launched for a client that has gone, too. -/
def start (e : Event) (s : State) : State :=
  if e.shuttingDown then rollbackForShutdown s
  else { s with
    phase := .loadBucketMetadata
    taskList := s.taskList.tail }

def OpResult.toMetadataState : OpResult → MetadataState
  | .success => .present
  | .missing => .missing
  | .exists => .failed
  | .invalid => .invalid
  | .failedToLaunch => .failedToLaunch
  | .failed => .failed

def bucketMetadataLoaded (r : Request) (e : Event) (s : State) : State :=
  let s := { s with bucketMetadata := e.result.toMetadataState }
  match s.bucketMetadata with
  | .present =>
    if r.bucket.NoLists then
      next r e s.taskList s
    else
      { s with
        phase := .loadObjectMetadata
        objectMetadata := some .empty }
  | .missing => respondError s "NoSuchBucket"
  | .failedToLaunch => respondError s "ServiceUnavailable"
  | _ => respondError s "InternalError"

def objectMetadataLoaded (r : Request) (e : Event) (s : State) : State :=
  let s := { s with objectMetadata := some e.result.toMetadataState }
  if e.result = .success ∧ r.objectExtended then { s with phase := .loadExtendedMetadata }
  else next r e s.taskList s

def authorizationChecked (r : Request) (e : Event) (s : State) : State :=
  if e.result = .success then next r e s.taskList s
  else done (respond s (.error e.authErrorCode))

def createPartMetaIndexFailed (s : State) : State :=
  if s.partMetadata = some .failedToLaunch then respondError s "ServiceUnavailable"
  else sendResponseToS3Client s

def handleCollision (s : State) : State :=
  if s.collisionAttemptCount < maxCollisionRetryCount then
    { s with
      collisionAttemptCount := s.collisionAttemptCount + 1
      partMetadata := some .missing }
  else createPartMetaIndexFailed { s with partMetadata := some .failed }

def partIndexCreated (r : Request) (e : Event) (s : State) : State :=
  match e.result with
  | .success => next r e s.taskList { s with
      partMetadata := some .storeCreated
      rollbackListed := true
      partIndex := true }
  | .exists => handleCollision s
  | .failedToLaunch => createPartMetaIndexFailed { s with partMetadata := some .failedToLaunch }
  | _ => createPartMetaIndexFailed { s with partMetadata := some .failed }

def metadataSaved (r : Request) (e : Event) (s : State) : State :=
  match e.result with
  | .success => next r e s.taskList { s with
      objectMultipartMetadata := some .saved
      metadata := true }
  | .failedToLaunch =>
    respondError { s with objectMultipartMetadata := some .failedToLaunch } "ServiceUnavailable"
  | _ => respondError { s with objectMultipartMetadata := some .failed } "InternalError"

/-- The rollback has no other task, whatever this one comes to. -/
def partIndexRemoved (e : Event) (s : State) : State :=
  if e.result = .success then
    done { s with
      partMetadata := some .indexDeleted
      partIndex := false }
  else done { s with removalFailed := true }

/-- The state in which an event is looked at. -/
def State.sees (s : State) (e : Event) : State :=
  { s with clientConnected := s.clientConnected && e.clientConnected }

def step (r : Request) (s : State) (e : Event) : Option State :=
  match s.phase with
  | .start => some (start e (s.sees e))
  | .loadBucketMetadata => some (bucketMetadataLoaded r e (s.sees e))
  | .loadObjectMetadata => some (objectMetadataLoaded r e (s.sees e))
  | .loadExtendedMetadata => some (next r e s.taskList (s.sees e))
  | .checkAuthorization => some (authorizationChecked r e (s.sees e))
  | .createPartIndex => some (partIndexCreated r e (s.sees e))
  | .saveMetadata => some (metadataSaved r e (s.sees e))
  | .removePartIndex => some (partIndexRemoved e (s.sees e))
  | .idle => none

end S3PostMultipartObjectAction

end CortxS3
