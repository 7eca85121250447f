/-
The tasks of `S3PostCompleteAction`, and what it waits for.

The action runs a list of tasks.  A task launches a call of Motr, goes on with the next task, or answers
the client; the handlers of a call do the same.  An answer is followed by the cleanup, which is a list of
tasks again, put together from the state that was reached.  The action is done when `done()` is called,
and the object of the action is only freed then.

The action waits for one call at a time, and each call ends in one of its two handlers.  What Motr
answers, whether the client is still there, whether its request could be read and whether the server is
shutting down comes with the event.

`set_abort_multipart` is only ever called with false, so the branches for an upload that is aborted are
left out.  The texts of answers, the times and the statistics are left out too.
-/
import CortxS3.Server.PostCompleteAction

namespace CortxS3

namespace S3PostCompleteAction

inductive S3PostCompleteActionState where
  | empty
  | validationFailed
  | probableEntryRecordFailed
  | probableEntryRecordSaved
  | metadataSaved
  | metadataSaveFailed
  | completed
deriving DecidableEq

/-- `MAX_PUT_MULTIPART_EXTENDED_ENTRIES`. -/
def maxPutMultipartExtendedEntries : Nat := 50

/-- `MAX_MULTIPART_EXTENDED_ENTRIES`, for `count_we_requested`. -/
def maxMultipartExtendedEntries : Nat := 30

/-- What the action uses of the metadata of the upload. -/
structure MultipartMetadata where
  oldOid : M0Uint128
  oldLayoutId : Int
  partIndexOid : M0Uint128

/-- The request, and what Motr holds for it. -/
structure Request where
  authDisabled : Bool
  dataLength : Nat
  hasAllBodyContent : Bool
  document : Option (List XmlElement)
  bucket : BucketIndexes
  /-- The metadata of the object that has the name now, with its parts. -/
  objectMetadata : S3ObjectMetadata
  multipartMetadata : MultipartMetadata
  upload : Upload
  md5String : Bytes → Bytes
  delayedDelEnabled : Bool

/-- The tasks up to the answer. -/
inductive Task where
  | loadMetadata
  | setAuthorizationMeta
  | checkAuthorization
  | loadAndValidateRequest
  | fetchMultipartInfo
  | getNextPartsInfo
  | addObjectOidToProbableDeadOidList
  | saveMetadata
  | deleteMultipartMetadata
  | deletePartListIndex
  | sendResponseToS3Client
deriving DecidableEq

/-- The tasks of the cleanup. -/
inductive CleanupTask where
  | markOldOidForDeletion
  | deleteOldObject
  | addOidForParallelLeakCheck
  | removeNewOidProbableRecord
deriving DecidableEq

/-- The call that the action waits for. -/
inductive Phase where
  | loadBucketMetadata
  | loadObjectMetadata
  | loadExtendedMetadata
  | checkAuthorization
  | listenForIncomingData
  | loadMultipartMetadata
  | nextKeyval
  | putProbableRecords
  /-- So many records are put. -/
  | putPartialKeyval (howMany : Nat)
  | saveObjectMetadata
  | removeMultipartMetadata
  | removePartIndex
  | putOldRecords
  | deleteObject
  | removeVersionMetadata
  | removeExtendedMetadata
  | deleteOldRecords
  | putLeakCheckRecord
  | deleteNewRecords
  /-- There is none. -/
  | idle
deriving DecidableEq

inductive Response where
  | success
  | error (code : String)
deriving DecidableEq

structure State where
  phase : Phase := .idle
  taskList : List Task := []
  cleanupTaskList : List CleanupTask := []
  cleanupStarted : Bool := false
  actionState : S3PostCompleteActionState := .empty
  error : Option String := none
  isResponseScheduled : Bool := false
  responseStarted : Bool := false
  response : Option Response := none
  objMetadataUpdated : Bool := false
  action : S3PostCompleteAction :=
    { parts := []
      totalParts := [] }
  /-- The metadata of the object that has the name now.  Where there is none, its fields are empty. -/
  objectMetadata : S3ObjectMetadata
  /-- The metadata of that object is there. -/
  objectFound : Bool := false
  oldObjectOid : M0Uint128 := {}
  oldLayoutId : Int := 0
  oldOidStr : Bytes := []
  newOidStr : Bytes := []
  kvList : Puts := []
  totalProcessedCount : Nat := 0
  oldPartsProbableDelRecList : List S3ProbableDeleteRecord := []
  newPartsProbableDelRecList : List S3ProbableDeleteRecord := []
  oldObjOids : List M0Uint128 := []
  /-- How often `done()` has been called. -/
  doneCalls : Nat := 0

/-- How a call was answered. -/
inductive OpResult where
  | success
  | missing
  | failedToLaunch
  | failed
deriving DecidableEq

/-- What the action finds when a call has been answered. -/
structure Event where
  result : OpResult := .success
  clientConnected : Bool := true
  /-- `s3_client_read_error`. -/
  clientReadError : Option String := none
  shuttingDown : Bool := false
  /-- The body of the request has arrived. -/
  bodyComplete : Bool := true
  /-- The pairs that NEXT has found. -/
  keyValues : List (Bytes × Option StoredPart) := []

section Tasks

variable (r : Request)

/-! ### After the answer -/

def done (s : State) : State :=
  { s with
    phase := .idle
    doneCalls := s.doneCalls + 1 }

/-- `next` in the cleanup, which does not look at the client. -/
def nextInCleanup : List CleanupTask → State → State
  | [], s => done s
  | .markOldOidForDeletion :: rest, s =>
    if s.oldPartsProbableDelRecList = [] then nextInCleanup rest s
    else
      { s with
        phase := .putOldRecords
        cleanupTaskList := rest
        oldPartsProbableDelRecList := s.oldPartsProbableDelRecList.map (·.setForceDelete) }
  | .deleteOldObject :: rest, s =>
    if s.oldObjectOid ≠ {} ∧ r.delayedDelEnabled then nextInCleanup rest s
    else if s.oldObjOids ≠ [] then
      { s with
        phase := .deleteObject
        cleanupTaskList := rest }
    else nextInCleanup rest s
  | .addOidForParallelLeakCheck :: rest, s =>
    { s with
      phase := .putLeakCheckRecord
      cleanupTaskList := rest }
  | .removeNewOidProbableRecord :: rest, s =>
    -- the function returns here, and nothing else calls `next` or `done`
    if s.newPartsProbableDelRecList = [] then
      { s with
        phase := .idle
        cleanupTaskList := rest }
    else
      { s with
        phase := .deleteNewRecords
        cleanupTaskList := rest }

/-- `start` with the tasks of the cleanup.  Without a task nothing happens. -/
def startTasks (tasks : List CleanupTask) (s : State) : State :=
  if tasks = [] then { s with phase := .idle } else nextInCleanup r tasks s

def startcleanup (s : State) : State :=
  let s := { s with
    taskList := []
    cleanupStarted := true }
  match s.actionState with
  | .empty => done s
  | .validationFailed => done s
  | .probableEntryRecordFailed => done s
  | .completed =>
    startTasks r ((if s.oldObjectOid ≠ {} then
        [.markOldOidForDeletion, .deleteOldObject]
      else []) ++ [.addOidForParallelLeakCheck, .removeNewOidProbableRecord]) s
  | .probableEntryRecordSaved => startTasks r [.removeNewOidProbableRecord] s
  | .metadataSaved => startTasks r [.removeNewOidProbableRecord] s
  | .metadataSaveFailed => startTasks r [.removeNewOidProbableRecord] s

def sendResponseToS3Client (s : State) : State :=
  match s.error with
  | some code => startcleanup r { s with response := some (.error code) }
  | none =>
    if s.objMetadataUpdated then
      startcleanup r { s with
        actionState := .completed
        response := some .success }
    else startcleanup r { s with response := some (.error "InternalError") }

/-- `set_s3_error`, and the answer. -/
def respondError (s : State) (code : String) : State :=
  sendResponseToS3Client r { s with error := some code }

/-- The errors of a call that has failed. -/
def respondFailure (s : State) (result : OpResult) : State :=
  respondError r s (if result = .failedToLaunch then "ServiceUnavailable" else "InternalError")

def clientReadError (s : State) (s3Error : String) : State :=
  let s := { s with error := some s3Error }
  if s3Error = "RequestTimeout" then sendResponseToS3Client r s else startcleanup r s

/-- `check_shutdown_and_rollback`: the state, and whether the server is shutting down. -/
def checkShutdownAndRollback (e : Event) (s : State) : State × Bool :=
  if e.shuttingDown then
    if s.isResponseScheduled then (s, true)
    else
      let s := { s with
        isResponseScheduled := true
        error := some (s.error.getD "ServiceUnavailable") }
      (sendResponseToS3Client r s, true)
  else (s, false)

/-! ### Up to it -/

/-- `mp_completion_send_space_chk_shutdown`. -/
def mpCompletionSendSpaceChkShutdown (e : Event) (s : State) : State × Bool :=
  let (s, shuttingDown) := checkShutdownAndRollback r e s
  (s, shuttingDown || !e.clientConnected)

def getNextPartsInfoTask (e : Event) (s : State) : State :=
  if s.responseStarted then
    -- nothing is launched when the client has gone, and nothing calls `done`
    let (s', stop) := mpCompletionSendSpaceChkShutdown r e { s with phase := .idle }
    if stop then s' else { s with phase := .nextKeyval }
  else { s with phase := .nextKeyval }

/-- The first fragments of the parts with these numbers, with their numbers.  There is no result
where `at` throws. -/
def listedParts (ext : S3ObjectExtendedMetadata) :
    List Nat → Option (List (Nat × S3PartFragContext))
  | [] => some []
  | part :: rest =>
    match SortedMap.get (part : Int) ext.extObjects with
    | none => none
    | some [] => listedParts ext rest
    | some (frag :: _) =>
      if frag.motrOID = {} then listedParts ext rest
      else (listedParts ext rest).map ((part, frag) :: ·)

/-- `add_part_object_to_probable_dead_oid_list` for the object that is replaced. -/
def addPartObjectToProbableDeadOidList (s : State) : Option State :=
  let m := s.objectMetadata
  let ext := m.extended.getD { objectName := m.objectName, versionId := m.objVersionKey }
  let totalParts := (m.extended.map (·.getPartCount)).getD 0
  if totalParts ≠ 0 then
    (listedParts ext (List.range' 1 totalParts)).map fun parts =>
      let ofParts := parts.map fun p =>
        { partDeleteRecord r.bucket m p.1 p.2 with
          isMultipart := p.2.isMultipart
          partListIdxOid := r.multipartMetadata.partIndexOid }
      let parent := parentDeleteRecord r.bucket m totalParts
      { s with
        oldPartsProbableDelRecList := s.oldPartsProbableDelRecList ++ ofParts ++
          [{ parent with
            recordKey := parent.recordKey ++ ascii "-" ++ s.newOidStr
            isMultipart := true
            partListIdxOid := r.multipartMetadata.partIndexOid }]
        oldObjOids := s.oldObjOids ++ parts.map (·.2.motrOID) }
  else
    let oldOidStr := sizeBasedBucketingOfObjects s.oldOidStr m.contentLength
    some { s with
      oldOidStr := oldOidStr
      oldPartsProbableDelRecList := s.oldPartsProbableDelRecList ++
        [simpleDeleteRecord r.bucket (oldOidStr ++ ascii "-" ++ s.newOidStr) {} m s.oldObjectOid
          s.oldLayoutId] }

/-- `how_many_kv_to_write`. -/
def howManyKvToWrite : Nat → Nat → Nat := howManyKvUpTo maxPutMultipartExtendedEntries

def savePartialProbableListMetadata (s : State) : State :=
  { s with phase := .putPartialKeyval (howManyKvToWrite s.kvList.length s.totalProcessedCount) }

/-- `validate_request_body` puts what it reads into the action. -/
def State.withBody (s : State) (body : RequestedParts × Bytes) : State :=
  { s with action := { s.action with
    parts := body.1
    totalParts := body.2 } }

/-- A request that is turned down. -/
def respondInvalidRequest (s : State) (code : String) : State :=
  respondError r { s with actionState := .validationFailed } code

/-- `next` before the cleanup has started.  There is no result where an exception ends the server. -/
def next (e : Event) : List Task → State → Option State
  | tasks, s =>
    match e.clientReadError with
    | some code => some (clientReadError r s code)
    | none =>
      match tasks with
      | [] => some (done s)
      | task :: rest =>
        if e.clientConnected then
          let s := { s with taskList := rest }
          match task with
          | .loadMetadata => some { s with phase := .loadBucketMetadata }
          | .setAuthorizationMeta => next e rest s
          | .checkAuthorization => some { s with phase := .checkAuthorization }
          | .loadAndValidateRequest =>
            if r.dataLength = 0 then some (respondInvalidRequest r s "MalformedXML")
            else if r.hasAllBodyContent then
              match validateRequestBody r.document with
              | .ok body => next e rest (s.withBody body)
              | .error .malformedXML => some (respondInvalidRequest r s "MalformedXML")
              | .error .invalidPartOrder => some (respondInvalidRequest r s "InvalidPartOrder")
              | .error .exception => none
            else some { s with phase := .listenForIncomingData }
          | .fetchMultipartInfo => some { s with phase := .loadMultipartMetadata }
          | .getNextPartsInfo => some (getNextPartsInfoTask r e s)
          | .addObjectOidToProbableDeadOidList =>
            if s.oldObjectOid = {} then next e rest s
            else
              match addPartObjectToProbableDeadOidList r s with
              | none => none
              | some s =>
                let s := { s with
                  kvList := SortedMap.ofWrites (ownKeys s.oldPartsProbableDelRecList) }
                if s.kvList = [] then next e rest s
                else if s.kvList.length ≤ maxPutMultipartExtendedEntries then
                  some { s with phase := .putProbableRecords }
                else some (savePartialProbableListMetadata s)
          | .saveMetadata => some { s with phase := .saveObjectMetadata }
          | .deleteMultipartMetadata => some { s with phase := .removeMultipartMetadata }
          | .deletePartListIndex => some { s with phase := .removePartIndex }
          | .sendResponseToS3Client => some (sendResponseToS3Client r s)
        else some (startcleanup r s)

/-! ### The handlers -/

/-- `fetch_bucket_info_failed`. -/
def fetchBucketInfoFailed (s : State) (result : OpResult) : State :=
  let s := { s with actionState := .validationFailed }
  if result = .missing then respondError r s "NoSuchBucket" else respondFailure r s result

/-- `fetch_object_info_failed`. -/
def fetchObjectInfoFailed (e : Event) (s : State) (result : OpResult) : Option State :=
  if result = .missing then next r e s.taskList s else some (respondFailure r s result)

/-- `fetch_object_info_success`. -/
def fetchObjectInfoSuccess (e : Event) (s : State) : Option State :=
  let s := { s with
    objectFound := true
    objectMetadata := { r.objectMetadata with extended := none } }
  if r.objectMetadata.isObjectExtended then some { s with phase := .loadExtendedMetadata }
  else next r e s.taskList s

/-- `fetch_ext_object_info_success`. -/
def fetchExtObjectInfoSuccess (e : Event) (s : State) : Option State :=
  next r e s.taskList { s with objectMetadata := r.objectMetadata }

/-- `consume_incoming_content`. -/
def consumeIncomingContent (e : Event) (s : State) : Option State :=
  match e.clientReadError with
  | some code => some (clientReadError r { s with actionState := .validationFailed } code)
  | none =>
    if e.bodyComplete then
      match validateRequestBody r.document with
      | .ok body => next r e s.taskList (s.withBody body)
      | .error .exception => none
      | .error _ => some (respondInvalidRequest r s "MalformedXML")
    else some s

/-- `fetch_multipart_info_success`. -/
def fetchMultipartInfoSuccess (e : Event) (s : State) : Option State :=
  let current := s.objectFound && s.objectMetadata.oid ≠ r.multipartMetadata.oldOid
  let oldObjectOid := if current then s.objectMetadata.oid else r.multipartMetadata.oldOid
  let s := { s with
    oldObjectOid := oldObjectOid
    oldLayoutId := if current then s.objectMetadata.layoutId else r.multipartMetadata.oldLayoutId
    oldOidStr := if oldObjectOid ≠ {} then S3M0Uint128Helper.toString oldObjectOid else s.oldOidStr
    newOidStr := S3M0Uint128Helper.toString r.upload.newObjectOid }
  next r e s.taskList s

/-- `fetch_multipart_info_failed`. -/
def fetchMultipartInfoFailed (s : State) (result : OpResult) : State :=
  let s := { s with actionState := .validationFailed }
  if result = .missing then respondError r s "InvalidObjectState" else respondFailure r s result

/-- What follows a batch of parts. -/
def afterBatch (e : Event) (s : State) : BatchOutcome → Option State
  | .failed .exception => none
  | .failed (.s3Error code) => some (respondInvalidRequest r s code)
  | .finished a => next r e s.taskList { s with action := a }
  | .continueFetching a =>
    -- `start_response`
    some (getNextPartsInfoTask r e { s with
      action := a
      responseStarted := true })

/-- `get_next_parts_info_successful` and `get_next_parts_info_failed`. -/
def nextKeyvalAnswered (e : Event) (s : State) : Option State :=
  match e.result with
  | .success =>
    afterBatch r e s (getNextPartsInfoSuccessful r.upload r.md5String maxMultipartExtendedEntries
      e.keyValues s.action)
  | .missing => afterBatch r e s (getNextPartsInfoMissing r.md5String s.action)
  | result => some (respondFailure r { s with actionState := .validationFailed } result)

/-- `add_object_oid_to_probable_dead_oid_list_success`. -/
def addObjectOidSuccess (e : Event) (s : State) : Option State :=
  next r e s.taskList { s with actionState := .probableEntryRecordSaved }

/-- `add_object_oid_to_probable_dead_oid_list_failed`. -/
def addObjectOidFailed (s : State) (result : OpResult) : State :=
  respondFailure r { s with actionState := .probableEntryRecordFailed } result

/-- `save_partial_probable_list_metadata_successful`. -/
def savePartialSuccessful (e : Event) (s : State) (processedCount : Nat) : Option State :=
  let s := { s with totalProcessedCount := (s.totalProcessedCount + processedCount) % 2 ^ 32 }
  if s.totalProcessedCount < s.kvList.length then some (savePartialProbableListMetadata s)
  else addObjectOidSuccess r e s

/-- `save_object_metadata_failed`. -/
def saveObjectMetadataFailed (s : State) (result : OpResult) : State :=
  let s := { s with actionState := .metadataSaveFailed }
  if result = .failedToLaunch then respondError r s "ServiceUnavailable"
  else sendResponseToS3Client r s

/-- `remove_old_oid_probable_record`. -/
def removeOldOidProbableRecord (s : State) : State :=
  if s.oldPartsProbableDelRecList = [] then nextInCleanup r s.cleanupTaskList s
  else { s with phase := .deleteOldRecords }

/-- `remove_old_fragments`. -/
def removeOldFragments (s : State) : State :=
  if s.objectMetadata.isObjectExtended ∧
      ((s.objectMetadata.extended.map (·.extObjects)).getD []) ≠ [] then
    { s with phase := .removeExtendedMetadata }
  else removeOldOidProbableRecord r s

/-- `delete_old_object_success`. -/
def deleteOldObjectSuccess (s : State) : State :=
  let s := { s with oldObjOids := s.oldObjOids.dropLast }
  if s.oldObjOids ≠ [] then nextInCleanup r (.deleteOldObject :: s.cleanupTaskList) s
  else { s with phase := .removeVersionMetadata }

/-- The call that the action waits for has been answered. -/
def step (s : State) (e : Event) : Option State :=
  match s.phase with
  | .loadBucketMetadata =>
    if e.result = .success then some { s with phase := .loadObjectMetadata }
    else some (fetchBucketInfoFailed r s e.result)
  | .loadObjectMetadata =>
    if e.result = .success then fetchObjectInfoSuccess r e s
    else fetchObjectInfoFailed r e s e.result
  | .loadExtendedMetadata =>
    if e.result = .success then fetchExtObjectInfoSuccess r e s
    -- the state that is looked at is that of the object's own metadata, which has been loaded
    else some (respondError r s "InternalError")
  | .checkAuthorization =>
    if e.result = .success then next r e s.taskList s else some (done s)
  | .listenForIncomingData => consumeIncomingContent r e s
  | .loadMultipartMetadata =>
    if e.result = .success then fetchMultipartInfoSuccess r e s
    else some (fetchMultipartInfoFailed r s e.result)
  | .nextKeyval => nextKeyvalAnswered r e s
  | .putProbableRecords =>
    if e.result = .success then addObjectOidSuccess r e s
    else some (addObjectOidFailed r s e.result)
  | .putPartialKeyval howMany =>
    if e.result = .success then savePartialSuccessful r e s howMany
    else some (addObjectOidFailed r s e.result)
  | .saveObjectMetadata =>
    if e.result = .success then
      next r e s.taskList { s with
        objMetadataUpdated := true
        actionState := .metadataSaved }
    else some (saveObjectMetadataFailed r s e.result)
  | .removeMultipartMetadata => next r e s.taskList s
  | .removePartIndex => next r e s.taskList s
  | .putOldRecords => some (nextInCleanup r s.cleanupTaskList s)
  | .deleteObject =>
    if e.result = .success then some (deleteOldObjectSuccess r s)
    else some (nextInCleanup r s.cleanupTaskList s)
  | .removeVersionMetadata => some (removeOldFragments r s)
  | .removeExtendedMetadata => some (removeOldOidProbableRecord r s)
  | .deleteOldRecords => some (nextInCleanup r s.cleanupTaskList s)
  | .putLeakCheckRecord => some (nextInCleanup r s.cleanupTaskList s)
  | .deleteNewRecords => some (nextInCleanup r s.cleanupTaskList s)
  | .idle => none

/-- The tasks in the order they are added. -/
def setupSteps : List Task :=
  [.loadMetadata] ++
    (if r.authDisabled then [] else [.setAuthorizationMeta, .checkAuthorization]) ++
    [.loadAndValidateRequest, .fetchMultipartInfo, .getNextPartsInfo,
      .addObjectOidToProbableDeadOidList, .saveMetadata, .deleteMultipartMetadata,
      .deletePartListIndex, .sendResponseToS3Client]

/-- The action when its first task has launched the load of the bucket's metadata. -/
def initial : State where
  phase := .loadBucketMetadata
  taskList := (setupSteps r).tail
  objectMetadata :=
    { objectName := r.upload.objectName
      oid := {}
      layoutId := 0
      pvidStr := []
      contentLength := 0
      versionKeyInIndex := []
      objVersionKey := [] }

end Tasks

end S3PostCompleteAction

end CortxS3
