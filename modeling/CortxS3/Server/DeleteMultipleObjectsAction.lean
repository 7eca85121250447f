/-
The delete of several objects in one request, `S3DeleteMultipleObjectsAction`.

The keys of the request are handled in batches.  For each batch the action reads the metadata of the
objects, loads the extended metadata of those in parts, notes all their Motr objects in the
probable-delete index, and deletes the metadata and the extended metadata.  When the last batch is
through it answers the client, and then it deletes the Motr objects of all batches and the records.

The action runs as a machine: it waits for one call of Motr at a time, and an event is how this call
was answered.  A call on several keys has a result of its own and one for each key.  Which handler is
called depends on the first only; for the delete of objects it is that of success when one of them
was deleted.

The object list index holds metadata that can be parsed, values that cannot, and possibly values that
are empty.  Of the extended index only the object that an entry names is kept.  The vectors of layouts
and pool versions are left out, and so is quiet mode, which only renders less of the response.  `validate_attrs` refuses nothing outside of fault injection.
-/
import CortxS3.Server.ProbableDeleteRecord
import CortxS3.Lib.Runs

namespace CortxS3

namespace S3DeleteMultipleObjectsAction

/-! ### The indexes and the objects -/

/-- A value of the object list index. -/
inductive IndexValue where
  | empty
  | corrupt
  | object (m : S3ObjectMetadata)
deriving DecidableEq

structure World where
  objectList : Bytes → Option IndexValue
  extendedIndex : Bytes → Option M0Uint128
  probableDeleteIndex : Bytes → Option S3ProbableDeleteRecord
  /-- The Motr objects that have been deleted. -/
  deleted : List M0Uint128 := []

/-- An index without the keys of a list that a delete did not leave. -/
def removeKeys {α : Type} (keys : List Bytes) (left : Bytes → Bool) (index : Bytes → Option α) :
    Bytes → Option α :=
  fun k => if keys.elem k && !left k then none else index k

/-- An index with the pairs of a list that a put has stored. -/
def putPairs {α : Type} (pairs : List (Bytes × α)) (stored : Bytes → Bool)
    (index : Bytes → Option α) : Bytes → Option α :=
  fun k => if stored k then (SortedMap.get k pairs).or (index k) else index k

/-! ### The request and the response -/

/-- The request, the bucket it is for, and the configuration. -/
structure Request where
  bucket : BucketIndexes
  objectKeys : List Bytes
  /-- `motr_idx_fetch_count`. -/
  fetchCount : Nat
  /-- `is_s3server_obj_delayed_del_enabled`. -/
  delayedDelete : Bool

/-- `S3DeleteMultipleObjectsBody::get_keys`. -/
def Request.getKeys (r : Request) (index count : Nat) : List Bytes :=
  if index + count ≤ r.objectKeys.length then (r.objectKeys.drop index).take count
  else if index < r.objectKeys.length then r.objectKeys.drop index
  else []

inductive S3ErrorCode where
  | InternalError
  | ServiceUnavailable
deriving DecidableEq

inductive Response where
  | error (code : S3ErrorCode)
  | deleteResult (success : List Bytes) (error : List (Bytes × S3ErrorCode))
deriving DecidableEq

/-! ### The state -/

/-- The call the action waits for. -/
inductive Phase where
  | fetchObjectsInfo
  /-- The extended metadata of `m` is loaded, between objects that are done and some to come. -/
  | fetchObjectsExtendedInfo (before : List S3ObjectMetadata) (m : S3ObjectMetadata)
      (after : List S3ObjectMetadata)
  | putProbableDelete (deleteList : List (Bytes × S3ProbableDeleteRecord))
  | deleteObjectsMetadata
  | deleteExtendedMetadata
  | deleteObjects
  | deleteProbable
  | done
  /-- An exception has ended the process. -/
  | crashed
  /-- Nothing is waited for, and no response was sent. -/
  | stuck

structure State where
  world : World
  phase : Phase
  keysToDelete : List Bytes := []
  deleteIndexInReq : Nat := 0
  objectsMetadata : List S3ObjectMetadata := []
  /-- Never cleared. -/
  extendedKeysListToBeDeleted : List Bytes := []
  extendedOidsToDelete : List M0Uint128 := []
  oidsToDelete : List M0Uint128 := []
  probableOidList : List (Bytes × S3ProbableDeleteRecord) := []
  atLeastOneDeleteSuccessful : Bool := false
  success : List Bytes := []
  error : List (Bytes × S3ErrorCode) := []
  s3Error : Option S3ErrorCode := none
  response : Option Response := none

section Steps

variable (r : Request)

/-! ### The end -/

/-- `cleanup_oid_from_probable_dead_oid_list`. -/
def cleanupOidFromProbableDeadOidList (s : State) : State :=
  if s.probableOidList = [] then { s with phase := .done } else { s with phase := .deleteProbable }

def cleanup (s : State) : State :=
  if s.oidsToDelete = [] then cleanupOidFromProbableDeadOidList s
  else if r.delayedDelete then { s with phase := .done }
  else { s with phase := .deleteObjects }

/-- `send_response_to_s3_client`. -/
def sendResponseToS3Client (s : State) : State :=
  let response :=
    match s.s3Error with
    | some code => Response.error code
    | none => Response.deleteResult s.success s.error
  cleanup r { s with response := some response }

/-! ### A batch -/

/-- `fetch_objects_info`.  Without an object list index no key has been taken from the request. -/
def fetchObjectsInfo (s : State) : State :=
  if r.bucket.objectListIndexOid = {} then
    sendResponseToS3Client r { s with success := s.success ++ s.keysToDelete }
  else if s.deleteIndexInReq < r.objectKeys.length then
    let keys := r.getKeys s.deleteIndexInReq r.fetchCount
    { s with
      keysToDelete := keys
      deleteIndexInReq := s.deleteIndexInReq + keys.length
      phase := .fetchObjectsInfo }
  else { s with phase := .stuck }

/-- What follows a batch that did not end in an error: the next one, or the response. -/
def fetchRemaining (s : State) : State :=
  if s.deleteIndexInReq < r.objectKeys.length then fetchObjectsInfo r s
  else sendResponseToS3Client r s

/-- The same for a batch from which nothing was deleted. -/
def fetchRemainingOrFail (s : State) : State :=
  if s.deleteIndexInReq < r.objectKeys.length then fetchObjectsInfo r s
  else if s.atLeastOneDeleteSuccessful then sendResponseToS3Client r s
  else sendResponseToS3Client r { s with s3Error := some .InternalError }

/-- How many fragments `_add_oids_to_probable_dead_oid_list` goes through. -/
def totalObjects (m : S3ObjectMetadata) : Nat :=
  if m.numberOfParts = 0 then m.numberOfFragments + 1 else m.numberOfFragments

/-- The record of a part. -/
def partRecord (bucket : BucketIndexes) (m : S3ObjectMetadata) (frag : S3PartFragContext) :
    S3ProbableDeleteRecord :=
  { recordKey := sizeBasedBucketingOfObjects (S3M0Uint128Helper.toString frag.motrOID) frag.itemSize
    oldObjectOid := {}
    objectKeyInIndex := m.objectName
    currentObjectOid := frag.motrOID
    objectLayoutId := frag.layoutId
    pvidStr := S3M0Uint128Helper.fidToString frag.pvid
    objectListIdxOid := bucket.objectsVersionListIndexOid
    objectsVersionListIdxOid := bucket.objectsVersionListIndexOid
    versionKeyInIndex := []
    partListIdxOid := bucket.extendedMetadataIndexOid }

/-- The records of an object, `_add_object_oid_to_probable_dead_oid_list` or
`_add_oids_to_probable_dead_oid_list`.  There are none when the extended metadata was not loaded, and
nothing stands for the exception at a part that is missing from it. -/
def objectRecords (bucket : BucketIndexes) (m : S3ObjectMetadata) :
    Option (List S3ProbableDeleteRecord) :=
  if m.numberOfFragments = 0 then
    some [S3DeleteObjectAction.addObjectOidToProbableDeadOidList bucket m]
  else if m.extended = none then some []
  else
    (List.range (totalObjects m)).mapM fun i =>
      (S3DeleteObjectAction.fragmentAt m (i + 1)).map (partRecord bucket m)

/-- The keys an object adds to `extended_keys_list_to_be_deleted`. -/
def objectExtendedKeys (m : S3ObjectMetadata) : List Bytes :=
  if m.numberOfFragments = 0 then []
  else (m.extended.map (·.getExtendedEntriesKeyList)).getD []

/-- The identifiers an object adds to `extended_oids_to_delete`, given its records. -/
def objectExtendedOids (m : S3ObjectMetadata) (records : List S3ProbableDeleteRecord) :
    List M0Uint128 :=
  if m.numberOfFragments = 0 then [] else records.map (·.currentObjectOid)

/-- `add_object_oid_to_probable_dead_oid_list`. -/
def addObjectOidToProbableDeadOidList (s : State) : State :=
  match s.objectsMetadata.mapM (objectRecords r.bucket) with
  | none => { s with phase := .crashed }
  | some records =>
    let pairs := ownKeys records.flatten
    { s with
      probableOidList := pairs.foldl (fun l p => SortedMap.set p.1 p.2 l) s.probableOidList
      extendedKeysListToBeDeleted :=
        s.extendedKeysListToBeDeleted ++ s.objectsMetadata.flatMap objectExtendedKeys
      extendedOidsToDelete := s.extendedOidsToDelete ++
        (s.objectsMetadata.zip records).flatMap fun p => objectExtendedOids p.1 p.2
      phase := .putProbableDelete (SortedMap.ofWrites pairs) }

/-- `fetch_objects_extended_info` and its handlers: the next object in parts is loaded, and behind
the last one the records are put. -/
def fetchObjectsExtendedInfo (s : State) :
    List S3ObjectMetadata → List S3ObjectMetadata → State
  | before, [] => addObjectOidToProbableDeadOidList r { s with objectsMetadata := before }
  | before, m :: after =>
    if m.numberOfFragments = 0 then fetchObjectsExtendedInfo s (before ++ [m]) after
    else { s with phase := .fetchObjectsExtendedInfo before m after }

/-- The metadata that a pair of the index holds. -/
def objectOf (kv : Bytes × Option IndexValue) : Option S3ObjectMetadata :=
  match kv.2 with
  | some (.object m) => some { m with extended := none }
  | _ => none

/-- The key of a pair whose value cannot be parsed. -/
def corruptKey (kv : Bytes × Option IndexValue) : Option Bytes :=
  match kv.2 with
  | some .corrupt => some kv.1
  | _ => none

/-- The key of a pair without a value. -/
def missingKey (kv : Bytes × Option IndexValue) : Option Bytes :=
  match kv.2 with
  | none => some kv.1
  | some .empty => some kv.1
  | _ => none

/-- `fetch_objects_info_successful`. -/
def fetchObjectsInfoSuccessful (s : State) (kvps : List (Bytes × Option IndexValue)) : State :=
  let objects := kvps.filterMap objectOf
  let s := { s with
    objectsMetadata := objects
    extendedOidsToDelete := []
    success := s.success ++ kvps.filterMap missingKey
    error := s.error ++ (kvps.filterMap corruptKey).map fun k => (k, .InternalError) }
  if objects = [] then fetchRemainingOrFail r s else fetchObjectsExtendedInfo r s [] objects

/-- `fetch_objects_info_failed`. -/
def fetchObjectsInfoFailed (s : State) (missing : Bool) : State :=
  if missing then fetchRemaining r { s with success := s.success ++ s.keysToDelete }
  else sendResponseToS3Client r { s with s3Error := some .InternalError }

/-- `get_keyval_successful`: the pairs that were read, in the order of their keys.  No key that could
be read is a failure. -/
def getKeyvalSuccessful (s : State) (unreadable : Bytes → Bool) : State :=
  let kvps := SortedMap.ofWrites
    (s.keysToDelete.map fun k => (k, if unreadable k then none else s.world.objectList k))
  if kvps.all (·.2.isNone) then fetchObjectsInfoFailed r s true
  else fetchObjectsInfoSuccessful r s kvps

/-- `delete_extended_metadata_successful`.  For each object the identifiers of all parts of the batch
are appended. -/
def deleteExtendedMetadataSuccessful (s : State) : State :=
  fetchRemaining r { s with
    atLeastOneDeleteSuccessful := true
    success := s.success ++ s.objectsMetadata.map (·.objectName)
    oidsToDelete := s.oidsToDelete ++
      s.objectsMetadata.flatMap fun m => m.oid :: s.extendedOidsToDelete }

/-- `delete_extended_metadata`. -/
def deleteExtendedMetadata (s : State) : State :=
  if s.extendedKeysListToBeDeleted = [] then deleteExtendedMetadataSuccessful r s
  else { s with phase := .deleteExtendedMetadata }

/-- The result for each key of a delete is -ENOENT.  The second of two equal keys does not find what
the first has removed. -/
def missingResults (left : Bytes → Bool) : (Bytes → Option IndexValue) → List Bytes → List Bool
  | _, [] => []
  | index, k :: rest =>
    ((index k).isNone && !left k) :: missingResults left (removeKeys [k] left index) rest

/-- `delete_objects_metadata_failed` for an operation that was launched, with the results for the
keys.  Every result but -ENOENT is a failure. -/
def deleteObjectsMetadataFailed (s : State) (missing : List Bool) : State :=
  let results := s.objectsMetadata.zip missing
  fetchRemainingOrFail r { s with
    atLeastOneDeleteSuccessful := s.atLeastOneDeleteSuccessful || results.any (·.2)
    success := s.success ++ (results.filter (·.2)).map (·.1.objectName)
    error := s.error ++
      (results.filter (!·.2)).map fun p => (p.1.objectName, .InternalError) }

/-! ### The machine -/

/-- How an operation on an index ended. -/
inductive OpResult where
  | success
  | failed
  | failedToLaunch
deriving DecidableEq

/-- The answers of Motr. -/
inductive Event where
  | fetched (unreadable : Bytes → Bool)
  | fetchFailed (missing : Bool)
  | extendedLoaded (ext : Option S3ObjectExtendedMetadata)
  | probablePut (result : OpResult) (stored : Bytes → Bool)
  | metadataDeleted (result : OpResult) (left : Bytes → Bool)
  | extendedDeleted (result : OpResult) (left : Bytes → Bool)
  /-- Which objects could not be deleted, and which were not there. -/
  | objectsDeleted (failed missing : M0Uint128 → Bool)
  | objectsDeleteFailedToLaunch
  | probableDeleted (result : OpResult) (left : Bytes → Bool)

/-- A delete of keys as the indexes see it. -/
def OpResult.left (result : OpResult) (left : Bytes → Bool) : Bytes → Bool :=
  match result with
  | .failedToLaunch => fun _ => true
  | _ => left

/-- The answer to `put_keyval`. -/
def probablePut (s : State) (deleteList : List (Bytes × S3ProbableDeleteRecord))
    (result : OpResult) (stored : Bytes → Bool) : State :=
  match result with
  | .failedToLaunch => sendResponseToS3Client r { s with s3Error := some .ServiceUnavailable }
  | .failed =>
    sendResponseToS3Client r { s with
      world.probableDeleteIndex := putPairs deleteList stored s.world.probableDeleteIndex
      s3Error := some .InternalError }
  | .success =>
    { s with
      world.probableDeleteIndex := putPairs deleteList stored s.world.probableDeleteIndex
      phase := .deleteObjectsMetadata }

/-- The answer to the delete of metadata. -/
def metadataDeleted (s : State) (result : OpResult) (left : Bytes → Bool) : State :=
  let keys := s.objectsMetadata.map (·.objectName)
  let s' := { s with world.objectList := removeKeys keys left s.world.objectList }
  match result with
  | .failedToLaunch => sendResponseToS3Client r { s with s3Error := some .ServiceUnavailable }
  | .failed => deleteObjectsMetadataFailed r s' (missingResults left s.world.objectList keys)
  | .success => deleteExtendedMetadata r s'

/-- The answer to the delete of objects: `cleanup_successful` or `cleanup_failed`, where what is
erased has no size prefix. -/
def objectsDeleted (s : State) (failed missing : M0Uint128 → Bool) : State :=
  let s' := { s with world.deleted := s.world.deleted ++ s.oidsToDelete.filter (!failed ·) }
  if s.oidsToDelete.any fun oid => !failed oid && !missing oid then
    cleanupOidFromProbableDeadOidList s'
  else
    cleanupOidFromProbableDeadOidList { s' with
      probableOidList := s.probableOidList.filter fun p =>
        !((s.oidsToDelete.filter failed).map S3M0Uint128Helper.toString).elem p.1 }

/-- One answer.  There is none but the one that is waited for. -/
def step (s : State) (e : Event) : Option State :=
  match s.phase, e with
  | .fetchObjectsInfo, .fetched unreadable => some (getKeyvalSuccessful r s unreadable)
  | .fetchObjectsInfo, .fetchFailed missing => some (fetchObjectsInfoFailed r s missing)
  | .fetchObjectsExtendedInfo before m after, .extendedLoaded ext =>
    some (fetchObjectsExtendedInfo r s (before ++ [{ m with extended := ext }]) after)
  | .putProbableDelete deleteList, .probablePut result stored =>
    some (probablePut r s deleteList result stored)
  | .deleteObjectsMetadata, .metadataDeleted result left => some (metadataDeleted r s result left)
  | .deleteExtendedMetadata, .extendedDeleted result left =>
    some (deleteExtendedMetadataSuccessful r { s with
      world.extendedIndex := removeKeys s.extendedKeysListToBeDeleted (result.left left)
        s.world.extendedIndex })
  | .deleteObjects, .objectsDeleted failed missing => some (objectsDeleted s failed missing)
  | .deleteObjects, .objectsDeleteFailedToLaunch =>
    some (cleanupOidFromProbableDeadOidList { s with probableOidList := [] })
  | .deleteProbable, .probableDeleted result left =>
    some { s with
      world.probableDeleteIndex := removeKeys (s.probableOidList.map (·.1)) (result.left left)
        s.world.probableDeleteIndex
      phase := .done }
  | _, _ => none

/-- The state once the request is validated and the first batch is asked for. -/
def start (world : World) : State :=
  fetchObjectsInfo r { world := world, phase := .stuck }

end Steps

end S3DeleteMultipleObjectsAction

end CortxS3
