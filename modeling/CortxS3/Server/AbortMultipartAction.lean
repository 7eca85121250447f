/-
Giving up an upload in parts, `S3AbortMultipartAction`.

The action loads the metadata of the upload, reads the index of its parts batch by batch, notes the
Motr objects of the parts in the probable-delete index, and deletes the metadata of the upload and the
index.  After the response it marks the records, deletes the Motr objects from the last part to the
first and would then remove the records.

The server is built without assertions.  The model notes when the condition of one is false
(`assertionFailed`) and goes on.

The action waits for one call of Motr at a time.  When a call on one key fails, nothing has changed;
a put of several keys that fails may have stored some of them.  The shutdown of the server is left out.
-/
import CortxS3.Server.DeleteMultipleObjectsAction
import CortxS3.Server.PartMetadata

namespace CortxS3

namespace S3AbortMultipartAction

open S3DeleteMultipleObjectsAction (putPairs removeKeys)

/-- `MAX_PUT_MULTIPART_PART_ENTRIES`. -/
def maxPutMultipartPartEntries : Nat := 100

/-- `MAXIMUM_PART_NUMBER`, which no part is stored beyond. -/
def maximumPartNumber : Nat := 10000

/-- The index of the parts of an upload.  A value that cannot be parsed is `none`. -/
structure PartIndex where
  entries : List (Bytes × Option S3PartMetadata)
  sorted : OrderedIndex.Sorted entries
  /-- Every key is a number. -/
  named : ∀ kv ∈ entries, kv.1 ≠ []
  bounded : entries.length ≤ maximumPartNumber
  /-- A Motr object holds one part. -/
  distinct : ((entries.filterMap (·.2)).map (·.oid)).Nodup

/-- The parts that can be parsed. -/
def PartIndex.parts (i : PartIndex) : List S3PartMetadata := i.entries.filterMap (·.2)

structure Request where
  parts : PartIndex
  partIndexOid : M0Uint128
  /-- The identifier in the metadata of the upload. -/
  uploadOid : M0Uint128
  /-- `get_motr_idx_fetch_count`. -/
  fetchCount : Nat

inductive S3AbortMultipartActionState where
  | empty
  | validationFailed
  | probableEntryRecordFailed
  | uploadMetadataDeleted
  | uploadMetadataDeleteFailed
  | partsListIndexDeleted
  | partsListIndexDeleteFailed
  | completed
deriving DecidableEq

/-- The call the action waits for. -/
inductive Phase where
  | getMultipartMetadata
  | getNextParts
  | addPartsOidsToProbableDeadOidList
  /-- So many records are put. -/
  | saveMetadataInStages (howMany : Nat)
  | deleteMultipartMetadata
  | deletePartIndexWithParts
  | markOidsForDeletion
  | deletePart
  | removeProbableRecords
  | done
deriving DecidableEq

inductive Response where
  | success
  | error
deriving DecidableEq

structure State where
  phase : Phase
  actionState : S3AbortMultipartActionState := .empty
  probableDeleteIndex : Bytes → Option S3ProbableDeleteRecord
  /-- The Motr objects that have been deleted. -/
  deleted : List M0Uint128 := []
  multipartParts : List S3PartMetadata := []
  lastKey : Bytes := []
  /-- `oid_str`, which nothing assigns. -/
  oidStr : Bytes := []
  /-- `probable_oid_list`, in the order of the map. -/
  probableOidList : Puts := []
  probableDelRecList : List S3ProbableDeleteRecord := []
  totalProcessedCount : Nat := 0
  response : Option Response := none
  /-- How the delete of the metadata of the upload was answered. -/
  uploadDeleted : Option Bool := none
  /-- A call has failed since. -/
  laterFailed : Bool := false
  assertionFailed : Bool := false

def State.assert (s : State) (c : Bool) : State :=
  { s with assertionFailed := s.assertionFailed || !c }

section Steps

variable (r : Request)

/-- The record of a part. -/
def partRecord (p : S3PartMetadata) : S3ProbableDeleteRecord where
  recordKey := sizeBasedBucketingOfObjects (S3M0Uint128Helper.toString p.oid) p.contentLength
  oldObjectOid := {}
  objectKeyInIndex := ascii (toString p.partNumber)
  currentObjectOid := p.oid
  objectLayoutId := p.layoutId
  pvidStr := p.pvidStr
  objectListIdxOid := r.partIndexOid
  objectsVersionListIdxOid := {}
  versionKeyInIndex := []
  isMultipart := true
  partListIdxOid := r.partIndexOid
  fragment := 1
  part := p.partNumber
  mpParentOid := r.uploadOid

/-! ### After the response -/

def removeProbableRecords (s : State) : State :=
  let s := s.assert (s.oidStr ≠ [])
  if s.actionState = .partsListIndexDeleted then { s with phase := .removeProbableRecords }
  else { s with phase := .done }

def deletePart (s : State) : State :=
  if s.multipartParts = [] then { s with phase := .done } else { s with phase := .deletePart }

def markOidsForDeletion (s : State) : State :=
  let s := s.assert (s.oidStr ≠ [])
  if s.probableDelRecList = [] then deletePart s
  else
    { s with
      probableDelRecList := s.probableDelRecList.map (·.setForceDelete)
      phase := .markOidsForDeletion }

def startcleanup (s : State) : State :=
  match s.actionState with
  | .empty => { s with phase := .done }
  | .validationFailed => { s with phase := .done }
  | .probableEntryRecordFailed => { s with phase := .done }
  | .uploadMetadataDeleteFailed => removeProbableRecords s
  | _ => markOidsForDeletion s

def sendResponseToS3Client (s : State) (response : Response) : State :=
  match response with
  | .error => startcleanup { s with response := some .error }
  | .success => startcleanup { s with response := some .success, actionState := .completed }

/-! ### Up to it -/

def deletePartIndexWithParts (s : State) : State :=
  if r.partIndexOid = {} then sendResponseToS3Client s .success
  else { s with phase := .deletePartIndexWithParts }

/-- `how_many_kv_to_write`. -/
def howManyKvToWrite : Nat → Nat → Nat := howManyKvUpTo maxPutMultipartPartEntries

/-- With the assertions of `put_partial_keyval`. -/
def saveMetadataInStages (s : State) : State :=
  let size := s.probableOidList.length
  let howMany := howManyKvToWrite size s.totalProcessedCount
  let s := s.assert (size ≠ 0)
  let s := s.assert (howMany ≠ 0)
  let s := s.assert (s.totalProcessedCount < size)
  let s := s.assert (howMany ≤ size)
  { s with phase := .saveMetadataInStages howMany }

def addPartsOidsToProbableDeadOidList (s : State) : State :=
  if s.multipartParts = [] then { s with phase := .deleteMultipartMetadata }
  else
    let records := s.multipartParts.map (partRecord r)
    let s := { s with
      probableDelRecList := records
      probableOidList := SortedMap.ofWrites (ownKeys records) }
    if records.length ≤ maxPutMultipartPartEntries then
      { s with phase := .addPartsOidsToProbableDeadOidList }
    else saveMetadataInStages s

/-- A call after the delete of the metadata. -/
def State.noted (s : State) (e : Answer) : State :=
  { s with laterFailed := s.laterFailed || !e.isOk }

/-- `get_next_parts_successful`, and `get_next_parts_failed` when there is nothing left. -/
def getNextPartsSuccessful (s : State) : State :=
  let kvps := OrderedIndex.next r.parts.entries s.lastKey r.fetchCount false
  match kvps.getLast? with
  | none => addPartsOidsToProbableDeadOidList r s
  | some kv =>
    let s := { s with
      multipartParts := s.multipartParts ++ kvps.filterMap (·.2)
      lastKey := kv.1 }
    if kvps.length < r.fetchCount then addPartsOidsToProbableDeadOidList r s
    else { s with phase := .getNextParts }

def addPartsOidsFailed (s : State) : State :=
  sendResponseToS3Client { s with actionState := .probableEntryRecordFailed } .error

def onSaveMetadataInStages (s : State) (howMany : Nat) (e : Answer) : State :=
  let batch := (s.probableOidList.drop s.totalProcessedCount).take howMany
  let s := { s with
    probableDeleteIndex := putPairs batch e.done s.probableDeleteIndex }
  if e.isOk then
    let s := { s with totalProcessedCount := (s.totalProcessedCount + howMany) % 2 ^ 32 }
    if s.totalProcessedCount < s.probableOidList.length then saveMetadataInStages s
    else { s with phase := .deleteMultipartMetadata }
  else addPartsOidsFailed s

/-- `multipart_parts.erase(multipart_parts.end())` takes the last part off. -/
def deletePartsSuccessful (s : State) : State :=
  match s.multipartParts.getLast? with
  | none => s
  | some p =>
    let s := { s with
      deleted := s.deleted ++ [p.oid]
      multipartParts := s.multipartParts.dropLast }
    if s.multipartParts ≠ [] then deletePart s else removeProbableRecords s

def step (s : State) (e : Answer) : Option State :=
  match s.phase with
  | .getMultipartMetadata =>
    if e.isOk then some { s with phase := .getNextParts }
    else some (sendResponseToS3Client { s with actionState := .validationFailed } .error)
  | .getNextParts =>
    if e.isOk then some (getNextPartsSuccessful r s)
    else some (sendResponseToS3Client s .error)
  | .addPartsOidsToProbableDeadOidList =>
    let s := { s with
      probableDeleteIndex := putPairs s.probableOidList e.done s.probableDeleteIndex }
    if e.isOk then some { s with phase := .deleteMultipartMetadata }
    else some (addPartsOidsFailed s)
  | .saveMetadataInStages howMany => some (onSaveMetadataInStages s howMany e)
  | .deleteMultipartMetadata =>
    let s := { s with uploadDeleted := some e.isOk }
    if e.isOk then
      some (deletePartIndexWithParts r { s with actionState := .uploadMetadataDeleted })
    else
      some (sendResponseToS3Client { s with actionState := .uploadMetadataDeleteFailed } .error)
  | .deletePartIndexWithParts =>
    let actionState : S3AbortMultipartActionState :=
      if e.isOk then .partsListIndexDeleted else .partsListIndexDeleteFailed
    some (sendResponseToS3Client { s.noted e with actionState := actionState } .success)
  | .markOidsForDeletion =>
    some (deletePart { s.noted e with
      probableDeleteIndex :=
        putPairs (SortedMap.ofWrites (ownKeys s.probableDelRecList)) e.done
          s.probableDeleteIndex })
  | .deletePart =>
    if e.isOk then some (deletePartsSuccessful s)
    else some { s.noted e with phase := .done }
  | .removeProbableRecords =>
    let index := if e.isOk then
        removeKeys (s.probableDelRecList.map (·.recordKey)) (fun _ => false) s.probableDeleteIndex
      else s.probableDeleteIndex
    some { s.noted e with probableDeleteIndex := index, phase := .done }
  | .done => none

/-- The bucket has been found. -/
def start (index : Bytes → Option S3ProbableDeleteRecord) : State :=
  { phase := .getMultipartMetadata, probableDeleteIndex := index }

end Steps

end S3AbortMultipartAction

end CortxS3
