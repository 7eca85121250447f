/-
Listing the parts of an upload, `S3GetMultipartPartAction`.

The client asks for the parts behind a marker, which is a part number in decimal and `0` when it gives
none.  The action first reads the part at the marker (`getKeyObject`), which counts towards the size of
the page but is not listed, and then the part index in batches with NEXT, starting behind the marker.

Each call of the reader ends in one of its two handlers, and each of these answers or goes on.
The shutdown of the server and the answer's rendering are left out.
-/
import CortxS3.Server.GetBucketAction
import CortxS3.Server.PartMetadata
import CortxS3.Lib.SortedMap

namespace CortxS3

/-- How a GET of one key ends, as the state of the reader tells it. -/
inductive GetResult where
  | present (value : Bytes)
  | missing
  | failedToLaunch
  | failed
deriving DecidableEq

/-- GET on an index that can be read. -/
def getKeyval (index : List KeyValue) (key : Bytes) : GetResult :=
  match index.lookup key with
  | some value => .present value
  | none => .missing

namespace S3GetMultipartPartAction

/-- What the `S3ObjectListResponse` of a part listing has. -/
structure MultipartPartList where
  /-- A `std::map<int, …>`. -/
  partList : List (Int × S3PartMetadata) := []
  responseIsTruncated : Bool := false
  nextMarkerKey : Bytes := []
deriving DecidableEq

def MultipartPartList.addPart (l : MultipartPartList) (part : S3PartMetadata) : MultipartPartList :=
  { l with partList := SortedMap.set (toInt32 part.partNumber) part l.partList }

/-- The `NextPartNumberMarker` of the answer. -/
def MultipartPartList.nextPartNumberMarker (l : MultipartPartList) : Bytes :=
  if l.nextMarkerKey = [] then ascii "0" else l.nextMarkerKey

end S3GetMultipartPartAction

open S3GetMultipartPartAction in
structure S3GetMultipartPartAction where
  requestMarkerKey : Bytes
  lastKey : Bytes
  maxParts : Nat
  /-- The upload that the client names. -/
  uploadId : Bytes
  /-- The state of the upload's metadata. -/
  multipartObjectState : S3ObjectMetadataState
  /-- The upload that the metadata is of. -/
  multipartUploadId : Bytes
  returnListSize : Nat := 0
  multipartPartList : MultipartPartList := {}
  fetchSuccessful : Bool := false
  invalidUploadId : Bool := false
  error : Option String := none
deriving DecidableEq

namespace S3GetMultipartPartAction

/-- The action with the metadata of the upload loaded. -/
def create (marker : Bytes) (maxParts : Nat) (uploadId : Bytes) (state : S3ObjectMetadataState)
    (multipartUploadId : Bytes) : S3GetMultipartPartAction :=
  let marker := if marker = [] then ascii "0" else marker
  { requestMarkerKey := marker
    lastKey := marker
    maxParts := maxParts
    uploadId := uploadId
    multipartObjectState := state
    multipartUploadId := multipartUploadId }

/-- What the action does next: wait for a GET or a NEXT, or answer the client. -/
inductive Outcome where
  | get (a : S3GetMultipartPartAction) (key : Bytes)
  | launch (a : S3GetMultipartPartAction) (req : NextRequest)
  | respond (a : S3GetMultipartPartAction)
deriving DecidableEq

section

variable (fetchCount : Nat) (fromJson : Bytes → Option S3PartMetadata)

/-- The error for an upload whose metadata is not there. -/
def respondNotPresent (a : S3GetMultipartPartAction) : Outcome :=
  .respond { a with
    error := if a.multipartObjectState = .missing then "NoSuchUpload" else "InternalError" }

/-- `get_key_object`. -/
def getKeyObject (a : S3GetMultipartPartAction) : Outcome :=
  if a.multipartObjectState = .present then
    if a.multipartUploadId = a.uploadId then .get a a.lastKey
    else .respond { a with invalidUploadId := true, error := "NoSuchUpload" }
  else respondNotPresent a

/-- `get_next_objects`. -/
def getNextObjects (a : S3GetMultipartPartAction) : Outcome :=
  if a.multipartObjectState = .present then
    .launch a { key := a.lastKey, count := fetchCount, inclusive := false }
  else respondNotPresent a

/-- `get_key_object_successful`. -/
def getKeyObjectSuccessful (a : S3GetMultipartPartAction) (value : Bytes) : Outcome :=
  let a :=
    if value ≠ [] ∧ (fromJson value).isSome then
      { a with returnListSize := a.returnListSize + 1 }
    else a
  if a.returnListSize = a.maxParts then
    .respond { a with
      multipartPartList := { a.multipartPartList with
        responseIsTruncated := true
        nextMarkerKey := a.lastKey }
      fetchSuccessful := true }
  else getNextObjects fetchCount a

/-- `get_key_object_failed`. -/
def getKeyObjectFailed (a : S3GetMultipartPartAction) (result : GetResult) : Outcome :=
  if result = .missing then getNextObjects fetchCount { a with fetchSuccessful := true }
  else .respond { a with fetchSuccessful := false, error := "InternalError" }

/-- The loop of `get_next_objects_successful`; `length` counts the pairs that are left. -/
def readParts : S3GetMultipartPartAction → Nat → List KeyValue → S3GetMultipartPartAction
  | a, _, [] => a
  | a, length, kv :: rest =>
    let a :=
      match fromJson kv.2 with
      | none => a
      | some part =>
        { a with
          multipartPartList := a.multipartPartList.addPart part
          returnListSize := a.returnListSize + 1 }
    let length := length - 1
    if length = 0 ∨ a.returnListSize = a.maxParts then { a with lastKey := kv.1 }
    else readParts a length rest

/-- `get_next_objects_successful`. -/
def getNextObjectsSuccessful (a : S3GetMultipartPartAction) (kvps : List KeyValue) : Outcome :=
  let a := readParts fromJson a kvps.length kvps
  if a.returnListSize = a.maxParts ∨ kvps.length < fetchCount then
    .respond { a with
      multipartPartList := { a.multipartPartList with
        responseIsTruncated :=
          a.multipartPartList.responseIsTruncated || decide (a.returnListSize = a.maxParts)
        nextMarkerKey := a.lastKey }
      fetchSuccessful := true }
  else getNextObjects fetchCount a

/-- `get_next_objects_failed`. -/
def getNextObjectsFailed (a : S3GetMultipartPartAction) : NextResult → Outcome
  | .missing => .respond { a with fetchSuccessful := true }
  | .failedToLaunch => .respond { a with error := "ServiceUnavailable" }
  | _ => .respond { a with fetchSuccessful := false, error := "InternalError" }

/-- The handlers that the reader calls. -/
def onGetKeyval (a : S3GetMultipartPartAction) : GetResult → Outcome
  | .present value => getKeyObjectSuccessful fetchCount fromJson a value
  | result => getKeyObjectFailed fetchCount a result

def onNextKeyval (a : S3GetMultipartPartAction) : NextResult → Outcome
  | .present kvps => getNextObjectsSuccessful fetchCount fromJson a kvps
  | result => getNextObjectsFailed a result

/-- The action against a part index, from a given outcome to its answer. -/
def serve (index : List KeyValue) : Nat → Outcome → Option S3GetMultipartPartAction
  | _, .respond a => some a
  | 0, .get _ _ | 0, .launch _ _ => none
  | fuel + 1, .get a key =>
    serve index fuel (onGetKeyval fetchCount fromJson a (getKeyval index key))
  | fuel + 1, .launch a req =>
    serve index fuel (onNextKeyval fetchCount fromJson a (nextKeyval index req))

/-- A whole request for the parts of an upload that is there. -/
def listParts (index : List KeyValue) (uploadId : Bytes) (fuel : Nat) (marker : Bytes)
    (maxParts : Nat) : Option MultipartPartList :=
  (serve fetchCount fromJson index fuel
    (getKeyObject (create marker maxParts uploadId .present uploadId))).map
      fun a => a.multipartPartList

/-- A client that pages through the parts: while the answer is truncated it asks again behind
`NextPartNumberMarker`.  Both the number of pages and the calls of the reader for each page are
bounded by the fuel. -/
def listPages (index : List KeyValue) (uploadId : Bytes) (fuel : Nat) (maxParts : Nat) :
    Nat → Bytes → Option (List MultipartPartList)
  | 0, _ => none
  | pages + 1, marker =>
    match listParts fetchCount fromJson index uploadId fuel marker maxParts with
    | none => none
    | some r =>
      if r.responseIsTruncated then
        (listPages index uploadId fuel maxParts pages r.nextPartNumberMarker).map (r :: ·)
      else some [r]

end

end S3GetMultipartPartAction

end CortxS3
