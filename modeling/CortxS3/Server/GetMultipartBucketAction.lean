/-
Listing the uploads in progress in a bucket, `S3GetMultipartBucketAction`.

The action reads the multipart index of the bucket in batches with NEXT, behind the key marker of the
client, filters the keys by the prefix, rolls them up by the delimiter, and answers when it has as many
uploads as the client asked for or a batch was not full.

The loop over a batch leaves out the values that cannot be parsed, and its end out of a pair that it
leaves out: `last_key` is written at the last pair of the batch only if that is not one of these.

The shutdown of the server and the rendering of the answer are left out.
-/
import CortxS3.Server.GetBucketAction
import CortxS3.Lib.SortedMap

namespace CortxS3

namespace S3GetMultipartBucketAction

/-- What the listing uses of the metadata of an upload. -/
structure Upload where
  objectName : Bytes
  uploadId : Bytes
deriving DecidableEq

/-- What the `S3ObjectListResponse` of a listing of uploads has. -/
structure MultipartObjectList where
  objectList : List Upload := []
  /-- A `std::set`. -/
  commonPrefixes : List (Bytes × Unit) := []
  responseIsTruncated : Bool := false
  nextMarkerKey : Bytes := []
  nextMarkerUploadid : Bytes := []
deriving DecidableEq

def MultipartObjectList.addObject (l : MultipartObjectList) (object : Upload) :
    MultipartObjectList :=
  { l with objectList := l.objectList ++ [object] }

def MultipartObjectList.addCommonPrefix (l : MultipartObjectList) (pfx : Bytes) :
    MultipartObjectList :=
  { l with commonPrefixes := SortedMap.set pfx () l.commonPrefixes }

end S3GetMultipartBucketAction

open S3GetMultipartBucketAction in
structure S3GetMultipartBucketAction where
  requestMarkerKey : Bytes
  requestMarkerUploadid : Bytes
  requestPrefix : Bytes
  requestDelimiter : Bytes
  maxUploads : Nat
  /-- The metadata of the bucket is present. -/
  bucketPresent : Bool := true
  /-- The multipart index of the bucket has a zero oid. -/
  noIndex : Bool := false
  lastKey : Bytes
  lastUploadid : Bytes
  returnListSize : Nat := 0
  multipartObjectList : MultipartObjectList := {}
  fetchSuccessful : Bool := false
  error : Option String := none
deriving DecidableEq

namespace S3GetMultipartBucketAction

/-- `object_list_setup`. -/
def objectListSetup (keyMarker uploadIdMarker pfx delimiter : Bytes) (maxUploads : Nat) :
    S3GetMultipartBucketAction :=
  { requestMarkerKey := keyMarker
    requestMarkerUploadid := uploadIdMarker
    requestPrefix := pfx
    requestDelimiter := delimiter
    maxUploads := maxUploads
    lastKey := keyMarker
    lastUploadid := uploadIdMarker }

/-- What the action does next: wait for a NEXT, or answer the client. -/
inductive Outcome where
  | launch (a : S3GetMultipartBucketAction) (req : NextRequest)
  | respond (a : S3GetMultipartBucketAction)
deriving DecidableEq

def addObject (a : S3GetMultipartBucketAction) (object : Upload) : S3GetMultipartBucketAction :=
  { a with
    returnListSize := a.returnListSize + 1
    multipartObjectList := a.multipartObjectList.addObject object }

/-- A key that is rolled up when the delimiter is found in it, and listed otherwise. -/
def addOrRollUp (a : S3GetMultipartBucketAction) (key : Bytes) (object : Upload)
    (delimiterPos : Option Nat) : S3GetMultipartBucketAction :=
  match delimiterPos with
  | none => a.addObject object
  | some pos =>
    { a with multipartObjectList := a.multipartObjectList.addCommonPrefix (key.take (pos + 1)) }

/-- The four combinations of prefix and delimiter. -/
def filterUpload (a : S3GetMultipartBucketAction) (key : Bytes) (object : Upload) :
    S3GetMultipartBucketAction :=
  if a.requestPrefix = [] ∧ a.requestDelimiter = [] then a.addObject object
  else if a.requestPrefix ≠ [] ∧ a.requestDelimiter = [] then
    if find a.requestPrefix key = some 0 then a.addObject object else a
  else if a.requestPrefix = [] ∧ a.requestDelimiter ≠ [] then
    a.addOrRollUp key object (find a.requestDelimiter key)
  else if find a.requestPrefix key = some 0 then
    a.addOrRollUp key object (findFrom a.requestDelimiter key a.requestPrefix.length)
  else a

section

variable (fetchCount : Nat) (fromJson : Bytes → Option Upload)

/-- The loop of `get_next_objects_successful`; `length` counts the pairs that are left. -/
def readUploads : S3GetMultipartBucketAction → Nat → Bool → List KeyValue →
    S3GetMultipartBucketAction
  | a, _, _, [] => a
  | a, length, skipMarkerKey, kv :: rest =>
    match fromJson kv.2 with
    | none => readUploads a (length - 1) skipMarkerKey rest
    | some object =>
      let check := skipMarkerKey && a.requestMarkerUploadid ≠ [] && a.requestMarkerKey ≠ []
      let skipMarkerKey := skipMarkerKey && !check
      if check ∧ a.requestMarkerKey = kv.1 ∧ object.uploadId = a.requestMarkerUploadid then
        readUploads a (length - 1) skipMarkerKey rest
      else
        let a := a.filterUpload kv.1 object
        if length - 1 = 0 ∨ a.returnListSize = a.maxUploads then
          { a with
            lastKey := kv.1
            lastUploadid := object.uploadId }
        else readUploads a (length - 1) skipMarkerKey rest

/-- `get_next_objects`. -/
def getNextObjects (a : S3GetMultipartBucketAction) : Outcome :=
  if !a.bucketPresent then .respond { a with error := "NoSuchBucket" }
  else if a.noIndex then .respond { a with fetchSuccessful := true }
  else .launch a { key := a.lastKey, count := fetchCount, inclusive := false }

/-- `get_next_objects_successful`. -/
def getNextObjectsSuccessful (a : S3GetMultipartBucketAction) (kvps : List KeyValue) : Outcome :=
  let a := readUploads fromJson a kvps.length true kvps
  if a.returnListSize = a.maxUploads ∨ kvps.length < fetchCount then
    .respond { a with
      multipartObjectList := { a.multipartObjectList with
        responseIsTruncated :=
          a.multipartObjectList.responseIsTruncated || decide (a.returnListSize = a.maxUploads)
        nextMarkerKey := a.lastKey
        nextMarkerUploadid := a.lastUploadid }
      fetchSuccessful := true }
  else getNextObjects fetchCount a

/-- `get_next_objects_failed`. -/
def getNextObjectsFailed (a : S3GetMultipartBucketAction) : NextResult → Outcome
  | .missing => .respond { a with fetchSuccessful := true }
  | .failedToLaunch => .respond { a with error := "ServiceUnavailable" }
  | _ => .respond { a with error := "InternalError", fetchSuccessful := false }

/-- The handler that the reader calls. -/
def onNextKeyval (a : S3GetMultipartBucketAction) : NextResult → Outcome
  | .present kvps => getNextObjectsSuccessful fetchCount fromJson a kvps
  | result => getNextObjectsFailed a result

/-- The action against a multipart index, from a given outcome to its answer. -/
def serve (index : List KeyValue) : Nat → Outcome → Option S3GetMultipartBucketAction
  | _, .respond a => some a
  | 0, .launch _ _ => none
  | fuel + 1, .launch a req =>
    serve index fuel (onNextKeyval fetchCount fromJson a (nextKeyval index req))

/-- A whole request. -/
def listUploads (index : List KeyValue) (fuel : Nat)
    (keyMarker uploadIdMarker pfx delimiter : Bytes) (maxUploads : Nat) :
    Option MultipartObjectList :=
  (serve fetchCount fromJson index fuel (getNextObjects fetchCount
    (objectListSetup keyMarker uploadIdMarker pfx delimiter maxUploads))).map
      fun a => a.multipartObjectList

/-- A client that pages through the uploads: while the answer is truncated it asks again behind
`NextKeyMarker`, with the upload-id marker that it takes from the answer.  Both the number of pages
and the NEXTs of each page are bounded by the fuel. -/
def listPages (index : List KeyValue) (uploadIdMarker : MultipartObjectList → Bytes) (fuel : Nat)
    (pfx : Bytes) (maxUploads : Nat) :
    Nat → Bytes → Bytes → Option (List MultipartObjectList)
  | 0, _, _ => none
  | pages + 1, key, uploadId =>
    match listUploads fetchCount fromJson index fuel key uploadId pfx [] maxUploads with
    | none => none
    | some r =>
      if r.responseIsTruncated then
        (listPages index uploadIdMarker fuel pfx maxUploads pages r.nextMarkerKey
          (uploadIdMarker r)).map (r :: ·)
      else some [r]

end

end S3GetMultipartBucketAction

end CortxS3
