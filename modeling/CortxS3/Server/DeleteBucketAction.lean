/-
Deleting a bucket, `S3DeleteBucketAction`.

A bucket may go when its object list is empty.  The action asks for one key of the object list,
lists the uploads in progress to find their part indexes, and then deletes the part indexes, the
multipart index, the object list, the list of versions, the extended metadata and the entry of
the bucket, in this order.  Each call of Motr ends in one of two handlers, and a handler goes on
with the next task or answers the client.

What Motr makes of the calls is given (`MotrAnswers`).  A call that is served does what it was
asked to do; so reading an index finds what is in it, and deleting an index ends well or finds
none (`missing`), which is the same to every handler here.  All other ends of a call leave the
index as it was.

`multipart_object_oids` is never filled, so `delete_multipart_objects` has nothing to do; the
table of upload ids is only walked over to log a warning.  Both are left out.
-/
import CortxS3.Server.BucketMetadataCache
import CortxS3.Server.ProbableDeleteRecord

namespace CortxS3

namespace S3DeleteBucketAction

/-- How a call of the reader ends.  What a call that is `served` finds is in the index. -/
inductive ReaderAnswer where
  | served
  | failed
  | failedE2big
  | failedToLaunch
deriving DecidableEq

/-- How a call of the writer ends.  A call that is `served` leaves no index behind. -/
inductive WriterAnswer where
  | served
  | failed
  | failedToLaunch
deriving DecidableEq

/-- What Motr makes of the calls of one request. -/
structure MotrAnswers where
  /-- The state of the bucket metadata once they are loaded. -/
  loadBucket : S3BucketMetadataState
  firstObject : ReaderAnswer
  /-- The answers to one NEXT after another on the multipart index. -/
  uploads : Nat → ReaderAnswer
  /-- `delete_indices` is launched. -/
  partIndexesLaunched : Bool
  /-- Its operation on the part index of the upload with this key is served. -/
  partIndex : Bytes → Bool
  multipartIndex : WriterAnswer
  objectListIndex : WriterAnswer
  versionListIndex : WriterAnswer
  extendedMetadataIndex : WriterAnswer
  /-- The state of the bucket metadata once they are removed; `none` when all went well. -/
  removeBucket : Option S3BucketMetadataState

/-- A bucket in Motr: the indexes that exist, and what two of them hold. -/
structure Bucket extends BucketIndexes where
  multipartIndexOid : M0Uint128
  indices : List M0Uint128
  /-- A zero oid stands for no index. -/
  noZero : ({} : M0Uint128) ∉ indices
  objectList : List (Bytes × Bytes)
  uploadList : List (Bytes × Bytes)
  /-- Motr hands keys out in order, and has none that is empty. -/
  ordered : OrderedIndex.Sorted uploadList
  named : ∀ kv ∈ uploadList, kv.1 ≠ []

/-- What NEXT walks over: an index that does not exist has nothing in it. -/
def Bucket.objects (b : Bucket) : List (Bytes × Bytes) :=
  if b.objectListIndexOid ∈ b.indices then b.objectList else []

def Bucket.uploads (b : Bucket) : List (Bytes × Bytes) :=
  if b.multipartIndexOid ∈ b.indices then b.uploadList else []

inductive Response where
  | success204
  | error (code : String)
deriving DecidableEq

end S3DeleteBucketAction

open S3DeleteBucketAction in
/-- The action, and what its calls have left in Motr. -/
structure S3DeleteBucketAction where
  lastKey : Bytes := []
  isBucketEmpty : Bool := false
  deleteSuccessful : Bool := false
  multipartPresent : Bool := false
  /-- The part indexes, each with the key of its upload. -/
  partIdxLayouts : List (Bytes × M0Uint128) := []
  error : Option String := none
  indices : List M0Uint128
  bucketPresent : Bool := true
  responses : List Response := []
  /-- How often `done()` has been called. -/
  doneCalls : Nat := 0
deriving DecidableEq

namespace S3DeleteBucketAction

/-- `send_response_to_s3_client`. -/
def sendResponseToS3Client (a : S3DeleteBucketAction) : S3DeleteBucketAction :=
  let response := match a.error with
    | some code => .error code
    | none => if a.deleteSuccessful then .success204 else .error "InternalError"
  { a with
    responses := a.responses ++ [response]
    doneCalls := a.doneCalls + 1 }

/-- `set_s3_error` and the answer. -/
def failWith (a : S3DeleteBucketAction) (code : String) : S3DeleteBucketAction :=
  { a with error := some code }.sendResponseToS3Client

section

variable (motr : MotrAnswers) (b : Bucket) (fetchCount : Nat)
  (fromJson : Bytes → Option M0Uint128)

/-- `delete_bucket`, with `delete_bucket_successful` and `delete_bucket_failed`. -/
def deleteBucket (a : S3DeleteBucketAction) : S3DeleteBucketAction :=
  match motr.removeBucket with
  | none =>
    { a with
      bucketPresent := false
      deleteSuccessful := true }.sendResponseToS3Client
  | some .missing => a.failWith "NoSuchBucket"
  | some .failedToLaunch => a.failWith "ServiceUnavailable"
  | some _ => a.failWith "InternalError"

/-- What the removals of the four indexes have in common: `delete_index` and its handlers. -/
def removeIndex (oid : M0Uint128) (answer : WriterAnswer)
    (next : S3DeleteBucketAction → S3DeleteBucketAction) (a : S3DeleteBucketAction) :
    S3DeleteBucketAction :=
  match answer with
  | .served => next { a with indices := a.indices.filter (· ≠ oid) }
  | .failedToLaunch => a.failWith "ServiceUnavailable"
  | .failed => a.failWith "InternalError"

/-- `remove_extended_metadata_index`. -/
def removeExtendedMetadataIndex (a : S3DeleteBucketAction) : S3DeleteBucketAction :=
  if b.extendedMetadataIndexOid = {} then deleteBucket motr a
  else removeIndex b.extendedMetadataIndexOid motr.extendedMetadataIndex (deleteBucket motr) a

/-- `remove_objects_version_list_index`. -/
def removeObjectsVersionListIndex (a : S3DeleteBucketAction) : S3DeleteBucketAction :=
  if b.objectsVersionListIndexOid = {} then removeExtendedMetadataIndex motr b a
  else
    removeIndex b.objectsVersionListIndexOid motr.versionListIndex
      (removeExtendedMetadataIndex motr b) a

/-- `remove_object_list_index`. -/
def removeObjectListIndex (a : S3DeleteBucketAction) : S3DeleteBucketAction :=
  if b.objectListIndexOid = {} then removeObjectsVersionListIndex motr b a
  else
    removeIndex b.objectListIndexOid motr.objectListIndex (removeObjectsVersionListIndex motr b) a

/-- `remove_multipart_index`. -/
def removeMultipartIndex (a : S3DeleteBucketAction) : S3DeleteBucketAction :=
  if a.multipartPresent then
    removeIndex b.multipartIndexOid motr.multipartIndex (removeObjectListIndex motr b) a
  else removeObjectListIndex motr b a

/-- `remove_part_indexes`.  Both of its handlers go on when some of the indexes are left, or all
of them. -/
def removePartIndexes (a : S3DeleteBucketAction) : S3DeleteBucketAction :=
  if a.partIdxLayouts = [] then removeMultipartIndex motr b a
  else if motr.partIndexesLaunched then
    let removed := (a.partIdxLayouts.filter fun p => motr.partIndex p.1).map Prod.snd
    removeMultipartIndex motr b { a with indices := a.indices.filter (· ∉ removed) }
  else a.failWith "ServiceUnavailable"

/-- The loop of `fetch_multipart_objects_successful`; `length` counts the pairs that are
left. -/
def readUploads : S3DeleteBucketAction → Nat → Nat → List (Bytes × Bytes) → S3DeleteBucketAction
  | a, _, _, [] => a
  | a, length, returnListSize, kv :: rest =>
    let a := match fromJson kv.2 with
      | none => a
      | some oid => { a with partIdxLayouts := a.partIdxLayouts ++ [(kv.1, oid)] }
    if length - 1 = 0 ∨ returnListSize + 1 = fetchCount then { a with lastKey := kv.1 }
    else readUploads a (length - 1) (returnListSize + 1) rest

/-- `fetch_multipart_objects`, for the `n`-th time, with `fetch_multipart_objects_successful`.
The handler of its failure is `next`, whatever has failed. -/
def fetchMultipartObjects : Nat → Nat → S3DeleteBucketAction → S3DeleteBucketAction
  | 0, _, a => a
  | fuel + 1, n, a =>
    if b.multipartIndexOid = {} then removePartIndexes motr b a
    else
      let a := { a with multipartPresent := true }
      let kvps := (OrderedIndex.after b.uploads a.lastKey).take fetchCount
      if motr.uploads n = .served ∧ kvps ≠ [] then
        let a := readUploads fetchCount fromJson a kvps.length 0 kvps
        if kvps.length < fetchCount then removePartIndexes motr b a
        else fetchMultipartObjects fuel (n + 1) a
      else removePartIndexes motr b a

/-- `fetch_first_object_metadata` and its handlers.  `fetch_first_object_metadata_failed` has no
branch for a reader that gave up at the size of the reply. -/
def fetchFirstObjectMetadata (a : S3DeleteBucketAction) : S3DeleteBucketAction :=
  let next := fun a : S3DeleteBucketAction =>
    fetchMultipartObjects motr b fetchCount fromJson (b.uploads.length + 1) 0
      { a with isBucketEmpty := true }
  if b.objectListIndexOid = {} then next a
  else
    match motr.firstObject with
    | .served => if b.objects.take 1 ≠ [] then a.failWith "BucketNotEmpty" else next a
    | .failed => a.failWith "BucketNotEmpty"
    | .failedToLaunch => a.failWith "ServiceUnavailable"
    | .failedE2big => a

/-- A request, from the loading of the bucket metadata to its end. -/
def run : S3DeleteBucketAction :=
  let a : S3DeleteBucketAction := { indices := b.indices }
  match motr.loadBucket with
  | .present => fetchFirstObjectMetadata motr b fetchCount fromJson a
  | .failedToLaunch => a.failWith "ServiceUnavailable"
  | .missing => a.failWith "NoSuchBucket"
  | _ => a.failWith "InternalError"

end

end S3DeleteBucketAction

end CortxS3
