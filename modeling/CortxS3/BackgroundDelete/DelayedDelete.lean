/-
What a delete leaves to the background delete.

With delayed delete the actions do not delete Motr objects.  `S3DeleteObjectAction` removes the entries
of the object from the object list, the version list and the extended index, and leaves its records
marked with `force_delete`.  `S3DeleteMultipleObjectsAction` removes the entries from the object list
and the extended index, not those of the version list, and leaves its records as they are.

The background delete then takes up one record after the other.
-/
import CortxS3.Server.DeleteMultipleObjectsAction
import CortxS3.BackgroundDelete.ObjectRecoveryValidator

namespace CortxS3

namespace DelayedDelete

open ObjectRecoveryValidator S3M0Uint128Helper

/-- A run of one of the actions that delete objects, in which everything succeeds.  The metadata of
an object in parts has its extended metadata loaded. -/
inductive Deletion where
  | deleteObject (bucket : BucketIndexes) (m : S3ObjectMetadata)
  | deleteMultipleObjects (bucket : BucketIndexes) (ms : List S3ObjectMetadata)

def Deletion.bucket : Deletion → BucketIndexes
  | .deleteObject bucket _ => bucket
  | .deleteMultipleObjects bucket _ => bucket

/-- The objects it deletes. -/
def Deletion.objects : Deletion → List S3ObjectMetadata
  | .deleteObject _ m => [m]
  | .deleteMultipleObjects _ ms => ms

/-- The records it leaves, or nothing when it throws. -/
def Deletion.records : Deletion → Option (List S3ProbableDeleteRecord)
  | .deleteObject bucket m =>
    (S3DeleteObjectAction.populateProbableDeadOidList bucket m).map (·.map (·.setForceDelete))
  | .deleteMultipleObjects bucket ms =>
    (ms.mapM (S3DeleteMultipleObjectsAction.objectRecords bucket)).map (·.flatten)

/-- An index without some keys. -/
def removeAll (index : Bytes) (keys : List Bytes) (s : Store) : Store :=
  keys.foldl (fun s k => s.remove index k) s

/-- The keys of the extended entries that are removed.  Those that `remove` takes out of
`get_kv_list_of_extended_entries` are the same. -/
def extendedKeys (m : S3ObjectMetadata) : List Bytes :=
  if m.isObjectExtended then (m.extended.map (·.getExtendedEntriesKeyList)).getD [] else []

/-- The indexes without the entries of an object. -/
def removeObject (bucket : BucketIndexes) (withVersion : Bool) (s : Store) (m : S3ObjectMetadata) :
    Store :=
  let s := s.remove (toString bucket.objectListIndexOid) m.objectName
  let s :=
    if withVersion then
      s.remove (toString bucket.objectsVersionListIndexOid) m.versionKeyInIndex
    else s
  removeAll (toString bucket.extendedMetadataIndexOid) (extendedKeys m) s

/-- The indexes with records, of which only the objects they are about are kept. -/
def putRecords (probableDeleteIndexId : Bytes) (records : List S3ProbableDeleteRecord) (s : Store) :
    Store :=
  records.foldl (fun s r => { s with
    kv := fun i k =>
      if i = probableDeleteIndexId ∧ k = r.recordKey then some (toString r.currentObjectOid)
      else s.kv i k }) s

/-- What it leaves behind. -/
def Deletion.leaves (d : Deletion) (probableDeleteIndexId : Bytes)
    (records : List S3ProbableDeleteRecord) (s : Store) : Store :=
  putRecords probableDeleteIndexId records <|
    match d with
    | .deleteObject bucket m => removeObject bucket true s m
    | .deleteMultipleObjects bucket ms => ms.foldl (removeObject bucket false) s

/-- Every call succeeds. -/
def Api.succeeds : Api where
  kvGet _ _ := true
  kvDelete _ _ := true
  objectDelete _ := true

/-- The records are processed, one after the other. -/
def process (probableDeleteIndexId : Bytes) (instanceId : M0Uint128) (s : Store)
    (records : List S3ProbableDeleteRecord) : Store :=
  records.foldl (fun s r =>
    processResults Api.succeeds probableDeleteIndexId r.recordKey (r.toJson instanceId) s) s

end DelayedDelete

end CortxS3
