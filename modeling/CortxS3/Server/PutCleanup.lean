/-
What the actions that store an object do after the response, `startcleanup`.

The action has noted the new object and the one it replaces in the probable-delete index before it
wrote.  When it has stored the object it marks the records of the old one, puts a second record of
the new one, which the background delete looks at for leaks of parallel uploads, removes the first
one, and deletes the old object and its records.  When it has failed it marks the record of the
new object and deletes that.

The tasks of a list are started one after another, whatever becomes of them.  A task is a chain of
operations on Motr: the next one is launched when the one before has succeeded, and the first that
fails ends the task.

`S3PutObjectAction`, `S3PutChunkUploadObjectAction` and `S3PutMultiObjectAction` have the same
list of tasks and differ in what the tasks do.
-/
import CortxS3.Server.AbortMultipartAction
import CortxS3.Server.PartObjectRecords

namespace CortxS3.PutCleanup

open S3DeleteMultipleObjectsAction (putPairs removeKeys)
open PartObjectRecords (OldObjects addPartObjects)

/-! ### Operations on Motr -/

/-- A call of `delete_object`. -/
structure DeleteCall where
  oid : M0Uint128
  layoutId : Int
  pvid : M0Fid
deriving DecidableEq

/-- `delete_part` of `S3AbortMultipartAction`: the call that the action waits for.  The layout is
that of the part, the pool version that of the upload. -/
def abortedPartCall (uploadPvid : M0Fid) (s : S3AbortMultipartAction.State) : Option DeleteCall :=
  if s.phase = .deletePart then
    s.multipartParts.getLast?.map fun p => ⟨p.oid, p.layoutId, uploadPvid⟩
  else none

/-- What Motr created an object with: `created` has the layout and the pool version of each
object. -/
def DeleteCall.AsCreated (created : M0Uint128 → Option (Int × M0Fid)) (call : DeleteCall) : Prop :=
  created call.oid = some (call.layoutId, call.pvid)

inductive Op where
  | putKeyval (pairs : Puts)
  | deleteKeyval (keys : List Bytes)
  | deleteObject (call : DeleteCall)
  | removeVersionMetadata
deriving DecidableEq

/-- The operations of a task. -/
abbrev Task := List Op

/-- The probable-delete index, and the calls that were made. -/
structure World where
  index : Bytes → Option S3ProbableDeleteRecord
  deleteCalls : List DeleteCall := []
  /-- The number of operations. -/
  launched : Nat := 0

def World.perform (w : World) (a : Answer) (op : Op) : World :=
  let w := { w with launched := w.launched + 1 }
  match op with
  | .putKeyval pairs => { w with index := putPairs (SortedMap.ofWrites pairs) a.done w.index }
  | .deleteKeyval keys => { w with index := removeKeys keys (fun k => !a.done k) w.index }
  | .deleteObject call => { w with deleteCalls := w.deleteCalls ++ [call] }
  | .removeVersionMetadata => w

/-- One task, where the `n`-th operation is answered by `answers n`. -/
def runTask (answers : Nat → Answer) : Task → World → World
  | [], w => w
  | op :: rest, w =>
    let a := answers w.launched
    if a.isOk then runTask answers rest (w.perform a op) else w.perform a op

/-- The tasks of a list. -/
def start (answers : Nat → Answer) (tasks : List Task) (w : World) : World :=
  tasks.foldl (fun w task => runTask answers task w) w

/-! ### The list of tasks -/

/-- The tasks of an action, and what decides about them. -/
structure Cleanup where
  oldObjectOid : M0Uint128
  markOldOidForDeletion : Task
  addOidForParallelLeakCheck : Task
  removeNewOidProbableRecord : Task
  deleteOldObject : Task
  markNewOidForDeletion : Task
  removeOldOidProbableRecord : Task
  deleteNewObject : Task

/-- What `startcleanup` makes of the state of an action. -/
inductive Outcome where
  | stored
  | rollback
  | nothingToUndo
deriving DecidableEq

/-- `startcleanup`. -/
def Cleanup.tasks (c : Cleanup) : Outcome → List Task
  | .stored =>
    (if c.oldObjectOid ≠ {} then [c.markOldOidForDeletion] else []) ++
      [c.addOidForParallelLeakCheck, c.removeNewOidProbableRecord] ++
      if c.oldObjectOid ≠ {} then [c.deleteOldObject] else []
  | .rollback =>
    [c.markNewOidForDeletion] ++
      (if c.oldObjectOid ≠ {} then [c.removeOldOidProbableRecord] else []) ++
      [c.deleteNewObject]
  | .nothingToUndo => []

/-! ### Objects -/

/-- `probable_del_rec_list`, and the lists of identifiers, layouts and pool versions of the objects
to delete, as one. -/
structure Noted where
  probableDelRecList : List S3ProbableDeleteRecord := []
  oldObjects : List DeleteCall := []
deriving DecidableEq

/-- The three lists as one. -/
def oldObjectsOf (t : OldObjects) : List DeleteCall :=
  (t.oldObjOids.zip (t.oldObjLayoutIds.zip t.oldObjPvids)).map fun p => ⟨p.1, p.2.1, p.2.2⟩

/-- The record of an old object in one piece. -/
def oldSimpleRecord (c : PutContext) (m : S3ObjectMetadata) : S3ProbableDeleteRecord :=
  let oldOidStr := sizeBasedBucketingOfObjects (S3M0Uint128Helper.toString m.oid) m.contentLength
  let oldOidRecKey := oldOidStr ++ ascii "-" ++ S3M0Uint128Helper.toString c.newObjectOid
  simpleDeleteRecord c.bucket oldOidRecKey {} m m.oid m.layoutId

/-- What `add_object_oid_to_probable_dead_oid_list` notes of the old object. -/
def Notes (c : PutContext) (n : Noted) : Prop :=
  match c.objectMetadata with
  | none => n = {}
  | some m =>
    if m.oid = {} then n = {}
    else if m.numberOfParts ≠ 0 then
      ∃ t : OldObjects, addPartObjects c.bucket m {} t ∧
        n = { probableDelRecList := t.probableDelRecList, oldObjects := oldObjectsOf t }
    else
      n = { probableDelRecList := [oldSimpleRecord c m],
            oldObjects := [⟨m.oid, m.layoutId, S3M0Uint128Helper.toM0Fid m.pvidStr⟩] }

/-- `create_object_successful`: the metadata of the new object gets its identifier. -/
def createdContext (c : PutContext) : PutContext :=
  { c with newObjectMetadata := { c.newObjectMetadata with
      oid := c.newObjectOid
      layoutId := c.layoutId } }

section Objects

/-- `remove_old_oid_probable_record`. -/
def removeOldRecords (n : Noted) : Task :=
  if n.probableDelRecList = [] then []
  else [.deleteKeyval (n.probableDelRecList.map (·.recordKey))]

/-- `delete_old_object` and its callbacks: the objects from the last to the first, then the version
of the metadata, then the records. -/
def deleteOldObject (n : Noted) (delayedDelete : Bool) : Task :=
  if delayedDelete then []
  else if n.oldObjects = [] then []
  else n.oldObjects.reverse.map .deleteObject ++ [.removeVersionMetadata] ++ removeOldRecords n

/-- The tasks, from the key and the record of the new object. -/
def objectCleanup (c : PutContext) (newOidStr : Bytes) (newRecord : S3ProbableDeleteRecord)
    (n : Noted) (delayedDelete : Bool) : Cleanup where
  oldObjectOid := c.oldObjectOid
  markOldOidForDeletion :=
    if n.probableDelRecList = [] then []
    else [.putKeyval (ownKeys (n.probableDelRecList.map (·.setForceDelete)))]
  addOidForParallelLeakCheck := [.putKeyval (S3PutObjectAction.addOidForParallelLeakCheck c)]
  removeNewOidProbableRecord := [.deleteKeyval [newOidStr]]
  deleteOldObject := deleteOldObject n delayedDelete
  markNewOidForDeletion := [.putKeyval [(newOidStr, newRecord.setForceDelete)]]
  removeOldOidProbableRecord := removeOldRecords n
  deleteNewObject :=
    [.deleteObject ⟨c.newObjectOid, c.layoutId,
        S3M0Uint128Helper.toM0Fid c.newObjectMetadata.pvidStr⟩,
      .deleteKeyval [newOidStr]]

end Objects

namespace S3PutObjectAction

def cleanup (c : PutContext) (n : Noted) (delayedDelete : Bool) : Cleanup :=
  objectCleanup c (CortxS3.S3PutObjectAction.newOidStr c) (CortxS3.S3PutObjectAction.newRecord c) n
    delayedDelete

/-- What `add_object_oid_to_probable_dead_oid_list` puts. -/
def probableOidList (c : PutContext) (n : Noted) : Puts :=
  ownKeys n.probableDelRecList ++
    [(CortxS3.S3PutObjectAction.newOidStr c, CortxS3.S3PutObjectAction.newRecord c)]

end S3PutObjectAction

/-! ### Objects in chunks

The size of the new object, `contentLength` of the context, is that of the data, which the frames are
not part of. -/

namespace S3PutChunkUploadObjectAction

/-- `new_probable_del_rec`, which does not name the old object here. -/
def newRecord (c : PutContext) : S3ProbableDeleteRecord :=
  { CortxS3.S3PutObjectAction.newRecord c with oldObjectOid := {} }

def cleanup (c : PutContext) (n : Noted) (delayedDelete : Bool) : Cleanup :=
  objectCleanup c (CortxS3.S3PutObjectAction.newOidStr c) (newRecord c) n delayedDelete

def probableOidList (c : PutContext) (n : Noted) : Puts :=
  ownKeys n.probableDelRecList ++ [(CortxS3.S3PutObjectAction.newOidStr c, newRecord c)]

end S3PutChunkUploadObjectAction

/-! ### Parts -/

inductive S3PutPartActionState where
  | empty
  | validationFailed
  | probableEntryRecordFailed
  | newObjOidCreated
  | newObjOidCreationFailed
  | writeComplete
  | writeFailed
  | md5ValidationFailed
  | metadataSaved
  | metadataSaveFailed
  | completed
deriving DecidableEq

namespace S3PutMultiObjectAction

/-- What `startcleanup` takes a state for. -/
def outcome : S3PutPartActionState → Outcome
  | .completed | .metadataSaved => .stored
  | .newObjOidCreated | .writeFailed | .md5ValidationFailed | .metadataSaveFailed => .rollback
  | _ => .nothingToUndo

/-- `delete_keyval` of `old_oid_str + '-' + new_oid_str`, with the prefixes that both have by
then. -/
def removeOldOidProbableRecord (c : PartContext) : Task :=
  match c.oldPart with
  | none => []
  | some (oid, _, _, size) =>
    [.deleteKeyval [sizeBasedBucketingOfObjects (S3M0Uint128Helper.toString oid) size ++
      ascii "-" ++ CortxS3.S3PutMultiObjectAction.newOidStr c]]

/-- `delete_old_object`, with the pool version of the upload. -/
def deleteOldObject (c : PartContext) (uploadPvid : M0Fid) (delayedDelete : Bool) : Task :=
  if delayedDelete then []
  else
    match c.oldPart with
    | none => []
    | some (oid, layoutId, _, _) =>
      .deleteObject ⟨oid, layoutId, uploadPvid⟩ :: removeOldOidProbableRecord c

/-- The tasks of a part whose upload has the pool version `uploadPvid` in its metadata. -/
def cleanup (c : PartContext) (uploadPvid : M0Fid) (delayedDelete : Bool) : Cleanup where
  oldObjectOid := CortxS3.S3PutMultiObjectAction.oldObjectOid c
  markOldOidForDeletion := [.putKeyval (CortxS3.S3PutMultiObjectAction.markOldOidForDeletion c)]
  addOidForParallelLeakCheck :=
    [.putKeyval (CortxS3.S3PutMultiObjectAction.addOidForParallelLeakCheck c)]
  removeNewOidProbableRecord := [.deleteKeyval [CortxS3.S3PutMultiObjectAction.newOidStr c]]
  deleteOldObject := deleteOldObject c uploadPvid delayedDelete
  markNewOidForDeletion :=
    [.putKeyval [(CortxS3.S3PutMultiObjectAction.newOidStr c,
      (CortxS3.S3PutMultiObjectAction.newRecord c).setForceDelete)]]
  removeOldOidProbableRecord := removeOldOidProbableRecord c
  deleteNewObject :=
    [.deleteObject ⟨c.newObjectOid, c.layoutId, uploadPvid⟩,
      .deleteKeyval [CortxS3.S3PutMultiObjectAction.newOidStr c]]

end S3PutMultiObjectAction

/-! ### A run that stores its object -/

/-- The index after a run that has put `noted` before the upload and stored its object, where every
operation succeeds. -/
def indexAfter (noted : Puts) (c : Cleanup) (index : Bytes → Option S3ProbableDeleteRecord) :
    Bytes → Option S3ProbableDeleteRecord :=
  (start (fun _ => .ok) (c.tasks .stored)
    { index := putPairs (SortedMap.ofWrites noted) (fun _ => true) index }).index

/-- The key of the record for the leak check of parallel uploads. -/
def leakCheckKey (oid : M0Uint128) : Bytes :=
  sizeBasedBucketingOfObjects (S3M0Uint128Helper.toString oid) 0

/-- The record for the leak check of an object. -/
def leakCheckRecord (c : PutContext) : S3ProbableDeleteRecord :=
  { simpleDeleteRecord c.bucket (leakCheckKey c.newObjectOid) c.oldObjectOid
      (createdContext c).newObjectMetadata c.newObjectOid c.layoutId with
    extendedMdIdxOid := c.bucket.extendedMetadataIndexOid
    extVersionId := c.newObjectMetadata.objVersionKey }

/-- The record for the leak check of a part. -/
def partLeakCheckRecord (c : PartContext) : S3ProbableDeleteRecord :=
  CortxS3.S3PutMultiObjectAction.partRecord c (leakCheckKey c.newObjectOid)
    (CortxS3.S3PutMultiObjectAction.oldObjectOid c) c.newObjectOid c.layoutId c.pvidStr

/-- The record for the leak check is in the index, and the one from before the upload is not. -/
def LeakCheckKept (leakCheck new : Bytes × S3ProbableDeleteRecord)
    (index : Bytes → Option S3ProbableDeleteRecord) : Prop :=
  index leakCheck.1 = some leakCheck.2 ∧ index new.1 ≠ some new.2

end CortxS3.PutCleanup
