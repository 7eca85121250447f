/-
The delete of one object, `S3DeleteObjectAction`.

The action notes the Motr objects of the object in the probable-delete index, deletes the metadata,
answers the client, marks the records and then deletes the Motr objects and the records.  With delayed
delete it leaves the last to the background delete.  When the metadata cannot be deleted, the records
are removed again.

An object in one piece has one record, which is put before the metadata is deleted.  For an object in
parts the records are made then, but put only when they are marked.

The action runs as a machine that waits for one call of Motr at a time.  A call on one key is atomic: when
it fails nothing has changed.  A put of several keys that fails may have stored some of them.

The object list and the version list are modelled as far as this object goes.  The layouts and pool
versions that go along with the identifiers are left out, and so are the assertions, which the server
is built without.
-/
import CortxS3.Server.ProbableDeleteRecord
import CortxS3.Lib.Runs

namespace CortxS3

namespace S3DeleteObjectAction

/-- `MAX_OIDS_FOR_DELETION`. -/
def maxOidsForDeletion : Nat := 30

structure World where
  /-- The entry of the object in the object list. -/
  objectList : Option S3ObjectMetadata
  /-- The entry of its version in the version list. -/
  versionList : Bool
  extendedIndex : Bytes → Option M0Uint128
  probableDeleteIndex : Bytes → Option S3ProbableDeleteRecord
  /-- The Motr objects that have been deleted. -/
  deleted : List M0Uint128 := []

structure Request where
  bucket : BucketIndexes
  /-- The metadata as it was loaded, with the extended metadata of an object in parts. -/
  objectMetadata : S3ObjectMetadata
  /-- `is_s3server_obj_delayed_del_enabled`. -/
  delayedDelete : Bool

inductive S3DeleteObjectActionState where
  | empty
  | probableEntryRecordFailed
  | metadataDeleted
  | metadataDeleteFailed
deriving DecidableEq

/-- The call the action waits for. -/
inductive Phase where
  | addObjectOidToProbableDeadOidList
  | removeObjectMetadata
  /-- The version entry that `S3ObjectMetadata::remove` deletes after the object's. -/
  | removeVersionMetadata
  | markOidForDeletion
  | markOidsForDeletion
  /-- A part of the records is put, of this size. -/
  | markOidsForDeletionPartially (howMany : Nat)
  | deleteObject
  | removeProbableRecord
  /-- The Motr object of the last part in `extended_objects` is deleted. -/
  | deleteObjects
  /-- `remove_version_metadata`, after the parts were deleted or left to the background delete. -/
  | removeVersionOfParts
  | removeFragments
  | removeOidsFromProbableRecordIndex
  | done
  /-- An exception has ended the process. -/
  | crashed
  /-- Nothing is waited for, and the action is not done. -/
  | stuck
deriving DecidableEq

inductive Response where
  | noContent
  | internalError
deriving DecidableEq

structure State where
  world : World
  phase : Phase
  actionState : S3DeleteObjectActionState := .empty
  /-- `probable_delete_rec`. -/
  probableDeleteRec : Option S3ProbableDeleteRecord := none
  probableDelRecList : List S3ProbableDeleteRecord := []
  /-- `extended_objects`. -/
  extendedObjects : List M0Uint128 := []
  totalProcessedCount : Nat := 0
  response : Option Response := none
  /-- A call on an index has failed since the response. -/
  cleanupFailed : Bool := false

/-! ### The indexes -/

def World.putRecord (w : World) (key : Bytes) (r : S3ProbableDeleteRecord) : World :=
  { w with probableDeleteIndex := fun k => if k = key then some r else w.probableDeleteIndex k }

def World.removeRecord (w : World) (key : Bytes) : World :=
  { w with probableDeleteIndex := fun k => if k = key then none else w.probableDeleteIndex k }

/-- Several records are put, of which a failed put has stored some. -/
def World.putRecords (w : World) (pairs : Puts) (stored : Bytes → Bool) : World :=
  (pairs.filter fun p => stored p.1).foldl (fun w p => w.putRecord p.1 p.2) w

/-! ### The records of the parts -/

/-- The pairs that `mark_oids_for_deletion` puts, in the order of the map they are collected in. -/
def markedRecords (records : List S3ProbableDeleteRecord) : Puts :=
  SortedMap.ofWrites (ownKeys (records.map (·.setForceDelete)))

/-- `how_many_kv_to_write`. -/
def howManyKvToWrite : Nat → Nat → Nat := howManyKvUpTo maxOidsForDeletion

/-- What `extended_objects` holds after `add_oids_to_probable_dead_oid_list`. -/
def partOids (m : S3ObjectMetadata) : List M0Uint128 :=
  if m.numberOfParts = 0 then []
  else (List.range m.numberOfFragments).filterMap fun i => (fragmentAt m (i + 1)).map (·.motrOID)

/-- `oid_str`, which stays empty for an object in parts. -/
def State.oidStr (s : State) : Bytes := (s.probableDeleteRec.map (·.recordKey)).getD []

section Steps

variable (r : Request)

/-! ### After the metadata is deleted -/

def deleteObjects (s : State) : State :=
  if r.delayedDelete then { s with phase := .removeVersionOfParts }
  else if s.extendedObjects ≠ [] then { s with phase := .deleteObjects }
  else { s with phase := .stuck }

def markOidsForDeletion (s : State) : State :=
  if s.probableDelRecList = [] then deleteObjects r s
  else if s.probableDelRecList.length ≤ maxOidsForDeletion then
    { s with phase := .markOidsForDeletion }
  else
    { s with
      phase := .markOidsForDeletionPartially
        (howManyKvToWrite s.probableDelRecList.length s.totalProcessedCount) }

def deleteObject (s : State) : State :=
  if r.objectMetadata.oid ≠ {} ∧ r.delayedDelete then { s with phase := .done }
  else { s with phase := .deleteObject }

def removeOidsFromProbableRecordIndex (s : State) : State :=
  if s.probableDelRecList = [] then { s with phase := .done }
  else { s with phase := .removeOidsFromProbableRecordIndex }

/-- `remove_fragments` and `remove_fragments_keyval`, where there is nothing to remove. -/
def afterFragments (s : State) : State :=
  if r.delayedDelete then { s with phase := .done } else removeOidsFromProbableRecordIndex s

/-- The keys `S3ObjectExtendedMetadata::remove` deletes. -/
def extendedKeys : List Bytes :=
  if r.objectMetadata.isObjectExtended then
    (r.objectMetadata.extended.map (·.getExtendedEntriesKeyList)).getD []
  else []

def removeFragments (s : State) : State :=
  if extendedKeys r = [] then afterFragments r s else { s with phase := .removeFragments }

/-! ### The response -/

def startcleanup (s : State) : State :=
  match s.actionState with
  | .probableEntryRecordFailed => { s with phase := .done }
  | .metadataDeleted =>
    if r.objectMetadata.numberOfFragments > 0 then markOidsForDeletion r s
    else { s with phase := .markOidForDeletion }
  | .metadataDeleteFailed => { s with phase := .removeProbableRecord }
  | .empty => { s with phase := .done }

def sendResponseToS3Client (s : State) (response : Response) : State :=
  startcleanup r { s with response := some response }

/-! ### Up to it -/

/-- `populate_probable_dead_oid_list`.  Records and parts are collected; an exception is thrown when a part
is missing from the extended metadata. -/
def populate (s : State) : State :=
  let m := r.objectMetadata
  if m.numberOfFragments = 0 then
    { s with
      probableDeleteRec := some (addObjectOidToProbableDeadOidList r.bucket m)
      phase := .addObjectOidToProbableDeadOidList }
  else
    match addOidsToProbableDeadOidList r.bucket m with
    | none => { s with phase := .crashed }
    | some records =>
      { s with
        probableDelRecList := records
        extendedObjects := partOids m
        phase := .removeObjectMetadata }

/-- A call of the cleanup, whose failure is passed over. -/
def State.noted (s : State) (e : Answer) : State :=
  { s with cleanupFailed := s.cleanupFailed || !e.isOk }

def onDeleteMetadata (s : State) (e : Answer) : State :=
  if e.isOk then
    { s with
      world := { s.world with objectList := none }
      phase := .removeVersionMetadata }
  else
    sendResponseToS3Client r { s with actionState := .metadataDeleteFailed } .internalError

def onMarkPartially (s : State) (howMany : Nat) (e : Answer) : State :=
  let batch := ((markedRecords s.probableDelRecList).drop s.totalProcessedCount).take howMany
  let s : State := { s.noted e with world := s.world.putRecords batch e.done }
  if e.isOk then
    let s : State := { s with totalProcessedCount := (s.totalProcessedCount + howMany) % 2 ^ 32 }
    if s.totalProcessedCount < s.probableDelRecList.length then markOidsForDeletion r s
    else deleteObjects r s
  else deleteObjects r s

def onDeleteObjects (s : State) (e : Answer) : State :=
  if e.isOk then
    match s.extendedObjects.getLast? with
    | none => { s with phase := .done }
    | some oid =>
      let s : State := { s with
        world := { s.world with deleted := s.world.deleted ++ [oid] }
        extendedObjects := s.extendedObjects.dropLast }
      if s.extendedObjects ≠ [] then deleteObjects r s
      else { s with phase := .removeVersionOfParts }
  else { s with phase := .done }

def step (s : State) (e : Answer) : Option State :=
  match s.phase with
  | .addObjectOidToProbableDeadOidList =>
    match s.probableDeleteRec with
    | none => none
    | some rec =>
      if e.isOk then
        some { s with
          world := s.world.putRecord rec.recordKey rec
          phase := .removeObjectMetadata }
      else
        some (sendResponseToS3Client r { s with actionState := .probableEntryRecordFailed }
          .internalError)
  | .removeObjectMetadata => some (onDeleteMetadata r s e)
  | .removeVersionMetadata =>
    -- its failure is taken for a success
    some (sendResponseToS3Client r
      { s with
        world := { s.world with versionList := s.world.versionList && !e.isOk }
        actionState := .metadataDeleted } .noContent)
  | .markOidForDeletion =>
    match s.probableDeleteRec with
    | none => none
    | some rec =>
      let world :=
        if e.isOk then s.world.putRecord rec.recordKey rec.setForceDelete else s.world
      some (deleteObject r { s.noted e with
        world := world
        probableDeleteRec := some rec.setForceDelete })
  | .markOidsForDeletion =>
    some (deleteObjects r { s.noted e with
      world := s.world.putRecords (markedRecords s.probableDelRecList) e.done })
  | .markOidsForDeletionPartially howMany => some (onMarkPartially r s howMany e)
  | .deleteObject =>
    if e.isOk then
      some { s with
        world := { s.world with deleted := s.world.deleted ++ [r.objectMetadata.oid] }
        phase := .removeProbableRecord }
    else some { s with phase := .done }
  | .removeProbableRecord =>
    let world := if e.isOk then s.world.removeRecord s.oidStr else s.world
    some { s.noted e with world := world, phase := .done }
  | .deleteObjects => some (onDeleteObjects r s e)
  | .removeVersionOfParts =>
    some (removeFragments r { s.noted e with
      world := { s.world with versionList := s.world.versionList && !e.isOk } })
  | .removeFragments =>
    let index := if e.isOk then
        fun k => if (extendedKeys r).elem k then none else s.world.extendedIndex k
      else s.world.extendedIndex
    some (afterFragments r { s.noted e with world := { s.world with extendedIndex := index } })
  | .removeOidsFromProbableRecordIndex =>
    let world := if e.isOk then
        (s.probableDelRecList.map (·.recordKey)).foldl World.removeRecord s.world
      else s.world
    some { s.noted e with world := world, phase := .done }
  | .done => none
  | .crashed => none
  | .stuck => none

/-- The metadata has been loaded. -/
def start (w : World) : State :=
  populate r { world := w, phase := .done }

end Steps

end S3DeleteObjectAction

end CortxS3
