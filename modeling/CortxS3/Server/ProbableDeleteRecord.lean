/-
Probable-delete records, and the actions that write them.

Before an action makes an object live or deletes one, it notes in a global index which Motr objects
may turn out to be garbage.  The record says what the background delete has to know of the object;
which object it is stands in the key: the text of its identifier behind one character that depends
on its size, and for an object that is replaced also that of the new one.

The strings the keys are made of are members of the actions, and a prefix is put before them in
place.  So `addObjectOidToProbableDeadOidList` says what the member holds at the end, too.

A record is stored as JSON.  `ProbableDeleteJson` is what the reader finds in it; its time stamp and
the id of the Motr process, which nothing looks at, are left out.
-/
import CortxS3.Server.ObjectExtendedMetadata

namespace CortxS3

/-- `size_based_bucketing_of_objects`: one character for the size of an object is put before the
text of its identifier. -/
def sizeBasedBucketingOfObjects (oidStr : Bytes) (objSize : Nat) : Bytes :=
  (if objSize = 0 then 74
    else if objSize ≤ 1024 then 73
    else if objSize ≤ 10240 then 72
    else if objSize ≤ 52428800 then 71
    else if objSize ≤ 1073741824 then 70
    else if objSize ≤ 107374182400 then 69
    else 68) :: oidStr

/-! ### The record -/

structure S3ProbableDeleteRecord where
  recordKey : Bytes
  oldObjectOid : M0Uint128
  objectKeyInIndex : Bytes
  currentObjectOid : M0Uint128
  objectLayoutId : Int
  pvidStr : Bytes
  objectListIdxOid : M0Uint128
  objectsVersionListIdxOid : M0Uint128
  versionKeyInIndex : Bytes
  forceDelete : Bool := false
  isMultipart : Bool := false
  partListIdxOid : M0Uint128 := {}
  fragment : Nat := 0
  part : Nat := 0
  extendedMdIdxOid : M0Uint128 := {}
  extVersionId : Bytes := []
  mpParentOid : M0Uint128 := {}
deriving DecidableEq

/-- The JSON object a record is stored as. -/
structure ProbableDeleteJson where
  oldOid : Bytes
  objectKeyInIndex : Bytes
  objectLayoutId : Int
  objectListIndexOid : Bytes
  objectsVersionListIndexOid : Bytes
  globalInstanceId : Bytes
  forceDelete : Bool
  pvId : Bytes
  isMultipart : Bool
  partListIdxOid : Option Bytes
  versionKeyInIndex : Bytes
  fno : Option Nat
  part : Option Nat
  extVersionId : Option Bytes
  parentOid : Option Bytes
  extendedMdIdxOid : Option Bytes
deriving DecidableEq

namespace S3ProbableDeleteRecord

open S3M0Uint128Helper

def setForceDelete (r : S3ProbableDeleteRecord) : S3ProbableDeleteRecord :=
  { r with forceDelete := true }

def toJson (globalInstanceId : M0Uint128) (r : S3ProbableDeleteRecord) : ProbableDeleteJson :=
  { oldOid := toString r.oldObjectOid
    objectKeyInIndex := r.objectKeyInIndex
    objectLayoutId := r.objectLayoutId
    objectListIndexOid := toString r.objectListIdxOid
    objectsVersionListIndexOid := toString r.objectsVersionListIdxOid
    globalInstanceId := toString globalInstanceId
    forceDelete := r.forceDelete
    pvId := cStr r.pvidStr
    isMultipart := r.isMultipart
    partListIdxOid := if r.isMultipart then some (toString r.partListIdxOid) else none
    versionKeyInIndex := r.versionKeyInIndex
    fno := if r.fragment ≠ 0 then some r.fragment else none
    part := if r.part ≠ 0 then some r.part else none
    extVersionId := if r.fragment ≠ 0 ∨ r.part ≠ 0 then some r.extVersionId else none
    parentOid := if r.fragment ≠ 0 ∨ r.part ≠ 0 then some (toString r.mpParentOid) else none
    extendedMdIdxOid :=
      if r.fragment ≠ 0 ∨ r.part ≠ 0 then some (toString r.extendedMdIdxOid) else none }

end S3ProbableDeleteRecord

/-! ### What the records are made of -/

/-- The indexes of a bucket. -/
structure BucketIndexes where
  objectListIndexOid : M0Uint128
  objectsVersionListIndexOid : M0Uint128
  extendedMetadataIndexOid : M0Uint128

/-- What the actions use of the metadata of an object. -/
structure S3ObjectMetadata where
  objectName : Bytes
  oid : M0Uint128
  layoutId : Int
  pvidStr : Bytes
  contentLength : Nat
  versionKeyInIndex : Bytes
  objVersionKey : Bytes
  numberOfParts : Nat := 0
  numberOfFragments : Nat := 0
  /-- The extended metadata, once it is loaded. -/
  extended : Option S3ObjectExtendedMetadata := none
deriving DecidableEq

/-- `is_object_extended`: the type that `from_json` finds is not the simple one. -/
def S3ObjectMetadata.isObjectExtended (m : S3ObjectMetadata) : Bool :=
  m.numberOfFragments ≠ 0 && m.numberOfParts ≤ m.numberOfFragments

section Records

variable (bucket : BucketIndexes)

/-- The record of one part of an object in parts. -/
def partDeleteRecord (m : S3ObjectMetadata) (partNo : Nat) (frag : S3PartFragContext) :
    S3ProbableDeleteRecord :=
  { recordKey := sizeBasedBucketingOfObjects (S3M0Uint128Helper.toString frag.motrOID) frag.itemSize
    oldObjectOid := {}
    objectKeyInIndex := m.objectName
    currentObjectOid := frag.motrOID
    objectLayoutId := frag.layoutId
    pvidStr := S3M0Uint128Helper.fidToString frag.pvid
    objectListIdxOid := bucket.objectListIndexOid
    objectsVersionListIdxOid := bucket.objectsVersionListIndexOid
    versionKeyInIndex := m.versionKeyInIndex
    fragment := 1
    part := partNo
    extendedMdIdxOid := bucket.extendedMetadataIndexOid
    extVersionId := frag.versionID
    mpParentOid := m.oid }

/-- The record of an object in parts itself, which has no data. -/
def parentDeleteRecord (m : S3ObjectMetadata) (totalParts : Nat) : S3ProbableDeleteRecord :=
  { recordKey := sizeBasedBucketingOfObjects (S3M0Uint128Helper.toString m.oid) 0
    oldObjectOid := {}
    objectKeyInIndex := m.objectName
    currentObjectOid := m.oid
    objectLayoutId := 0
    pvidStr := []
    objectListIdxOid := bucket.objectListIndexOid
    objectsVersionListIdxOid := bucket.objectsVersionListIndexOid
    versionKeyInIndex := m.versionKeyInIndex
    fragment := 1
    part := totalParts
    extendedMdIdxOid := bucket.extendedMetadataIndexOid
    extVersionId := m.objVersionKey }

/-- The record of an object in one piece. -/
def simpleDeleteRecord (key : Bytes) (oldOid : M0Uint128) (m : S3ObjectMetadata) (oid : M0Uint128)
    (layoutId : Int) : S3ProbableDeleteRecord :=
  { recordKey := key
    oldObjectOid := oldOid
    objectKeyInIndex := m.objectName
    currentObjectOid := oid
    objectLayoutId := layoutId
    pvidStr := m.pvidStr
    objectListIdxOid := bucket.objectListIndexOid
    objectsVersionListIdxOid := bucket.objectsVersionListIndexOid
    versionKeyInIndex := m.versionKeyInIndex }

/-- The loop over the parts of the object that is replaced.  It looks at the first fragment of each
part only, and does not come to an end at a part that has none or whose identifier is zero. -/
def partRecords (m : S3ObjectMetadata) :
    List (Int × List S3PartFragContext) → Option (List S3ProbableDeleteRecord)
  | [] => some []
  | (_, []) :: _ => none
  | (partNo, frag :: _) :: rest =>
    if frag.motrOID = {} then none
    else (partRecords m rest).map (partDeleteRecord bucket m (toUnsigned partNo) frag :: ·)

/-- `add_part_object_to_probable_dead_oid_list`. -/
def addPartObjectToProbableDeadOidList (m : S3ObjectMetadata) :
    Option (List S3ProbableDeleteRecord) :=
  let totalParts := (m.extended.map (·.getPartCount)).getD 0
  if totalParts ≠ 0 then
    (partRecords bucket m ((m.extended.map (·.extObjects)).getD [])).map
      (· ++ [parentDeleteRecord bucket m totalParts])
  else some []

end Records

/-! ### The actions -/

/-- What an action that puts an object knows when it writes records. -/
structure PutContext where
  bucket : BucketIndexes
  /-- The metadata of the object that is replaced, if there is one. -/
  objectMetadata : Option S3ObjectMetadata
  newObjectMetadata : S3ObjectMetadata
  newObjectOid : M0Uint128
  layoutId : Int
  contentLength : Nat

namespace PutContext

/-- `old_object_oid`. -/
def oldObjectOid (c : PutContext) : M0Uint128 := (c.objectMetadata.map (·.oid)).getD {}

end PutContext

/-- What an action leaves in the index, with the keys it uses. -/
abbrev Puts := List (Bytes × S3ProbableDeleteRecord)

/-- Records under their own keys. -/
def ownKeys (records : List S3ProbableDeleteRecord) : Puts :=
  records.map fun r => (r.recordKey, r)

/-- How a call of Motr was answered.  One on several keys that fails may be done for some of them. -/
inductive Answer where
  | ok
  | failed (done : Bytes → Bool)

def Answer.isOk : Answer → Bool
  | .ok => true
  | .failed _ => false

/-- The keys a call is done for. -/
def Answer.done : Answer → Bytes → Bool
  | .ok => fun _ => true
  | .failed done => done

/-- `how_many_kv_to_write`, with the limit of the action.  `kv_to_be_processed` and what is left of it
behind the limit are unsigned numbers of 32 bits. -/
def howManyKvUpTo (limit size totalProcessedCount : Nat) : Nat :=
  let kvToBeProcessed := (size + (2 ^ 32 - totalProcessedCount)) % 2 ^ 32
  if (kvToBeProcessed + (2 ^ 32 - limit)) % 2 ^ 32 > limit then limit else kvToBeProcessed

namespace S3PutObjectAction

/-- `probable_del_rec_list` after `add_object_oid_to_probable_dead_oid_list`: the records of the
object that is replaced. -/
def oldRecords (c : PutContext) (newOidStr : Bytes) : Option (List S3ProbableDeleteRecord) :=
  match c.objectMetadata with
  | none => some []
  | some m =>
    if m.oid = {} then some []
    else if m.numberOfParts ≠ 0 then addPartObjectToProbableDeadOidList c.bucket m
    else
      let oldOidStr := sizeBasedBucketingOfObjects (S3M0Uint128Helper.toString m.oid) m.contentLength
      let oldOidRecKey := oldOidStr ++ ascii "-" ++ newOidStr
      some [simpleDeleteRecord c.bucket oldOidRecKey {} m m.oid m.layoutId]

/-- `new_oid_str` after `add_object_oid_to_probable_dead_oid_list`. -/
def newOidStr (c : PutContext) : Bytes :=
  sizeBasedBucketingOfObjects (S3M0Uint128Helper.toString c.newObjectOid) c.contentLength

/-- `new_probable_del_rec`. -/
def newRecord (c : PutContext) : S3ProbableDeleteRecord :=
  simpleDeleteRecord c.bucket (newOidStr c) c.oldObjectOid c.newObjectMetadata c.newObjectOid
    c.layoutId

/-- `add_object_oid_to_probable_dead_oid_list`.  The new identifier has no prefix yet when the key
of the old record is made. -/
def addObjectOidToProbableDeadOidList (c : PutContext) : Option Puts :=
  (oldRecords c (S3M0Uint128Helper.toString c.newObjectOid)).map fun old =>
    ownKeys old ++ [(newOidStr c, newRecord c)]

/-- `add_oid_for_parallel_leak_check`. -/
def addOidForParallelLeakCheck (c : PutContext) : Puts :=
  ownKeys [{ simpleDeleteRecord c.bucket
      (sizeBasedBucketingOfObjects (S3M0Uint128Helper.toString c.newObjectMetadata.oid) 0)
      c.oldObjectOid c.newObjectMetadata c.newObjectMetadata.oid c.layoutId with
    extendedMdIdxOid := c.bucket.extendedMetadataIndexOid
    extVersionId := c.newObjectMetadata.objVersionKey }]

/-- Everything a run may put, with `mark_new_oid_for_deletion` and `mark_old_oid_for_deletion`. -/
def puts (c : PutContext) : Option Puts :=
  (oldRecords c (S3M0Uint128Helper.toString c.newObjectOid)).map fun old =>
    ownKeys old ++ [(newOidStr c, newRecord c)] ++ addOidForParallelLeakCheck c ++
      [(newOidStr c, (newRecord c).setForceDelete)] ++ ownKeys (old.map (·.setForceDelete))

end S3PutObjectAction

/-! ### Copies -/

/-- What the copy of an object knows besides: the parts of the source and the identifiers of their
copies. -/
structure CopyContext extends PutContext where
  /-- `part_fragment_context_list` and the new identifiers. -/
  parts : List (S3PartFragContext × M0Uint128)
  /-- The source is in parts. -/
  sourceExtended : Bool

namespace S3PutObjectActionBase

/-- The records of the object that is replaced. -/
def oldRecords (c : PutContext) (newOidStr : Bytes) : Option (List S3ProbableDeleteRecord) :=
  match c.objectMetadata with
  | none => some []
  | some m =>
    if m.oid = {} then some []
    else if m.isObjectExtended then addPartObjectToProbableDeadOidList c.bucket m
    else
      let oldOidStr := sizeBasedBucketingOfObjects (S3M0Uint128Helper.toString m.oid) m.contentLength
      let oldOidRecKey := oldOidStr ++ ascii "-" ++ newOidStr
      some [simpleDeleteRecord c.bucket oldOidRecKey {} m m.oid m.layoutId]

/-- The record of the new object.  Nothing puts a prefix before `new_oid_str` here. -/
def newRecord (c : PutContext) : S3ProbableDeleteRecord :=
  simpleDeleteRecord c.bucket (S3M0Uint128Helper.toString c.newObjectOid) c.oldObjectOid
    c.newObjectMetadata c.newObjectOid c.layoutId

/-- `add_object_oid_to_probable_dead_oid_list`. -/
def addObjectOidToProbableDeadOidList (c : PutContext) (onlyOldObject : Bool) : Option Puts :=
  (oldRecords c (S3M0Uint128Helper.toString c.newObjectOid)).map fun old =>
    ownKeys old ++ if onlyOldObject then [] else ownKeys [newRecord c]

/-- `add_parts_fragment_oid_to_probable_dead_oid_list`, for one part. -/
def addPartsFragmentOidToProbableDeadOidList (c : PutContext) (frag : S3PartFragContext)
    (newExtOid : M0Uint128) : S3ProbableDeleteRecord :=
  { recordKey := sizeBasedBucketingOfObjects (S3M0Uint128Helper.toString newExtOid) frag.itemSize
    oldObjectOid := {}
    objectKeyInIndex := c.newObjectMetadata.objectName
    currentObjectOid := newExtOid
    objectLayoutId := frag.layoutId
    pvidStr := S3M0Uint128Helper.fidToString frag.pvid
    objectListIdxOid := c.bucket.objectListIndexOid
    objectsVersionListIdxOid := c.bucket.objectsVersionListIndexOid
    versionKeyInIndex := c.newObjectMetadata.versionKeyInIndex
    isMultipart := frag.isMultipart
    part := toUnsigned frag.partNumber
    extendedMdIdxOid := c.bucket.extendedMetadataIndexOid
    extVersionId := c.newObjectMetadata.objVersionKey }

/-- The new records of a copy. -/
def newRecords (c : CopyContext) : List S3ProbableDeleteRecord :=
  if c.sourceExtended then
    c.parts.map fun p => addPartsFragmentOidToProbableDeadOidList c.toPutContext p.1 p.2
  else [newRecord c.toPutContext]

/-- Everything a run may put. -/
def puts (c : CopyContext) : Option Puts :=
  (oldRecords c.toPutContext (S3M0Uint128Helper.toString c.newObjectOid)).map fun old =>
    ownKeys (newRecords c) ++ ownKeys old ++ ownKeys ((newRecords c).map (·.setForceDelete)) ++
      ownKeys (old.map (·.setForceDelete))

end S3PutObjectActionBase

/-! ### Parts of an upload -/

/-- What the upload of a part knows. -/
structure PartContext where
  bucket : BucketIndexes
  objectName : Bytes
  /-- The part that is replaced: its identifier, layout, pool version and size. -/
  oldPart : Option (M0Uint128 × Int × Bytes × Nat)
  newObjectOid : M0Uint128
  layoutId : Int
  pvidStr : Bytes
  partIndexOid : M0Uint128
  partNumber : Nat
  contentLength : Nat

namespace S3PutMultiObjectAction

/-- A record of a part. -/
def partRecord (c : PartContext) (key : Bytes) (oldOid oid : M0Uint128) (layoutId : Int)
    (pvidStr : Bytes) : S3ProbableDeleteRecord :=
  { recordKey := key
    oldObjectOid := oldOid
    objectKeyInIndex := c.objectName
    currentObjectOid := oid
    objectLayoutId := layoutId
    pvidStr := pvidStr
    objectListIdxOid := c.bucket.objectListIndexOid
    objectsVersionListIdxOid := c.bucket.objectsVersionListIndexOid
    versionKeyInIndex := []
    isMultipart := true
    partListIdxOid := c.partIndexOid
    fragment := 1
    part := c.partNumber }

/-- `old_object_oid`. -/
def oldObjectOid (c : PartContext) : M0Uint128 := (c.oldPart.map (·.1)).getD {}

/-- `new_oid_str` after `add_object_oid_to_probable_dead_oid_list`. -/
def newOidStr (c : PartContext) : Bytes :=
  sizeBasedBucketingOfObjects (S3M0Uint128Helper.toString c.newObjectOid) c.contentLength

/-- `new_probable_del_rec`. -/
def newRecord (c : PartContext) : S3ProbableDeleteRecord :=
  partRecord c (newOidStr c) (oldObjectOid c) c.newObjectOid c.layoutId c.pvidStr

/-- The key and the record of the part that is replaced, for the new identifier as it is then. -/
def oldRecord (c : PartContext) (newOidStr : Bytes) : Puts :=
  match c.oldPart with
  | none => []
  | some (oid, layoutId, pvidStr, size) =>
    if oid = {} then []
    else
      let oldOidStr := sizeBasedBucketingOfObjects (S3M0Uint128Helper.toString oid) size
      let oldOidRecKey := oldOidStr ++ ascii "-" ++ newOidStr
      [(oldOidRecKey, partRecord c oldOidRecKey {} oid layoutId pvidStr)]

/-- `add_object_oid_to_probable_dead_oid_list`. -/
def addObjectOidToProbableDeadOidList (c : PartContext) : Puts :=
  oldRecord c (S3M0Uint128Helper.toString c.newObjectOid) ++ [(newOidStr c, newRecord c)]

/-- `mark_old_oid_for_deletion`.  The prefix is taken from the new identifier again. -/
def markOldOidForDeletion (c : PartContext) : Puts :=
  (oldRecord c ((newOidStr c).drop 1)).map fun p => (p.1, p.2.setForceDelete)

/-- `add_oid_for_parallel_leak_check`. -/
def addOidForParallelLeakCheck (c : PartContext) : Puts :=
  ownKeys [partRecord c
    (sizeBasedBucketingOfObjects (S3M0Uint128Helper.toString c.newObjectOid) 0) (oldObjectOid c)
    c.newObjectOid c.layoutId c.pvidStr]

/-- Everything a run may put. -/
def puts (c : PartContext) : Puts :=
  addObjectOidToProbableDeadOidList c ++ markOldOidForDeletion c ++
    [(newOidStr c, (newRecord c).setForceDelete)] ++ addOidForParallelLeakCheck c

end S3PutMultiObjectAction

/-! ### Deletes -/

namespace S3DeleteObjectAction

/-- The record of an object in one piece, `add_object_oid_to_probable_dead_oid_list`. -/
def addObjectOidToProbableDeadOidList (bucket : BucketIndexes) (m : S3ObjectMetadata) :
    S3ProbableDeleteRecord :=
  simpleDeleteRecord bucket
    (sizeBasedBucketingOfObjects (S3M0Uint128Helper.toString m.oid) m.contentLength) {} m m.oid
    m.layoutId

/-- The first fragment of part `n`, as `ext_entries.at(n).at(0)` finds it or throws. -/
def fragmentAt (m : S3ObjectMetadata) (n : Nat) : Option S3PartFragContext :=
  match m.extended with
  | none => none
  | some ext => (SortedMap.get (n : Int) ext.extObjects).bind (·.head?)

/-- `add_oids_to_probable_dead_oid_list`.  Fragments of an object without parts are not handled. -/
def addOidsToProbableDeadOidList (bucket : BucketIndexes) (m : S3ObjectMetadata) :
    Option (List S3ProbableDeleteRecord) :=
  if m.numberOfParts = 0 then some []
  else
    ((List.range m.numberOfFragments).mapM fun i =>
      (fragmentAt m (i + 1)).map (partDeleteRecord bucket m (i + 1))).map
      (· ++ [parentDeleteRecord bucket m m.numberOfFragments])

/-- `populate_probable_dead_oid_list`: the records an action makes. -/
def populateProbableDeadOidList (bucket : BucketIndexes) (m : S3ObjectMetadata) :
    Option (List S3ProbableDeleteRecord) :=
  if m.numberOfFragments = 0 then some [addObjectOidToProbableDeadOidList bucket m]
  else addOidsToProbableDeadOidList bucket m

/-- Everything a run may put.  Those of an object in parts are put when they are marked. -/
def puts (bucket : BucketIndexes) (m : S3ObjectMetadata) : Option Puts :=
  (populateProbableDeadOidList bucket m).map fun records =>
    ownKeys records ++ ownKeys (records.map (·.setForceDelete))

end S3DeleteObjectAction

end CortxS3
