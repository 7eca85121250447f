/-
What the background delete does with a probable-delete record, `ObjectRecoveryValidator`.

The scheduler hands it one record at a time.  It takes the identifier of the object out of the key,
looks up what the indexes of the bucket say now, and deletes objects and entries.

Of an entry of an index only the object it names is looked at (`motr_oid`, or `OID` in the extended
index); layout and pool version are handed on to the delete and left out.  The calls of the index
and object APIs may fail, each by its arguments; a delete of something that is not there is a
success.

`force_delete` is `true` or `false` in every record.  For `false` both branches of
`process_object_leak` return, so its steps for old and new objects, which ask whether the S3 instance
of the record is active, are never reached.
-/
import CortxS3.Server.ProbableDeleteRecord

namespace CortxS3

namespace ObjectRecoveryValidator

/-- `NULL_OBJ_OID`. -/
def nullObjOid : Bytes := ascii "AAAAAAAAAAA=-AAAAAAAAAAA="

/-! ### The record -/

/-- `object_leak_id`, or nothing when the key is not in the required format. -/
def objectLeakId (key : Bytes) (info : ProbableDeleteJson) : Option Bytes :=
  let objectLeakId := key.drop 1
  if info.oldOid = nullObjOid then
    match pieces 45 objectLeakId with
    | [hi, lo] => some (hi ++ ascii "-" ++ lo)
    | [hi, lo, _, _] => some (hi ++ ascii "-" ++ lo)
    | _ => none
  else some objectLeakId

/-! ### The store -/

/-- Which calls of the APIs succeed. -/
structure Api where
  kvGet : Bytes → Bytes → Bool
  kvDelete : Bytes → Bytes → Bool
  objectDelete : Bytes → Bool

/-- The indexes, by identifier and key, and the objects deleted so far. -/
structure Store where
  kv : Bytes → Bytes → Option Bytes
  deleted : List Bytes := []

/-- The configuration, and the record that is processed. -/
structure Validator where
  api : Api
  probableDeleteIndexId : Bytes
  key : Bytes
  leakInfo : ProbableDeleteJson
  leakId : Bytes

/-- `oid_prefix`. -/
def Validator.oidPrefix (v : Validator) : Bytes := v.key.take 1

section Operations

variable (v : Validator)

/-- `delete_object_from_storage`. -/
def deleteObjectFromStorage (oid : Bytes) (s : Store) : Bool × Store :=
  if v.api.objectDelete oid then (true, { s with deleted := s.deleted ++ [oid] }) else (false, s)

/-- The store without an entry. -/
def Store.remove (s : Store) (index key : Bytes) : Store :=
  { s with kv := fun i k => if i = index ∧ k = key then none else s.kv i k }

/-- `delete_key_from_index`. -/
def deleteKeyFromIndex (index key : Bytes) (s : Store) : Bool × Store :=
  if v.api.kvDelete index key then (true, s.remove index key) else (false, s)

/-- `get_object_Entry` and `get_object_metadata`: whether the call succeeded, and the object that
the entry names. -/
def getObjectEntry (index key : Bytes) (s : Store) : Bool × Option Bytes :=
  if v.api.kvGet index key then (true, s.kv index key) else (false, none)

/-- `del_obj_from_extended_index`.  Nothing is deleted from Motr when there is no entry. -/
def delObjFromExtendedIndex (index key : Bytes) (s : Store) : Bool × Store :=
  let (status, keyInfo) := getObjectEntry v index key s
  if status then
    let (status, s) :=
      match keyInfo with
      | some oid => deleteObjectFromStorage v oid s
      | none => (true, s)
    if status then deleteKeyFromIndex v index key s else (false, s)
  else (false, s)

/-- `del_obj_from_ver_index`.  When there is no entry it is the object of the record. -/
def delObjFromVerIndex (index key : Bytes) (s : Store) : Bool × Store :=
  let (status, keyInfo) := getObjectEntry v index key s
  if status then
    let (status, s) := deleteObjectFromStorage v (keyInfo.getD v.leakId) s
    if status then deleteKeyFromIndex v index key s else (false, s)
  else (false, s)

/-- The key of a part in the extended index. -/
def extendedKey (info : ProbableDeleteJson) (extVersionId : Bytes) (part frag : Nat) : Bytes :=
  info.objectKeyInIndex ++ ascii "|" ++ extVersionId ++ ascii "|P" ++ decimal part ++ ascii "|F" ++
    decimal frag

/-- `parent_oid` of the record. -/
def parentOid (info : ProbableDeleteJson) : Bytes := info.parentOid.getD nullObjOid

/-- `part_no` of the record. -/
def partNo (info : ProbableDeleteJson) : Nat := info.part.getD 0

/-- The index and the key through which the object of a record is deleted. -/
def deletePath (info : ProbableDeleteJson) : Bool × Bytes × Bytes :=
  let extVersionId := info.extVersionId.getD []
  let extVerId := if extVersionId ≠ [] then extVersionId else ascii "0"
  let byVersion := (false, info.objectsVersionListIndexOid, info.versionKeyInIndex)
  if parentOid info ≠ nullObjOid ∧ partNo info ≠ 0 then
    match info.extendedMdIdxOid with
    | some index =>
      if index ≠ nullObjOid then
        (true, index, extendedKey info extVerId (partNo info) (info.fno.getD 0))
      else byVersion
    | none => byVersion
  else byVersion

/-- `process_probable_delete_record(True, delete_obj_from_store)`. -/
def processProbableDeleteRecord (deleteObjFromStore : Bool) (s : Store) : Bool × Store :=
  let (status, s) :=
    if deleteObjFromStore then
      let (extended, index, key) := deletePath v.leakInfo
      if key = [] then (false, s)
      else if extended then delObjFromExtendedIndex v index key s
      else delObjFromVerIndex v index key s
    else (true, s)
  if status then deleteKeyFromIndex v v.probableDeleteIndexId v.key s else (false, s)

/-- The loop of `del_objects_in_extendedlist` over the parts that are left.  What it returns is the
status of the last one. -/
def delParts (index extVersionId : Bytes) : List Nat → Bool → Store → Bool × Store
  | [], status, s => (status, s)
  | part :: rest, _, s =>
    let (status, s) :=
      delObjFromExtendedIndex v index (extendedKey v.leakInfo extVersionId part 1) s
    delParts index extVersionId rest status s

/-- `del_objects_in_extendedlist`. -/
def delObjectsInExtendedlist (index : Bytes) (s : Store) : Bool × Store :=
  if parentOid v.leakInfo = nullObjOid ∧ partNo v.leakInfo ≠ 0 then
    delParts v index (v.leakInfo.extVersionId.getD [])
      ((List.range (partNo v.leakInfo)).map (· + 1)) false s
  else (false, s)

/-! ### The algorithm -/

/-- The part of `process_object_leak` for records with `force_delete`. -/
def processForced (s : Store) : Store :=
  let info := v.leakInfo
  if v.oidPrefix = ascii "J" ∧ 0 < partNo info then
    let (status, s) := deleteKeyFromIndex v info.objectsVersionListIndexOid info.versionKeyInIndex s
    if status then
      let (_, s) := delObjectsInExtendedlist v (info.extendedMdIdxOid.getD []) s
      (deleteKeyFromIndex v v.probableDeleteIndexId v.key s).2
    else s
  else if ¬ info.isMultipart then (processProbableDeleteRecord v true s).2
  else
    let (status, s) := deleteObjectFromStorage v v.leakId s
    if status then (processProbableDeleteRecord v false s).2 else s

/-- A record of an upload in parts, or the leak check of one, without `force_delete`. -/
def processMultipartLeak (currentOid : Bytes) (s : Store) : Store :=
  let info := v.leakInfo
  if info.extendedMdIdxOid.getD [] ≠ nullObjOid then
    if v.leakId ≠ currentOid then
      let (_, s) := deleteKeyFromIndex v info.objectsVersionListIndexOid info.versionKeyInIndex s
      let (status, s) := delObjectsInExtendedlist v (info.extendedMdIdxOid.getD []) s
      if status then (processProbableDeleteRecord v false s).2 else s
    else (processProbableDeleteRecord v false s).2
  else
    let partIndexOid := info.partListIdxOid.getD nullObjOid
    if partIndexOid ≠ nullObjOid then
      let (status, partInfo) := getObjectEntry v partIndexOid (decimal (partNo info)) s
      if status then
        match partInfo with
        | some oid =>
          if oid ≠ v.leakId then
            let (status, s) := deleteObjectFromStorage v v.leakId s
            if status then (processProbableDeleteRecord v false s).2 else s
          else (processProbableDeleteRecord v false s).2
        | none => (processProbableDeleteRecord v false s).2
      else s
    else s

/-- The part of `process_object_leak` for records without `force_delete`. -/
def processUnforced (s : Store) : Store :=
  let info := v.leakInfo
  let (status, currentObjectMd) := getObjectEntry v info.objectListIndexOid info.objectKeyInIndex s
  if status then
    if currentObjectMd = none ∧ ¬ info.isMultipart then (processProbableDeleteRecord v true s).2
    else
      let currentOid := currentObjectMd.getD []
      if v.oidPrefix = ascii "J" ∧ 0 < partNo info then processMultipartLeak v currentOid s
      else if v.leakId ≠ currentOid then (processProbableDeleteRecord v true s).2
      else (processProbableDeleteRecord v false s).2
  else s

/-- `process_object_leak`. -/
def processObjectLeak (s : Store) : Store :=
  if v.leakInfo.forceDelete then processForced v s else processUnforced v s

end Operations

/-- `process_results`. -/
def processResults (api : Api) (probableDeleteIndexId key : Bytes) (info : ProbableDeleteJson)
    (s : Store) : Store :=
  match objectLeakId key info with
  | none => s
  | some leakId =>
    processObjectLeak
      { api := api
        probableDeleteIndexId := probableDeleteIndexId
        key := key
        leakInfo := info
        leakId := leakId } s

end ObjectRecoveryValidator

end CortxS3
