/-
The indexes that the background delete reads in pages, `ObjectRecoveryValidator` once more.

A page is the answer of the S3 server to the listing of an index (`MotrKVSListingAction`): the
keys behind a marker that begin with a prefix, `max_keys` of them at most.  The answer is
truncated when there are that many, and only then it names the next marker.  `IsTruncated` is a
text, and both texts count as true.  No keys are sent as `null`.

Two functions go from page to page by calling themselves.  `check_instance_is_nonactive` looks for
an S3 instance among those that are active, and `process_objects_in_versionlist` deletes the
versions of an object that parallel uploads have left.  The index does not change while it is
read, but for what the function deletes itself, and no time passes.  The limit of Python on the
depth of calls is not modelled.

`examined` and `deletedEntries` are not in the source and no code reads them.
-/
import CortxS3.BackgroundDelete.ObjectRecoveryValidator
import CortxS3.Lib.Pages

namespace CortxS3

namespace ObjectRecoveryValidator

/-! ### Listing -/

/-- `CORTXS3ListIndexResponse`. -/
structure ListIndexResponse (ν : Type) where
  keys : List (Bytes × ν)
  isTruncated : Bool
  nextMarker : Bytes

/-- One page.  Without a marker the listing starts at the front. -/
def listPage {ν : Type} (index : List (Bytes × ν)) (keyPrefix : Bytes) (maxKeys : Nat)
    (marker : Bytes) : ListIndexResponse ν :=
  let all := Pages.matching (keyPrefix.isPrefixOf ·) index marker
  let keys := all.take maxKeys
  let isTruncated : Bool := maxKeys ≤ all.length
  { keys := keys
    isTruncated := isTruncated
    nextMarker := if isTruncated then ((keys.getLast?).map (·.1)).getD [] else [] }

/-! ### Instances -/

section Instances

variable (listOk : Bytes → Bool) (index : List (Bytes × Bytes)) (maxKeys : Nat) (instanceId : Bytes)

/-- `check_instance_is_nonactive` from a marker.  What the call for the next page returns is not
looked at. -/
def checkFrom : Nat → Bytes → Option Bool
  | 0, _ => none
  | fuel + 1, marker =>
    if listOk marker then
      let page := listPage index [] maxKeys marker
      if page.keys.any (·.2 == instanceId) then some false
      else if page.keys ≠ [] ∧ page.isTruncated then
        (checkFrom fuel page.nextMarker).map fun _ => true
      else some true
    else some false

/-- `check_instance_is_nonactive`.  Every page moves on in the index, so there is an end. -/
def checkInstanceIsNonactive : Option Bool := checkFrom listOk index maxKeys instanceId
  (index.length + 1) []

end Instances

/-! ### Versions -/

/-- What is looked at of an entry of the version index, and whose it is.  The time is in seconds. -/
structure VersionEntry where
  objectName : Bytes
  motrOid : Bytes
  createTimestamp : Int
deriving DecidableEq

/-- `isVersionEntryOlderThan`, now. -/
def isVersionEntryOlderThan (now : Int) (versionInfo : VersionEntry) (olderInMins : Int) : Bool :=
  (now - versionInfo.createTimestamp) / 60 ≥ olderInMins

/-- `version_entry_cb`: the caller is to process the entry. -/
def versionEntryCb (now : Int) (versionEntry : VersionEntry) (currentOid : Bytes)
    (timeVersionEntry : Int) : Bool :=
  versionEntry.motrOid ≠ currentOid && isVersionEntryOlderThan now versionEntry timeVersionEntry

/-- What a call is made with. -/
structure VersionListCall where
  api : Api
  /-- The listing from a marker succeeds. -/
  listOk : Bytes → Bool
  versionIndexId : Bytes
  probableDeleteIndexId : Bytes
  /-- `get_max_keys`. -/
  maxKeys : Nat
  now : Int
  timeVersionEntry : Int
  /-- `object_key_in_index` of the record. -/
  objectKey : Bytes
  /-- `object_leak_id`. -/
  leakId : Bytes

structure VersionStore where
  versions : List (Bytes × VersionEntry)
  /-- The Motr objects that have been deleted. -/
  deletedObjects : List Bytes := []
  /-- The keys deleted from the probable-delete index. -/
  deletedProbable : List Bytes := []
  deletedEntries : List (Bytes × VersionEntry) := []
  examined : List (Bytes × VersionEntry) := []

section Versions

variable (c : VersionListCall)

/-- `delete_object_from_storage`. -/
def VersionStore.deleteObject (oid : Bytes) (s : VersionStore) : Bool × VersionStore :=
  if c.api.objectDelete oid then (true, { s with deletedObjects := s.deletedObjects ++ [oid] })
  else (false, s)

/-- `delete_key_from_index`, for the version index. -/
def VersionStore.deleteVersion (key : Bytes) (s : VersionStore) : Bool × VersionStore :=
  if c.api.kvDelete c.versionIndexId key then
    (true, { s with
      versions := s.versions.filter (·.1 ≠ key)
      deletedEntries := s.deletedEntries ++ s.versions.filter (·.1 = key) })
  else (false, s)

/-- `del_obj_from_ver_index`.  When there is no entry it is the object of the record. -/
def VersionStore.delObjFromVerIndex (key : Bytes) (s : VersionStore) : Bool × VersionStore :=
  if c.api.kvGet c.versionIndexId key then
    let keyInfo := SortedMap.get key s.versions
    let (status, s) := s.deleteObject c ((keyInfo.map (·.motrOid)).getD c.leakId)
    if status then s.deleteVersion c key else (false, s)
  else (false, s)

/-- The entry of a version in the probable-delete index is deleted, if it can be. -/
def VersionStore.deleteProbable (key : Bytes) (s : VersionStore) : VersionStore :=
  if c.api.kvDelete c.probableDeleteIndexId key then
    { s with deletedProbable := s.deletedProbable ++ [key] }
  else s

/-- The loop over the keys of a page; `false` ends the function. -/
def processPage (currentOid : Bytes) :
    List (Bytes × VersionEntry) → VersionStore → Bool × VersionStore
  | [], s => (true, s)
  | (objVerKey, objVerMd) :: rest, s =>
    let s := { s with examined := s.examined ++ [(objVerKey, objVerMd)] }
    if versionEntryCb c.now objVerMd currentOid c.timeVersionEntry then
      let (status, s) := s.delObjFromVerIndex c objVerKey
      if status then processPage currentOid rest (s.deleteProbable c objVerMd.motrOid)
      else (false, s)
    else processPage currentOid rest s

/-- How `process_objects_in_versionlist` ends. -/
inductive VersionListEnd where
  | returned (bStatus : Bool)
  /-- The message about a listing that failed names `self.object_key`, which nobody has set. -/
  | attributeError
deriving DecidableEq

/-- `process_objects_in_versionlist` from a marker.  For the next page it hands on the last key
where the current identifier belongs. -/
def processFrom : Nat → Bytes → Bytes → VersionStore → Option (VersionListEnd × VersionStore)
  | 0, _, _, _ => none
  | fuel + 1, currentOid, marker, s =>
    if c.listOk marker then
      let page := listPage s.versions c.objectKey c.maxKeys marker
      match page.keys.getLast? with
      | none => some (.returned false, s)
      | some (objVerKey, _) =>
        let (status, s) := processPage c currentOid page.keys s
        if status then
          if c.objectKey.isPrefixOf page.nextMarker then
            processFrom fuel objVerKey page.nextMarker s
          else some (.returned true, s)
        else some (.returned false, s)
    else some (.attributeError, s)

/-- `process_objects_in_versionlist` with `version_entry_cb`. -/
def processObjectsInVersionlist (currentOid marker : Bytes) (versions : List (Bytes × VersionEntry)) :
    Option (VersionListEnd × VersionStore) :=
  processFrom c (versions.length + 1) currentOid marker { versions := versions }

end Versions

end ObjectRecoveryValidator

end CortxS3
