/-
The three lists that `S3DeleteMultipleObjectsAction` hands to `delete_objects`.

Besides the identifiers of the objects to delete the action keeps the layouts and the pool versions
in lists of their own, and it does so once for the parts of a batch and once for everything.  The
lists are added to at the same places as those of the identifiers, which
`DeleteMultipleObjectsAction` has, so here they run along with that machine.
-/
import CortxS3.Server.DeleteMultipleObjectsAction

namespace CortxS3

namespace S3DeleteMultipleObjectsAction

/-- The lists that go along with `extended_oids_to_delete` and `oids_to_delete`. -/
structure Vectors where
  extendedLayoutIdForObjsToDelete : List Int := []
  extendedPvIdsToDelete : List M0Fid := []
  layoutIdForObjsToDelete : List Int := []
  pvIdsToDelete : List M0Fid := []
deriving DecidableEq

/-- The fragments that `_add_oids_to_probable_dead_oid_list` goes through. -/
def objectFragments (m : S3ObjectMetadata) : List S3PartFragContext :=
  if m.numberOfFragments = 0 ∨ m.extended = none then []
  else (List.range (totalObjects m)).filterMap fun i => S3DeleteObjectAction.fragmentAt m (i + 1)

/-- `_add_oids_to_probable_dead_oid_list`, for all objects of a batch. -/
def Vectors.addFragments (v : Vectors) (objects : List S3ObjectMetadata) : Vectors :=
  { v with
    extendedLayoutIdForObjsToDelete := v.extendedLayoutIdForObjsToDelete ++
      (objects.flatMap objectFragments).map fun frag => (frag.layoutId : Int)
    extendedPvIdsToDelete := v.extendedPvIdsToDelete ++
      (objects.flatMap objectFragments).map (·.pvid) }

/-- `fetch_objects_extended_info`: behind the last object in parts the records are added. -/
def Vectors.load (v : Vectors) : List S3ObjectMetadata → List S3ObjectMetadata → Vectors
  | before, [] => v.addFragments before
  | before, m :: after =>
    if m.numberOfFragments = 0 then Vectors.load v (before ++ [m]) after else v

/-- `delete_extended_metadata_successful`. -/
def Vectors.finish (v : Vectors) (objects : List S3ObjectMetadata) : Vectors :=
  { v with
    layoutIdForObjsToDelete := v.layoutIdForObjsToDelete ++
      objects.flatMap fun m => m.layoutId :: v.extendedLayoutIdForObjsToDelete
    pvIdsToDelete := v.pvIdsToDelete ++
      objects.flatMap fun m =>
        S3M0Uint128Helper.toM0Fid m.pvidStr :: v.extendedPvIdsToDelete }

/-- A batch is finished by this answer: its objects are appended to the lists. -/
def appends (s : State) (e : Event) : Bool :=
  match s.phase, e with
  | .deleteObjectsMetadata, .metadataDeleted .success _ => s.extendedKeysListToBeDeleted = []
  | .deleteExtendedMetadata, .extendedDeleted _ _ => true
  | _, _ => false

/-- What an answer does to the lists. -/
def Vectors.step (v : Vectors) (s : State) (e : Event) : Vectors :=
  match s.phase, e with
  | .fetchObjectsInfo, .fetched unreadable =>
    let kvps := SortedMap.ofWrites
      (s.keysToDelete.map fun k => (k, if unreadable k then none else s.world.objectList k))
    if kvps.all (·.2.isNone) then v
    else
      let objects := kvps.filterMap objectOf
      let v := { v with extendedLayoutIdForObjsToDelete := [], extendedPvIdsToDelete := [] }
      if objects = [] then v else v.load [] objects
  | .fetchObjectsExtendedInfo before m after, .extendedLoaded ext =>
    v.load (before ++ [{ m with extended := ext }]) after
  | _, _ => if appends s e then v.finish s.objectsMetadata else v

/-- The machine with the lists. -/
def stepWithVectors (r : Request) (sv : State × Vectors) (e : Event) : Option (State × Vectors) :=
  (S3DeleteMultipleObjectsAction.step r sv.1 e).map fun t => (t, sv.2.step sv.1 e)

def startWithVectors (r : Request) (w : World) : State × Vectors := (start r w, {})

end S3DeleteMultipleObjectsAction

end CortxS3
