/-
Noting the parts of an object that is replaced, step by step.

`add_part_object_to_probable_dead_oid_list` goes through the extended metadata of the old object
with an iterator of its own.  For a part whose first fragment has an identifier it fills three
lists, of identifiers, pool versions and layouts, from which the parts are deleted later, makes a
record, and moves the iterator on.  The iterator is moved on inside the condition: at a part
without fragments, or whose first fragment has no identifier, the loop goes round without end.

The function stands in three classes, the same in each.
-/
import CortxS3.Server.ProbableDeleteRecord
import CortxS3.Lib.Until

namespace CortxS3.PartObjectRecords

open Until (Outcome)

/-- What the action knows of the objects it will delete. -/
structure OldObjects where
  probableDelRecList : List S3ProbableDeleteRecord := []
  oldObjOids : List M0Uint128 := []
  oldObjPvids : List M0Fid := []
  oldObjLayoutIds : List Nat := []
deriving DecidableEq

/-- A part is noted, from its first fragment. -/
def OldObjects.addPart (bucket : BucketIndexes) (m : S3ObjectMetadata) (partNo : Int)
    (frag : S3PartFragContext) (s : OldObjects) : OldObjects :=
  { probableDelRecList :=
      s.probableDelRecList ++ [partDeleteRecord bucket m (toUnsigned partNo) frag]
    oldObjOids := s.oldObjOids ++ [frag.motrOID]
    oldObjPvids := s.oldObjPvids ++ [frag.pvid]
    oldObjLayoutIds := s.oldObjLayoutIds ++ [frag.layoutId] }

def OldObjects.addParent (bucket : BucketIndexes) (m : S3ObjectMetadata) (totalParts : Nat)
    (s : OldObjects) : OldObjects :=
  { s with probableDelRecList := s.probableDelRecList ++ [parentDeleteRecord bucket m totalParts] }

/-- Where the iterator is, and what is noted so far. -/
structure Iter where
  it : List (Int × List S3PartFragContext)
  noted : OldObjects
deriving DecidableEq

/-- Once round the loop; behind it, the record of the object itself. -/
def round (bucket : BucketIndexes) (m : S3ObjectMetadata) (totalParts : Nat) (s : Iter) :
    Outcome Iter OldObjects :=
  match s.it with
  | [] => .done (s.noted.addParent bucket m totalParts)
  | (_, []) :: _ => .next s
  | (partNo, frag :: _) :: rest =>
    if frag.motrOID ≠ {} then .next ⟨rest, s.noted.addPart bucket m partNo frag⟩ else .next s

/-- `total_parts`. -/
def totalPartsOf (m : S3ObjectMetadata) : Nat := (m.extended.map (·.getPartCount)).getD 0

/-- `ext_entries_mp`. -/
def extEntriesOf (m : S3ObjectMetadata) : List (Int × List S3PartFragContext) :=
  (m.extended.map (·.extObjects)).getD []

/-- The call comes to an end and leaves `t`. -/
def addPartObjects (bucket : BucketIndexes) (m : S3ObjectMetadata) (s t : OldObjects) : Prop :=
  Outcome.Ends (round bucket m (totalPartsOf m))
    (if totalPartsOf m ≠ 0 then .next ⟨extEntriesOf m, s⟩ else .done s) t

/-! ### The three classes -/

def S3PutObjectAction.addPartObjectToProbableDeadOidList :
    BucketIndexes → S3ObjectMetadata → OldObjects → OldObjects → Prop := addPartObjects

def S3PutObjectActionBase.addPartObjectToProbableDeadOidList :
    BucketIndexes → S3ObjectMetadata → OldObjects → OldObjects → Prop := addPartObjects

def S3PutChunkUploadObjectAction.addPartObjectToProbableDeadOidList :
    BucketIndexes → S3ObjectMetadata → OldObjects → OldObjects → Prop := addPartObjects

/-- The copies of the function. -/
def copies : List (BucketIndexes → S3ObjectMetadata → OldObjects → OldObjects → Prop) :=
  [S3PutObjectAction.addPartObjectToProbableDeadOidList,
    S3PutObjectActionBase.addPartObjectToProbableDeadOidList,
    S3PutChunkUploadObjectAction.addPartObjectToProbableDeadOidList]

/-! ### What is to be noted -/

/-- The three lists go together. -/
def OldObjects.Aligned (s : OldObjects) : Prop :=
  s.oldObjPvids.length = s.oldObjOids.length ∧ s.oldObjLayoutIds.length = s.oldObjOids.length

/-- The fragments of an object that have an identifier. -/
def fragmentsOf (ext : List (Int × List S3PartFragContext)) : List S3PartFragContext :=
  (ext.flatMap (·.2)).filter fun f => f.motrOID ≠ {}

/-- From lists that go together the call ends, with lists that go together, and has added one
record for each fragment that has an identifier and one for the object. -/
def Covers (add : BucketIndexes → S3ObjectMetadata → OldObjects → OldObjects → Prop)
    (bucket : BucketIndexes) (m : S3ObjectMetadata) : Prop :=
  ∀ s : OldObjects, s.Aligned → ∃ t, add bucket m s t ∧ t.Aligned ∧
    ∃ added, t.probableDelRecList = s.probableDelRecList ++ added ∧
      (added.map (·.currentObjectOid)).Perm
        ((fragmentsOf (extEntriesOf m)).map (·.motrOID) ++ [m.oid])

/-- A part has one fragment with an identifier, the first one. -/
def OneFragment (frags : List S3PartFragContext) : Prop :=
  ∃ frag rest, frags = frag :: rest ∧ frag.motrOID ≠ {} ∧ ∀ f ∈ rest, f.motrOID = {}

end CortxS3.PartObjectRecords
