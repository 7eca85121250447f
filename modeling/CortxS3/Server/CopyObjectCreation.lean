/-
The objects that `S3CopyObjectAction` creates, and the metadata it saves for them.

A source in one piece is copied into one Motr object, whose layout is the one recommended for the
size at that time.  A source in parts is copied part by part: the Motr object of each part is
created with the layout of the part it is copied from, and the part gets an entry in the extended
metadata.  The identifier of an object in parts is one of no Motr object.

When everything is copied the metadata is saved, with what it takes over from the source.

An identifier that exists is tried again under another, up to a bound, for a source in one piece
only. The assertions on layouts are left out, and so are the records in the probable-delete
index.  Parts have one fragment, and there is no source in fragments without parts.
-/
import CortxS3.Server.ProbableDeleteRecord

namespace CortxS3.CopyCreation

/-- `MAX_COLLISION_RETRY_COUNT`. -/
def maxCollisionRetryCount : Nat := 20

/-! ### Motr -/

/-- What an object was created with. -/
structure MotrObject where
  oid : M0Uint128
  layoutId : Int
  pvid : M0Fid
deriving DecidableEq

/-- How Motr answers to `create_object`.  It chooses the pool version. -/
inductive CreateAnswer where
  | created (pvid : M0Fid)
  | exists
  | failed
deriving DecidableEq

/-- What a run meets with. -/
structure Environment where
  /-- `S3MotrLayoutMap::get_layout_for_object_size`, as it is configured now. -/
  recommended : Nat → Int
  /-- `new_object_oid`, at first and after so many collisions. -/
  newOid : Nat → M0Uint128
  answer : Nat → CreateAnswer
  /-- `new_ext_oid` for each part. -/
  newExtOid : Nat → M0Uint128
  partAnswer : Nat → CreateAnswer
  /-- `get_obj_version_key` of the new object. -/
  objVersionKey : Bytes

section Copy

variable (env : Environment)

/-! ### A source in one piece -/

/-- `create_object` and `collision_detected`, after `triedCount` collisions. -/
def createObject (totalDataToStream : Nat) : Nat → Nat → Option MotrObject
  | triesLeft, triedCount =>
    match env.answer triedCount, triesLeft with
    | .created pvid, _ =>
      some ⟨env.newOid triedCount, env.recommended totalDataToStream, pvid⟩
    | .exists, triesLeft + 1 => createObject totalDataToStream triesLeft (triedCount + 1)
    | _, _ => none

/-- `create_object_successful`. -/
def createObjectSuccessful (newObjectMetadata : S3ObjectMetadata) (object : MotrObject) :
    S3ObjectMetadata :=
  { newObjectMetadata with
    oid := object.oid
    layoutId := object.layoutId
    pvidStr := S3M0Uint128Helper.fidToString object.pvid }

/-! ### A source in parts -/

/-- `part_fragment_context_list`: the first fragment of each part, or nothing where `at` throws. -/
def partFragmentContextList (source : S3ObjectMetadata) : Option (List S3PartFragContext) :=
  (List.range source.numberOfFragments).mapM fun i => S3DeleteObjectAction.fragmentAt source (i + 1)

/-- `new_part_frag_ctx`. -/
def newPartFragCtx (frag : S3PartFragContext) (object : MotrObject) : S3PartFragContext where
  motrOID := object.oid
  pvid := object.pvid
  versionID := env.objVersionKey
  itemSize := frag.itemSize
  layoutId := frag.layoutId
  partNumber := frag.partNumber
  isMultipart := frag.isMultipart

/-- `create_parts_fragments` and `create_part_fragment_successful`, from the part at `index` on: the
objects, and the extended metadata with their entries. -/
def createPartsFragments : List S3PartFragContext → Nat → S3ObjectExtendedMetadata →
    Option (List MotrObject × S3ObjectExtendedMetadata)
  | [], _, ext => some ([], ext)
  | frag :: rest, index, ext =>
    match env.partAnswer index with
    | .created pvid =>
      let object : MotrObject := ⟨env.newExtOid index, (frag.layoutId : Int), pvid⟩
      let ctx := newPartFragCtx env frag object
      (createPartsFragments rest (index + 1)
        (ext.addExtendedEntry ctx 1 ctx.partNumber.toNat)).map fun r => (object :: r.1, r.2)
    | _ => none

/-! ### The copy -/

/-- A copy that has come to its end. -/
structure Copied where
  created : List MotrObject
  /-- The bytes that were written into the objects. -/
  bytes : List Nat
  newObjectMetadata : S3ObjectMetadata
deriving DecidableEq

/-- `save_metadata`. -/
def saveMetadata (source newObjectMetadata : S3ObjectMetadata) : S3ObjectMetadata :=
  { newObjectMetadata with
    contentLength := source.contentLength
    numberOfParts := source.numberOfParts
    numberOfFragments := source.numberOfFragments
    layoutId := source.layoutId }

/-- The metadata of the new object when it is made, `create_object_metadata_obj`. -/
def freshMetadata (objectName versionKeyInIndex : Bytes) : S3ObjectMetadata where
  objectName := objectName
  oid := {}
  layoutId := 0
  pvidStr := []
  contentLength := 0
  versionKeyInIndex := versionKeyInIndex
  objVersionKey := env.objVersionKey

/-- A copy of a source in one piece.  An empty object is not copied. -/
def copySimple (source fresh : S3ObjectMetadata) : Option Copied :=
  (createObject env source.contentLength maxCollisionRetryCount 0).map fun object =>
    { created := [object]
      bytes := if source.contentLength = 0 then [] else [source.contentLength]
      newObjectMetadata := saveMetadata source (createObjectSuccessful fresh object) }

/-- A copy of a source in parts. -/
def copyParts (source fresh : S3ObjectMetadata) : Option Copied := do
  let frags ← partFragmentContextList source
  let ext : S3ObjectExtendedMetadata :=
    { objectName := fresh.objectName
      versionId := env.objVersionKey }
  let (created, ext) ← createPartsFragments env frags 0 ext
  some {
    created := created
    bytes := frags.map (·.itemSize)
    newObjectMetadata := saveMetadata source { fresh with
      oid := env.newOid 0
      extended := some ext } }

/-- `create_one_or_more_objects`, `copy_one_or_more_objects` and `save_metadata` for the
destination of that name, where every copy succeeds. -/
def copyObject (source : S3ObjectMetadata) (objectName versionKeyInIndex : Bytes) : Option Copied :=
  let fresh := freshMetadata env objectName versionKeyInIndex
  if source.numberOfFragments = 0 then copySimple env source fresh else copyParts env source fresh

end Copy

/-! ### What the metadata says -/

/-- The object of a fragment, with its size. -/
def objectOf (ctx : S3PartFragContext) : MotrObject × Nat :=
  (⟨ctx.motrOID, (ctx.layoutId : Int), ctx.pvid⟩, ctx.itemSize)

/-- The objects that metadata describes, with their sizes. -/
def describedObjects (m : S3ObjectMetadata) : List (MotrObject × Nat) :=
  if m.numberOfFragments = 0 then
    [(⟨m.oid, m.layoutId, S3M0Uint128Helper.toM0Fid m.pvidStr⟩, m.contentLength)]
  else
    (((m.extended.map (·.extObjects)).getD []).flatMap (·.2)).map objectOf

/-- The metadata describes the objects that were created, and its sizes are those of the bytes that
were copied. -/
structure Describes (c : Copied) : Prop where
  objects : (describedObjects c.newObjectMetadata).map (·.1) = c.created
  sizes : ((describedObjects c.newObjectMetadata).map (·.2)).sum = c.bytes.sum
  contentLength : c.newObjectMetadata.contentLength = c.bytes.sum

/-- Metadata as it is stored and loaded: of an object in one piece, or of one in parts, which have
one fragment each and make up its size. -/
structure WholeSource (source : S3ObjectMetadata) : Prop where
  parts : source.numberOfFragments ≠ 0 → source.numberOfParts ≠ 0
  entries : source.numberOfFragments ≠ 0 → ∃ ext : S3ObjectExtendedMetadata,
    source.extended = some ext ∧
    OrderedIndex.Sorted ext.extObjects ∧
    ext.extObjects.length = source.numberOfFragments ∧
    (∀ p ∈ ext.extObjects, ∃ f : S3PartFragContext, p = (f.partNumber, [f])) ∧
    ((ext.extObjects.flatMap (·.2)).map (·.itemSize)).sum = source.contentLength

end CortxS3.CopyCreation
