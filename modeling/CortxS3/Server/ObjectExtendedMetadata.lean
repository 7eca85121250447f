/-
The parts and fragments of an object, `S3ObjectExtendedMetadata`.

An object that was uploaded in parts, or whose write was degraded, has its data in several Motr
objects.  Which ones these are is kept next to the object's own metadata, one entry for each
fragment, under keys made of the object's name, its version, the number of the part and the
number of the fragment.  Saving writes these pairs to the index; loading reads the index in
batches, from the name and version on, for as long as keys begin with them and the number of
fragments is not reached.

The numbers in the keys are decimal and not padded, and the index is in the order of its bytes.

Motr's NEXT and the writing of pairs are those of an ordered index.  JSON is that of jsoncpp,
which is not part of the repository: `JsonCodec` is what the code relies on.  The counters are
`unsigned int` in the source and no object has fragments enough to wrap them.
-/
import CortxS3.Server.Base64
import CortxS3.Lib.SortedMap

namespace CortxS3

/-- The `unsigned int` of an `int`. -/
def toUnsigned (n : Int) : Nat := (n % 2 ^ 32).toNat

/-- A fragment, or a part. -/
structure S3PartFragContext where
  motrOID : M0Uint128 := {}
  pvid : M0Fid := Raw.zero 16
  versionID : Bytes := []
  itemSize : Nat := 0
  layoutId : Nat := 0
  partNumber : Int := 0
  isMultipart : Bool := false
deriving DecidableEq

/-- The JSON object kept for a fragment. -/
structure FragmentJson where
  oid : Bytes
  pvid : Bytes
  size : Nat
  layoutId : Nat
deriving DecidableEq

/-- JSON, written and read.  What is plain text and numbers that fit comes back; nothing is no
JSON. -/
structure JsonCodec where
  write : FragmentJson → Bytes
  parse : Bytes → Option FragmentJson
  parse_write : ∀ j, (∀ c ∈ j.oid, isPlain c = true) → (∀ c ∈ j.pvid, isPlain c = true) →
    j.size < sizeMod → j.layoutId < 2 ^ 31 → parse (cStr (write j)) = some j
  parse_nil : parse [] = none

structure S3ObjectExtendedMetadata where
  objectName : Bytes
  versionId : Bytes
  fragments : Nat := 0
  parts : Nat := 0
  totalSize : Nat := 0
  /-- The fragments of each part; those of an object without parts are under 0. -/
  extObjects : List (Int × List S3PartFragContext) := []
deriving DecidableEq

namespace S3ObjectExtendedMetadata

/-- `EXTENDED_METADATA_OBJECT_SEP`. -/
def sep : UInt8 := 124

/-! ### Adding entries -/

def getPartCount (m : S3ObjectExtendedMetadata) : Nat := m.parts

/-- The fragments under a part, as `operator[]` finds them. -/
def entriesOf (ext : List (Int × List S3PartFragContext)) (part : Int) : List S3PartFragContext :=
  (SortedMap.get part ext).getD []

def addExtendedEntry (m : S3ObjectExtendedMetadata) (ctx : S3PartFragContext)
    (fragmentNo partNo : Nat) : S3ObjectExtendedMetadata :=
  { m with
    extObjects := SortedMap.set (partNo : Int)
      ((entriesOf m.extObjects partNo).insertIdx (fragmentNo - 1) ctx) m.extObjects
    fragments := m.fragments + 1
    parts := if partNo ≠ 0 ∧ m.parts ≤ partNo then partNo else m.parts }

/-! ### Saving -/

def getJsonStr (codec : JsonCodec) (ctx : S3PartFragContext) : Bytes :=
  codec.write {
    oid := S3M0Uint128Helper.toString ctx.motrOID
    pvid := S3M0Uint128Helper.fidToString ctx.pvid
    size := ctx.itemSize
    layoutId := ctx.layoutId }

/-- `prefix_of_unique_object`. -/
def prefixOfUniqueObject (m : S3ObjectExtendedMetadata) : Bytes :=
  m.objectName ++ [sep] ++ m.versionId

/-- The key of a fragment. -/
def entryKey (m : S3ObjectExtendedMetadata) (isMultipart : Bool) (partIndex fragIndex : Nat) :
    Bytes :=
  if isMultipart then
    m.prefixOfUniqueObject ++ [sep] ++ ascii "P" ++ decimal partIndex ++ [sep] ++ ascii "F" ++
      decimal fragIndex
  else m.prefixOfUniqueObject ++ [sep] ++ ascii "F" ++ decimal fragIndex

/-- The pairs of one part, the fragments counted from 1. -/
def pairsOfPart (codec : JsonCodec) (m : S3ObjectExtendedMetadata) (partIndex : Nat)
    (frags : List S3PartFragContext) : List (Bytes × Bytes) :=
  (frags.zipIdx 1).map fun f =>
    (m.entryKey f.1.isMultipart partIndex f.2, getJsonStr codec f.1)

/-- The pairs in the order they are written, the parts counted from 1. -/
def extendedEntries (codec : JsonCodec) (m : S3ObjectExtendedMetadata) : List (Bytes × Bytes) :=
  (m.extObjects.zipIdx 1).flatMap fun p => pairsOfPart codec m p.2 p.1.2

/-- `get_extended_entries_key_list`. -/
def getExtendedEntriesKeyList (m : S3ObjectExtendedMetadata) : List Bytes :=
  (m.extObjects.zipIdx 1).flatMap fun p =>
    (p.1.2.zipIdx 1).map fun f => m.entryKey f.1.isMultipart p.2 f.2

def getKvListOfExtendedEntries (codec : JsonCodec) (m : S3ObjectExtendedMetadata) :
    List (Bytes × Bytes) :=
  SortedMap.ofWrites (extendedEntries codec m)

/-- The index with the pairs of an object written to it. -/
def save (codec : JsonCodec) (m : S3ObjectExtendedMetadata) (index : List (Bytes × Bytes)) :
    List (Bytes × Bytes) :=
  (getKvListOfExtendedEntries codec m).foldl (fun idx p => SortedMap.set p.1 p.2 idx) index

/-! ### Loading -/

/-- The tokens that `getline` finds.  Nothing follows a separator at the end. -/
def getlineTokens (s : Bytes) : List Bytes :=
  let tokens := pieces sep s
  if tokens.getLast? = some [] then tokens.dropLast else tokens

/-- A fragment added under its part. -/
def pushEntry (ext : List (Int × List S3PartFragContext)) (part : Int) (ctx : S3PartFragContext) :
    List (Int × List S3PartFragContext) :=
  SortedMap.set part (entriesOf ext part ++ [ctx]) ext

/-- `from_json`.  No result stands for the return of -1, and for the exception that `substr`
throws at an empty token. -/
def fromJson (codec : JsonCodec) (m : S3ObjectExtendedMetadata) (key content : Bytes) :
    Option S3ObjectExtendedMetadata := do
  let newroot ← codec.parse (cStr content)
  -- the object name is skipped, it may have separators of its own
  let tokens := m.objectName :: getlineTokens (key.drop (m.objectName.length + 1))
  let ctx : S3PartFragContext :=
    { motrOID := S3M0Uint128Helper.toM0Uint128 newroot.oid
      pvid := S3M0Uint128Helper.toM0Fid newroot.pvid
      versionID := (tokens[1]?).getD []
      itemSize := newroot.size
      layoutId := newroot.layoutId }
  let m := { m with totalSize := (m.totalSize + newroot.size) % sizeMod }
  let partToken := (tokens[2]?).getD []
  if tokens.length = 4 ∨ (tokens.length = 3 ∧ (find (ascii "P") partToken).isSome) then
    if partToken = [] then none
    else
      let ctx := { ctx with isMultipart := true, partNumber := atoi (partToken.drop 1) }
      let pos ← find (ascii "P") partToken
      let part ← stoi (partToken.drop (pos + 1))
      some { m with
        extObjects := pushEntry m.extObjects part ctx
        parts := toUnsigned part }
  else some { m with extObjects := pushEntry m.extObjects 0 ctx }

/-- How far a batch got. -/
inductive BatchResult where
  /-- All keys of the batch were taken. -/
  | taken (m : S3ObjectExtendedMetadata)
  /-- A key did not begin with name and version. -/
  | ended (m : S3ObjectExtendedMetadata)
  | failed

/-- The loop of `get_obj_ext_entries_successful` over one batch. -/
def takeBatch (codec : JsonCodec) : S3ObjectExtendedMetadata → List (Bytes × Bytes) → BatchResult
  | m, [] => .taken m
  | m, kv :: rest =>
    if find m.prefixOfUniqueObject kv.1 = some 0 then
      match fromJson codec m kv.1 kv.2 with
      | some m' => takeBatch codec m' rest
      | none => .failed
    else .ended m

/-- What a load ends with. -/
inductive LoadResult where
  | success (m : S3ObjectExtendedMetadata)
  | failure
deriving DecidableEq

/-- `get_obj_ext_entries` and `get_obj_ext_entries_successful`, batch after batch.  NEXT fails
when there is no key behind the last one. -/
def loadFrom (codec : JsonCodec) (index : List (Bytes × Bytes)) (fetchCount : Nat) :
    Nat → S3ObjectExtendedMetadata → Bytes → Nat → Option LoadResult
  | 0, _, _, _ => none
  | fuel + 1, m, lastObject, fragmentsRead =>
    let kvps := OrderedIndex.next index lastObject fetchCount false
    match kvps.getLast? with
    | none => some .failure
    | some lastKv =>
      match takeBatch codec m kvps with
      | .failed => some .failure
      | .ended m => some (.success m)
      | .taken m =>
        if m.fragments ≤ fragmentsRead + kvps.length then some (.success m)
        else loadFrom codec index fetchCount fuel m lastKv.1 (fragmentsRead + kvps.length)

/-- `load`.  Every batch moves on in the index, so there is an end. -/
def load (codec : JsonCodec) (m : S3ObjectExtendedMetadata) (index : List (Bytes × Bytes))
    (fetchCount : Nat) : Option LoadResult :=
  loadFrom codec index fetchCount (index.length + 1) m m.prefixOfUniqueObject 0

/-- The metadata made for loading, from the numbers in the object's own metadata. -/
def forLoading (m : S3ObjectExtendedMetadata) : S3ObjectExtendedMetadata :=
  { objectName := m.objectName
    versionId := m.versionId
    fragments := m.fragments
    parts := m.parts }

end S3ObjectExtendedMetadata

end CortxS3
