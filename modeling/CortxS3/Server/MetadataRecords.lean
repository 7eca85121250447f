/-
How the entries of objects, parts, buckets and of the global bucket index are read back:
`from_json` of their classes.

Each decoder asks JsonCpp to parse the text and then goes through the members it knows, one typed
access after the other, storing as it goes.  A decoder is a program on its record that may come to
a fatal end: an exception that nobody catches, a copy behind the end of what it copies to, or an
assertion.

JsonCpp is not part of the repository.  A value is the tree it makes of the text; `JsonCpp` is its
parser and its conversions, of which any may raise.  Access to members raises on what is neither
an object nor null, and a member that is not there is null.  Of the records only what the decoders
read and write is here, and fault injection is left out.
-/
import CortxS3.Server.M0Uint128Helper
import CortxS3.Server.ObjectVersioningHelper
import CortxS3.Lib.SortedMap

namespace CortxS3.MetadataRecords

/-! ### JSON -/

/-- What ends the process. -/
inductive Fatal where
  | exception
  /-- A `memcpy` that is longer than its target. -/
  | overrun
  | assertion
deriving DecidableEq

namespace Json

/-- `Json::Value`. -/
inductive Value where
  | null
  | boolean (b : Bool)
  | number (text : Bytes)
  | string (s : Bytes)
  | array (values : List Value)
  | object (members : List (Bytes × Value))

namespace Value

/-- `operator[]`. -/
def member (value : Value) (key : Bytes) : Except Fatal Value :=
  match value with
  | .null => .ok .null
  | .object members => .ok ((SortedMap.get key members).getD .null)
  | _ => .error .exception

def isMember (value : Value) (key : Bytes) : Except Fatal Bool :=
  match value with
  | .null => .ok false
  | .object members => .ok (SortedMap.get key members).isSome
  | _ => .error .exception

def getMemberNames (value : Value) : Except Fatal (List Bytes) :=
  match value with
  | .null => .ok []
  | .object members => .ok (members.map Prod.fst)
  | _ => .error .exception

end Value

end Json

/-- The parser and the conversions of JsonCpp. -/
structure JsonCpp where
  /-- `Json::Reader::parse`; nothing where it returns `false`. -/
  parse : Bytes → Except Fatal (Option Json.Value)
  asString : Json.Value → Except Fatal Bytes
  asInt : Json.Value → Except Fatal Int32
  asUInt : Json.Value → Except Fatal UInt32

/-- A program on a record. -/
abbrev Decoding (σ : Type) := StateT σ (Except Fatal)

/-! ### Reading members -/

section Members

/-- `newroot[key]`, and what a conversion makes of it. -/
def readAt {α : Type} (convert : Json.Value → Except Fatal α) (newroot : Json.Value) (key : Bytes) :
    Except Fatal α := do
  convert (← newroot.member key)

variable (cpp : JsonCpp)

/-- `newroot[key].asString()`. -/
abbrev stringAt : Json.Value → Bytes → Except Fatal Bytes := readAt cpp.asString

/-- `newroot[key].asInt()`. -/
abbrev intAt : Json.Value → Bytes → Except Fatal Int32 := readAt cpp.asInt

/-- `newroot[key].asUInt()`. -/
abbrev uintAt : Json.Value → Bytes → Except Fatal UInt32 := readAt cpp.asUInt

/-- `newroot[key].getMemberNames()`. -/
def memberNamesAt (newroot : Json.Value) (key : Bytes) : Except Fatal (List Bytes) := do
  (← newroot.member key).getMemberNames

/-- `newroot[key][it].asString()`. -/
def attributeAt (newroot : Json.Value) (key it : Bytes) : Except Fatal Bytes := do
  cpp.asString (← (← newroot.member key).member it)

end Members

/-- A value that was converted, when every copy had room. -/
def converted {α : Type} (c : S3M0Uint128Helper.Conversion α) : Except Fatal α :=
  if c.copies.all fun copied => copied.count ≤ copied.room then .ok c.value else .error .overrun

/-- What is computed unless an assertion fails. -/
def asserted {α : Type} : Option α → Except Fatal α
  | none => .error .assertion
  | some a => .ok a

/-! ### Attributes -/

/-- `std::map<std::string, std::string>`. -/
abbrev Attributes := List (Bytes × Bytes)

/-- The value that `operator[]` of a map refers to. -/
def valueAt (key : Bytes) (attributes : Attributes) : Bytes :=
  (SortedMap.get key attributes).getD []

/-- What `operator[]` leaves of a map: a key that is not there is added, without a value. -/
def touch (key : Bytes) (attributes : Attributes) : Attributes :=
  match SortedMap.get key attributes with
  | none => SortedMap.set key [] attributes
  | some _ => attributes

/-! ### Objects -/

inductive S3ObjectMetadataType where
  | simple
  | onlyParts
  | onlyFrgments
  | partsFragments
deriving DecidableEq

structure S3ObjectMetadata where
  isMultipart : Bool
  bucketName : Bytes := []
  objectName : Bytes := []
  objectKeyUri : Bytes := []
  uploadId : Bytes := []
  motrPartLayoutStr : Bytes := []
  motrOidStr : Bytes := []
  layoutId : Int32 := 0
  pvidStr : Bytes := []
  objFragments : UInt32 := 0
  objParts : UInt32 := 0
  objType : S3ObjectMetadataType := .simple
  oid : M0Uint128 := {}
  motrOldOidStr : Bytes := []
  oldOid : M0Uint128 := {}
  oldLayoutId : Int32 := 0
  motrOldObjectVersionId : Bytes := []
  partIndexLayout : S3MotrIdxLayout := Raw.zero 40
  systemDefinedAttribute : Attributes := []
  userName : Bytes := []
  canonicalId : Bytes := []
  userId : Bytes := []
  accountName : Bytes := []
  accountId : Bytes := []
  objectVersionId : Bytes := []
  revEpochVersionIdKey : Bytes := []
  userDefinedAttribute : Attributes := []
  objectTags : Attributes := []
  encodedAcl : Bytes := []
deriving DecidableEq

namespace S3ObjectMetadata

/-- The type that is derived from the numbers of fragments and parts, where one is. -/
def typeOf (objFragments objParts : UInt32) (objType : S3ObjectMetadataType) :
    S3ObjectMetadataType :=
  if objFragments ≠ 0 ∧ objParts ≠ 0 ∧ objFragments = objParts then .onlyParts
  else if objFragments ≠ 0 ∧ objParts = 0 then .onlyFrgments
  else if objFragments ≠ 0 ∧ objParts ≠ 0 ∧ objFragments > objParts then .partsFragments
  else objType

variable (cpp : JsonCpp)

/-- The members of a fragmented object. -/
def readFragments (newroot : Json.Value) : Decoding S3ObjectMetadata Unit := do
  if (← newroot.isMember (ascii "FNo")) = true then
    let pvidStr ← stringAt cpp newroot (ascii "PVID")
    modify fun m => { m with pvidStr := pvidStr }
    let objFragments ← uintAt cpp newroot (ascii "FNo")
    modify fun m => { m with objFragments := objFragments }
    let objParts ← uintAt cpp newroot (ascii "PRTS")
    modify fun m => { m with objParts := objParts }

/-- The members of the object that is replaced, which an upload in parts keeps. -/
def readOldObject (newroot : Json.Value) : Decoding S3ObjectMetadata Unit := do
  if (← get).isMultipart = true then
    let motrOldOidStr ← stringAt cpp newroot (ascii "motr_old_oid")
    modify fun m => { m with motrOldOidStr := motrOldOidStr }
    let oldOid ← converted (S3M0Uint128Helper.m0Uint128OfString motrOldOidStr)
    modify fun m => { m with oldOid := oldOid }
    let oldLayoutId ← intAt cpp newroot (ascii "old_layout_id")
    modify fun m => { m with oldLayoutId := oldLayoutId }
    let motrOldObjectVersionId ← stringAt cpp newroot (ascii "motr_old_object_version_id")
    modify fun m => { m with motrOldObjectVersionId := motrOldObjectVersionId }

/-- `user_name = system_defined_attribute["Owner-User"]` and the five like it. -/
def readOwner : Decoding S3ObjectMetadata Unit := do
  modify fun m => { m with
    userName := valueAt (ascii "Owner-User") m.systemDefinedAttribute
    systemDefinedAttribute := touch (ascii "Owner-User") m.systemDefinedAttribute }
  modify fun m => { m with
    canonicalId := valueAt (ascii "Owner-Canonical-id") m.systemDefinedAttribute
    systemDefinedAttribute := touch (ascii "Owner-Canonical-id") m.systemDefinedAttribute }
  modify fun m => { m with
    userId := valueAt (ascii "Owner-User-id") m.systemDefinedAttribute
    systemDefinedAttribute := touch (ascii "Owner-User-id") m.systemDefinedAttribute }
  modify fun m => { m with
    accountName := valueAt (ascii "Owner-Account") m.systemDefinedAttribute
    systemDefinedAttribute := touch (ascii "Owner-Account") m.systemDefinedAttribute }
  modify fun m => { m with
    accountId := valueAt (ascii "Owner-Account-id") m.systemDefinedAttribute
    systemDefinedAttribute := touch (ascii "Owner-Account-id") m.systemDefinedAttribute }
  modify fun m => { m with
    objectVersionId := valueAt (ascii "x-amz-version-id") m.systemDefinedAttribute
    systemDefinedAttribute := touch (ascii "x-amz-version-id") m.systemDefinedAttribute }

/-- What `from_json` does with a text that was parsed. -/
def fromValue (newroot : Json.Value) : Decoding S3ObjectMetadata Int := do
  let bucketName ← stringAt cpp newroot (ascii "Bucket-Name")
  modify fun m => { m with bucketName := bucketName }
  let objectName ← stringAt cpp newroot (ascii "Object-Name")
  modify fun m => { m with objectName := objectName }
  let objectKeyUri ← stringAt cpp newroot (ascii "Object-URI")
  modify fun m => { m with objectKeyUri := objectKeyUri }
  let uploadId ← stringAt cpp newroot (ascii "Upload-ID")
  modify fun m => { m with uploadId := uploadId }
  let motrPartLayoutStr ← stringAt cpp newroot (ascii "motr_part_layout")
  modify fun m => { m with motrPartLayoutStr := motrPartLayoutStr }
  let motrOidStr ← stringAt cpp newroot (ascii "motr_oid")
  modify fun m => { m with motrOidStr := motrOidStr }
  let layoutId ← intAt cpp newroot (ascii "layout_id")
  modify fun m => { m with layoutId := layoutId }
  readFragments cpp newroot
  modify fun m => { m with objType := typeOf m.objFragments m.objParts m.objType }
  let oid ← converted (S3M0Uint128Helper.m0Uint128OfString motrOidStr)
  modify fun m => { m with oid := oid }
  readOldObject cpp newroot
  let partIndexLayout ← converted (S3M0Uint128Helper.toIdxLayout motrPartLayoutStr)
  modify fun m => { m with partIndexLayout := partIndexLayout }
  let members ← memberNamesAt newroot (ascii "System-Defined")
  forM members fun it => do
    let value ← attributeAt cpp newroot (ascii "System-Defined") it
    modify fun m => { m with
      systemDefinedAttribute := SortedMap.set (cStr it) (cStr value) m.systemDefinedAttribute }
  readOwner
  let key ← asserted (S3ObjectVersioingHelper.generateKeyidFromVersionid (← get).objectVersionId)
  modify fun m => { m with revEpochVersionIdKey := key }
  let members ← memberNamesAt newroot (ascii "User-Defined")
  forM members fun it => do
    let value ← attributeAt cpp newroot (ascii "User-Defined") it
    modify fun m => { m with
      userDefinedAttribute := SortedMap.set (cStr it) (cStr value) m.userDefinedAttribute }
  let members ← memberNamesAt newroot (ascii "User-Defined-Tags")
  forM members fun tag => do
    let value ← attributeAt cpp newroot (ascii "User-Defined-Tags") tag
    modify fun m => { m with objectTags := SortedMap.set tag value m.objectTags }
  let encodedAcl ← stringAt cpp newroot (ascii "ACL")
  modify fun m => { m with encodedAcl := encodedAcl }
  return 0

/-- `from_json`. -/
def fromJson (content : Bytes) : Decoding S3ObjectMetadata Int := do
  match ← cpp.parse (cStr content) with
  | none => return -1
  | some newroot => fromValue cpp newroot

end S3ObjectMetadata

/-! ### Parts -/

structure S3PartMetadata where
  bucketName : Bytes := []
  objectName : Bytes := []
  uploadId : Bytes := []
  partNumber : Bytes := []
  motrOidStr : Bytes := []
  oid : M0Uint128 := {}
  layoutId : Int32 := 0
  pvidStr : Bytes := []
  systemDefinedAttribute : Attributes := []
  userDefinedAttribute : Attributes := []
deriving DecidableEq

namespace S3PartMetadata

variable (cpp : JsonCpp)

/-- What `from_json` does with a text that was parsed. -/
def fromValue (newroot : Json.Value) : Decoding S3PartMetadata Int := do
  let bucketName ← stringAt cpp newroot (ascii "Bucket-Name")
  modify fun m => { m with bucketName := bucketName }
  let objectName ← stringAt cpp newroot (ascii "Object-Name")
  modify fun m => { m with objectName := objectName }
  let uploadId ← stringAt cpp newroot (ascii "Upload-ID")
  modify fun m => { m with uploadId := uploadId }
  let partNumber ← stringAt cpp newroot (ascii "Part-Num")
  modify fun m => { m with partNumber := partNumber }
  let motrOidStr ← stringAt cpp newroot (ascii "motr_oid")
  modify fun m => { m with motrOidStr := motrOidStr }
  let oid ← converted (S3M0Uint128Helper.m0Uint128OfString motrOidStr)
  modify fun m => { m with oid := oid }
  let layoutId ← intAt cpp newroot (ascii "layout_id")
  modify fun m => { m with layoutId := layoutId }
  let pvidStr ← stringAt cpp newroot (ascii "PVID")
  modify fun m => { m with pvidStr := pvidStr }
  let members ← memberNamesAt newroot (ascii "System-Defined")
  forM members fun it => do
    let value ← attributeAt cpp newroot (ascii "System-Defined") it
    modify fun m => { m with
      systemDefinedAttribute := SortedMap.set (cStr it) (cStr value) m.systemDefinedAttribute }
  let members ← memberNamesAt newroot (ascii "User-Defined")
  forM members fun it => do
    let value ← attributeAt cpp newroot (ascii "User-Defined") it
    modify fun m => { m with
      userDefinedAttribute := SortedMap.set (cStr it) (cStr value) m.userDefinedAttribute }
  return 0

/-- `from_json`. -/
def fromJson (content : Bytes) : Decoding S3PartMetadata Int := do
  match ← cpp.parse (cStr content) with
  | none => return -1
  | some newroot => fromValue cpp newroot

end S3PartMetadata

/-! ### Buckets -/

structure S3BucketMetadata where
  bucketName : Bytes := []
  systemDefinedAttribute : Attributes := []
  userDefinedAttribute : Attributes := []
  userName : Bytes := []
  userId : Bytes := []
  accountName : Bytes := []
  accountId : Bytes := []
  ownerCanonicalId : Bytes := []
  objectListIndexLayout : S3MotrIdxLayout := Raw.zero 40
  multipartIndexLayout : S3MotrIdxLayout := Raw.zero 40
  extendedMetadataIndexLayout : S3MotrIdxLayout := Raw.zero 40
  objectsVersionListIndexLayout : S3MotrIdxLayout := Raw.zero 40
  encodedAcl : Bytes := []
  bucketPolicy : Bytes := []
  bucketTags : Attributes := []
deriving DecidableEq

namespace S3BucketMetadata

variable (cpp : JsonCpp)

/-- `user_name = system_defined_attribute["Owner-User"]` and the four like it. -/
def readOwner : Decoding S3BucketMetadata Unit := do
  modify fun m => { m with
    userName := valueAt (ascii "Owner-User") m.systemDefinedAttribute
    systemDefinedAttribute := touch (ascii "Owner-User") m.systemDefinedAttribute }
  modify fun m => { m with
    userId := valueAt (ascii "Owner-User-id") m.systemDefinedAttribute
    systemDefinedAttribute := touch (ascii "Owner-User-id") m.systemDefinedAttribute }
  modify fun m => { m with
    accountName := valueAt (ascii "Owner-Account") m.systemDefinedAttribute
    systemDefinedAttribute := touch (ascii "Owner-Account") m.systemDefinedAttribute }
  modify fun m => { m with
    accountId := valueAt (ascii "Owner-Account-id") m.systemDefinedAttribute
    systemDefinedAttribute := touch (ascii "Owner-Account-id") m.systemDefinedAttribute }
  modify fun m => { m with
    ownerCanonicalId := valueAt (ascii "Owner-Canonical-id") m.systemDefinedAttribute
    systemDefinedAttribute := touch (ascii "Owner-Canonical-id") m.systemDefinedAttribute }

/-- What `from_json` does with a text that was parsed. -/
def fromValue (newroot : Json.Value) : Decoding S3BucketMetadata Int := do
  let bucketName ← stringAt cpp newroot (ascii "Bucket-Name")
  modify fun m => { m with bucketName := bucketName }
  let members ← memberNamesAt newroot (ascii "System-Defined")
  modify fun m => { m with systemDefinedAttribute := [] }
  forM members fun it => do
    let value ← attributeAt cpp newroot (ascii "System-Defined") it
    modify fun m => { m with
      systemDefinedAttribute := SortedMap.set (cStr it) value m.systemDefinedAttribute }
  let members ← memberNamesAt newroot (ascii "User-Defined")
  modify fun m => { m with userDefinedAttribute := [] }
  forM members fun it => do
    let value ← attributeAt cpp newroot (ascii "User-Defined") it
    modify fun m => { m with
      userDefinedAttribute := SortedMap.set (cStr it) value m.userDefinedAttribute }
  readOwner
  let text ← stringAt cpp newroot (ascii "motr_object_list_index_layout")
  let objectListIndexLayout ← converted (S3M0Uint128Helper.toIdxLayout text)
  modify fun m => { m with objectListIndexLayout := objectListIndexLayout }
  let text ← stringAt cpp newroot (ascii "motr_multipart_index_layout")
  let multipartIndexLayout ← converted (S3M0Uint128Helper.toIdxLayout text)
  modify fun m => { m with multipartIndexLayout := multipartIndexLayout }
  let text ← stringAt cpp newroot (ascii "extended_metadata_index_layout")
  let extendedMetadataIndexLayout ← converted (S3M0Uint128Helper.toIdxLayout text)
  modify fun m => { m with extendedMetadataIndexLayout := extendedMetadataIndexLayout }
  let text ← stringAt cpp newroot (ascii "motr_objects_version_list_index_layout")
  let objectsVersionListIndexLayout ← converted (S3M0Uint128Helper.toIdxLayout text)
  modify fun m => { m with objectsVersionListIndexLayout := objectsVersionListIndexLayout }
  let encodedAcl ← stringAt cpp newroot (ascii "ACL")
  modify fun m => { m with encodedAcl := encodedAcl }
  let policy ← stringAt cpp newroot (ascii "Policy")
  let bucketPolicy ← asserted (base64DecodeAsserted policy)
  modify fun m => { m with bucketPolicy := bucketPolicy }
  let members ← memberNamesAt newroot (ascii "User-Defined-Tags")
  modify fun m => { m with bucketTags := [] }
  forM members fun tag => do
    let value ← attributeAt cpp newroot (ascii "User-Defined-Tags") tag
    modify fun m => { m with bucketTags := SortedMap.set tag value m.bucketTags }
  return 0

/-- `from_json`. -/
def fromJson (content : Bytes) : Decoding S3BucketMetadata Int := do
  match ← cpp.parse (cStr content) with
  | none => return -1
  | some newroot => fromValue cpp newroot

end S3BucketMetadata

/-! ### The global bucket index -/

structure S3GlobalBucketIndexMetadata where
  accountName : Bytes := []
  accountId : Bytes := []
  locationConstraint : Bytes := ascii "us-west-2"
deriving DecidableEq

namespace S3GlobalBucketIndexMetadata

variable (cpp : JsonCpp)

/-- What `from_json` does with a text that was parsed. -/
def fromValue (root : Json.Value) : Decoding S3GlobalBucketIndexMetadata Int := do
  let accountName ← stringAt cpp root (ascii "account_name")
  modify fun m => { m with accountName := accountName }
  let accountId ← stringAt cpp root (ascii "account_id")
  modify fun m => { m with accountId := accountId }
  let locationConstraint ← stringAt cpp root (ascii "location_constraint")
  modify fun m => { m with locationConstraint := locationConstraint }
  return 0

/-- `from_json`. -/
def fromJson (content : Bytes) : Decoding S3GlobalBucketIndexMetadata Int := do
  match ← cpp.parse (cStr content) with
  | none => return -1
  | some root => fromValue cpp root

end S3GlobalBucketIndexMetadata

end CortxS3.MetadataRecords
