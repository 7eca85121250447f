/-
Completing an upload in parts, `S3PostCompleteAction`.

The client names the parts of the object, each with its number and ETag, in ascending order.  The
action reads the index of the parts that were uploaded batch by batch, takes from each batch the
parts that were named, and notes them in the metadata of the new object.  When the index has been
read it goes on if every part that was named was found and there are as many parts in the index as
the last number says.

This module has what the action computes; what it waits for is in `PostCompleteTasks`.

The XML of the request is given as the elements under its root.  The MD5 of OpenSSL is a
parameter, and so is the version that is generated for the new object.  The sizes are added up in
an `uint64_t`; every sum is checked against 5 TB before the next part, which has at most 5 GB, is
added.
-/
import CortxS3.Server.AbortMultipartAction

namespace CortxS3

/-! ### Numbers in strings -/

/-- The longest run of octal digits at the front, as a number. -/
def octalValue : Bytes → Nat → Nat
  | [], acc => acc
  | c :: rest, acc => if 48 ≤ c && c ≤ 55 then octalValue rest (acc * 8 + (c.toNat - 48)) else acc

/-- The digits of a number whose base its first digits tell. -/
def valueOfAnyBase : Bytes → Nat
  | 48 :: x :: d :: rest =>
    if (x == 120 || x == 88) && (hexDigit d).isSome then hexValue (d :: rest) 0
    else octalValue (x :: d :: rest) 0
  | 48 :: rest => octalValue rest 0
  | s => decimalValue s 0

/-- `strtoul(s, NULL, 0)`: a number that does not fit is `ULONG_MAX`, one with a minus is negated as
an `unsigned long`. -/
def strtoulAnyBase (s : Bytes) : Nat :=
  match (cStr s).dropWhile isSpace with
  | 45 :: rest =>
    let n := valueOfAnyBase rest
    if n < 2 ^ 64 then (2 ^ 64 - n) % 2 ^ 64 else 2 ^ 64 - 1
  | 43 :: rest => min (valueOfAnyBase rest) (2 ^ 64 - 1)
  | rest => min (valueOfAnyBase rest) (2 ^ 64 - 1)

/-- `std::stoul`, with no result where it throws. -/
def stoul (s : Bytes) : Option Nat :=
  ((leadingInt (cStr s)).filter fun z => z.natAbs < 2 ^ 64).map toSize

/-! ### The ETag of an object in parts -/

structure S3AwsEtag where
  hexEtag : Bytes := []
  partCount : Nat := 0
deriving DecidableEq

namespace S3AwsEtag

/-- `hex_to_dec`, whose -1 is stored in an `unsigned char`. -/
def hexToDec (ch : UInt8) : UInt8 :=
  match hexDigit ch with
  | some d => UInt8.ofNat d
  | none => 255

/-- Behind an odd number of digits `hex[i + 1]` is a NUL. -/
def convertHexBin : Bytes → Bytes
  | [] => []
  | [hi] => [hexToDec hi <<< 4 ||| hexToDec 0]
  | hi :: lo :: rest => (hexToDec hi <<< 4 ||| hexToDec lo) :: convertHexBin rest

def addPartEtag (e : S3AwsEtag) (etag : Bytes) : S3AwsEtag where
  hexEtag := e.hexEtag ++ etag
  partCount := e.partCount + 1

def finalize (md5String : Bytes → Bytes) (e : S3AwsEtag) : Bytes :=
  md5String (convertHexBin e.hexEtag) ++ ascii "-" ++ decimal e.partCount

/-- The ETag of parts with these MD5s, in this order. -/
def ofParts (md5String : Bytes → Bytes) (etags : List Bytes) : Bytes :=
  finalize md5String (etags.foldl addPartEtag {})

end S3AwsEtag

namespace S3PostCompleteAction

/-! ### The upload -/

/-- A part with the MD5 of its content. -/
structure StoredPart extends S3PartMetadata where
  md5 : Bytes
deriving DecidableEq

/-- The index of the parts of an upload.  A value that cannot be parsed is `none`. -/
structure PartIndex where
  entries : List (Bytes × Option StoredPart)
  sorted : OrderedIndex.Sorted entries
  /-- A part is stored under its number, which the upload of parts has checked. -/
  numbered : ∀ kv ∈ entries, ∃ n, 1 ≤ n ∧ n ≤ S3AbortMultipartAction.maximumPartNumber ∧
    kv.1 = decimal n ∧ ∀ p, kv.2 = some p → p.partNumber = n
  /-- The layouts are those that the server chooses from. -/
  layouts : ∀ kv ∈ entries, ∀ p, kv.2 = some p → 0 ≤ p.layoutId

/-- What the metadata of the upload and the request tell of the new object. -/
structure Upload where
  objectName : Bytes
  newObjectOid : M0Uint128
  layoutId : Int
  /-- The version that is generated for it. -/
  objVersionKey : Bytes
deriving DecidableEq

/-! ### The request -/

/-- An element under the root of the document, with the names and contents of its children. -/
structure XmlElement where
  name : Bytes
  children : List (Bytes × Bytes)
deriving DecidableEq

/-- A `std::map` under `S3NumStrComparator`, for which texts with the same number are the same key:
for each number the text that came first and the ETag that came last. -/
abbrev RequestedParts := List (Nat × Bytes × Bytes)

def RequestedParts.assign (m : RequestedParts) (partNumber etag : Bytes) : RequestedParts :=
  let text := ((SortedMap.get (strtoulAnyBase partNumber) m).map (·.1)).getD partNumber
  SortedMap.set (strtoulAnyBase partNumber) (text, etag) m

/-- Why a request is turned down. -/
inductive BodyError where
  | malformedXML
  | invalidPartOrder
  /-- `std::stoi` throws, which nothing catches. -/
  | exception
deriving DecidableEq

/-- `std::stoi`. -/
def stdStoi (s : Bytes) : Except BodyError Int :=
  match stoi s with
  | some n => .ok n
  | none => .error .exception

/-- `previous_part`. -/
def previousPart (prevPartNumber : Bytes) : Except BodyError Int :=
  if prevPartNumber = [] then .ok 0 else stdStoi prevPartNumber

/-- The content of the last child with a name. -/
def contentOf (name : Bytes) (e : XmlElement) : Bytes :=
  (((e.children.filter fun c => c.1 = name).getLast?).map (·.2)).getD []

/-- The loop over the elements. -/
def readParts : RequestedParts → Bytes → List XmlElement → Except BodyError (RequestedParts × Bytes)
  | parts, prevPartNumber, [] =>
    if prevPartNumber = [] then .error .malformedXML else .ok (parts, prevPartNumber)
  | parts, prevPartNumber, e :: rest =>
    if e.name = ascii "Part" then
      let partNumber := contentOf (ascii "PartNumber") e
      let inputEtag := contentOf (ascii "ETag") e
      if partNumber = [] ∨ inputEtag = [] then .error .malformedXML
      else do
        let previous ← previousPart prevPartNumber
        let current ← stdStoi partNumber
        if current < previous then .error .invalidPartOrder
        else readParts (parts.assign partNumber inputEtag) partNumber rest
    else readParts parts prevPartNumber rest

/-- `validate_request_body`: `parts` and `total_parts`.  A document that is no XML is `none`. -/
def validateRequestBody (document : Option (List XmlElement)) :
    Except BodyError (RequestedParts × Bytes) :=
  match document with
  | none => .error .malformedXML
  | some elements => readParts [] [] elements

/-- The loop with the map as it leaves it, also where it gives up: a part is in the map before its
number is looked at. -/
def readPartsInto :
    RequestedParts → Bytes → List XmlElement → RequestedParts × Except BodyError Bytes
  | parts, prevPartNumber, [] =>
    (parts, if prevPartNumber = [] then .error .malformedXML else .ok prevPartNumber)
  | parts, prevPartNumber, e :: rest =>
    if e.name = ascii "Part" then
      let partNumber := contentOf (ascii "PartNumber") e
      let inputEtag := contentOf (ascii "ETag") e
      if partNumber = [] ∨ inputEtag = [] then (parts, .error .malformedXML)
      else
        let parts := parts.assign partNumber inputEtag
        match previousPart prevPartNumber with
        | .error failure => (parts, .error failure)
        | .ok previous =>
          match stdStoi partNumber with
          | .error failure => (parts, .error failure)
          | .ok current =>
            if current < previous then (parts, .error .invalidPartOrder)
            else readPartsInto parts partNumber rest
    else readPartsInto parts prevPartNumber rest

/-- `validate_request_body`, with the map that the action is left with. -/
def validateRequestBodyInto (document : Option (List XmlElement)) :
    RequestedParts × Except BodyError Bytes :=
  match document with
  | none => ([], .error .malformedXML)
  | some elements => readPartsInto [] [] elements

end S3PostCompleteAction

/-! ### The action -/

/-- What the action keeps of the new object's metadata. -/
structure S3NewObjectMetadata where
  oid : M0Uint128
  layoutId : Int
  objVersionKey : Bytes
  extendedObjectMetadata : S3ObjectExtendedMetadata
  numberOfFragments : Nat := 0
  numberOfParts : Nat := 0
  contentLength : Bytes := []
  md5 : Bytes := []
deriving DecidableEq

open S3PostCompleteAction in
structure S3PostCompleteAction where
  parts : RequestedParts
  totalParts : Bytes
  /-- A `std::map<unsigned int, std::string>`. -/
  partEtags : List (Nat × Bytes) := []
  objectSize : Nat := 0
  validatedPartsCount : Nat := 0
  lastKey : Bytes := []
  etag : Bytes := []
  newObjectMetadata : Option S3NewObjectMetadata := none
deriving DecidableEq

namespace S3PostCompleteAction

/-- `MINIMUM_ALLOWED_PART_SIZE`. -/
def minimumAllowedPartSize : Nat := 5242880

/-- `MAXIMUM_ALLOWED_PUT_SIZE`. -/
def maximumAllowedPutSize : Nat := 5368709120

/-- `MAXIMUM_ALLOWED_OBJECT_SIZE`. -/
def maximumAllowedObjectSize : Nat := 5497558138880

/-- Why an upload is not completed. -/
inductive Failure where
  | s3Error (code : String)
  /-- `std::stoul` throws. -/
  | exception
deriving DecidableEq

/-- `std::stoul`. -/
def stdStoul (s : Bytes) : Except Failure Nat :=
  match stoul s with
  | some n => .ok n
  | none => .error .exception

section

variable (u : Upload)

/-- The metadata made for the new object at its first part. -/
def createObjectMetadata : S3NewObjectMetadata where
  oid := u.newObjectOid
  layoutId := u.layoutId
  objVersionKey := u.objVersionKey
  extendedObjectMetadata :=
    { objectName := u.objectName
      versionId := u.objVersionKey }

/-- `part_frag_ctx`. -/
def partFragCtx (objVersionKey : Bytes) (part : StoredPart) : S3PartFragContext where
  motrOID := part.oid
  pvid := S3M0Uint128Helper.toM0Fid part.pvidStr
  versionID := objVersionKey
  itemSize := part.contentLength
  layoutId := part.layoutId.toNat
  isMultipart := true

def addPartObjectToObjectExtended (part : StoredPart) (objMetadata : Option S3NewObjectMetadata) :
    S3NewObjectMetadata :=
  let md := objMetadata.getD (createObjectMetadata u)
  let ext := md.extendedObjectMetadata.addExtendedEntry (partFragCtx md.objVersionKey part) 1
    (strtoulAnyBase (decimal part.partNumber))
  { md with
    extendedObjectMetadata := ext
    numberOfFragments := ext.fragments
    numberOfParts := ext.getPartCount }

/-- The loop of `validate_parts` over the parts that are left of the request. -/
def validatePartsLoop (batch : List (Bytes × Option StoredPart)) :
    RequestedParts → S3PostCompleteAction → Except Failure S3PostCompleteAction
  | [], a => .ok a
  | (number, text, _) :: rest, a =>
    match batch.lookup text with
    | none => validatePartsLoop batch rest a
    | some none => .error (.s3Error "InvalidPart")
    | some (some part) =>
      if maximumAllowedPutSize < part.contentLength then .error (.s3Error "EntityTooLarge")
      else if part.contentLength < minimumAllowedPartSize ∧ text ≠ a.totalParts then
        .error (.s3Error "EntityTooSmall")
      else do
        let pnum ← stdStoul text
        let objectSize := a.objectSize + part.contentLength
        if maximumAllowedObjectSize < objectSize then .error (.s3Error "EntityTooLarge")
        else validatePartsLoop batch rest { a with
          objectSize := objectSize
          partEtags := SortedMap.set (toUInt pnum) part.md5 a.partEtags
          parts := a.parts.filter fun p => p.1 ≠ number
          newObjectMetadata := some (addPartObjectToObjectExtended u part a.newObjectMetadata) }

def validateParts (batch : List (Bytes × Option StoredPart)) (a : S3PostCompleteAction) :
    Except Failure S3PostCompleteAction :=
  validatePartsLoop u batch a.parts a

variable (md5String : Bytes → Bytes)

def generateEtag (a : S3PostCompleteAction) : Bytes :=
  S3AwsEtag.ofParts md5String (a.partEtags.map (·.2))

/-- What follows the last batch: the ETag, or the refusal. -/
def finalizeParts (a : S3PostCompleteAction) : Except Failure S3PostCompleteAction :=
  if a.parts ≠ [] then .error (.s3Error "InvalidPart")
  else do
    let total ← stdStoul a.totalParts
    if a.validatedPartsCount ≠ total then .error (.s3Error "InvalidPart")
    else .ok { a with etag := generateEtag md5String a }

/-- What a batch leads to. -/
inductive BatchOutcome where
  | failed (f : Failure)
  /-- All parts have been read. -/
  | finished (a : S3PostCompleteAction)
  | continueFetching (a : S3PostCompleteAction)
deriving DecidableEq

def BatchOutcome.ofResult : Except Failure S3PostCompleteAction → BatchOutcome
  | .ok a => .finished a
  | .error f => .failed f

/-- `get_next_parts_info_successful`. -/
def getNextPartsInfoSuccessful (countWeRequested : Nat) (keyValues : List (Bytes × Option StoredPart))
    (a : S3PostCompleteAction) : BatchOutcome :=
  match validateParts u keyValues a with
  | .error f => .failed f
  | .ok a =>
    if keyValues.length < countWeRequested then
      .ofResult (finalizeParts md5String
        { a with validatedPartsCount := a.validatedPartsCount + keyValues.length })
    else
      .continueFetching { a with
        validatedPartsCount := a.validatedPartsCount + countWeRequested
        lastKey := (keyValues.getLast?.map (·.1)).getD a.lastKey }

/-- `get_next_parts_info_failed` when there is nothing behind the last key. -/
def getNextPartsInfoMissing (a : S3PostCompleteAction) : BatchOutcome :=
  .ofResult (finalizeParts md5String a)

/-- One call of NEXT against an index that can be read.  It fails when there is no key behind the
last one. -/
def fetchBatch (index : PartIndex) (countWeRequested : Nat) (a : S3PostCompleteAction) :
    BatchOutcome :=
  let keyValues := OrderedIndex.next index.entries a.lastKey countWeRequested false
  if keyValues = [] then getNextPartsInfoMissing md5String a
  else getNextPartsInfoSuccessful u md5String countWeRequested keyValues a

/-- `get_next_parts_info`, batch after batch. -/
def getNextPartsInfo (index : PartIndex) (countWeRequested : Nat) :
    Nat → S3PostCompleteAction → Option (Except Failure S3PostCompleteAction)
  | 0, _ => none
  | fuel + 1, a =>
    match fetchBatch u md5String index countWeRequested a with
    | .failed f => some (.error f)
    | .finished a => some (.ok a)
    | .continueFetching a => getNextPartsInfo index countWeRequested fuel a

/-- The metadata that `save_metadata` saves. -/
def metadataToSave (a : S3PostCompleteAction) : Option S3NewObjectMetadata :=
  a.newObjectMetadata.map fun md =>
    { md with
      oid := u.newObjectOid
      layoutId := u.layoutId
      contentLength := decimal a.objectSize
      md5 := a.etag }

/-- The action from a request that was accepted to the point of saving metadata, which some uploads do
not reach. -/
def complete (index : PartIndex) (countWeRequested : Nat) (parts : RequestedParts)
    (totalParts : Bytes) : Option S3NewObjectMetadata :=
  match getNextPartsInfo u md5String index countWeRequested (index.entries.length + 2)
    { parts := parts, totalParts := totalParts } with
  | some (.ok a) => metadataToSave u a
  | _ => none

end

end S3PostCompleteAction

end CortxS3
