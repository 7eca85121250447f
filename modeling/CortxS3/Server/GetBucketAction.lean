/-
Listing the objects of a bucket, `S3GetBucketAction`.

The action reads the object index in batches with NEXT, filters each key by the prefix, rolls
keys up by the delimiter, and answers when it has as many results as the client asked for or
there is nothing more to read.  The names below are those of the source, and the control flow
is its own: `getNextObjects` launches one NEXT, `getNextObjectsSuccessful` and
`getNextObjectsFailed` are its two handlers, and each of them either answers or asks again.

A batch is a `for` loop with `continue` and `break` at several places.  `visit` is its body at
one pair, and `visitAll` is the loop.  The counter `length` starts at the size of the batch and
is what the source decides truncation by.

What `from_json` makes of a stored value is a parameter: it gives the name of the object, or
fails.  The client's connection and a pending shutdown are left out; both only end the action.
-/
import CortxS3.Basic
import CortxS3.Lib.OrderedIndex

namespace CortxS3

/-- A stored pair: the key and the serialised object. -/
abbrev KeyValue := Bytes × Bytes

/-! ### The response -/

structure S3ObjectListResponse where
  /-- The names of the objects, in the order in which they were added. -/
  objectList : List Bytes := []
  /-- A `std::set`: ascending, each prefix once. -/
  commonPrefixes : List Bytes := []
  responseIsTruncated : Bool := false
  nextMarkerKey : Bytes := []
  keyCount : Nat := 0
deriving DecidableEq

namespace S3ObjectListResponse

def addObject (r : S3ObjectListResponse) (name : Bytes) : S3ObjectListResponse :=
  { r with objectList := r.objectList ++ [name] }

def addCommonPrefix (r : S3ObjectListResponse) (pfx : Bytes) : S3ObjectListResponse :=
  if pfx ∈ r.commonPrefixes then r
  else { r with commonPrefixes :=
    r.commonPrefixes.takeWhile (· < pfx) ++ pfx :: r.commonPrefixes.dropWhile (· < pfx) }

def isPrefixInCommonPrefix (r : S3ObjectListResponse) (pfx : Bytes) : Bool :=
  r.commonPrefixes.contains pfx

def size (r : S3ObjectListResponse) : Nat := toUInt r.objectList.length

def commonPrefixesSize (r : S3ObjectListResponse) : Nat := toUInt r.commonPrefixes.length

/-- The `Prefix` of each of the `CommonPrefixes` that `get_xml` writes, in a response without
encoding: the last byte makes room for the delimiter. -/
def xmlCommonPrefixes (r : S3ObjectListResponse) (requestDelimiter : Bytes) : List Bytes :=
  r.commonPrefixes.map fun pfx => pfx.dropLast ++ requestDelimiter

/-- `size() + common_prefixes_size()`, a sum of two `unsigned int`s. -/
def resultCount (r : S3ObjectListResponse) : Nat := toUInt (r.size + r.commonPrefixesSize)

end S3ObjectListResponse

/-! ### The store -/

/-- The arguments of `next_keyval`; `inclusive` is the flag value 0. -/
structure NextRequest where
  key : Bytes
  count : Nat
  inclusive : Bool
deriving DecidableEq

/-- How a NEXT ends, as the state of the reader tells it. -/
inductive NextResult where
  | present (kvps : List KeyValue)
  | missing
  | failedE2big
  | failedToLaunch
  | failed
deriving DecidableEq

/-- NEXT on an index that can be read: a NEXT that finds no key is reported as missing. -/
def nextKeyval (index : List KeyValue) (req : NextRequest) : NextResult :=
  match OrderedIndex.next index req.key req.count req.inclusive with
  | [] => .missing
  | kvps => .present kvps

section

variable {index kvps : List KeyValue} {req : NextRequest}

theorem nextKeyval_missing (h : OrderedIndex.next index req.key req.count req.inclusive = []) :
    nextKeyval index req = .missing := by
  rw [nextKeyval, h]

theorem nextKeyval_present
    (h : OrderedIndex.next index req.key req.count req.inclusive = kvps) (hne : kvps ≠ []) :
    nextKeyval index req = .present kvps := by
  rw [nextKeyval, h]
  cases kvps with
  | nil => exact absurd rfl hne
  | cons kv rest => rfl

end

/-! ### The action -/

structure S3GetBucketAction where
  requestPrefix : Bytes := []
  requestDelimiter : Bytes := []
  requestMarkerKey : Bytes := []
  maxKeys : Nat := 1000
  /-- The index layout of the bucket has a zero oid. -/
  noIndex : Bool := false
  objectList : S3ObjectListResponse := {}
  lastKey : Bytes := []
  savedLastKey : Bytes := []
  firstNextKeyvalCall : Bool := true
  stateStartCheckAnyMoreKeys : Bool := false
  /-- The reader's state is `failed_e2big`. -/
  readerE2big : Bool := false
  maxRecordCount : Nat := 0
  retryCount : Nat := 0
  totalKeysVisited : Nat := 0
  keyCount : Nat := 0
  fetchSuccessful : Bool := false
  error : Option String := none
deriving DecidableEq

namespace S3GetBucketAction

/-- The action once `validate_request` has read the query. -/
def validateRequest (pfx delimiter marker : Bytes) (maxKeys : Nat) : S3GetBucketAction :=
  { requestPrefix := pfx
    requestDelimiter := delimiter
    requestMarkerKey := marker
    maxKeys := maxKeys
    lastKey := marker }

/-- What the action does next: wait for a NEXT, or answer the client. -/
inductive Outcome where
  | launch (a : S3GetBucketAction) (req : NextRequest)
  | respond (a : S3GetBucketAction)
deriving DecidableEq

def maxRetryCount : Nat := 5

section

variable (fetchCount : Nat) (fromJson : Bytes → Option Bytes)

/-- `get_next_objects`. -/
def getNextObjects (a : S3GetBucketAction) : Outcome :=
  let a := { a with
    maxRecordCount :=
      if a.readerE2big then
        if maxRetryCount < a.retryCount then 1 else a.maxRecordCount / 2
      else fetchCount }
  if a.maxKeys = 0 ∨ a.noIndex then
    .respond { a with
      fetchSuccessful := true
      objectList := { a.objectList with keyCount := a.keyCount } }
  else if a.requestPrefix ≠ [] ∧ a.requestMarkerKey = [] ∧ a.firstNextKeyvalCall then
    let a := { a with firstNextKeyvalCall := false, lastKey := a.requestPrefix }
    .launch a { key := a.lastKey, count := a.maxRecordCount, inclusive := true }
  else
    .launch a { key := a.lastKey, count := a.maxRecordCount, inclusive := false }

/-- The local variables of `get_next_objects_successful`, and the two members its loop
writes. -/
structure Batch where
  objectList : S3ObjectListResponse
  lastKey : Bytes
  length : Nat
  atleastOneJsonError : Bool := false
  lastKeyInCommonPrefix : Bool := false
  skipNoFurtherPrefixMatch : Bool := false
  skipRemainingCommonPrefixes : Bool := false
  lastCommonPrefix : Bytes := []
deriving DecidableEq

/-- How a part of the loop's body ends: control falls through to the next part, or goes to the
next pair (`continue`), or leaves the loop (`break`). -/
inductive Flow where
  | fall (b : Batch)
  | skip (b : Batch)
  | leave (b : Batch)
deriving DecidableEq

/-- The first part, for a pair that follows one rolled up in this batch. -/
def checkLastCommonPrefix (a : S3GetBucketAction) (b : Batch) (key : Bytes) : Flow :=
  if b.lastKeyInCommonPrefix then
    if a.requestPrefix ≠ [] ∧ find a.requestPrefix key = none then
      if a.requestPrefix < key then
        .leave { b with skipNoFurtherPrefixMatch := true, length := 0 }
      else if b.length - 1 = 0 then
        .leave { b with length := b.length - 1 }
      else
        .skip { b with length := b.length - 1 }
    else
      match find b.lastCommonPrefix key with
      | none =>
        if b.objectList.resultCount = a.maxKeys then
          .leave { b with lastKey := b.lastCommonPrefix }
        else
          .fall { b with lastKeyInCommonPrefix := false, lastCommonPrefix := [] }
      | some _ => .skip { b with length := b.length - 1, lastKey := key }
  else .fall b

/-- A key that is listed by itself. -/
def listKey (b : Batch) (value : Bytes) : Flow :=
  match fromJson value with
  | none => .fall { b with atleastOneJsonError := true }
  | some name => .fall { b with objectList := b.objectList.addObject name }

/-- A key whose delimiter stands at `delimiterPos`. -/
def rollUp (a : S3GetBucketAction) (b : Batch) (key : Bytes) (delimiterPos : Nat) : Flow :=
  let commonPrefix := key.take (delimiterPos + 1)
  let b := { b with
    skipRemainingCommonPrefixes := !b.objectList.isPrefixInCommonPrefix commonPrefix }
  let b :=
    if commonPrefix ≠ a.requestMarkerKey then
      { b with
        objectList := b.objectList.addCommonPrefix commonPrefix
        lastCommonPrefix := commonPrefix
        lastKeyInCommonPrefix := true }
    else b
  if b.skipRemainingCommonPrefixes then .leave { b with lastKey := commonPrefix ++ [0xff] }
  else .fall b

/-- A key without the prefix: past the prefix no key will match any more. -/
def noPrefixMatch (a : S3GetBucketAction) (b : Batch) (key : Bytes) : Flow :=
  if a.requestPrefix < key then
    .leave { b with skipNoFurtherPrefixMatch := true, length := 0 }
  else .fall b

/-- The second part: the four combinations of prefix and delimiter. -/
def filterKey (a : S3GetBucketAction) (b : Batch) (kv : KeyValue) : Flow :=
  if a.requestPrefix = [] ∧ a.requestDelimiter = [] then
    listKey fromJson b kv.2
  else if a.requestPrefix ≠ [] ∧ a.requestDelimiter = [] then
    if find a.requestPrefix kv.1 = some 0 then listKey fromJson b kv.2
    else noPrefixMatch a b kv.1
  else if a.requestPrefix = [] ∧ a.requestDelimiter ≠ [] then
    match find a.requestDelimiter kv.1 with
    | none => listKey fromJson b kv.2
    | some pos => rollUp a b kv.1 pos
  else
    if find a.requestPrefix kv.1 = some 0 then
      match findFrom a.requestDelimiter kv.1 a.requestPrefix.length with
      | none => listKey fromJson b kv.2
      | some pos => rollUp a b kv.1 pos
    else noPrefixMatch a b kv.1

/-- The last part: the end of the batch, or of what the client asked for. -/
def countKey (a : S3GetBucketAction) (b : Batch) (key : Bytes) : Flow :=
  let b := { b with length := b.length - 1 }
  if b.length = 0 ∨ !b.lastKeyInCommonPrefix ∧ b.objectList.resultCount = a.maxKeys then
    .leave { b with lastKey := key }
  else .skip b

/-- The body of the loop at one pair. -/
def visit (a : S3GetBucketAction) (b : Batch) (kv : KeyValue) : Flow :=
  match checkLastCommonPrefix a b kv.1 with
  | .fall b =>
    match filterKey fromJson a b kv with
    | .fall b => countKey a b kv.1
    | flow => flow
  | flow => flow

/-- The loop over one batch. -/
def visitAll (a : S3GetBucketAction) : Batch → List KeyValue → Batch
  | b, [] => b
  | b, kv :: rest =>
    match visit fromJson a b kv with
    | .leave b => b
    | .skip b | .fall b => visitAll a b rest

/-- The answer to the NEXT that only asks whether any key is left behind a common prefix. -/
def answerAnyMoreKeys (a : S3GetBucketAction) (kvps : List KeyValue) : S3GetBucketAction :=
  let anyLeft :=
    match kvps with
    | [] => false
    | kv :: _ => !(a.requestPrefix ≠ [] ∧ find a.requestPrefix kv.1 = none)
  let objectList :=
    if anyLeft then
      { a.objectList with responseIsTruncated := true, nextMarkerKey := a.savedLastKey }
    else a.objectList
  { a with
    stateStartCheckAnyMoreKeys := false
    fetchSuccessful := true
    objectList := { objectList with keyCount := a.keyCount } }

/-- What follows the loop: answer, or ask for more. -/
def finishBatch (a : S3GetBucketAction) (kvps : List KeyValue) (b : Batch) : Outcome :=
  let keyCount := b.objectList.resultCount
  let a := { a with objectList := b.objectList, lastKey := b.lastKey, keyCount := keyCount }
  if keyCount = a.maxKeys ∨
      (!b.skipRemainingCommonPrefixes ∧ kvps.length < a.maxRecordCount) ∨
      b.skipNoFurtherPrefixMatch then
    if keyCount = a.maxKeys ∧ b.length ≠ 0 then
      if b.skipRemainingCommonPrefixes then
        getNextObjects fetchCount { a with
          stateStartCheckAnyMoreKeys := true
          savedLastKey :=
            if b.lastKeyInCommonPrefix then b.lastCommonPrefix else a.savedLastKey }
      else
        let lastKey := if b.lastKeyInCommonPrefix then b.lastCommonPrefix else a.lastKey
        .respond { a with
          lastKey := lastKey
          fetchSuccessful := true
          objectList := { a.objectList with
            responseIsTruncated := true
            nextMarkerKey := lastKey
            keyCount := keyCount } }
    else
      .respond { a with
        fetchSuccessful := true
        objectList := { a.objectList with keyCount := keyCount } }
  else getNextObjects fetchCount a

/-- `get_next_objects_successful`. -/
def getNextObjectsSuccessful (a : S3GetBucketAction) (kvps : List KeyValue) : Outcome :=
  let a := { a with retryCount := 0, readerE2big := false }
  if a.stateStartCheckAnyMoreKeys then .respond (answerAnyMoreKeys a kvps)
  else
    let a := { a with totalKeysVisited := a.totalKeysVisited + kvps.length }
    let b := visitAll fromJson a
      { objectList := a.objectList, lastKey := a.lastKey, length := kvps.length } kvps
    finishBatch fetchCount a kvps b

/-- `get_next_objects_failed`. -/
def getNextObjectsFailed (a : S3GetBucketAction) : NextResult → Outcome
  | .missing | .present _ =>
    .respond { a with
      readerE2big := false
      stateStartCheckAnyMoreKeys := false
      fetchSuccessful := true
      objectList := { a.objectList with keyCount := a.keyCount } }
  | .failedToLaunch => .respond { a with readerE2big := false, error := "ServiceUnavailable" }
  | .failedE2big =>
    let a := { a with readerE2big := true }
    if a.maxRecordCount ≤ 1 then
      .respond { a with error := "InternalError", fetchSuccessful := false }
    else getNextObjects fetchCount { a with retryCount := a.retryCount + 1 }
  | .failed =>
    .respond { a with readerE2big := false, error := "InternalError", fetchSuccessful := false }

/-- The handler that the reader calls. -/
def onNextKeyval (a : S3GetBucketAction) : NextResult → Outcome
  | .present kvps => getNextObjectsSuccessful fetchCount fromJson a kvps
  | result => getNextObjectsFailed fetchCount a result

/-- The action against a store, from a given outcome to its answer.  `store k` is how the store
answers the `k`-th NEXT of the action. -/
def serve (store : Nat → NextRequest → NextResult) : Nat → Nat → Outcome → Option S3GetBucketAction
  | _, _, .respond a => some a
  | 0, _, .launch _ _ => none
  | fuel + 1, k, .launch a req =>
    serve store fuel (k + 1) (onNextKeyval fetchCount fromJson a (store k req))

/-- A whole request: list `pfx`, `delimiter` behind `marker`. -/
def listObjects (store : Nat → NextRequest → NextResult) (fuel : Nat)
    (pfx delimiter marker : Bytes) (maxKeys : Nat) : Option S3ObjectListResponse :=
  (serve fetchCount fromJson store fuel 0
    (getNextObjects fetchCount (validateRequest pfx delimiter marker maxKeys))).map
      fun a => a.objectList

/-- A client that pages through a listing: while the answer is truncated it asks again behind
`NextMarker`.  Both the number of pages and the NEXTs of each page are bounded by the fuel. -/
def listPages (store : Nat → NextRequest → NextResult) (fuel : Nat)
    (pfx delimiter : Bytes) (maxKeys : Nat) :
    Nat → Bytes → Option (List S3ObjectListResponse)
  | 0, _ => none
  | pages + 1, marker =>
    match listObjects fetchCount fromJson store fuel pfx delimiter marker maxKeys with
    | none => none
    | some r =>
      if r.responseIsTruncated then
        (listPages store fuel pfx delimiter maxKeys pages r.nextMarkerKey).map (r :: ·)
      else some [r]

end

end S3GetBucketAction

end CortxS3
