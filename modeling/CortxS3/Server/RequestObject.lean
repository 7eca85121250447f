/-
The request of an S3 client, as the S3 server holds it: `RequestObject` and, for a request on
the S3 port, the part that `S3RequestObject` adds.

Headers and query parameters reach the server through libevhtp, as C strings in the order the
client sent them.  The server keeps them in two maps that do not agree on what a name is: the
headers in a `std::map` under their exact spelling, the query parameters under `strcasecmp`.
`getHeaderValue` ignores case again, and takes the first header in the order of the map that
fits.

A client that has gone away has no headers; requests are modelled while the client is
connected.
-/
import CortxS3.Basic
import CortxS3.Lib.SortedMap

namespace CortxS3

inductive S3HttpVerb where
  | HEAD
  | GET
  | PUT
  | DELETE
  | POST
  | UNKNOWN
deriving DecidableEq

inductive S3ApiType where
  | service
  | bucket
  | object
  | management
  | faultinjection
  | unsupported
deriving DecidableEq

inductive S3OperationCode where
  | none
  | acl
  | encryption
  | location
  | policy
  | logging
  | lifecycle
  | cors
  | notification
  | replicaton
  | tagging
  | requestPayment
  | versioning
  | website
  | listuploads
  | analytics
  | inventory
  | metrics
  | replication
  | accelerate
  | versions
  | initupload
  | partupload
  | completeupload
  | abortupload
  | multidelete
  | multipart
  | torrent
  | selectcontent
  | restore
deriving DecidableEq

/-- What `S3RequestObject` adds to a request. -/
structure S3RequestObject where
  operationCode : S3OperationCode := .none
  apiType : S3ApiType := .unsupported
  actionStr : Bytes := []
  actionList : List Bytes := []
  bucketName : Bytes := []
deriving DecidableEq

structure RequestObject where
  httpVerb : S3HttpVerb
  /-- The headers in the order they were received. -/
  headersIn : List (Bytes × Bytes) := []
  /-- The path of the URI, still encoded. -/
  fullEncodedPath : Option Bytes := none
  /-- The parameters of the URI, still encoded; one without `=` has no value. -/
  uriQuery : List (Bytes × Option Bytes) := []
  requestId : Bytes := []
  accountId : Bytes := []
  accountName : Bytes := []
  userId : Bytes := []
  userName : Bytes := []
  email : Bytes := []
  canonicalId : Bytes := []
  /-- The request as an `S3RequestObject`, when it is one. -/
  s3 : Option S3RequestObject := none
deriving DecidableEq

/-! ### The codec of URIs, from libevent -/

/-- A codec of URIs, as far as it is enough that it takes back what it does. -/
structure UriCodec where
  encode : Bytes → Bytes
  decode : Bytes → Bytes
  encode_nulFree : ∀ s, NulFree s → NulFree (encode s)
  decode_encode : ∀ s, NulFree s → decode (encode s) = s

/-- A character that stands for itself in an encoded URI. -/
def isUnreserved (c : UInt8) : Bool :=
  (48 ≤ c && c ≤ 57) || (65 ≤ c && c ≤ 90) || (97 ≤ c && c ≤ 122) ||
    c == 45 || c == 46 || c == 95 || c == 126

/-- A hexadecimal digit, in upper case. -/
def hexChar (d : Nat) : UInt8 := UInt8.ofNat (if d < 10 then 48 + d else 55 + d)

/-- `evhttp_encode_uri`, and `evhttp_uriencode` without `space_as_plus`. -/
def evhttpEncodeUri (s : Bytes) : Bytes :=
  (cStr s).flatMap fun c =>
    if isUnreserved c then [c] else [37, hexChar (c.toNat / 16), hexChar (c.toNat % 16)]

/-- `evhttp_uridecode` with `decode_plus`. -/
def evhttpUridecode : Bytes → Bytes
  | [] => []
  | 43 :: rest => 32 :: evhttpUridecode rest
  | 37 :: a :: b :: rest =>
    match hexDigit a, hexDigit b with
    | some x, some y => UInt8.ofNat (x * 16 + y) :: evhttpUridecode rest
    | _, _ => 37 :: evhttpUridecode (a :: b :: rest)
  | c :: rest => c :: evhttpUridecode rest

example : evhttpEncodeUri (ascii "a/b c") = ascii "a%2Fb%20c" := by decide

namespace RequestObject

/-! ### Headers -/

/-- `consume_header`, called for each header in turn. -/
def consumeHeader (h : Bytes × Bytes) : Bytes × Bytes := (cStr h.1, cStr h.2)

def getInHeadersCopy (r : RequestObject) : List (Bytes × Bytes) :=
  SortedMap.ofWrites (r.headersIn.map consumeHeader)

/-- The value of the first header whose name fits, letter case aside. -/
def getHeaderValue (r : RequestObject) (key : Bytes) : Bytes :=
  match r.getInHeadersCopy.find? (fun h => sameIgnoringCase h.1 key) with
  | some h => cStr h.2
  | none => []

/-! ### Query parameters -/

/-- The map of query parameters: the name as it was first spelt, and the value, under the name
in lower case. -/
abbrev QueryMap := List (Bytes × (Bytes × Bytes))

/-- `consume_query_parameters`.  A name that is there already keeps its spelling. -/
def consumeQueryParameter (m : QueryMap) (p : Bytes × Option Bytes) : QueryMap :=
  let key := cStr p.1
  let value := match p.2 with
    | some v => cStr (evhttpUridecode (cStr v))
    | none => []
  let name := match SortedMap.get (foldCase key) m with
    | some (spelling, _) => spelling
    | none => key
  SortedMap.set (foldCase key) (name, value) m

/-- `get_query_parameters`, as the pairs in the order of the map. -/
def getQueryParameters (r : RequestObject) : List (Bytes × Bytes) :=
  (r.uriQuery.foldl consumeQueryParameter []).map Prod.snd

end RequestObject

end CortxS3
