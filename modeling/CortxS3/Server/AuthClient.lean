/-
The client of the auth server, `S3AuthClient`.

One client belongs to one request.  Whatever it asks the auth server, it asks by a form of
names and values: the headers of the S3 client, and over them the fields the S3 server sets
(`setupAuthRequestBody`).  They share one map, so a field replaces the header of the same
spelling and only that one.

The form is sent URI-encoded, and what the auth server gets to see of it is the pairs again.
So a body is its pairs here, in the order they are sent; `evhttp_encode_uri` takes C strings,
and so each name and each value ends at its first NUL.  It fails only when memory runs out,
which is not modelled.

An upload in chunks asks once for every chunk (`ChunkAuth`).  The chunks arrive whenever they
arrive and one request at a time is in flight, so those that come early wait in
`chunkValidationData`.  Each request carries the signature of the chunk before, which is taken
from the auth server's last answer, and the first one carries the signature of the request
itself.  The `trace` of a cycle is not in the source and no code reads it.
-/
import CortxS3.Server.CommonUtilities
import CortxS3.Server.RequestObject
import CortxS3.Lib.Runs

namespace CortxS3

inductive S3AuthClientOpType where
  | authentication
  | authorization
  | comboAuth
  | aclvalidation
  | policyvalidation
deriving DecidableEq

inductive S3AuthClientOpState where
  | connectionError
  | failed
  | init
  | started
  | succeded
deriving DecidableEq

structure S3AuthClient where
  state : S3AuthClientOpState := .init
  opType : S3AuthClientOpType := .authentication
  bucketAcl : Bytes := []
  chunkValidationData : List (Bytes × Bytes) := []
  prevChunkSignatureFromAuth : Bytes := []
  currentChunkSignatureFromAuth : Bytes := []
  hashSha256CurrentChunk : Bytes := []
  policyStr : Bytes := []
  aclStr : Bytes := []
  userAcl : Bytes := []
  entityPath : Bytes := []
  lastChunkAdded : Bool := false
  isChunkedAuth : Bool := false
  chunkAuthAborted : Bool := false
  setGetMethod : Bool := false
deriving DecidableEq

/-- The pairs of a request to the auth server, in the order they are sent. -/
abbrev AuthBody := List (Bytes × Bytes)

/-- The fields the S3 server sets. -/
inductive AuthField where
  | action
  | method
  | requestorAccountId
  | requestorAccountName
  | requestorUserId
  | requestorUserName
  | requestorEmail
  | requestorCanonicalId
  | clientAbsoluteUri
  | clientQueryParams
  | version
  | requestId
  | requestACL
  | s3Action
  | s3ActionList
  | policy
  | authACL
  | bucketACL
  | previousSignature
  | currentSignature
  | contentSha256
  | acl
deriving DecidableEq

/-- The name a field goes by. -/
def AuthField.name : AuthField → Bytes
  | action => ascii "Action"
  | method => ascii "Method"
  | requestorAccountId => ascii "RequestorAccountId"
  | requestorAccountName => ascii "RequestorAccountName"
  | requestorUserId => ascii "RequestorUserId"
  | requestorUserName => ascii "RequestorUserName"
  | requestorEmail => ascii "RequestorEmail"
  | requestorCanonicalId => ascii "RequestorCanonicalId"
  | clientAbsoluteUri => ascii "ClientAbsoluteUri"
  | clientQueryParams => ascii "ClientQueryParams"
  | version => ascii "Version"
  | requestId => ascii "Request_id"
  | requestACL => ascii "Request-ACL"
  | s3Action => ascii "S3Action"
  | s3ActionList => ascii "S3ActionList"
  | policy => ascii "Policy"
  | authACL => ascii "Auth-ACL"
  | bucketACL => ascii "Bucket-ACL"
  | previousSignature => ascii "previous-signature-sha256"
  | currentSignature => ascii "current-signature-sha256"
  | contentSha256 => ascii "x-amz-content-sha256"
  | acl => ascii "ACL"

namespace S3AuthClient

/-! ### The body of a request -/

/-- Calls of `add_key_val_to_body`, in order. -/
abbrev KeyVals := List (AuthField × Bytes)

/-- `add_non_empty_key_val_to_body`. -/
def addNonEmptyKeyVal (key : AuthField) (val : Bytes) : KeyVals :=
  if val = [] then [] else [(key, val)]

/-- `add_non_empty_key_val_to_body` for a list: the values that are not empty, with commas
between them. -/
def addNonEmptyKeyVals (key : AuthField) (vals : List Bytes) : KeyVals :=
  addNonEmptyKeyVal key ((vals.filter (· ≠ [])).flatMap (· ++ ascii ",")).dropLast

def methodOf (c : S3AuthClient) (r : RequestObject) : Bytes :=
  if c.setGetMethod then ascii "GET"
  else match r.httpVerb with
    | .GET => ascii "GET"
    | .HEAD => ascii "HEAD"
    | .PUT => ascii "PUT"
    | .DELETE => ascii "DELETE"
    | .POST => ascii "POST"
    | .UNKNOWN => []

/-- The path to report.  It is worked out once and kept. -/
def entityPathFor (c : S3AuthClient) (r : RequestObject) : Bytes :=
  let path :=
    if c.entityPath = [] then
      match r.fullEncodedPath with
      | some full =>
        let spaced := findAndReplaceall (cStr full) (ascii "+") (ascii "%20")
        if (ascii "AWS4-HMAC-SHA256").isPrefixOf (r.getHeaderValue (ascii "Authorization")) then
          findAndReplaceall spaced (ascii "!") (ascii "%21")
        else spaced
      | none => []
    else c.entityPath
  if path = ascii "/" ∧ c.opType = .policyvalidation then
    match r.s3 with
    | some s3 => path ++ s3.bucketName
    | none => path
  else path

/-- One query parameter, as it is put back into a query. -/
def queryParameter (p : Bytes × Bytes) : Bytes :=
  if p.2 = [] then p.1 else p.1 ++ ascii "=" ++ evhttpEncodeUri p.2

/-- The query put together again, a `&` before each parameter but where nothing stands yet. -/
def queryOf (r : RequestObject) : Bytes :=
  r.getQueryParameters.foldl
    (fun query p => query ++ (if query = [] then [] else ascii "&") ++ queryParameter p) []

/-- When the auth server is asked for the ACL a new bucket or object gets by default. -/
def requestsAcl (verb : S3HttpVerb) (s3 : S3RequestObject) : Bool :=
  (verb = .PUT ∧ s3.operationCode = .none ∧ s3.apiType = .bucket) ∨
  (((verb = .PUT ∧ s3.operationCode = .none) ∨
      (verb = .POST ∧ s3.operationCode = .multipart)) ∧ s3.apiType = .object) ∨
  ((verb = .PUT ∧ s3.operationCode = .acl) ∧ (s3.apiType = .object ∨ s3.apiType = .bucket)) ∨
  (verb = .PUT ∧ s3.operationCode = .acl)

/-- The headers of the S3 client, which go along but with a policy to validate. -/
def headerKeyVals (c : S3AuthClient) (r : RequestObject) : AuthBody :=
  if c.opType = .policyvalidation then [] else r.getInHeadersCopy

/-- What every request tells. -/
def commonKeyVals (c : S3AuthClient) (r : RequestObject) : KeyVals :=
  [ (.method, methodOf c r),
    (.requestorAccountId, r.accountId),
    (.requestorAccountName, r.accountName),
    (.requestorUserId, r.userId),
    (.requestorUserName, r.userName),
    (.requestorEmail, r.email),
    (.requestorCanonicalId, r.canonicalId),
    (.clientAbsoluteUri, entityPathFor c r),
    (.clientQueryParams, queryOf r),
    (.version, ascii "2010-05-08"),
    (.requestId, r.requestId) ]

/-- What is to be authorized. -/
def authorizationKeyVals (c : S3AuthClient) (r : RequestObject) : KeyVals :=
  (match r.s3 with
    | some s3 =>
      (if requestsAcl r.httpVerb s3 then [(.requestACL, ascii "true")] else []) ++
      (if c.setGetMethod then [(.requestACL, ascii "false")] else []) ++
      addNonEmptyKeyVal .s3Action s3.actionStr ++
      addNonEmptyKeyVals .s3ActionList s3.actionList
    | none => []) ++
  addNonEmptyKeyVal .policy c.policyStr ++
  addNonEmptyKeyVal .authACL c.aclStr ++
  addNonEmptyKeyVal .bucketACL c.bucketAcl

/-- The chunk to be authenticated; nothing of it is sent when a signature is missing. -/
def chunkKeyVals (c : S3AuthClient) : KeyVals :=
  if c.isChunkedAuth &&
      !(c.prevChunkSignatureFromAuth.isEmpty || c.currentChunkSignatureFromAuth.isEmpty) then
    [ (.previousSignature, c.prevChunkSignatureFromAuth),
      (.currentSignature, c.currentChunkSignatureFromAuth),
      (.contentSha256, c.hashSha256CurrentChunk) ]
  else []

/-- The fields that depend on what is asked. -/
def opKeyVals (c : S3AuthClient) (r : RequestObject) : KeyVals :=
  match c.opType with
  | .authorization | .comboAuth => authorizationKeyVals c r
  | .authentication => chunkKeyVals c
  | .aclvalidation => [(.acl, c.userAcl), (.authACL, c.aclStr)]
  | .policyvalidation => [(.policy, c.policyStr)]

def actionOf : S3AuthClientOpType → Bytes
  | .comboAuth => ascii "AuthenticateAndAuthorize"
  | .authorization => ascii "AuthorizeUser"
  | .authentication => ascii "AuthenticateUser"
  | .aclvalidation => ascii "ValidateACL"
  | .policyvalidation => ascii "ValidatePolicy"

/-- All that the server adds to the headers. -/
def serverKeyVals (c : S3AuthClient) (r : RequestObject) : KeyVals :=
  commonKeyVals c r ++ opKeyVals c r

/-- `data_key_val`: headers and fields written in turn into one map. -/
def dataKeyVal (c : S3AuthClient) (r : RequestObject) : AuthBody :=
  SortedMap.ofWrites (headerKeyVals c r ++ (serverKeyVals c r).map fun p => (p.1.name, p.2))

/-- `setup_auth_request_body`: the client, which now knows its path, and the body. -/
def setupAuthRequestBody (c : S3AuthClient) (r : RequestObject) : S3AuthClient × AuthBody :=
  ({ c with entityPath := entityPathFor c r },
   (AuthField.action.name, actionOf c.opType) ::
     (dataKeyVal c r).map fun p => (cStr p.1, cStr p.2))

/-! ### Asking for a request to be authenticated and authorized -/

/-- The signature in an `Authorization` header: the 64 characters after `Signature` and the one
that follows it.  Where nothing follows, `substr` throws and the request goes no further; such a
header is read as one with an empty signature. -/
def signatureInHeader (value : Bytes) : Option Bytes :=
  (find (ascii "Signature") value).map fun pos => (value.drop (pos + 9 + 1)).take 64

/-- `check_combo_auth` up to `trigger_request`: a signature is remembered from the first header
named `Authorization` in any letter case. -/
def checkComboAuth (c : S3AuthClient) (r : RequestObject) : S3AuthClient :=
  let c := { c with opType := .comboAuth }
  match r.getInHeadersCopy.find? (fun h => sameIgnoringCase h.1 (ascii "Authorization")) with
  | some h =>
    match signatureInHeader h.2 with
    | some sig => { c with prevChunkSignatureFromAuth := sig }
    | none => c
  | none => c

/-- `check_authorization` up to `trigger_request`. -/
def checkAuthorization (c : S3AuthClient) : S3AuthClient :=
  { c with opType := .authorization }

/-- `init_chunk_auth_cycle`. -/
def initChunkAuthCycle (c : S3AuthClient) : S3AuthClient :=
  { c with opType := .authentication, isChunkedAuth := true, state := .init }

end S3AuthClient

namespace S3Action

/-- `check_authorization_header`: there is a header of exactly this spelling. -/
def isAuthorizationHeaderPresent (r : RequestObject) : Bool :=
  r.getInHeadersCopy.any fun h => cStr h.1 = ascii "Authorization"

/-- `check_authorization`: the client as it is set up to ask. -/
def checkAuthorization (c : S3AuthClient) (r : RequestObject) : S3AuthClient :=
  if isAuthorizationHeaderPresent r then c.checkComboAuth r else c.checkAuthorization

end S3Action

/-! ### The cycle over the chunks of an upload -/

/-- The body of a positive answer.  One that cannot be parsed is not `isOK`. -/
structure S3AuthResponseSuccess where
  isOK : Bool := true
  userName : Bytes := []
  canonicalId : Bytes := []
  userId : Bytes := []
  accountName : Bytes := []
  accountId : Bytes := []
  email : Bytes := []
  signatureSha256 : Bytes := []
deriving DecidableEq

/-- What happened in a cycle, in order. -/
inductive ChunkAct where
  /-- A chunk was handed over. -/
  | handed (signature hash : Bytes)
  /-- A request was sent. -/
  | sent (body : AuthBody)
  /-- The request in flight was answered. -/
  | answered (positive : Bool)
  /-- `handler_on_success` was called. -/
  | onSuccess
  /-- `handler_on_failed` was called. -/
  | onFailed
deriving DecidableEq

/-- A client in its cycle, and the request it works for. -/
structure ChunkAuth where
  client : S3AuthClient
  request : RequestObject
  trace : List ChunkAct := []
deriving DecidableEq

inductive ChunkEvent where
  | addChecksumForChunk (currentSign sha256OfPayload : Bytes)
  | addLastChecksumForChunk (currentSign sha256OfPayload : Bytes)
  /-- The auth server answers with status 200. -/
  | success (response : S3AuthResponseSuccess)
  /-- It answers with another status, or the connection to it or to the S3 client is lost. -/
  | failure
  | abortChunkAuthOp
deriving DecidableEq

namespace ChunkAuth

open S3AuthClient

/-- The state after `check_combo_auth` and `init_chunk_auth_cycle`. -/
def start (c : S3AuthClient) (r : RequestObject) : ChunkAuth :=
  { client := (c.checkComboAuth r).initChunkAuthCycle, request := r }

/-- `trigger_request`. -/
def triggerRequest (s : ChunkAuth) : ChunkAuth :=
  let (client, body) := s.client.setupAuthRequestBody s.request
  { s with client := { client with state := .started }, trace := s.trace ++ [.sent body] }

/-- The chunk that waited longest is taken up, and its request is sent. -/
def validateNext (s : ChunkAuth) : ChunkAuth :=
  match s.client.chunkValidationData with
  | [] => s
  | (sig, hash) :: rest =>
    triggerRequest { s with client := { s.client with
      currentChunkSignatureFromAuth := sig
      hashSha256CurrentChunk := hash
      chunkValidationData := rest } }

def addChecksumForChunk (s : ChunkAuth) (sig hash : Bytes) : ChunkAuth :=
  let s := { s with
    client := { s.client with
      chunkValidationData := s.client.chunkValidationData ++ [(sig, hash)] }
    trace := s.trace ++ [.handed sig hash] }
  if s.client.state ≠ .started then s.validateNext else s

def addLastChecksumForChunk (s : ChunkAuth) (sig hash : Bytes) : ChunkAuth :=
  addChecksumForChunk { s with client := { s.client with lastChunkAdded := true } } sig hash

/-- What `handle_response` keeps of an answer to an authentication. -/
def handleResponse (r : RequestObject) (response : S3AuthResponseSuccess) : RequestObject :=
  if response.isOK then
    { r with
      userName := response.userName
      canonicalId := response.canonicalId
      userId := response.userId
      accountName := response.accountName
      accountId := response.accountId
      email := response.email }
  else r

def chunkAuthSuccessful (s : ChunkAuth) (response : S3AuthResponseSuccess) : ChunkAuth :=
  let s : ChunkAuth :=
    { client := { s.client with
        state := .succeded
        prevChunkSignatureFromAuth := if response.isOK then response.signatureSha256 else [] }
      request := handleResponse s.request response
      trace := s.trace ++ [.answered true] }
  if s.client.chunkAuthAborted ||
      (s.client.lastChunkAdded && s.client.chunkValidationData.isEmpty) then
    { s with trace := s.trace ++ [.onSuccess] }
  else s.validateNext

def chunkAuthFailed (s : ChunkAuth) : ChunkAuth :=
  { s with
    client := { s.client with state := .failed }
    trace := s.trace ++ [.answered false, .onFailed] }

/-- One event.  There is an answer only to a request in flight. -/
def step (s : ChunkAuth) : ChunkEvent → Option ChunkAuth
  | .addChecksumForChunk sig hash => some (s.addChecksumForChunk sig hash)
  | .addLastChecksumForChunk sig hash => some (s.addLastChecksumForChunk sig hash)
  | .success response =>
    if s.client.state = .started then some (s.chunkAuthSuccessful response) else none
  | .failure => if s.client.state = .started then some s.chunkAuthFailed else none
  | .abortChunkAuthOp =>
    some { s with client := { s.client with chunkAuthAborted := true } }

end ChunkAuth

end CortxS3
