/-
One question to the auth server, from `S3AuthClient::trigger_request` to the handler that is
called.

`libevhtp` calls back when the headers of the answer are in, for every piece of its body, and when
the connection fails.  Each of the three may end the operation.  A connection that could not be
made is tried again after a while, on a new connection and under the same context: what the
context has learnt from the last one, the length of the content and the status of the operation,
is still there.

A connection calls back as long as its hooks are set.  They belong to the connection, and so the
model keeps every connection whose hooks are set, under its number.  Setting up the request does
not fail, and what a body says is parsed by `libxml2`, a parameter.

`outcomes` is not in the source and no code reads it: the handlers that were called, a positive
one with the answer it was called for.  Nor does any code read the body and the mark `taken` of a
connection: taken is one whose answer has no content, and which was not waited for after that.
-/
import CortxS3.Server.AuthClient

namespace CortxS3

/-! ### What an answer says -/

/-- The children of the root of an XML document, each with the content of its own children. -/
abbrev XmlDocument := List (Bytes × List (Bytes × Option Bytes))

structure AuthResponse extends S3AuthResponseSuccess where
  requestId : Bytes := []
  acl : Bytes := []
  alluserrequest : Bool := false
deriving DecidableEq

namespace AuthResponse

/-- `set_auth_parameters`.  The flag is set by the address of its text, so any text sets it. -/
def setAuthParameters (r : AuthResponse) : Bytes × Option Bytes → AuthResponse
  | (_, none) => r
  | (name, some key) =>
    if name = ascii "UserId" then { r with userId := key }
    else if name = ascii "UserName" then { r with userName := key }
    else if name = ascii "Email" then { r with email := key }
    else if name = ascii "CanonicalId" then { r with canonicalId := key }
    else if name = ascii "AccountName" then { r with accountName := key }
    else if name = ascii "AccountId" then { r with accountId := key }
    else if name = ascii "SignatureSHA256" then { r with signatureSha256 := key }
    else if name = ascii "ACL" then { r with acl := key }
    else if name = ascii "AllUserRequest" then { r with alluserrequest := true }
    else r

def setRequestId (r : AuthResponse) : Bytes × Option Bytes → AuthResponse
  | (name, some key) => if name = ascii "RequestId" then { r with requestId := key } else r
  | (_, none) => r

def setFrom (r : AuthResponse) (child : Bytes × List (Bytes × Option Bytes)) : AuthResponse :=
  if child.1 = ascii "AuthenticateUserResult" then child.2.foldl setAuthParameters r
  else if child.1 = ascii "ResponseMetadata" then child.2.foldl setRequestId r
  else if child.1 = ascii "AuthorizeUserResult" then child.2.foldl setAuthParameters r
  else r

/-- Whether what was found is enough. -/
def isValid (r : AuthResponse) : Bool :=
  if !r.alluserrequest then
    !(r.userName.isEmpty || r.userId.isEmpty || r.accountName.isEmpty || r.accountId.isEmpty)
  else !r.acl.isEmpty

/-- `parse_and_validate`. -/
def parseAndValidate (xmlParseDoc : Bytes → Option XmlDocument) (xmlContent : Bytes) :
    AuthResponse :=
  if xmlContent = [] then { isOK := false }
  else match xmlParseDoc xmlContent with
    | none => { isOK := false }
    | some document =>
      let r := document.foldl setFrom { isOK := false }
      { r with isOK := r.isValid }

end AuthResponse

/-! ### The operation -/

inductive S3AsyncOpStatus where
  | unknown
  | inprogress
  | success
  | failed
  | connectionFailed
deriving DecidableEq

/-- Where the code and the message of an error come from. -/
inductive AuthResponseError where
  | fromAuthServer (xml : Bytes)
  | fromServer (code message : Bytes)
deriving DecidableEq

/-- An answer of the auth server, with its whole body. -/
structure AuthReply where
  status : Nat
  body : Bytes := []
deriving DecidableEq

/-- A connection whose hooks are set. -/
structure AuthConnection where
  /-- The answer, once its headers are in. -/
  reply : Option AuthReply := none
  unread : Bytes := []
  taken : Bool := false
deriving DecidableEq

/-- A handler that was called; a positive one with the answer, and with the part of its body that
was judged. -/
inductive AuthOutcome where
  | onSuccess (reply : AuthReply) (judged : Option Bytes)
  | onFailed
deriving DecidableEq

structure AuthOperation where
  client : S3AuthClient
  request : RequestObject
  clientConnected : Bool := true
  retryCount : Nat := 0
  opStatus : S3AsyncOpStatus := .unknown
  contentLength : Int := -1
  fSuccess : Bool := false
  successObj : Option AuthResponse := none
  errorObj : Option AuthResponseError := none
  defaultAcl : Option Bytes := none
  /-- The connections whose hooks are set, by their number. -/
  connections : Nat → Option AuthConnection := fun _ => none
  /-- How many connections have been made.  The context holds the last one. -/
  attempts : Nat := 0
  /-- The retries that are due. -/
  timers : Nat := 0
  crashed : Bool := false
  outcomes : List AuthOutcome := []

inductive AuthEvent where
  /-- A header `Content-Length` has come in. -/
  | contentLength (n : Nat) (value : Int)
  /-- The headers have come in, and a body will follow. -/
  | headersEnd (n : Nat) (reply : AuthReply)
  /-- The next piece of the body has come in. -/
  | read (n length : Nat)
  /-- The connection has failed, or is closed by the auth server. -/
  | connError (n : Nat)
  | timeout
  | clientDisconnected
deriving DecidableEq

namespace AuthOperation

/-- `trigger_request`: a new connection with its hooks. -/
def triggerRequest (s : AuthOperation) : AuthOperation :=
  { s with
    connections := Function.update s.connections s.attempts (some {})
    attempts := s.attempts + 1
    client := { s.client with state := .started } }

/-- A call of `check_authorization`, `check_combo_auth`, `check_authentication`, `validate_acl` or
`validate_policy`. -/
def start (opType : S3AuthClientOpType) (c : S3AuthClient) (r : RequestObject) : AuthOperation :=
  let c : S3AuthClient := match opType with
    | .authorization => c.checkAuthorization
    | .comboAuth => c.checkComboAuth r
    | .authentication => { c with opType := .authentication, isChunkedAuth := false }
    | .aclvalidation => { c with opType := .aclvalidation }
    | .policyvalidation => { c with opType := .policyvalidation }
  triggerRequest { client := c, request := r }

/-- The operation does without a body. -/
def noBody : S3AuthClientOpType → Bool
  | .aclvalidation => true
  | .policyvalidation => true
  | _ => false

def getSignatureFromResponse (s : AuthOperation) : Bytes :=
  if s.fSuccess then (s.successObj.map fun r => r.signatureSha256).getD [] else []

/-- `on_common_success`. -/
def onCommonSuccess (s : AuthOperation) (reply : AuthReply) (judged : Option Bytes) :
    AuthOperation :=
  let s := { s with client := { s.client with state := .succeded } }
  if s.client.isChunkedAuth = true ∧ s.client.opType ≠ .authentication then
    { s with crashed := true }
  else
    let s := if s.client.isChunkedAuth then
        { s with client := { s.client with
          prevChunkSignatureFromAuth := s.getSignatureFromResponse } }
      else s
    { s with outcomes := s.outcomes ++ [.onSuccess reply judged] }

/-- `on_common_failed`. -/
def onCommonFailed (maxRetryCount : Nat) (s : AuthOperation) : AuthOperation :=
  if s.opStatus = .connectionFailed then
    let s := { s with client := { s.client with state := .connectionError } }
    if s.retryCount < maxRetryCount then
      { s with retryCount := s.retryCount + 1, timers := s.timers + 1 }
    else { s with outcomes := s.outcomes ++ [.onFailed] }
  else
    { s with
      client := { s.client with state := .failed }
      outcomes := s.outcomes ++ [.onFailed] }

/-- What the request learns from an answer. -/
def learn (r : RequestObject) (response : AuthResponse) : RequestObject :=
  { r with
    userName := response.userName
    canonicalId := response.canonicalId
    userId := response.userId
    accountName := response.accountName
    accountId := response.accountId
    email := response.email }

/-- `handle_response` for an answer with status 200 that has to say who the user is. -/
def handleSuccess (s : AuthOperation) (response : AuthResponse) : AuthOperation :=
  let s := { s with successObj := some response }
  if response.isOK = false then { s with fSuccess := false }
  else
    let s := match s.client.opType with
      | .comboAuth | .authentication => { s with request := learn s.request response }
      | _ => s
    if s.client.opType = .authentication then s
    else match s.request.s3 with
      | none => { s with fSuccess := false }
      | some _ => { s with defaultAcl := some response.acl }

/-- `handle_response`. -/
def handleResponse (xmlParseDoc : Bytes → Option XmlDocument) (s : AuthOperation) (text : Bytes)
    (status : Nat) : AuthOperation :=
  if status = 200 then
    let s := { s with fSuccess := true, opStatus := .success }
    if noBody s.client.opType then s
    else s.handleSuccess (AuthResponse.parseAndValidate xmlParseDoc text)
  else
    { s with fSuccess := false, opStatus := .failed, errorObj := some (.fromAuthServer text) }

/-- The hooks of a connection are unset. -/
def unsetHooks (s : AuthOperation) (n : Nat) : AuthOperation :=
  { s with connections := Function.update s.connections n none }

/-- `on_response_headers_end`. -/
def onResponseHeadersEnd (maxRetryCount : Nat) (s : AuthOperation) (n : Nat) (reply : AuthReply) :
    AuthOperation :=
  let hooked (taken : Bool) : AuthOperation :=
    { s with
      connections := Function.update s.connections n
        (some { reply := some reply, unread := reply.body, taken := taken }) }
  if s.contentLength = 0 then
    let s := hooked true
    if noBody s.client.opType then
      if reply.status = 200 then s.onCommonSuccess reply none
      else s.onCommonFailed maxRetryCount
    else
      let error : AuthResponseError :=
        .fromServer (ascii "InternalError") (ascii "Incorrect response from Auth server")
      onCommonFailed maxRetryCount { s with errorObj := some error }
  else hooked false

/-- `on_read_response`.  The hooks that are unset are those of the connection in the context. -/
def onReadResponse (xmlParseDoc : Bytes → Option XmlDocument) (maxRetryCount : Nat)
    (s : AuthOperation) (reply : AuthReply) (piece : Bytes) : AuthOperation :=
  let s := s.unsetHooks (s.attempts - 1)
  if s.clientConnected then
    let s := s.handleResponse xmlParseDoc (cStr piece) reply.status
    if reply.status = 200 then s.onCommonSuccess reply (some piece)
    else s.onCommonFailed maxRetryCount
  else s.onCommonFailed maxRetryCount

/-- `on_conn_err_callback`. -/
def onConnErr (maxRetryCount : Nat) (s : AuthOperation) (n : Nat) : AuthOperation :=
  let s := s.unsetHooks n
  let error : AuthResponseError :=
    .fromServer (ascii "InternalError") (ascii "Cannot connect to Auth server")
  let s := if s.clientConnected then
      { s with opStatus := .connectionFailed, errorObj := some error }
    else s
  s.onCommonFailed maxRetryCount

/-- One event, if it can occur: a connection has answered or not yet, a retry is due. -/
def step (xmlParseDoc : Bytes → Option XmlDocument) (maxRetryCount : Nat) (s : AuthOperation) :
    AuthEvent → Option AuthOperation
  | .contentLength n value =>
    match s.connections n with
    | some ⟨none, _, _⟩ => some { s with contentLength := value }
    | _ => none
  | .headersEnd n reply =>
    match s.connections n with
    | some ⟨none, _, _⟩ => some (s.onResponseHeadersEnd maxRetryCount n reply)
    | _ => none
  | .read n length =>
    match s.connections n with
    | some ⟨some reply, unread, taken⟩ =>
      if unread.take length = [] then none
      else
        let s := { s with
          connections := Function.update s.connections n
            (some ⟨some reply, unread.drop length, taken⟩) }
        some (s.onReadResponse xmlParseDoc maxRetryCount reply (unread.take length))
    | _ => none
  | .connError n =>
    match s.connections n with
    | some _ => some (s.onConnErr maxRetryCount n)
    | none => none
  | .timeout =>
    if s.timers = 0 then none
    else some (triggerRequest { s with timers := s.timers - 1 })
  | .clientDisconnected => some { s with clientConnected := false }

end AuthOperation

end CortxS3
