/-
The way of a request through the auth server, `IAMController.serve`.

The action named in the body decides what happens.  What the rest of the development is about
is who is taken for the sender when `Authorizer.authorize` is called, and whether a signature was
verified before.  So `serve` ends where a decision is handed on (`Served`): with the call of
`authorize`, with one of the other answers to the S3 server, or with an IAM operation, which does
not go to `Authorizer.authorize`.

The directory of keys and users and the check of a signature are parameters.  An entry of the
authentication cache was put there by an earlier lookup, and `AuthDirectory` says so.
-/
import CortxS3.Auth.ClientRequestParser

namespace CortxS3

structure Account where
  id : Option Bytes := none
  name : Option Bytes := none
  canonicalId : Option Bytes := none
  email : Option Bytes := none
deriving DecidableEq

structure AccessKey where
  id : Bytes := []
  userId : Option Bytes := none
  secretKey : Bytes := []
  active : Bool := false
  token : Option Bytes := none
  expired : Bool := false
deriving DecidableEq

def AccessKey.exists (k : AccessKey) : Bool := k.userId.isSome

structure Requestor where
  id : Option Bytes := none
  name : Option Bytes := none
  account : Option Account := none
  accessKey : Option AccessKey := none
deriving DecidableEq

def Requestor.exists (q : Requestor) : Bool := q.id.isSome

/-- The lookups the auth server makes; one that throws `DataAccessException` finds nothing. -/
structure Lookups where
  findAccessKey : Bytes → Option AccessKey
  findRequestor : AccessKey → Option Requestor
  ldapLoginCN : Bytes
  ldapLoginPassword : Bytes

/-- The requestor is the one the directory has for this access key. -/
def Lookups.Owns (l : Lookups) (accessKeyId : Bytes) (q : Requestor) : Prop :=
  ∃ k, l.findAccessKey accessKeyId = some k ∧ k.exists = true ∧ l.findRequestor k = some q

/-- The directory with the cache in front of it. -/
structure AuthDirectory extends Lookups where
  /-- The entry of the authentication map for a key, while it is young enough. -/
  cached : Bytes → Option Requestor
  owned : ∀ key q, cached key = some q → toLookups.Owns key q

namespace RequestorService

/-- `validateAccessKey`. -/
def validateAccessKey (k : AccessKey) : Except Refusal Unit :=
  if !k.exists then .error .invalidAccessKey
  else if !k.active then .error .inactiveAccessKey
  else .ok ()

/-- `validateRequestor`.  Who uses temporary credentials has to show their token. -/
def validateRequestor (q : Requestor) (t : ClientRequestToken) : Except Refusal Unit :=
  if !q.exists then .error .internalServerError
  else match q.accessKey with
    | none => .error .exception
    | some k =>
      match k.token with
      | none => .ok ()
      | some token =>
        if t.requestHeaders.get (ascii "X-Amz-Security-Token") ≠ some token then
          .error .invalidClientTokenId
        else if k.expired then .error .expiredCredential
        else .ok ()

def getRequestor (d : AuthDirectory) (t : ClientRequestToken) : Except Refusal Requestor :=
  match d.cached t.accessKeyId with
  | some q => .ok q
  | none => do
    let some k := d.findAccessKey t.accessKeyId | throw .internalServerError
    validateAccessKey k
    let some q := d.findRequestor k | throw .internalServerError
    validateRequestor q t
    return q

end RequestorService

/-- What became of a request. -/
inductive Served where
  | refused (why : Refusal)
  /-- `Authorizer.authorize` is called, with a requestor or with none; `verified` is the token
  whose signature was found right before. -/
  | authorize (requestor : Option Requestor) (verified : Option ClientRequestToken)
  | authenticated (requestor : Requestor) (token : ClientRequestToken)
  | validateACL
  | validatePolicy
  /-- The operation is one of IAM. -/
  | iam (requestor : Option Requestor)
deriving DecidableEq

/-- A step that may refuse the request. -/
def Served.andThen {α : Type} (x : Except Refusal α) (f : α → Served) : Served :=
  match x with
  | .ok a => f a
  | .error why => .refused why

namespace IAMController

section

variable (d : AuthDirectory) (validate : ClientRequestToken → Requestor → Bool)
variable (http : FullHttpRequest) (body : RequestBodyMap)

/-- Parsing, where a request without a token ends. -/
def parseToken (requestAction : Bytes) : Except Refusal ClientRequestToken := do
  let some t ← ClientRequestParser.parse http body requestAction
    | throw .authorizationHeaderMalformed
  return t

/-- The LDAP user as a requestor. -/
def ldapRequestor : Requestor :=
  { accessKey := some { id := d.ldapLoginCN, secretKey := d.ldapLoginPassword } }

/-- `CreateAccount` and its like, which the LDAP user alone may ask for. -/
def serveLdap (requestAction : Bytes) : Served :=
  .andThen (parseToken http body requestAction) fun t =>
    if d.ldapLoginCN ≠ t.accessKeyId then .refused .invalidLdapUserId
    else if validate t (ldapRequestor d) then .iam (some (ldapRequestor d))
    else .refused .notAuthenticated

/-- `UpdateAccountLoginProfile` and `DeleteAccount`. -/
def serveAccount (requestAction : Bytes) : Served :=
  .andThen (parseToken http body requestAction) fun t =>
    if d.ldapLoginCN = t.accessKeyId then
      if validate t (ldapRequestor d) then .iam (some (ldapRequestor d))
      else .refused .notAuthenticated
    else match RequestorService.getRequestor d t with
      | .error .exception => .refused .exception
      | .error _ => .refused .invalidAccessKey
      | .ok q => if validate t q then .iam (some q) else .refused .notAuthenticated

/-- The requestor that the S3 server says it has authenticated before. -/
def requestorOfBody : Requestor :=
  { id := body.get (ascii "RequestorUserId")
    name := body.get (ascii "RequestorUserName")
    account := some
      { id := body.get (ascii "RequestorAccountId")
        name := body.get (ascii "RequestorAccountName")
        canonicalId := body.get (ascii "RequestorCanonicalId")
        email := body.get (ascii "RequestorEmail") } }

/-- A request whose signature is verified before anything else is done. -/
def serveSigned (requestAction : Bytes) : Served :=
  .andThen (parseToken http body requestAction) fun t =>
  .andThen (RequestorService.getRequestor d t) fun q =>
    if !validate t q then .refused .notAuthenticated
    else if requestAction = ascii "AuthenticateUser" then .authenticated q t
    else if requestAction = ascii "AuthenticateAndAuthorize" then .authorize (some q) (some t)
    else .iam (some q)

def serve : Served :=
  match body.get (ascii "Action") with
  | none => .refused .exception
  | some requestAction =>
    if requestAction = ascii "CreateAccount" || requestAction = ascii "ListAccounts" ||
        requestAction = ascii "ResetAccountAccessKey" then
      serveLdap d validate http body requestAction
    else if requestAction = ascii "UpdateAccountLoginProfile" ||
        requestAction = ascii "DeleteAccount" then
      serveAccount d validate http body requestAction
    else if body.get (ascii "Authorization") = none ∧ requestAction = ascii "AuthorizeUser" then
      .authorize none none
    else if requestAction ≠ ascii "AssumeRoleWithSAML" ∧
        requestAction ≠ ascii "GetTempAuthCredentials" then
      if requestAction = ascii "AuthorizeUser" then .authorize (some (requestorOfBody body)) none
      else if requestAction = ascii "ValidateACL" then
        .andThen (parseToken http body requestAction) fun _ => .validateACL
      else if requestAction = ascii "ValidatePolicy" then
        .andThen (parseToken http body requestAction) fun _ => .validatePolicy
      else serveSigned d validate http body requestAction
    else .iam (some {})

end

end IAMController

end CortxS3
