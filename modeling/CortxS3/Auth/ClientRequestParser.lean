/-
How the auth server reads an `Authorization` value, `ClientRequestParser`.

The form of the value decides the signing version and the text of it gives the access key and the
signature.  Java's `split` drops empty pieces at the end, an index behind the last piece is an
exception nobody catches, and a value that does not come apart into enough pieces gives no
token at all.  These three ends are kept apart (`Refusal`).

Of the host only that there is one is modelled: whether it names a bucket matters to the
signature alone, and signatures are checked by a function that is a parameter everywhere here.
-/
import CortxS3.Auth.AuthRequestDecoder

namespace CortxS3

/-- Why a request to the auth server gets no further. -/
inductive Refusal where
  | accessDenied
  | invalidArgument
  | authorizationHeaderMalformed
  | invalidAccessKey
  | inactiveAccessKey
  | internalServerError
  | invalidClientTokenId
  | expiredCredential
  | invalidLdapUserId
  /-- `SignatureValidator.validate` did not return `ok`. -/
  | notAuthenticated
  /-- A runtime exception that is not caught. -/
  | exception
deriving DecidableEq

/-! ### `String.split` -/

/-- `s.split(sep)`.  Empty pieces at the end are dropped; a string without the separator is its
only piece. -/
def javaSplit (sep : UInt8) (s : Bytes) : List Bytes :=
  if sep ∈ s then ((pieces sep s).reverse.dropWhile (· = [])).reverse else [s]

/-- `s.split(sep, 2)`. -/
def javaSplit2 (sep : UInt8) (s : Bytes) : List Bytes :=
  if sep ∈ s then [s.takeWhile (· ≠ sep), (s.dropWhile (· ≠ sep)).drop 1] else [s]

/-- An element of an array. -/
def javaGet (a : List Bytes) (i : Nat) : Except Refusal Bytes :=
  match a[i]? with
  | some s => .ok s
  | none => .error .exception

example : javaSplit 44 (ascii "a,b,,") = [ascii "a", ascii "b"] := by decide
example : javaSplit2 47 (ascii "a/b/c") = [ascii "a", ascii "b/c"] := by decide

/-! ### The patterns -/

def isAlnum (c : UInt8) : Bool :=
  (48 ≤ c && c ≤ 57) || (65 ≤ c && c ≤ 90) || (97 ≤ c && c ≤ 122)

/-- `[\w-]`. -/
def isKeyChar (c : UInt8) : Bool := isAlnum c || c == 95 || c == 45

/-- `AWS [A-Za-z0-9-_]+:[a-zA-Z0-9+/=]+`. -/
def isV2Authorization (s : Bytes) : Bool :=
  (ascii "AWS ").isPrefixOf s &&
    (let key := (s.drop 4).takeWhile isKeyChar
     let rest := (s.drop 4).dropWhile isKeyChar
     !key.isEmpty &&
       match rest with
       | 58 :: sign =>
         !sign.isEmpty && sign.all fun c => isAlnum c || c == 43 || c == 47 || c == 61
       | _ => false)

/-- `AWS4-HMAC-SHA256[\w\W]+`. -/
def isV4Authorization (s : Bytes) : Bool :=
  (ascii "AWS4-HMAC-SHA256").isPrefixOf s && 16 < s.length

inductive AWSSigningVersion where
  | V2
  | V4
deriving DecidableEq

/-- The part of a token that comes from the `Authorization` value. -/
structure AuthorizationValue where
  accessKeyId : Bytes := []
  signature : Bytes := []
  signingAlgorithm : Bytes := []
  credentialScope : Bytes := []
  date : Bytes := []
  region : Bytes := []
  service : Bytes := []
  signedHeaders : Bytes := []
deriving DecidableEq

/-- What a request says about who sent it. -/
structure ClientRequestToken extends AuthorizationValue where
  signVersion : AWSSigningVersion := .V4
  httpMethod : Option Bytes := none
  uri : Option Bytes := none
  query : Option Bytes := none
  requestHeaders : RequestBodyMap := []
  requestPayload : Bytes := []
deriving DecidableEq

/-- The HTTP request that carries a body to the auth server. -/
structure FullHttpRequest where
  headers : RequestBodyMap := []
  method : Bytes := ascii "POST"
  uri : Bytes := ascii "/"
  content : Bytes := []
deriving DecidableEq

namespace ClientRequestParser

/-! ### The two parsers of a value -/

/-- `AWSRequestParserV2.authHeaderParser`.  No token when the value does not come apart. -/
def authHeaderParserV2 (value : Bytes) : Except Refusal (Option AuthorizationValue) := do
  let tokens := javaSplit 32 value
  if tokens.length < 2 then return none
  let subTokens := javaSplit 58 (← javaGet tokens 1)
  if subTokens.length < 2 then return none
  return some {
    accessKeyId := ← javaGet subTokens 0
    signature := ← javaGet subTokens 1 }

/-- `AWSRequestParserV4.authHeaderParser`. -/
def authHeaderParserV4 (value : Bytes) : Except Refusal (Option AuthorizationValue) := do
  let tokens := javaSplit 44 value
  if tokens.length < 3 then return none
  let subTokens := javaSplit 32 (← javaGet tokens 0)
  if subTokens.length < 2 then return none
  let credTokens := javaSplit2 47 (← javaGet subTokens 1)
  if credTokens.length < 2 then return none
  let accessKeyId ← javaGet (javaSplit 61 (← javaGet credTokens 0)) 1
  let credentialScope ← javaGet credTokens 1
  let credScopeTokens := javaSplit 47 credentialScope
  if credScopeTokens.length < 3 then return none
  let signTokens := javaSplit 61 (← javaGet tokens 1)
  if signTokens.length < 2 then return none
  return some {
    signingAlgorithm := ← javaGet subTokens 0
    accessKeyId := accessKeyId
    credentialScope := credentialScope
    date := ← javaGet credScopeTokens 0
    region := ← javaGet credScopeTokens 1
    service := ← javaGet credScopeTokens 2
    signedHeaders := ← javaGet signTokens 1
    signature := ← javaGet (javaSplit 61 (← javaGet tokens 2)) 1 }

def authHeaderParser :
    AWSSigningVersion → Bytes → Except Refusal (Option AuthorizationValue)
  | .V2 => authHeaderParserV2
  | .V4 => authHeaderParserV4

/-- `validateAccessKey`: the access key of a value, by another way of taking it apart, has to
be a word. -/
def validateAccessKey (value : Bytes) : Except Refusal Unit := do
  let accessKey ←
    if isV2Authorization value then do
      let subTokens := javaSplit 32 (← javaGet (javaSplit 58 value) 0)
      if subTokens.length ≠ 2 then throw .invalidArgument
      javaGet subTokens 1
    else if isV4Authorization value then do
      let subTokens := javaSplit 61 (← javaGet (javaSplit 44 value) 0)
      javaGet (javaSplit 47 (← javaGet subTokens 1)) 0
    else throw .invalidArgument
  if 32 ∈ accessKey then throw .invalidArgument
  if accessKey.isEmpty || !accessKey.all isKeyChar then throw .invalidAccessKey

/-! ### The token of a request -/

/-- Whether the S3 client's own headers are in the body. -/
def fromBody (requestAction : Bytes) : Bool :=
  requestAction = ascii "AuthenticateUser" || requestAction = ascii "AuthorizeUser" ||
    requestAction = ascii "AuthenticateAndAuthorize"

/-- What the parsers take from a body before the value.  A host there must be. -/
def bodyToken (version : AWSSigningVersion) (body : RequestBodyMap) :
    Except Refusal ClientRequestToken := do
  let some _ := body.get (ascii "host") | throw .exception
  return {
    signVersion := version
    httpMethod := body.get (ascii "Method")
    uri := body.get (ascii "ClientAbsoluteUri")
    query := body.get (ascii "ClientQueryParams")
    requestHeaders := body
    requestPayload := match version with
      | .V2 => []
      | .V4 => (body.get (ascii "RequestPayload")).getD [] }

/-- What the parsers take from an HTTP request before the value. -/
def httpToken (version : AWSSigningVersion) (http : FullHttpRequest) :
    Except Refusal ClientRequestToken := do
  let some _ := http.headers.get (ascii "host") | throw .exception
  let tokens := pieces 63 http.uri
  return {
    signVersion := version
    httpMethod := some http.method
    uri := tokens[0]?
    query := if tokens.length = 2 then tokens[1]? else some []
    requestHeaders := http.headers
    requestPayload := match version with
      | .V2 => []
      | .V4 => http.content }

/-- The `Authorization` value a request is judged by. -/
def authorizationOf (http : FullHttpRequest) (body : RequestBodyMap) (requestAction : Bytes) :
    Option Bytes :=
  if fromBody requestAction then body.get (ascii "authorization")
  else http.headers.get (ascii "authorization")

/-- `parse`.  No token when the request is incorrect. -/
def parse (http : FullHttpRequest) (body : RequestBodyMap) (requestAction : Bytes) :
    Except Refusal (Option ClientRequestToken) := do
  if requestAction = ascii "ValidateACL" then
    return (body.get (ascii "ACL")).map fun _ => {}
  if requestAction = ascii "ValidatePolicy" then
    return (body.get (ascii "Policy")).map fun _ => {}
  let some value := authorizationOf http body requestAction | throw .accessDenied
  if value.all isSpace then throw .accessDenied
  validateAccessKey value
  -- a value of neither form was refused just before
  let version := if isV2Authorization value then AWSSigningVersion.V2 else .V4
  let token ← if fromBody requestAction then bodyToken version body else httpToken version http
  let parsed ← authHeaderParser version value
  return parsed.map fun a => { token with toAuthorizationValue := a }

end ClientRequestParser

end CortxS3
