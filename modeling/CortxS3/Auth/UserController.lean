/-
The operations of IAM on users and access keys: `UserController`, `AccessKeyController`, and the
way to them through the validators and `IAMApiAuthorizer.authorize`.

What an account has is looked for below the account of the requestor.  Access keys of all
accounts lie in one place, and are looked for by their id.  Whether a request may be made is
decided by the name of the requestor and the user name in the body alone.

A DAO throws `DataAccessException` where the directory refuses, and a controller answers that
with an internal error.  Other exceptions, from an attribute that an entry does not have or a
parameter that is not there, nobody catches (`Outcome.thrown`).

The directory answers every operation here.  The ids and the secret key that are made up for new
entries are a parameter (`Draws`), and so is `Integer.parseInt`.
-/
import CortxS3.Auth.LDAPUtils
import CortxS3.Auth.ClientRequestParser

namespace CortxS3

namespace IAMApi

/-- The requestor: the user and the account behind his access key. -/
structure Requestor where
  userId : Bytes
  name : Bytes
  accountName : Bytes
  accountId : Bytes
deriving DecidableEq

/-- What `KeyGenUtil` makes up. -/
structure Draws where
  iamUserId : Bytes
  accessKeyId : Bytes
  secretKey : Bytes
deriving DecidableEq

inductive Response where
  | internalServerError
  | invalidUser
  | invalidParameterValue
  | missingParameter
  | noSuchEntity
  | entityAlreadyExists
  | badRequest
  | operationNotSupported
  | deleteConflict
  | accessKeyQuotaExceeded
  | maxUserLimitExceeded (limit : Nat)
  | accessKeyCreated (userName : Bytes) (key : AccessKeyEntry)
  | accessKeyList (userName : Bytes) (keys : List AccessKeyEntry)
  | userCreated (user : UserEntry)
  | userList (users : List UserEntry)
  /-- The response to an update or a deletion, which tells nothing. -/
  | done
deriving DecidableEq

/-- What a call of a DAO ends in when it does not return. -/
inductive Thrown where
  | dataAccess
  | runtime
deriving DecidableEq

/-- How an operation ends, with the directory it leaves. -/
inductive Outcome where
  | answered (directory : Directory) (response : Response)
  | thrown (directory : Directory)
deriving DecidableEq

/-- What `String.format` writes for a parameter. -/
def format (parameter : Option Bytes) : Bytes := parameter.getD (ascii "null")

/-- The `try` around a call of a DAO. -/
def catching {α : Type} (d : Directory) (call : Except Thrown α) (next : α → Outcome) : Outcome :=
  match call with
  | .ok a => next a
  | .error .dataAccess => .answered d .internalServerError
  | .error .runtime => .thrown d

/-- A request that changes the directory; `none` is an `LDAPException`. -/
def changing (d : Directory) (change : Option Directory) (next : Directory → Outcome) : Outcome :=
  match change with
  | some d' => next d'
  | none => .answered d .internalServerError

/-! ### `UserImpl` -/

namespace UserImpl

/-- `find`: the user with a name, below the account.  The name he has from then on is the one that
was looked for. -/
def find (t : LdapTexts) (d : Directory) (accountName userName : Bytes) :
    Except Thrown (Option UserEntry) :=
  match d.usersOf accountName, t.commonName userName with
  | some users, some filter =>
    match users.find? filter with
    | none => .ok none
    | some u =>
      if u.userType = .iamUser ∧ u.path = none then .error .runtime
      else .ok (some { u with name := userName })
  | _, _ => .error .dataAccess

/-- `findByUserId`, with the ARN that it takes to be there. -/
def findByUserId (d : Directory) (accountName userId : Bytes) :
    Except Thrown (Option UserEntry) :=
  match d.usersOf accountName with
  | none => .error .dataAccess
  | some users =>
    match users.find? fun u => u.userId = userId with
    | none => .ok none
    | some u =>
      if (u.userType = .iamUser ∧ u.path = none) ∨ u.arn = none then .error .runtime
      else .ok (some u)

/-- `findAll`: the IAM users of an account with a path prefix. -/
def findAll (c : AuthServerConfig) (t : LdapTexts) (d : Directory)
    (accountName pathPrefix : Bytes) : Except Thrown (List UserEntry) :=
  match d.usersOf accountName, t.pathPrefix pathPrefix with
  | some users, some filter =>
    let found := users.filter filter
    if (LDAPUtils.results c found).any fun u => u.path = none ∨ u.arn = none then .error .runtime
    else if LDAPUtils.exceeded c found then .error .dataAccess
    else .ok found
  | _, _ => .error .dataAccess

end UserImpl

/-! ### `AccessKeyImpl` -/

namespace AccessKeyImpl

/-- `find`.  The id of the key is from then on the one that was looked for. -/
def find (t : LdapTexts) (d : Directory) (accessKeyId : Bytes) :
    Except Thrown (Option AccessKeyEntry) :=
  match t.accessKeyId accessKeyId with
  | none => .error .dataAccess
  | some filter => .ok <| (d.accessKeys.find? filter).map fun k =>
    { k with accessKeyId := accessKeyId }

/-- `getCount`: the keys of a user that are not temporary. -/
def getCount (c : AuthServerConfig) (d : Directory) (userId : Bytes) : Except Thrown Nat :=
  if LDAPUtils.exceeded c (d.accessKeysOf userId) then .error .dataAccess
  else .ok ((d.accessKeysOf userId).filter fun k => k.temporary = none).length

/-- How many keys a list reads at most. -/
def maxListed : Nat := 500

/-- `findAllPermanent`. -/
def findAllPermanent (c : AuthServerConfig) (d : Directory) (userId : Bytes) :
    Except Thrown (List AccessKeyEntry) :=
  if LDAPUtils.exceeded c (d.accessKeysOf userId) && LDAPUtils.maxResults c < maxListed then
    .error .dataAccess
  else .ok (((d.accessKeysOf userId).take maxListed).filter fun k => k.temporary = none)

def delete (t : LdapTexts) (d : Directory) (k : AccessKeyEntry) : Option Directory :=
  (t.accessKeyDN k.accessKeyId).bind d.deleteAccessKey

def update (t : LdapTexts) (d : Directory) (k : AccessKeyEntry) (active : Bool) :
    Option Directory :=
  (t.accessKeyDN k.accessKeyId).bind fun id => d.modifyAccessKey id active

end AccessKeyImpl

/-! ### The validators -/

namespace S3ParameterValidatorUtil

/-- `\w`. -/
def isWord (c : UInt8) : Bool := isAlnum c || c == 95

/-- `[\w+=,.@-]+`, of 1 to 64 characters. -/
def isValidName (name : Option Bytes) : Bool :=
  match name with
  | none => false
  | some s =>
    s ≠ [] && s.all (fun c => isWord c || (ascii "+=,.@-").contains c) && s.length ≤ 64

/-- `[\w-]+`, of 16 to 32 characters. -/
def isValidAccessKeyId (accessKeyId : Option Bytes) : Bool :=
  match accessKeyId with
  | none => false
  | some s => s.all isKeyChar && 16 ≤ s.length && s.length ≤ 32

def isValidAccessKeyStatus (status : Option Bytes) : Bool :=
  status = some (ascii "Active") ∨ status = some (ascii "Inactive")

/-- `[\u0021-\u007F]`. -/
def isGraphic (c : UInt8) : Bool := 0x21 ≤ c && c ≤ 0x7f

/-- `(/)|(/[\u0021-\u007F]+/)`, of at most 512 characters. -/
def isValidPath (s : Bytes) : Bool :=
  s.head? = some 47 && s.getLast? = some 47 && s.all isGraphic && s.length ≠ 2 && s.length ≤ 512

/-- `/[\u0021-\u007F]*`, of at most 512 characters. -/
def isValidPathPrefix (s : Bytes) : Bool :=
  s.head? = some 47 && s.all isGraphic && s.length ≤ 512

/-- How many characters a text has that are all in `[\u0020-\u00FF]`.  The ones from `\u0080` on
are two bytes. -/
def latin1Length : Bytes → Option Nat
  | [] => some 0
  | c :: s =>
    if 0x20 ≤ c && c ≤ 0x7f then (latin1Length s).map (· + 1)
    else if c = 0xc2 || c = 0xc3 then
      match s with
      | b :: s => if 0x80 ≤ b && b ≤ 0xbf then (latin1Length s).map (· + 1) else none
      | [] => none
    else none

/-- `[\u0020-\u00FF]+`, of 1 to 320 characters. -/
def isValidMarker (s : Bytes) : Bool :=
  match latin1Length s with
  | none => false
  | some n => 1 ≤ n && n ≤ 320

/-- `isValidMaxItems`; a text that is no `int` is refused. -/
def isValidMaxItems (parseInt : Bytes → Option Int) (s : Bytes) : Bool :=
  match parseInt s with
  | none => false
  | some n => 1 ≤ n && n ≤ 1000

end S3ParameterValidatorUtil

open S3ParameterValidatorUtil

section

variable (parseInt : Bytes → Option Int) (body : RequestBodyMap)

/-- A check of a parameter that may be missing. -/
def validIfGiven (name : String) (check : Bytes → Bool) : Bool :=
  match body.get (ascii name) with
  | none => true
  | some s => check s

namespace AccessKeyParameterValidator

def isValidCreateParams : Bool := validIfGiven body "UserName" fun s => isValidName (some s)

/-- A request with a user name is not asked for its key. -/
def isValidDeleteParams : Bool :=
  match body.get (ascii "UserName") with
  | some s => isValidName (some s)
  | none => isValidAccessKeyId (body.get (ascii "AccessKeyId"))

def isValidListParams : Bool :=
  validIfGiven body "UserName" (fun s => isValidName (some s)) &&
    validIfGiven body "MaxItems" (isValidMaxItems parseInt) &&
    validIfGiven body "Marker" isValidMarker

def isValidUpdateParams : Bool :=
  isValidAccessKeyStatus (body.get (ascii "Status")) &&
    validIfGiven body "UserName" (fun s => isValidName (some s)) &&
    isValidAccessKeyId (body.get (ascii "AccessKeyId"))

end AccessKeyParameterValidator

namespace UserParameterValidator

/-- A request with a path is not asked for its user name. -/
def isValidCreateParams : Bool :=
  match body.get (ascii "Path") with
  | some s => isValidPath s
  | none => isValidName (body.get (ascii "UserName"))

def isValidDeleteParams : Bool := isValidName (body.get (ascii "UserName"))

/-- `AbstractParameterValidator.isValidListParams`. -/
def isValidListParams : Bool :=
  validIfGiven body "PathPrefix" isValidPathPrefix &&
    validIfGiven body "MaxItems" (isValidMaxItems parseInt) &&
    validIfGiven body "Marker" isValidMarker

def isValidUpdateParams : Bool :=
  validIfGiven body "NewUserName" (fun s => isValidName (some s)) &&
    validIfGiven body "NewPath" isValidPath &&
    isValidName (body.get (ascii "UserName"))

end UserParameterValidator

end

/-! ### `IAMApiAuthorizer` -/

def Requestor.hasRootUserCredentials (q : Requestor) : Bool := q.name = ascii "root"

def isSameUser (body : RequestBodyMap) (q : Requestor) : Bool :=
  body.get (ascii "UserName") = some q.name

/-- `validateIfUserCanPerformAction`; `authorize` throws where it is false. -/
def validateIfUserCanPerformAction (q : Requestor) (body : RequestBodyMap) : Bool :=
  q.hasRootUserCredentials || isSameUser body q

section

variable (c : AuthServerConfig) (t : LdapTexts) (draws : Draws)
variable (d : Directory) (q : Requestor) (body : RequestBodyMap)

/-! ### `AccessKeyController` -/

namespace AccessKeyController

/-- The user name in the body, or the requestor's own. -/
def userName : Bytes := (body.get (ascii "UserName")).getD q.name

def newAccessKey (user : UserEntry) : AccessKeyEntry :=
  { accessKeyId := draws.accessKeyId
    userId := user.userId
    secretKey := draws.secretKey
    active := true }

def create : Outcome :=
  catching d (UserImpl.find t d q.accountName (userName q body)) fun
    | none => .answered d .noSuchEntity
    | some user =>
      catching d (AccessKeyImpl.getCount c d user.userId) fun count =>
        if count = 2 then .answered d .accessKeyQuotaExceeded
        else
          let accessKey := newAccessKey draws user
          changing d (d.addAccessKey accessKey) fun d' =>
            .answered d' (.accessKeyCreated (userName q body) accessKey)

/-- The end of `delete`. -/
def deleteKey (accessKey : AccessKeyEntry) : Outcome :=
  changing d (AccessKeyImpl.delete t d accessKey) fun d' => .answered d' .done

/-- Only a user name in the body has the owner of the key looked at. -/
def delete : Outcome :=
  catching d (AccessKeyImpl.find t d (format (body.get (ascii "AccessKeyId")))) fun
    | none => .answered d .noSuchEntity
    | some accessKey =>
      match body.get (ascii "UserName") with
      | none => deleteKey t d accessKey
      | some name =>
        catching d (UserImpl.find t d q.accountName name) fun
          | none => .answered d .noSuchEntity
          | some user =>
            if accessKey.userId ≠ user.userId then .answered d .badRequest
            else deleteKey t d accessKey

def list : Outcome :=
  catching d (UserImpl.find t d q.accountName (userName q body)) fun
    | none => .answered d .noSuchEntity
    | some user =>
      catching d (AccessKeyImpl.findAllPermanent c d user.userId) fun keys =>
        .answered d (.accessKeyList (userName q body) keys)

/-- The status in the body. -/
def newStatus : Bool := body.get (ascii "Status") = some (ascii "Active")

/-- The end of `update`, once the owner of the key is known. -/
def updateKey (accessKey : AccessKeyEntry) (user : UserEntry) : Outcome :=
  if user.name = ascii "root" then .answered d .operationNotSupported
  else if accessKey.active = newStatus body then .answered d .done
  else
    changing d (AccessKeyImpl.update t d accessKey (newStatus body)) fun d' => .answered d' .done

/-- An owner that is not found has no name, and the comparison with `root` throws. -/
def update : Outcome :=
  catching d (AccessKeyImpl.find t d (format (body.get (ascii "AccessKeyId")))) fun
    | none => .answered d .noSuchEntity
    | some accessKey =>
      match body.get (ascii "UserName") with
      | some name =>
        catching d (UserImpl.find t d q.accountName name) fun
          | none => .answered d .noSuchEntity
          | some user =>
            if accessKey.userId ≠ user.userId then .answered d .invalidParameterValue
            else updateKey t d body accessKey user
      | none =>
        catching d (UserImpl.findByUserId d q.accountName accessKey.userId) fun
          | none => .thrown d
          | some user => updateKey t d body accessKey user

end AccessKeyController

/-! ### `UserController` -/

namespace UserController

/-- The number of users that are there with the one named `root`. -/
def maxAllowedIAMUserlimit : Nat := c.maxIAMUserLimit + 1

def newUser (name : Bytes) : UserEntry :=
  { userId := ascii "AIDA" ++ draws.iamUserId
    name := name
    userType := .iamUser
    path := some ((body.get (ascii "path")).getD (ascii "/"))
    arn := some (ascii "arn:aws:iam::" ++ q.accountId ++ ascii ":user/" ++ name) }

/-- The users are counted once more, and the new one is taken back where they have become too
many. -/
def recount (pathPrefix : Bytes) (user : UserEntry) : Outcome :=
  catching d (UserImpl.findAll c t d q.accountName pathPrefix) fun users =>
    if maxAllowedIAMUserlimit c < users.length then
      changing d (d.deleteUser q.accountName user.userId) fun d' =>
        .answered d' .internalServerError
    else .answered d (.userCreated user)

/-- A user without a name cannot be made an entry of. -/
def create : Outcome :=
  let pathPrefix := (body.get (ascii "Path")).getD (ascii "/")
  catching d (UserImpl.findAll c t d q.accountName pathPrefix) fun users =>
    if maxAllowedIAMUserlimit c ≤ users.length then
      .answered d (.maxUserLimitExceeded c.maxIAMUserLimit)
    else
      catching d (UserImpl.find t d q.accountName (format (body.get (ascii "UserName")))) fun
        | some _ => .answered d .entityAlreadyExists
        | none =>
          match body.get (ascii "UserName") with
          | none => .thrown d
          | some name =>
            let user := newUser draws q body name
            changing d (d.addUser q.accountName user) fun d' =>
              recount c t d' q pathPrefix user

def delete : Outcome :=
  catching d (UserImpl.find t d q.accountName (format (body.get (ascii "UserName")))) fun
    | none => .answered d .noSuchEntity
    | some user =>
      catching d (AccessKeyImpl.getCount c d user.userId) fun count =>
        if 0 < count then .answered d .deleteConflict
        else changing d (d.deleteUser q.accountName user.userId) fun d' => .answered d' .done

/-- The response leaves the user named `root` out. -/
def list : Outcome :=
  let pathPrefix := (body.get (ascii "PathPrefix")).getD (ascii "/")
  catching d (UserImpl.findAll c t d q.accountName pathPrefix) fun users =>
    .answered d (.userList (users.filter fun u => u.name ≠ ascii "root"))

/-- The ARN of a user with another name: up to the first slash it stays. -/
def renamed (arn newUserName : Bytes) : Bytes :=
  (if arn.contains 47 then arn.takeWhile (· ≠ 47) ++ [47] else []) ++ newUserName

/-- `UserImpl.update`. -/
def updateUser (user : UserEntry) (newUserName newPath : Option Bytes) : Outcome :=
  match newUserName, user.arn with
  | none, _ =>
    changing d (d.modifyUser q.accountName user.userId { path := newPath }) fun d' =>
      .answered d' .done
  | some _, none => .thrown d
  | some name, some arn =>
    changing d (d.modifyUser q.accountName user.userId
        { name := some name, arn := some (renamed arn name), path := newPath }) fun d' =>
      .answered d' .done

def update : Outcome :=
  let newUserName := body.get (ascii "NewUserName")
  let newPath := body.get (ascii "NewPath")
  if newUserName = none ∧ newPath = none then .answered d .missingParameter
  else if body.get (ascii "UserName") = some (ascii "root") ∧ newUserName ≠ none then
    .answered d .operationNotSupported
  else
    catching d (UserImpl.find t d q.accountName (format (body.get (ascii "UserName")))) fun
      | none => .answered d .noSuchEntity
      | some user =>
        match newUserName with
        | none => updateUser d q user none newPath
        | some name =>
          catching d (UserImpl.find t d q.accountName name) fun
            | some _ => .answered d .entityAlreadyExists
            | none => updateUser d q user (some name) newPath

end UserController

end

/-! ### The end of `IAMController.serve` -/

inductive Action where
  | createAccessKey
  | deleteAccessKey
  | listAccessKeys
  | updateAccessKey
  | createUser
  | deleteUser
  | listUsers
  | updateUser
deriving DecidableEq

def validateRequest (parseInt : Bytes → Option Int) (body : RequestBodyMap) : Action → Bool
  | .createAccessKey => AccessKeyParameterValidator.isValidCreateParams body
  | .deleteAccessKey => AccessKeyParameterValidator.isValidDeleteParams body
  | .listAccessKeys => AccessKeyParameterValidator.isValidListParams parseInt body
  | .updateAccessKey => AccessKeyParameterValidator.isValidUpdateParams body
  | .createUser => UserParameterValidator.isValidCreateParams body
  | .deleteUser => UserParameterValidator.isValidDeleteParams body
  | .listUsers => UserParameterValidator.isValidListParams parseInt body
  | .updateUser => UserParameterValidator.isValidUpdateParams body

def performAction (c : AuthServerConfig) (t : LdapTexts) (draws : Draws) (d : Directory)
    (q : Requestor) (body : RequestBodyMap) : Action → Outcome
  | .createAccessKey => AccessKeyController.create c t draws d q body
  | .deleteAccessKey => AccessKeyController.delete t d q body
  | .listAccessKeys => AccessKeyController.list c t d q body
  | .updateAccessKey => AccessKeyController.update t d q body
  | .createUser => UserController.create c t draws d q body
  | .deleteUser => UserController.delete c t d q body
  | .listUsers => UserController.list c t d q body
  | .updateUser => UserController.update t d q body

/-- What `serve` does with a request whose requestor is authenticated. -/
def serve (parseInt : Bytes → Option Int) (c : AuthServerConfig) (t : LdapTexts) (draws : Draws)
    (d : Directory) (q : Requestor) (action : Action) (body : RequestBodyMap) : Outcome :=
  if !validateRequest parseInt body action then .answered d .invalidParameterValue
  else if !validateIfUserCanPerformAction q body then .answered d .invalidUser
  else performAction c t draws d q body action

end IAMApi

end CortxS3
