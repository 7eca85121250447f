/-
Creating an account, `AccountController.create`.

The operation is a sequence of requests to the LDAP server, and each of them is a step here, so
that others can come between two of them.  First the accounts are counted and the names that are
to be taken are looked up, then the account, its units, its root user and the access key of the
root user are stored one after another, and at the end the accounts are counted once more.

A request is answered, or there is no connection, or it ends in an `LDAPException` (`Link`).
Without a connection `LDAPUtils` does nothing and returns, and a search comes back without a
result; the two searches that do not go through `LDAPUtils` end in a `NullPointerException`.

What is made up for the new entries comes with the request (`Create`), and so does the email
address, which the validator has checked.
-/
import CortxS3.Auth.UserController

namespace CortxS3

namespace IAMApi

/-- What becomes of a request to the LDAP server. -/
inductive Link where
  | up
  | lost
  | failed (connectError : Bool)
deriving DecidableEq

namespace Link

/-- A search through `LDAPUtils.search`. -/
def search {α : Type} (link : Link) (found : Except Thrown α) (nothing : α) : Except Thrown α :=
  match link with
  | .up => found
  | .lost => .ok nothing
  | .failed _ => .error .dataAccess

/-- A search that takes the connection to be there when it is done. -/
def searchDirectly {α : Type} (link : Link) (found : Except Thrown α) : Except Thrown α :=
  match link with
  | .up => found
  | .lost => .error .runtime
  | .failed _ => .error .dataAccess

/-- `LDAPUtils.add` and `LDAPUtils.delete`; `none` is an `LDAPException`. -/
def write (link : Link) (d : Directory) (change : Option Directory) : Option Directory :=
  match link with
  | .up => change
  | .lost => some d
  | .failed _ => none

end Link

namespace AccountImpl

/-- `findAll`, of which only the number of accounts is used.  It stops at the number of results
that a search may have. -/
def count (c : AuthServerConfig) (d : Directory) : Nat :=
  if d.accounts = [] then 0 else min d.accounts.length (max 1 (LDAPUtils.maxResults c))

def find (t : LdapTexts) (d : Directory) (name : Bytes) : Except Thrown (Option AccountEntry) :=
  match t.organizationName name with
  | none => .error .dataAccess
  | some filter => .ok (d.accounts.find? filter)

def findByCanonicalID (d : Directory) (canonicalId : Bytes) : Option AccountEntry :=
  d.accounts.find? fun a => a.canonicalId = canonicalId

def findByEmailAddress (t : LdapTexts) (d : Directory) (email : Bytes) :
    Except Thrown (Option AccountEntry) :=
  match t.mail email with
  | none => .error .dataAccess
  | some filter => .ok (d.accounts.find? filter)

/-- The units that `save` makes below an account, in this order. -/
def units : List OrganizationalUnit := [.users, .roles, .groups, .policies]

end AccountImpl

namespace AccountController

/-- The request, and what `KeyGenUtil` makes up for it. -/
structure Create where
  name : Bytes
  email : Bytes
  /-- `AccessKey` and `SecretKey`; the validator asks for both or none. -/
  customKey : Option (Bytes × Bytes) := none
  accountId : Bytes
  canonicalIds : List Bytes
  rootUserId : Bytes
  accessKeyId : Bytes
  secretKey : Bytes
deriving DecidableEq

def Create.account (r : Create) (canonicalId : Bytes) : AccountEntry :=
  { name := r.name
    accountId := r.accountId
    canonicalId := canonicalId
    email := r.email }

/-- `createRootUser`. -/
def Create.root (r : Create) : UserEntry :=
  { userId := r.rootUserId
    name := ascii "root"
    userType := .iamUser
    path := some (ascii "/")
    arn := some (ascii "arn:aws:iam::" ++ r.accountId ++ ascii ":root") }

def Create.rootAccessKey (r : Create) : AccessKeyEntry :=
  { accessKeyId := (r.customKey.map Prod.fst).getD r.accessKeyId
    userId := r.rootUserId
    secretKey := (r.customKey.map Prod.snd).getD r.secretKey
    active := true }

inductive CreateResponse where
  | created
  | maxAccountLimitExceeded
  | entityAlreadyExists
  | accessKeyAlreadyExists
  | emailAlreadyExists
  | internalServerError
  /-- The internal error after the second count has found too many accounts. -/
  | tooMany
  /-- An exception that nobody catches. -/
  | thrown
deriving DecidableEq

/-- What is done next. -/
inductive CreatePhase where
  | countAccounts
  | findAccount
  | findCanonicalId (canonicalId : Bytes) (untried : List Bytes)
  | findAccessKey (canonicalId : Bytes)
  | saveAccount (canonicalId : Bytes)
  | findByEmailAddress
  | saveUnit (unit : OrganizationalUnit) (rest : List OrganizationalUnit) (again : Bool)
  | saveRoot
  | saveAccessKey
  | recount
  | deleteAccount (again : Bool)
  | ended (response : CreateResponse)
deriving DecidableEq

/-- `maxAllowedLdapResults`. -/
def maxAllowedAccounts (c : AuthServerConfig) : Nat :=
  c.maxAccountLimit + c.s3InternalAccounts.length

/-- One of the ids that are made up for an account after another, of five. -/
def drawCanonicalId : List Bytes → CreatePhase
  | [] => .ended .internalServerError
  | canonicalId :: untried => .findCanonicalId canonicalId untried

def afterUnits : List OrganizationalUnit → CreatePhase
  | [] => .saveRoot
  | unit :: rest => .saveUnit unit rest false

/-- A search whose failure is an internal error. -/
def afterSearch {α : Type} (found : Except Thrown α) (next : α → CreatePhase) : CreatePhase :=
  match found with
  | .ok a => next a
  | .error .dataAccess => .ended .internalServerError
  | .error .runtime => .ended .thrown

/-- A write whose failure is an internal error. -/
def afterWrite (d : Directory) (written : Option Directory) (next : CreatePhase) :
    Directory × CreatePhase :=
  match written with
  | some d' => (d', next)
  | none => (d, .ended .internalServerError)

/-- One step of `create`. -/
def createStep (c : AuthServerConfig) (t : LdapTexts) (r : Create) (link : Link) (d : Directory) :
    CreatePhase → Directory × CreatePhase
  | .countAccounts =>
    (d, afterSearch (link.search (.ok (AccountImpl.count c d)) 0) fun n =>
      if maxAllowedAccounts c ≤ n then .ended .maxAccountLimitExceeded else .findAccount)
  | .findAccount =>
    (d, afterSearch (link.searchDirectly (AccountImpl.find t d r.name)) fun
      | some _ => .ended .entityAlreadyExists
      | none => drawCanonicalId (r.canonicalIds.take 5))
  | .findCanonicalId canonicalId untried =>
    (d, afterSearch (link.search (.ok (AccountImpl.findByCanonicalID d canonicalId)) none) fun
      | some _ => drawCanonicalId untried
      | none =>
        if r.customKey.isSome then .findAccessKey canonicalId else .saveAccount canonicalId)
  | .findAccessKey canonicalId =>
    (d, afterSearch
      (link.searchDirectly (AccessKeyImpl.find t d r.rootAccessKey.accessKeyId)) fun
        | some _ => .ended .accessKeyAlreadyExists
        | none => .saveAccount canonicalId)
  | .saveAccount canonicalId =>
    if link = .up ∧ d.emailTaken r.email then (d, .findByEmailAddress)
    else
      afterWrite d (link.write d (d.addAccount (r.account canonicalId)))
        (afterUnits AccountImpl.units)
  | .findByEmailAddress =>
    (d, afterSearch (link.search (AccountImpl.findByEmailAddress t d r.email) none) fun
      | some _ => .ended .emailAlreadyExists
      | none => .ended .internalServerError)
  | .saveUnit unit rest again =>
    match link.write d (d.addUnit r.name unit) with
    | some d' => (d', afterUnits rest)
    | none => (d, if again then .ended .internalServerError else .saveUnit unit rest true)
  | .saveRoot => afterWrite d (link.write d (d.addUser r.name r.root)) .saveAccessKey
  | .saveAccessKey => afterWrite d (link.write d (d.addAccessKey r.rootAccessKey)) .recount
  | .recount =>
    (d, afterSearch (link.search (.ok (AccountImpl.count c d)) 0) fun n =>
      if maxAllowedAccounts c < n then .deleteAccount false else .ended .created)
  | .deleteAccount again =>
    if link = .failed true ∧ again = false then (d, .deleteAccount true)
    else ((link.write d (d.deleteAccount r.name)).getD d, .ended .tooMany)
  | .ended response => (d, .ended response)

end AccountController

/-! ### `UserController.create`, step by step -/

namespace UserController

inductive CreateResponse where
  | created
  | maxUserLimitExceeded
  | entityAlreadyExists
  | internalServerError
  /-- The internal error after the second count has found too many users. -/
  | tooMany
  | thrown
deriving DecidableEq

inductive CreatePhase where
  | countUsers
  | findUser
  | saveUser
  | recount (user : UserEntry)
  | deleteUser (user : UserEntry)
  | ended (response : CreateResponse)
deriving DecidableEq

def afterSearch {α : Type} (found : Except Thrown α) (next : α → CreatePhase) : CreatePhase :=
  match found with
  | .ok a => next a
  | .error .dataAccess => .ended .internalServerError
  | .error .runtime => .ended .thrown

/-- `Path` in the body. -/
def countedPath (body : RequestBodyMap) : Bytes := (body.get (ascii "Path")).getD (ascii "/")

/-- One step of `create`, with a connection. -/
def createStep (c : AuthServerConfig) (t : LdapTexts) (draws : Draws) (q : Requestor)
    (body : RequestBodyMap) (d : Directory) : CreatePhase → Directory × CreatePhase
  | .countUsers =>
    (d, afterSearch (UserImpl.findAll c t d q.accountName (countedPath body)) fun users =>
      if maxAllowedIAMUserlimit c ≤ users.length then .ended .maxUserLimitExceeded
      else .findUser)
  | .findUser =>
    (d, afterSearch
      (UserImpl.find t d q.accountName (format (body.get (ascii "UserName")))) fun
        | some _ => .ended .entityAlreadyExists
        | none => .saveUser)
  | .saveUser =>
    match body.get (ascii "UserName") with
    | none => (d, .ended .thrown)
    | some name =>
      match d.addUser q.accountName (newUser draws q body name) with
      | some d' => (d', .recount (newUser draws q body name))
      | none => (d, .ended .internalServerError)
  | .recount user =>
    (d, afterSearch (UserImpl.findAll c t d q.accountName (countedPath body)) fun users =>
      if maxAllowedIAMUserlimit c < users.length then .deleteUser user else .ended .created)
  | .deleteUser user =>
    ((d.deleteUser q.accountName user.userId).getD d, .ended .tooMany)
  | .ended response => (d, .ended response)

end UserController

end IAMApi

end CortxS3
