/-
What the LDAP server does to the directory for `LDAPUtils`.

Each operation is one request to the server.  It is refused, with an `LDAPException`, where an
entry that has to be there is missing, where one that is to be added is there already, and where
one that is to be deleted has entries below it.  Ids and names of accounts are the RDNs of their
entries, so an operation on an entry finds it by them.

The texts of a request end up in filters and in names of entries as they came (`LdapTexts`).
What a text means there is a matter of the LDAP server and of the library in front of it.
-/
import CortxS3.Auth.Directory

namespace CortxS3

/-- The part of the configuration that this development is about. -/
structure AuthServerConfig where
  maxAccountLimit : Nat
  maxIAMUserLimit : Nat
  ldapSearchResultsSizeLimit : Nat
  s3InternalAccounts : List Bytes
deriving DecidableEq

/-- What a text means that is put into a filter, or into the name of an entry.  A filter that
cannot be parsed describes nothing, and a name that cannot be parsed names nothing. -/
structure LdapTexts where
  /-- `(&(o=text)(objectclass=Account))`. -/
  organizationName : Bytes → Option (AccountEntry → Bool)
  /-- `(&(mail=text)(objectclass=Account))`. -/
  mail : Bytes → Option (AccountEntry → Bool)
  /-- `(cn=text)`. -/
  commonName : Bytes → Option (UserEntry → Bool)
  /-- `(&(path=text*)(objectclass=iamuser))`. -/
  pathPrefix : Bytes → Option (UserEntry → Bool)
  /-- `ak=text`. -/
  accessKeyId : Bytes → Option (AccessKeyEntry → Bool)
  /-- The id of the entry `ak=text,ou=accesskeys,...`. -/
  accessKeyDN : Bytes → Option Bytes

/-- Attributes of a user that are replaced.  The class of an IAM user alone has a path and an
ARN. -/
structure UserChanges where
  name : Option Bytes := none
  arn : Option Bytes := none
  path : Option Bytes := none
deriving DecidableEq

def UserChanges.apply (c : UserChanges) (u : UserEntry) : UserEntry :=
  { u with
    name := c.name.getD u.name
    arn := c.arn.or u.arn
    path := c.path.or u.path }

def UserChanges.allowed (c : UserChanges) (u : UserEntry) : Bool :=
  u.userType = .iamUser ∨ (c.arn = none ∧ c.path = none)

namespace Directory

/-- The entry `o=name,ou=accounts,...`. -/
def findAccount (d : Directory) (accountName : Bytes) : Option AccountEntry :=
  d.accounts.find? fun a => a.name = accountName

/-- What lies below `ou=users` of an account. -/
def usersOf (d : Directory) (accountName : Bytes) : Option (List UserEntry) :=
  match d.findAccount accountName with
  | none => none
  | some a => if .users ∈ a.units then some a.users else none

/-- Another entry in the place of the account's. -/
def withAccount (d : Directory) (accountName : Bytes) (f : AccountEntry → AccountEntry) :
    Directory :=
  { d with
    accounts := d.accounts.replaceF fun a => if a.name = accountName then some (f a) else none }

def withUsers (d : Directory) (accountName : Bytes) (f : List UserEntry → List UserEntry) :
    Directory :=
  d.withAccount accountName fun a => { a with users := f a.users }

/-- The address of an account is unique in the directory. -/
def emailTaken (d : Directory) (email : Bytes) : Bool :=
  d.accounts.any fun a => foldCase a.email = foldCase email

/-- The name of an entry is an attribute, and none of these is empty. -/
def addAccount (d : Directory) (a : AccountEntry) : Option Directory :=
  if a.name = [] ∨ d.accounts.any (fun b => foldCase b.name = foldCase a.name) ∨
      d.emailTaken a.email then none
  else some { d with accounts := d.accounts ++ [a] }

/-- An account with units below it is not deleted. -/
def deleteAccount (d : Directory) (accountName : Bytes) : Option Directory :=
  match d.findAccount accountName with
  | none => none
  | some a =>
    if a.units = [] then
      some { d with accounts := d.accounts.eraseP fun b => b.name = accountName }
    else none

def addUnit (d : Directory) (accountName : Bytes) (unit : OrganizationalUnit) :
    Option Directory :=
  match d.findAccount accountName with
  | none => none
  | some a =>
    if unit ∈ a.units then none
    else some (d.withAccount accountName fun a => { a with units := a.units ++ [unit] })

def addUser (d : Directory) (accountName : Bytes) (u : UserEntry) : Option Directory :=
  match d.usersOf accountName with
  | none => none
  | some users =>
    if u.name = [] ∨ users.any (fun v => v.userId = u.userId) then none
    else some (d.withUsers accountName fun users => users ++ [u])

def deleteUser (d : Directory) (accountName userId : Bytes) : Option Directory :=
  match d.usersOf accountName with
  | none => none
  | some users =>
    if users.any fun u => u.userId = userId then
      some (d.withUsers accountName fun users => users.filter fun u => u.userId ≠ userId)
    else none

def modifyUser (d : Directory) (accountName userId : Bytes) (c : UserChanges) :
    Option Directory :=
  match d.usersOf accountName with
  | none => none
  | some users =>
    match users.find? fun u => u.userId = userId with
    | none => none
    | some u =>
      if c.allowed u then
        some (d.withUsers accountName fun users =>
          users.map fun u => if u.userId = userId then c.apply u else u)
      else none

def addAccessKey (d : Directory) (k : AccessKeyEntry) : Option Directory :=
  if d.accessKeys.any fun l => l.accessKeyId = k.accessKeyId then none
  else some { d with accessKeys := d.accessKeys ++ [k] }

def deleteAccessKey (d : Directory) (accessKeyId : Bytes) : Option Directory :=
  if d.accessKeys.any fun k => k.accessKeyId = accessKeyId then
    some { d with accessKeys := d.accessKeys.filter fun k => k.accessKeyId ≠ accessKeyId }
  else none

def modifyAccessKey (d : Directory) (accessKeyId : Bytes) (active : Bool) : Option Directory :=
  if d.accessKeys.any fun k => k.accessKeyId = accessKeyId then
    some { d with
      accessKeys := d.accessKeys.map fun k =>
        if k.accessKeyId = accessKeyId then { k with active := active } else k }
  else none

/-- The keys of a user, as the search below `ou=accesskeys` by his id finds them. -/
def accessKeysOf (d : Directory) (userId : Bytes) : List AccessKeyEntry :=
  d.accessKeys.filter fun k => k.userId = userId

end Directory

namespace LDAPUtils

/-- How many results a search may have. -/
def maxResults (c : AuthServerConfig) : Nat :=
  c.ldapSearchResultsSizeLimit + c.s3InternalAccounts.length

/-- The results that come before the server refuses to send more. -/
def results {α : Type} (c : AuthServerConfig) (found : List α) : List α :=
  if maxResults c = 0 then found else found.take (maxResults c)

/-- A search that reads all its results meets the limit. -/
def exceeded {α : Type} (c : AuthServerConfig) (found : List α) : Bool :=
  maxResults c ≠ 0 ∧ maxResults c < found.length

end LDAPUtils

end CortxS3
