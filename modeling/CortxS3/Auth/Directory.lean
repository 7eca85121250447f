/-
The directory of the auth server, an LDAP tree.

Accounts lie under `ou=accounts`, each with organisational units of its own, and its users under
the unit for users.  Access keys lie apart from them, under `ou=accesskeys`, and name their owner
by his id.  A key that was made for a session is an entry of another class, with a token and a
time at which it expires.

An entry has the attributes that the auth server reads.  Path and ARN of a user may be missing;
times are in milliseconds.
-/
import CortxS3.Basic

namespace CortxS3

/-- An entry under `ou=accesskeys`. -/
structure AccessKeyEntry where
  accessKeyId : Bytes
  userId : Bytes
  secretKey : Bytes := []
  active : Bool := true
  /-- The token and the expiry of a temporary key. -/
  temporary : Option (Bytes × Nat) := none
deriving DecidableEq

inductive UserType where
  | iamUser
  | iamFedUser
  | roleUser
deriving DecidableEq

/-- An entry under `ou=users` of an account. -/
structure UserEntry where
  userId : Bytes
  name : Bytes
  userType : UserType := .iamUser
  path : Option Bytes := none
  arn : Option Bytes := none
deriving DecidableEq

inductive OrganizationalUnit where
  | users
  | roles
  | groups
  | policies
deriving DecidableEq

/-- An entry under `ou=accounts`, with what lies below it. -/
structure AccountEntry where
  name : Bytes
  accountId : Bytes := []
  canonicalId : Bytes := []
  email : Bytes := []
  units : List OrganizationalUnit := []
  users : List UserEntry := []
  roles : List Bytes := []
  groups : List Bytes := []
  policies : List Bytes := []
deriving DecidableEq

structure Directory where
  accounts : List AccountEntry := []
  accessKeys : List AccessKeyEntry := []
deriving DecidableEq

/-- The users of all accounts, each with the name of his account. -/
def Directory.users (d : Directory) : List (Bytes × UserEntry) :=
  d.accounts.flatMap fun a => a.users.map fun u => (a.name, u)

/-- An id that says the same in a search filter as in an entry: printable, and without the
characters that have a meaning in a filter. -/
def PlainId (id : Bytes) : Prop :=
  ∀ c ∈ id, 0x20 < c ∧ c < 0x7f ∧ c ∉ ascii "*()\\"
deriving Decidable

end CortxS3
