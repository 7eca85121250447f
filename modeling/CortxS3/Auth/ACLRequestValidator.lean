/-
The check of a request for an ACL, `ACLRequestValidator`.

The grantees of the permission headers are looked up in the directory one after the other, and put
into a map for accounts and one for groups.  What the directory says of a text may change from one
lookup to the next, so a lookup is told how many grantees came before it; it may throw.  The names of
the headers are a `HashSet`, and the order in which it is gone through is a parameter.
-/
import CortxS3.Auth.ACLCreator

namespace CortxS3

/-- What the directory says; nothing where it throws. -/
structure AclLookups where
  findByEmailAddress : Nat → JavaString → Option AclAccount
  findByCanonicalID : Nat → JavaString → Option AclAccount
  getGroup : Nat → JavaString → Option AclGroup

namespace ACLRequestValidator

/-! ### Responses -/

structure ServerResponse where
  responseStatus : Option Nat := none
  code : String := ""
  message : String := ""
deriving DecidableEq

/-- A response that ends the request. -/
def ServerResponse.isError (response : ServerResponse) : Bool :=
  response.responseStatus.any (· ≠ 200)

def badRequest : ServerResponse where
  responseStatus := some 400
  code := "BadRequest"
  message := "Bad Request. Check request headers and body."

def invalidArgument (message : String) : ServerResponse where
  responseStatus := some 400
  code := "InvalidArgument"
  message := message

def unresolvableGrantByEmailAddress : ServerResponse where
  responseStatus := some 400
  code := "UnresolvableGrantByEmailAddress"
  message := "The email address you provided does not match any account on record."

def invalidRequest (message : String) : ServerResponse where
  responseStatus := some 400
  code := "InvalidRequest"
  message := message

def unexpectedContent (message : String) : ServerResponse where
  responseStatus := some 400
  code := "UnexpectedContent"
  message := message

/-! ### One grantee -/

/-- The response and the maps that a request fills in, and the grantees looked at so far. -/
structure Validation where
  response : ServerResponse := {}
  accountPermissionMap : PermissionMap AclAccount := []
  groupPermissionMap : PermissionMap AclGroup := []
  count : Nat := 0
deriving DecidableEq

/-- A grantee is added to those of a permission, unless the list has one that is the same. -/
def updatePermissionMap {α : Type} (same : α → α → Bool) (permission : JavaString) (grantee : α) :
    PermissionMap α → PermissionMap α
  | [] => [(permission, [grantee])]
  | (header, list) :: rest =>
    if header = permission then
      (header, if list.any (same grantee) then list else list ++ [grantee]) :: rest
    else (header, list) :: updatePermissionMap same permission grantee rest

def updateAccountPermissionMap : JavaString → AclAccount → PermissionMap AclAccount →
    PermissionMap AclAccount :=
  updatePermissionMap fun account acc => acc.canonicalId = account.canonicalId

def updateGroupPermissionMap : JavaString → AclGroup → PermissionMap AclGroup →
    PermissionMap AclGroup :=
  updatePermissionMap fun group grp => grp.path = group.path

def invalidResponse (grantee : JavaString) : ServerResponse :=
  if grantee = java "emailaddress" then unresolvableGrantByEmailAddress
  else if grantee = java "id" then invalidArgument "Invalid id"
  else invalidArgument "Invalid Argument"

/-- Whom a lookup has found. -/
inductive Found where
  | account (account : AclAccount)
  | group (group : AclGroup)
  | nobody

variable (C : CharacterData) (directory : AclLookups)

def findGrantee (count : Nat) (actualGrantee granteeDetails : JavaString) : Option Found :=
  if C.equalsIgnoreCase actualGrantee (java "emailaddress") then
    (directory.findByEmailAddress count granteeDetails).map .account
  else if C.equalsIgnoreCase actualGrantee (java "id") then
    (directory.findByCanonicalID count granteeDetails).map .account
  else if C.equalsIgnoreCase actualGrantee (java "URI") then
    (directory.getGroup count granteeDetails).map .group
  else some .nobody

/-- Whether the grantee is valid, and what is filled in then. -/
def isGranteeValid (grantee : JavaString) (v : Validation) (permission : JavaString) :
    Bool × Validation :=
  let next := { v with count := v.count + 1 }
  match grantee.findIdx? (· = 61) with
  | none => (false, { next with response := invalidArgument "Invalid Argument" })
  | some index =>
    let granteeDetails := grantee.drop (index + 1)
    let actualGrantee := grantee.take index
    let invalid := (false, { next with response := invalidResponse actualGrantee })
    if JavaString.trim granteeDetails = [] then invalid
    else
      match findGrantee C directory v.count actualGrantee granteeDetails with
      -- the exception is logged
      | none => (false, next)
      | some (.account account) =>
        if account.id.isSome then
          (true, { next with
            accountPermissionMap :=
              updateAccountPermissionMap permission account v.accountPermissionMap })
        else invalid
      | some (.group group) =>
        if group.groupId.isSome then
          (true, { next with
            groupPermissionMap :=
              updateGroupPermissionMap permission group v.groupPermissionMap })
        else invalid
      | some .nobody => invalid

/-! ### The request -/

def permissionHeaders : List JavaString := [
  java "x-amz-grant-read",
  java "x-amz-grant-write",
  java "x-amz-grant-read-acp",
  java "x-amz-grant-write-acp",
  java "x-amz-grant-full-control"]

def cannedAcls : List JavaString := [
  java "private",
  java "public-read",
  java "public-read-write",
  java "authenticated-read",
  java "bucket-owner-read",
  java "bucket-owner-full-control",
  java "log-delivery-write",
  java "aws-exec-read"]

/-- The tokens of a `StringTokenizer` with the delimiter `,`. -/
def tokens (value : JavaString) : List JavaString := (value.splitOn 44).filter (· ≠ [])

/-- The loop over the grantees of a header. -/
def granteeLoop (permission : JavaString) : List JavaString → Validation → Bool × Validation
  | [], v => (true, v)
  | value :: rest, v =>
    match isGranteeValid C directory value v permission with
    | (true, v) => granteeLoop permission rest v
    | (false, v) => (false, v)

/-- `isValidPermissionHeader`, over the headers in the order of their set. -/
def isValidPermissionHeader (body : BodyMap) : List JavaString → Validation → Bool × Validation
  | [], v => (true, v)
  | permissionHeader :: rest, v =>
    match body.get C permissionHeader with
    | none => isValidPermissionHeader body rest v
    | some value =>
      match granteeLoop C directory permissionHeader (tokens value) v with
      | (true, v) => isValidPermissionHeader body rest v
      | (false, v) => (false, v)

/-- More than one of a canned ACL, permission headers and an ACL in the request body. -/
def moreThanOne (body : BodyMap) : Bool :=
  let canned := (body.get C (java "x-amz-acl")).isSome
  let headers := permissionHeaders.any fun header => (body.get C header).isSome
  let acl := (body.get C (java "ACL")).isSome
  (canned && headers) || (canned && acl) || (headers && acl)

def validateAclRequest (permissionHeadersSet : List JavaString) (body : BodyMap) : Validation :=
  if moreThanOne C body then
    { response :=
        if (body.get C (java "ACL")).isSome then
          unexpectedContent "This request does not support content"
        else
          invalidRequest "Specifying both Canned ACLs and Header Grants is not allowed" }
  else if permissionHeaders.any fun header => (body.get C header).isSome then
    (isValidPermissionHeader C directory body permissionHeadersSet {}).2
  else
    match body.get C (java "x-amz-acl") with
    | some value => if value ∈ cannedAcls then {} else { response := badRequest }
    | none => {}

end ACLRequestValidator

end CortxS3
