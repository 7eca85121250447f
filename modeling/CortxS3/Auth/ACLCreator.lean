/-
The ACL of a new or rewritten resource, `ACLCreator`.

It is made from a canned value or from the grants of the permission headers.  The owner and his
grant are chosen apart from each other, by the shape of the request and by which ACLs come with it.
What a base64 text in the body holds is a parameter.  Of the requestor the account is read; nobody
is an anonymous one.
-/
import CortxS3.Auth.BucketPolicyAuthorizer

namespace CortxS3

/-! ### Requests -/

structure AclContext where
  characters : CharacterData
  /-- The XML in a base64 text, if there is a document in it. -/
  readXml : JavaString → Option Document

/-- Why there is no ACL. -/
inductive AclFailure where
  | nullPointer
  /-- What `AccessControlPolicy(String)` throws. -/
  | invalidXml
  | grantListFull
  /-- `InternalServerException`, with the code of its response. -/
  | internalServer (code : JavaString)
deriving DecidableEq

/-- What may be `null` where it is used. -/
def nonNull {α : Type} : Option α → Except AclFailure α
  | some a => .ok a
  | none => .error .nullPointer

/-- What is read of an account that a grant is for; it exists if it has an id. -/
structure AclAccount where
  id : Option JavaString
  canonicalId : JavaString
  name : JavaString
deriving DecidableEq

/-- What is read of a group that a grant is for; it exists if it has an id. -/
structure AclGroup where
  groupId : Option JavaString
  path : JavaString
deriving DecidableEq

/-- The grantees of each permission header. -/
abbrev PermissionMap (α : Type) := List (JavaString × List α)

namespace ACLPermissionUtil

def isACLReadWrite (uri queryParam : Option JavaString) : Except AclFailure Bool := do
  .ok ((java "?acl").isSuffixOf (← nonNull uri) || queryParam = some (java "acl"))

end ACLPermissionUtil

/-! ### Grants -/

namespace Group

def allUsersURI : JavaString := java "http://acs.amazonaws.com/groups/global/AllUsers"

def authenticatedUsersURI : JavaString :=
  java "http://acs.amazonaws.com/groups/global/AuthenticatedUsers"

end Group

/-- `Grantee(canonicalId, displayName)`, with a permission. -/
def userGrant (canonicalId displayName : Option JavaString) (permission : JavaString) : Grant where
  grantee :=
    { canonicalId := canonicalId
      displayName := displayName }
  permission := some permission

/-- `Grantee(null, null, uri, null, Grantee.Types.Group)`, with a permission. -/
def groupGrant (uri : JavaString) (permission : Option JavaString) : Grant where
  grantee :=
    { canonicalId := none
      displayName := none
      uri := some uri
      type := .group }
  permission := permission

/-- `addGrant` of an access control list. -/
def addGrant (acl : List Grant) (grant : Grant) : Except AclFailure (List Grant) :=
  if acl.length < maxGrantSize then .ok (acl ++ [grant]) else .error .grantListFull

namespace ACLCreator

variable (ctx : AclContext)

/-- What the constructor of a policy does with a document, if there is one. -/
def readPolicy (doc : Option Document) : Except AclFailure AccessControlPolicy :=
  match doc.bind AccessControlPolicy.ofXml with
  | some acp => .ok acp
  | none => .error .invalidXml

/-- `AccessControlPolicy(BinaryUtil.base64DecodeString(text))`. -/
def policyOf (text : Option JavaString) : Except AclFailure AccessControlPolicy := do
  readPolicy (ctx.readXml (← nonNull text))

def initDefaultACL (acp : AccessControlPolicy) (canonicalId name : JavaString) :
    AccessControlPolicy :=
  { acp with
    owner := { canonicalId := some canonicalId, displayName := some name }
    accessControlList := [userGrant (some canonicalId) (some name) (java "FULL_CONTROL")] }

def initDefaultAcp (requestor : Option PolicyRequestor) :
    Except AclFailure AccessControlPolicy := do
  let acp ← readPolicy (some defaultAclTemplate)
  match requestor with
  | some r => .ok (initDefaultACL acp r.canonicalId r.accountName)
  | none => .ok (initDefaultACL acp [] [])

/-- The policy in `Auth-ACL`, if there is one. -/
def existingAcpOf (body : BodyMap) : Except AclFailure (Option AccessControlPolicy) :=
  match body.get ctx.characters (java "Auth-ACL") with
  | some text => (policyOf ctx (some text)).map some
  | none => .ok none

/-- `getXml` of the policy. -/
def getXml (acp : AccessControlPolicy) : Except AclFailure Document :=
  match acp.getXml with
  | some (xml, _) => .ok xml
  | none => .error .nullPointer

/-! ### Owners -/

def ownerOf (requestor : PolicyRequestor) : Owner where
  canonicalId := some requestor.canonicalId
  displayName := some requestor.accountName

/-- `requestBody.get("Method").equalsIgnoreCase("PUT")` and what stands in front of it. -/
def putsAcl (body : BodyMap) : Except AclFailure Bool := do
  let uri := body.get ctx.characters (java "ClientAbsoluteUri")
  let queryParam := body.get ctx.characters (java "ClientQueryParams")
  if uri = none ∧ queryParam = none then .ok false
  else if !(← ACLPermissionUtil.isACLReadWrite uri queryParam) then .ok false
  else do
    let method ← nonNull (body.get ctx.characters (java "Method"))
    .ok (ctx.characters.equalsIgnoreCase method (java "PUT"))

def getOwner (requestor : Option PolicyRequestor) (acp : Option AccessControlPolicy)
    (body : BodyMap) : Except AclFailure Owner := do
  let existing ← match acp with
    | some _ => putsAcl ctx body
    | none => .ok false
  match existing, requestor with
  | false, some r => .ok (ownerOf r)
  | _, _ => do
    let acp ← nonNull acp
    .ok acp.owner

def getbucketOwner (body : BodyMap) : Except AclFailure Owner := do
  let bucketAcl := body.get ctx.characters (java "Bucket-ACL")
  if bucketAcl ≠ none then
    let acp ← policyOf ctx bucketAcl
    .ok acp.owner
  else
    let acp ← policyOf ctx (body.get ctx.characters (java "Auth-ACL"))
    .ok acp.owner

def getOwnerGrant (requestor : Option PolicyRequestor) (acp : Option AccessControlPolicy)
    (body : BodyMap) : Except AclFailure Grant := do
  let existing := acp.isSome && (body.get ctx.characters (java "Bucket-ACL")).isSome
  match existing, requestor with
  | false, some r =>
    .ok (userGrant (some r.canonicalId) (some r.accountName) (java "FULL_CONTROL"))
  | _, _ => do
    let acp ← nonNull acp
    .ok (userGrant acp.owner.canonicalId acp.owner.displayName (java "FULL_CONTROL"))

/-! ### Canned values -/

/-- Checks if the `ClientAbsoluteUri` contains only the bucket name. -/
def isOperationOnBucket (body : BodyMap) : Bool :=
  match body.get ctx.characters (java "ClientAbsoluteUri") with
  | none => false
  | some [] => false
  | some uri =>
    match JavaString.split 47 uri with
    | [_] => true
    | [first, second] => first = [] || second = []
    | _ => false

def isIgnoreBucketAclUpdate (body : BodyMap) : Except AclFailure Bool := do
  if isOperationOnBucket ctx body then
    let readWrite ← ACLPermissionUtil.isACLReadWrite
      (body.get ctx.characters (java "ClientAbsoluteUri"))
      (body.get ctx.characters (java "ClientQueryParams"))
    .ok !readWrite
  else .ok false

/-- A value that gives rights to a group: the grant of the owner, and the grants of the group. -/
def groupAcl (requestor : Option PolicyRequestor) (acp : Option AccessControlPolicy)
    (body : BodyMap) (uri : JavaString) (permissions : List JavaString) :
    Except AclFailure (List Grant) := do
  let grant ← getOwnerGrant ctx requestor acp body
  permissions.foldlM (fun acl permission => addGrant acl (groupGrant uri (some permission)))
    (← addGrant [] grant)

/-- A value that gives rights to the bucket owner, where the permission is not his already. -/
def bucketOwnerAcl (requestor : Option PolicyRequestor) (acp : Option AccessControlPolicy)
    (body : BodyMap) (acl : List Grant) (permission : JavaString) :
    Except AclFailure (List Grant) := do
  if ← isIgnoreBucketAclUpdate ctx body then .ok acl
  else do
    let grant ← getOwnerGrant ctx requestor acp body
    let acl ← addGrant [] grant
    let bucketOwner ← getbucketOwner ctx body
    let canonicalId ← nonNull grant.grantee.canonicalId
    if some canonicalId ≠ bucketOwner.canonicalId then
      addGrant acl (userGrant bucketOwner.canonicalId bucketOwner.displayName permission)
    else .ok acl

/-- The `switch` over the canned values. -/
def cannedAcl (requestor : Option PolicyRequestor) (acp : Option AccessControlPolicy)
    (body : BodyMap) (acl : List Grant) (cannedInput : JavaString) :
    Except AclFailure (List Grant) :=
  if cannedInput = java "private" then groupAcl ctx requestor acp body [] []
  else if cannedInput = java "public-read" then
    groupAcl ctx requestor acp body Group.allUsersURI [java "READ"]
  else if cannedInput = java "public-read-write" then
    groupAcl ctx requestor acp body Group.allUsersURI [java "READ", java "WRITE"]
  else if cannedInput = java "authenticated-read" then
    groupAcl ctx requestor acp body Group.authenticatedUsersURI [java "READ"]
  else if cannedInput = java "bucket-owner-read" then
    bucketOwnerAcl ctx requestor acp body acl (java "READ")
  else if cannedInput = java "bucket-owner-full-control" then
    bucketOwnerAcl ctx requestor acp body acl (java "FULL_CONTROL")
  else if cannedInput = java "log-delivery-write" ∨ cannedInput = java "aws-exec-read" then
    .error (.internalServer (java "OperationNotSupported"))
  else .error (.internalServer (java "InvalidArgument"))

def createACLFromCannedInput (requestor : Option PolicyRequestor) (body : BodyMap) :
    Except AclFailure Document := do
  let cannedInput ← nonNull (body.get ctx.characters (java "x-amz-acl"))
  let acp ← initDefaultAcp requestor
  let existingAcp ← existingAcpOf ctx body
  let owner ← getOwner ctx requestor existingAcp body
  let acl ← cannedAcl ctx requestor existingAcp body acp.accessControlList cannedInput
  getXml ((acp.setOwner owner).setAccessControlList acl)

/-! ### Permission headers -/

def actualPermissionsMap : List (JavaString × JavaString) := [
  (java "x-amz-grant-read", java "READ"),
  (java "x-amz-grant-write", java "WRITE"),
  (java "x-amz-grant-read-acp", java "READ_ACP"),
  (java "x-amz-grant-write-acp", java "WRITE_ACP"),
  (java "x-amz-grant-full-control", java "FULL_CONTROL")]

/-- The loops over a map of grantees, in the order in which its iterator goes. -/
def updateAclFromMap {α : Type} (toGrant : α → Option JavaString → Grant)
    (permissionMap : PermissionMap α) (acl : List Grant) : Except AclFailure (List Grant) :=
  permissionMap.foldlM
    (fun acl entry =>
      entry.2.foldlM
        (fun acl grantee => addGrant acl (toGrant grantee (actualPermissionsMap.lookup entry.1)))
        acl)
    acl

def accountGrant (account : AclAccount) (permission : Option JavaString) : Grant where
  grantee :=
    { canonicalId := some account.canonicalId
      displayName := some account.name }
  permission := permission

def updateAclFromAccountMap : PermissionMap AclAccount → List Grant →
    Except AclFailure (List Grant) :=
  updateAclFromMap accountGrant

def updateAclFromGroupMap : PermissionMap AclGroup → List Grant → Except AclFailure (List Grant) :=
  updateAclFromMap fun group => groupGrant group.path

/-- The policy of `createAclFromPermissionHeaders`, before it is written. -/
def policyFromPermissionHeaders (requestor : Option PolicyRequestor)
    (accountPermissionMap : PermissionMap AclAccount) (groupPermissionMap : PermissionMap AclGroup)
    (body : BodyMap) : Except AclFailure AccessControlPolicy := do
  let acp ← readPolicy (some defaultAclTemplate)
  let newAcl ← updateAclFromAccountMap accountPermissionMap []
  let newAcl ← updateAclFromGroupMap groupPermissionMap newAcl
  let existingAcp ← existingAcpOf ctx body
  let owner ← getOwner ctx requestor existingAcp body
  .ok ((acp.setOwner owner).setAccessControlList newAcl)

def createAclFromPermissionHeaders (requestor : Option PolicyRequestor)
    (accountPermissionMap : PermissionMap AclAccount) (groupPermissionMap : PermissionMap AclGroup)
    (body : BodyMap) : Except AclFailure Document := do
  getXml (← policyFromPermissionHeaders ctx requestor accountPermissionMap groupPermissionMap body)

end ACLCreator

end CortxS3
