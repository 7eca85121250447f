/-
How the auth server decides a request by a bucket policy, `BucketPolicyAuthorizer`.

The policy comes with the request, as text; here it is what `Policy.fromJson` makes of that, and
the other entries of the request are the body.  The directory and the owner in the resource's ACL
are parameters.  A loop of the source that stops early does not look at what comes behind, so an
exception that would be thrown there is not.
-/
import CortxS3.Auth.PolicyCondition

namespace CortxS3

/-! ### Policies -/

structure Principal where
  provider : JavaString
  id : JavaString
deriving DecidableEq

structure Condition where
  type : JavaString
  conditionKey : JavaString
  values : List JavaString
deriving DecidableEq

inductive Effect where
  | allow
  | deny
deriving DecidableEq

/-- A statement; resources and actions are told by their texts. -/
structure Statement where
  principals : List Principal
  resources : List JavaString
  actions : List JavaString
  conditions : List Condition
  effect : Effect
deriving DecidableEq

/-! ### Requests -/

/-- A requestor that is not anonymous. -/
structure PolicyRequestor where
  id : JavaString
  accountId : JavaString
  accountName : JavaString
  canonicalId : JavaString
deriving DecidableEq

/-- What the authorizer asks others. -/
structure PolicyContext where
  characters : CharacterData
  parsers : DateParsers
  actions : S3Actions
  /-- `UserImpl.findByArn`: the id of the user, if he exists. -/
  findByArn : JavaString → Except JavaException (Option JavaString)
  /-- `UserImpl.findByUserId`: the name of the user. -/
  findByUserId : JavaString → Except JavaException (Option JavaString)
  /-- `AccountImpl.findByCanonicalID`: the name of the account. -/
  findByCanonicalID : Option JavaString → Except JavaException (Option JavaString)
  /-- `AccessControlList.getOwner`, from the ACL in the body. -/
  getOwner : BodyMap → Except JavaException (Option JavaString)

inductive PolicyResponse where
  | ok
  | accessDenied
  | methodNotAllowed (message : JavaString)
  /-- `generateAuthorizationResponse(null, null)`. -/
  | allUserRequest
deriving DecidableEq

namespace BucketPolicyAuthorizer

variable (X : PolicyContext)

/-! ### The parts of a statement -/

/-- The `switch` over the provider. -/
def isRequestor (principal : Principal) (requestor : PolicyRequestor) :
    Except JavaException Bool :=
  if principal.provider = java "AWS" then
    if PolicyUtil.isPrincipalArnFormatValid principal.id then do
      .ok ((← X.findByArn principal.id) == some requestor.id)
    else .ok (principal.id = requestor.accountId || principal.id = requestor.id)
  else if principal.provider = java "Service" then .ok (principal.id = requestor.canonicalId)
  else .ok false

def isPrincipalMatching (requestor : Option PolicyRequestor) :
    List Principal → Except JavaException Bool
  | [] => .ok false
  | principal :: rest =>
    if principal.id = java "*" then .ok true
    else match requestor with
      | none => .ok false
      | some who => do
        if ← isRequestor X principal who then .ok true else isPrincipalMatching requestor rest

/-- One resource of the list.  A resource that is null has no length. -/
def isResource (requestedResource : Option JavaString) (resourceArn : JavaString) :
    Except JavaException Bool := do
  let resource ← PolicyUtil.getResourceFromResourceArn resourceArn
  match requestedResource with
  | none => .error .nullPointer
  | some requested => .ok (PolicyUtil.isPatternMatching requested resource)

def isResourceMatching (resourceList : List JavaString) (requestedResource : Option JavaString) :
    Except JavaException Bool :=
  resourceList.anyM (isResource requestedResource)

def isActionMatching (actionsList : List JavaString) (requestedOperation : JavaString) : Bool :=
  actionsList.any fun action =>
    (PolicyUtil.getAllMatchingActions X.characters X.actions action).contains requestedOperation

/-- One condition.  A type that no class is for is not satisfied. -/
def isCondition (requestBody : BodyMap) (condition : Condition) : Except JavaException Bool :=
  match PolicyCondition.getCondition condition.type
      (ConditionUtil.removeKeyPrefix condition.conditionKey) condition.values with
  | some pc => pc.isSatisfied X.characters X.parsers requestBody
  | none => .ok false

def isConditionMatching (conditions : List Condition) (requestBody : BodyMap) :
    Except JavaException Bool :=
  conditions.allM (isCondition X requestBody)

/-! ### Statements -/

/-- The request as the statements see it. -/
structure Asked where
  requestBody : BodyMap
  requestedOperation : JavaString
  requestedResource : Option JavaString

/-- What is asked of a statement once a principal matches.  Of its resources the first counts. -/
def isRestMatching (asked : Asked) (stmt : Statement) : Except JavaException Bool := do
  match stmt.resources with
  | [] => .error .indexOutOfBounds
  | resource :: _ =>
    if ← isResourceMatching (PolicyUtil.convertCommaSeparatedStringToList resource)
        asked.requestedResource then
      if isActionMatching X stmt.actions asked.requestedOperation then
        isConditionMatching X stmt.conditions asked.requestBody
      else .ok false
    else .ok false

def isStatementMatching (requestor : Option PolicyRequestor) (asked : Asked) (stmt : Statement) :
    Except JavaException Bool := do
  if ← isPrincipalMatching X requestor stmt.principals then isRestMatching X asked stmt
  else .ok false

/-- The loop over the statements.  The first one that denies ends it. -/
def statementLoop (requestor : Option PolicyRequestor) (asked : Asked) :
    List Statement → Option PolicyResponse → Except JavaException (Option PolicyResponse)
  | [], response => .ok response
  | stmt :: rest, response => do
    if ← isStatementMatching X requestor asked stmt then
      match stmt.effect with
      | .allow => statementLoop requestor asked rest (some .ok)
      | .deny => .ok (some .accessDenied)
    else statementLoop requestor asked rest response

/-! ### The decision -/

/-- `Authorizer.isRootUser(new UserImpl().findByUserId(id))`. -/
def isRootUser (id : JavaString) : Except JavaException Bool := do
  .ok ((← X.findByUserId id) == some (java "root"))

/-- Get, put and delete of the policy itself, for a requestor that is not anonymous. -/
def decidePolicyOperation (who : PolicyRequestor) (resourceOwner : Option JavaString)
    (response : Option PolicyResponse) : Except JavaException (Option PolicyResponse) := do
  if response = some .ok then
    match ← X.findByCanonicalID resourceOwner with
    | none => .error .nullPointer
    | some name =>
      if name ≠ who.accountName then
        .ok (some (.methodNotAllowed
          (java "The specified method is not allowed against this resource.")))
      else .ok response
  else if (← isRootUser X who.id) && some who.canonicalId = resourceOwner then .ok (some .ok)
  else .ok (some .accessDenied)

/-- Every other operation. -/
def decideOperation (requestor : Option PolicyRequestor) (resourceOwner : Option JavaString)
    (response : Option PolicyResponse) : Except JavaException (Option PolicyResponse) := do
  if response = some .ok then
    match requestor with
    | none => .ok (some .allUserRequest)
    | some who =>
      if (← isRootUser X who.id) || some who.canonicalId = resourceOwner then .ok (some .ok)
      else .ok (some .accessDenied)
  else .ok response

/-- What follows the loop. -/
def decideResponse (requestor : Option PolicyRequestor) (requestedOperation : JavaString)
    (resourceOwner : Option JavaString) (response : Option PolicyResponse) :
    Except JavaException (Option PolicyResponse) :=
  if PolicyUtil.isPolicyOperation X.characters requestedOperation then
    match requestor with
    | none => .ok (some .accessDenied)
    | some who => decidePolicyOperation X who resourceOwner response
  else decideOperation X requestor resourceOwner response

def authorizeOperation (requestor : Option PolicyRequestor) (requestBody : BodyMap)
    (requestedOperation : JavaString) (existingPolicy : List Statement) :
    Except JavaException (Option PolicyResponse) := do
  let requestedResource := PolicyUtil.getResourceFromUri
    (requestBody.get X.characters (java "ClientAbsoluteUri"))
  let resourceOwner ← X.getOwner requestBody
  let response ← statementLoop X requestor
    ⟨requestBody, requestedOperation, requestedResource⟩ existingPolicy none
  decideResponse X requestor requestedOperation resourceOwner response

def identifyOperationToAuthorize (requestBody : BodyMap) : Option JavaString :=
  (requestBody.get X.characters (java "S3Action")).map fun s3Action =>
    java "s3:" ++
      (if s3Action = java "HeadBucket" then java "ListBucket"
       else if s3Action = java "HeadObject" then java "GetObject"
       else if s3Action = java "DeleteBucketTagging" then java "PutBucketTagging"
       else s3Action)

/-- The body of the `try`. -/
def evaluate (requestor : Option PolicyRequestor) (requestBody : BodyMap)
    (existingPolicy : List Statement) : Except JavaException (Option PolicyResponse) :=
  match identifyOperationToAuthorize X requestBody with
  | none => .error .nullPointer
  | some operation =>
    authorizeOperation X requestor requestBody (X.characters.toLowerCase operation)
      existingPolicy

/-- An exception leaves the response null. -/
def authorizePolicy (requestor : Option PolicyRequestor) (requestBody : BodyMap)
    (existingPolicy : List Statement) : Option PolicyResponse :=
  match evaluate X requestor requestBody existingPolicy with
  | .ok response => response
  | .error _ => none

end BucketPolicyAuthorizer

end CortxS3
