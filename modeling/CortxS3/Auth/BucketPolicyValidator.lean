/-
How the auth server checks a bucket policy before it is stored, `BucketPolicyValidator`.

The document is JSON.  The validator looks at its fields itself, for what the parser of the AWS SDK
would not report, then lets the SDK make statements of it and checks these.  JSON and the SDK are
parameters: a document is what `JSONObject` makes of the text, the statements are what
`Policy.fromJson` makes of the document with `CanonicalUser` replaced.  A response is its message,
no response means that the policy is valid, and an exception that is not caught here ends the
request.  Of an exception that is caught its kind and its message matter.
-/
import CortxS3.Auth.BucketPolicyAuthorizer

namespace CortxS3

/-! ### Documents -/

/-- A value of a JSON document; of numbers, booleans and nulls the text is kept. -/
inductive JsonValue where
  | string (s : JavaString)
  | array (values : List JsonValue)
  | object (fields : List (JavaString × JsonValue))
  | other (text : JavaString)

/-- The fields of a document, in the order of `keys()`. -/
abbrev JsonFields := List (JavaString × JsonValue)

/-- An exception that `validatePolicy` catches, with `getMessage()`. -/
inductive CaughtException where
  | json (message : JavaString)
  | other (message : JavaString)

/-- What the client is told of it. -/
def CaughtException.response : CaughtException → JavaString
  | .json message => java "This policy contains invalid Json - " ++ message
  | .other message => message

/-- What the validator asks others. -/
structure ValidatorContext where
  characters : CharacterData
  actions : S3Actions
  /-- `new JSONObject(BinaryUtil.base64DecodeString(jsonPolicy))`; what is no Base64 is no
  `JSONException`. -/
  parseJson : JavaString → Except CaughtException JsonFields
  /-- The message of the JVM where a value is cast to `JSONObject` and is none. -/
  castMessage : JsonValue → JavaString
  /-- `toString` of an array or an object. -/
  render : JsonValue → JavaString
  /-- `Policy.fromJson`. -/
  fromJson : JsonFields → Except CaughtException (Option (List Statement))
  /-- Whether `UserImpl.findByArn` finds a user. -/
  userByArn : JavaString → Except JavaException Bool
  /-- Whether `UserImpl.findByUserId` finds a user. -/
  userById : JavaString → Except JavaException Bool
  /-- Whether `AccountImpl.findByID` finds an account. -/
  accountById : JavaString → Except JavaException Bool
  /-- Whether `AccountImpl.findByCanonicalID` finds an account. -/
  accountByCanonicalId : JavaString → Except JavaException Bool

/-! ### `ConditionUtil` -/

namespace ConditionUtil

/-- The types of `PolicyConditionFields.json`. -/
def conditionTypes : List JavaString :=
  ["StringEquals", "StringNotEquals", "StringEqualsIgnoreCase", "StringNotEqualsIgnoreCase",
    "StringLike", "StringNotLike", "StringEqualsIfExists", "StringNotEqualsIfExists",
    "StringEqualsIgnoreCaseIfExists", "StringNotEqualsIgnoreCaseIfExists", "StringLikeIfExists",
    "StringNotLikeIfExists", "NumericEquals", "NumericNotEquals", "NumericLessThan",
    "NumericLessThanEquals", "NumericGreaterThan", "NumericGreaterThanEquals",
    "NumericEqualsIfExists", "NumericNotEqualsIfExists", "NumericLessThanIfExists",
    "NumericLessThanEqualsIfExists", "NumericGreaterThanIfExists",
    "NumericGreaterThanEqualsIfExists", "DateEquals", "DateNotEquals", "DateLessThan",
    "DateLessThanEquals", "DateGreaterThan", "DateGreaterThanEquals", "DateEqualsIfExists",
    "DateNotEqualsIfExists", "DateLessThanIfExists", "DateLessThanEqualsIfExists",
    "DateGreaterThanIfExists", "DateGreaterThanEqualsIfExists", "Bool", "BoolIfExists",
    "Null"].map java

/-- Its global keys and its S3 keys. -/
def conditionKeys : List JavaString :=
  ["aws:CurrentTime", "aws:EpochTime", "s3:x-amz-acl", "s3:x-amz-grant-read",
    "s3:x-amz-grant-write", "s3:x-amz-grant-read-acp", "s3:x-amz-grant-write-acp",
    "s3:x-amz-grant-full-control", "s3:max-keys", "s3:prefix", "s3:x-amz-content-sha256",
    "s3:x-amz-storage-class"].map java

def isConditionTypeValid (conditionType : JavaString) : Bool :=
  conditionTypes.contains conditionType

def isConditionKeyValid (C : CharacterData) (conditionKey : JavaString) : Bool :=
  (conditionKeys.map C.toLowerCase).contains (C.toLowerCase conditionKey) ||
    (java "aws:").isPrefixOf (C.toLowerCase conditionKey)

/-- Both kinds of actions; an object action hides a bucket action of the same name. -/
def s3ActionsMap (A : S3Actions) : List (JavaString × List JavaString) :=
  A.bucketOperations.filter (fun entry => !A.isObjectOperation entry.1) ++ A.objectOperations

/-- A global key goes with every action, another one with the actions that list it. -/
def isConditionCombinationValid (C : CharacterData) (A : S3Actions)
    (conditionKey action : JavaString) : Bool :=
  conditionKey != [] && action != [] &&
    ((java "aws:").isPrefixOf conditionKey ||
      (s3ActionsMap A).any fun entry =>
        C.equalsIgnoreCase action entry.1 &&
          entry.2.any fun val => C.equalsIgnoreCase val conditionKey)

end ConditionUtil

namespace BucketPolicyValidator

/-- What `∈` asks for, by a name. -/
local instance lawfulBEq : LawfulBEq JavaString := inferInstance

variable (V : ValidatorContext)

/-! ### The fields of the document -/

def policyElements : List JavaString :=
  ["Version", "Id", "Statement", "Effect", "Sid", "Principal", "Action", "Resource",
    "Condition"].map java

def nestedPolicyElements : List JavaString :=
  ["Effect", "Sid", "Principal", "Action", "Resource", "Condition"].map java

/-- `value.toString()`. -/
def toText : JsonValue → JavaString
  | .string s => s
  | .other text => text
  | value => V.render value

/-- How a loop goes on: with the response so far, or out of the method. -/
inductive Went where
  | on (response : Option JavaString)
  | back (response : Option JavaString)
  | thrown (e : CaughtException)

/-- What is said of an effect. -/
def effectResponse (effectValue : JavaString) (response : Option JavaString) : Option JavaString :=
  if effectValue = [] then some (java "Missing required field Effect cannot be empty!")
  else if effectValue ≠ java "Allow" ∧ effectValue ≠ java "Deny" then
    some (java "Invalid effect : " ++ effectValue)
  else response

/-- What is said of a principal that is a text. -/
def principalResponse (principal : JsonValue) (response : Option JavaString) :
    Option JavaString :=
  match principal with
  | .string s =>
    if s = [] then some (java "Missing required field Principal cannot be empty!")
    else if s ≠ java "*" then some (java "Invalid policy syntax.")
    else response
  | _ => response

/-- The fields of one statement. -/
def statementFields : JsonFields → Option JavaString → Bool → Went
  | [], response, isEffectFieldPresent =>
    if isEffectFieldPresent then .on response
    else .back (some (java "Missing required field Effect"))
  | (objKey, value) :: rest, response, isEffectFieldPresent =>
    if objKey ∉ policyElements then .back (some (java "Unknown field " ++ objKey))
    else if objKey ∉ nestedPolicyElements then
      .back (some (java "Invalid bucket policy syntax."))
    else if objKey = java "Effect" then
      statementFields rest (effectResponse (toText V value) response) true
    else if objKey = java "Principal" then
      statementFields rest (principalResponse value response) isEffectFieldPresent
    else statementFields rest response isEffectFieldPresent

/-- The elements of the array of statements.  One that is no object cannot be cast. -/
def statementsLoop : List JsonValue → Option JavaString → Went
  | [], response => .on response
  | .object fields :: rest, response =>
    match statementFields V fields response false with
    | .on response => statementsLoop rest response
    | went => went
  | value :: _, _ => .thrown (.other (V.castMessage value))

def validatePolicyElements :
    JsonFields → Option JavaString → Except CaughtException (Option JavaString)
  | [], response => .ok response
  | (key, value) :: rest, response =>
    if key ∉ policyElements then .ok (some (java "Unknown field " ++ key))
    else match value with
      | .array arr =>
        if key ≠ java "Statement" then .ok (some (java "Invalid bucket policy syntax."))
        else match statementsLoop V arr response with
          | .on response => validatePolicyElements rest response
          | .back response => .ok response
          | .thrown e => .error e
      | _ =>
        if key ≠ java "Id" ∧ key ≠ java "Version" then
          .ok (some (java "Invalid bucket policy syntax."))
        else validatePolicyElements rest response

/-! ### Actions and resources -/

/-- The bucket a resource names. -/
def bucketOf (resourceName : JavaString) : JavaString := resourceName.takeWhile (· ≠ 47)

/-- The loop over the resources of one text: the response, and whether one applies. -/
def resourceLoop (inputBucket : JavaString) (actionsList : List JavaString) :
    List JavaString → Except JavaException (Option JavaString × Bool)
  | [] => .ok (none, false)
  | resourceArn :: rest =>
    if PolicyUtil.isS3ArnFormatValid resourceArn then
      match PolicyUtil.getResourceFromResourceArn resourceArn with
      | .error e => .error e
      | .ok resourceName =>
        if bucketOf resourceName ≠ inputBucket then
          .ok (some (java "Policy has invalid resource"), false)
        else if PolicyUtil.isActionValidForResource V.actions actionsList
            (resourceName.contains 47) then
          .ok (none, true)
        else resourceLoop inputBucket actionsList rest
    else .ok (some (java "Policy has invalid resource"), false)

/-- Of the resources the first text counts. -/
def validateResource (resourceValues : List JavaString) (inputBucket : JavaString)
    (actionsList : List JavaString) : Except JavaException (Option JavaString) :=
  match resourceValues with
  | [] => .ok (some (java "Missing required field Resource"))
  | first :: _ =>
    match resourceLoop V inputBucket actionsList
        (PolicyUtil.convertCommaSeparatedStringToList first) with
    | .error e => .error e
    | .ok (some message, _) => .ok (some message)
    | .ok (none, true) => .ok none
    | .ok (none, false) =>
      .ok (some (java "Action does not apply to any resource(s) in statement"))

/-- The loop over the actions.  An empty name does not end it. -/
def actionLoop (resourceValues : List JavaString) (inputBucket : JavaString) :
    List JavaString → Option JavaString → Except JavaException (Option JavaString)
  | [], response => .ok response
  | action :: rest, _ =>
    if action = [] then
      actionLoop resourceValues inputBucket rest
        (some (java "Missing required field Action cannot be empty!"))
    else
      match PolicyUtil.getAllMatchingActions V.characters V.actions action with
      | [] => .ok (some (java "Policy has invalid action"))
      | matching =>
        match validateResource V resourceValues inputBucket matching with
        | .error e => .error e
        | .ok (some message) => .ok (some message)
        | .ok none => actionLoop resourceValues inputBucket rest none

def validateActionAndResource (actionList resourceValues : List JavaString)
    (inputBucket : JavaString) : Except JavaException (Option JavaString) :=
  if actionList = [] then .ok (some (java "Missing required field Action"))
  else actionLoop V resourceValues inputBucket actionList none

/-! ### Effect, conditions, principals -/

/-- The effect is null where the SDK has set none. -/
def validateEffect (effectValue : Option Effect) : Option JavaString :=
  match effectValue with
  | some _ => none
  | none => some (java "Missing required field Effect")

/-- A key that does not go with an action ends the loop over the actions only. -/
def conditionLoop (actionList : List JavaString) :
    List Condition → Option JavaString → Option JavaString
  | [], response => response
  | condition :: rest, response =>
    if !ConditionUtil.isConditionTypeValid condition.type then
      some (java "Invalid Condition type : " ++ condition.type)
    else if !ConditionUtil.isConditionKeyValid V.characters condition.conditionKey then
      some (java "Policy has an invalid condition key")
    else if actionList.any fun action =>
        !ConditionUtil.isConditionCombinationValid V.characters V.actions
          condition.conditionKey action then
      conditionLoop actionList rest
        (some (java "Conditions do not apply to combination of actions and resources in statement"))
    else conditionLoop actionList rest response

def validateCondition (conditionList : List Condition) (actionList : List JavaString) :
    Option JavaString :=
  conditionLoop V actionList conditionList none

/-- An answer of the directory; an exception counts as no. -/
def found (answer : Except JavaException Bool) : Bool :=
  match answer with
  | .ok b => b
  | .error _ => false

def isPrincipalIdValid (principal : Principal) : Bool :=
  if principal.provider = java "AWS" then
    if PolicyUtil.isPrincipalArnFormatValid principal.id then found (V.userByArn principal.id)
    else match V.accountById principal.id with
      | .ok true => true
      | .ok false => found (V.userById principal.id)
      | .error _ => false
  else if principal.provider = java "Service" then
    found (V.accountByCanonicalId principal.id)
  else if principal.provider = java "Federated" then false
  else true

def providers : List JavaString := ["AWS", "Service", "Federated", "*"].map java

def principalLoop : List Principal → Option JavaString
  | [] => none
  | principal :: rest =>
    if principal.provider ∉ providers then some (java "Invalid bucket policy syntax")
    else if principal.id ≠ java "*" ∧ isPrincipalIdValid V principal = false then
      some (java "Invalid principal in policy")
    else principalLoop rest

def validatePrincipal (principals : List Principal) : Option JavaString :=
  if principals = [] then some (java "Missing required field Principal")
  else principalLoop V principals

/-! ### The policy -/

def validateStatement (inputBucket : JavaString) (stmt : Statement) :
    Except JavaException (Option JavaString) := do
  match ← validateActionAndResource V stmt.actions stmt.resources inputBucket with
  | some message => .ok (some message)
  | none =>
    match validateEffect (some stmt.effect) with
    | some message => .ok (some message)
    | none =>
      match validateCondition V stmt.conditions stmt.actions with
      | some message => .ok (some message)
      | none => .ok (validatePrincipal V stmt.principals)

/-- The loop over the statements. -/
def validateStatements (inputBucket : JavaString) :
    List Statement → Except JavaException (Option JavaString)
  | [] => .ok none
  | stmt :: rest => do
    match ← validateStatement V inputBucket stmt with
    | some message => .ok (some message)
    | none => validateStatements inputBucket rest

def validatePolicy (inputBucket jsonPolicy : JavaString) :
    Except JavaException (Option JavaString) :=
  match V.parseJson jsonPolicy with
  | .error e => .ok (some e.response)
  | .ok obj =>
    match validatePolicyElements V obj none with
    | .error e => .ok (some e.response)
    | .ok (some message) => .ok (some message)
    | .ok none =>
      match V.fromJson obj with
      | .error e => .ok (some e.response)
      | .ok none => .ok (some (java "Missing required field Statement"))
      | .ok (some statements) => validateStatements V inputBucket statements

end BucketPolicyValidator

end CortxS3
