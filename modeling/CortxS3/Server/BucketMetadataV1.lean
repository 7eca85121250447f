/-
The creation and the removal of a bucket, `S3BucketMetadataV1` under `S3PutBucketAction` and
`S3DeleteBucketAction`.

A bucket has two entries in Motr.  The global bucket list maps its name to the account that owns
it, and the bucket metadata list has its metadata under the account and the name.  The model is of
all requests for one name, on any number of servers that share the two indexes.  Every server has
one request at a time under way and a cache of its own (`S3BucketMetadataCache`), of which here only
counts whether it holds the bucket as present, and whose.

Each call of Motr is atomic.  An event is how the call that a server waits for was answered, so a run
is any interleaving of the calls of all servers.  A call that fails has changed nothing.  A delete
fails when the key is not there.

Whether an entry of the cache is still fresh depends on the time, which is not modelled: a load may be
answered from the cache whenever it holds the bucket.  What a delete does between the load and the
removal of the metadata, to authorize the request, to see that the bucket is empty and to remove its
indexes, is one step that ends well or in an error.
-/
import CortxS3.Basic
import CortxS3.Lib.Runs

namespace CortxS3

namespace S3BucketMetadataV1

inductive S3ErrorCode where
  | AccessDenied
  | BucketAlreadyExists
  | BucketAlreadyOwnedByYou
  | BucketNotEmpty
  | InternalError
  | NoSuchBucket
  | ServiceUnavailable
deriving DecidableEq

/-- `MAX_COLLISION_RETRY_COUNT`. -/
def maxCollisionRetryCount : Nat := 20

inductive Api where
  | putBucket
  | deleteBucket
deriving DecidableEq

/-- The indexes of a bucket, in the order of their creation. -/
inductive Index where
  | objectList
  | multipart
  | objectsVersionList
  | extendedMetadata
deriving DecidableEq

/-- How Motr answers a call.  Only the creation of an index can find that it exists. -/
inductive Reply where
  | ok
  | exists
  | failed
  | failedToLaunch
deriving DecidableEq

/-- The error a request ends with when a call fails. -/
def Reply.code : Reply → S3ErrorCode
  | .failedToLaunch => .ServiceUnavailable
  | _ => .InternalError

section

variable (Account Server : Type)

structure Request where
  api : Api
  account : Account
deriving DecidableEq

/-- The call a request waits for. -/
inductive Phase where
  | fetchGlobalBucketAccountIdInfo
  | loadBucketInfo (owner : Account)
  | saveGlobalBucketAccountIdInfo
  | createIndex (index : Index) (collisionAttemptCount : Nat)
  | saveBucketInfo
  /-- `cleanup_on_create_err_global_bucket_account_id_info`. -/
  | cleanupOnCreateErr (code : S3ErrorCode)
  /-- From the authorization of a delete to the removal of the indexes. -/
  | emptyBucket (owner : Account)
  | removeBucketInfo (owner : Account)
  | removeGlobalBucketAccountIdInfo (owner : Account)
deriving DecidableEq

structure Instance where
  /-- The owner of the bucket, if the cache holds it as present. -/
  cached : Option Account := none
  request : Option (Request Account × Phase Account) := none
deriving DecidableEq

/-- What an account was told: that it created the bucket, or that the bucket of `owner` is deleted. -/
inductive Response where
  | created (account : Account)
  | deleted (account owner : Account)
  | error (account : Account) (code : S3ErrorCode)
deriving DecidableEq

structure State where
  /-- The entry of the name in the global bucket list. -/
  globalBucketList : Option Account := none
  /-- Whether the bucket metadata list has an entry for an account and the name. -/
  bucketMetadataList : Account → Bool := fun _ => false
  instances : Server → Instance Account := fun _ => {}
  /-- All responses, in their order. -/
  responses : List (Response Account) := []

inductive Action where
  | receive (request : Request Account)
  | cacheHit
  | reply (reply : Reply)
  /-- A delete is refused before anything of the bucket is removed. -/
  | refuse (code : S3ErrorCode)
deriving DecidableEq

structure Event where
  server : Server
  action : Action Account
deriving DecidableEq

end

variable {Account Server : Type} [DecidableEq Account] [DecidableEq Server]

/-! ### Going on and ending -/

/-- The request of `i` waits for its next call. -/
def State.await (s : State Account Server) (i : Server) (cached : Option Account)
    (r : Request Account) (phase : Phase Account) : State Account Server :=
  { s with instances := Function.update s.instances i ⟨cached, some (r, phase)⟩ }

/-- The request of `i` is answered. -/
def State.respond (s : State Account Server) (i : Server) (cached : Option Account)
    (response : Response Account) : State Account Server :=
  { s with
    instances := Function.update s.instances i ⟨cached, none⟩
    responses := s.responses ++ [response] }

/-! ### Loading -/

/-- The bucket is there: `create_bucket` refuses, and a delete goes on. -/
def present (s : State Account Server) (i : Server) (r : Request Account) (owner : Account) :
    State Account Server :=
  match r.api with
  | .putBucket =>
    s.respond i (some owner)
      (.error r.account
        (if r.account = owner then .BucketAlreadyOwnedByYou else .BucketAlreadyExists))
  | .deleteBucket => s.await i (some owner) r (.emptyBucket owner)

/-- The bucket is not there: `create_bucket` saves it, and a delete fails. -/
def missing (s : State Account Server) (i : Server) (r : Request Account) :
    State Account Server :=
  match r.api with
  | .putBucket => s.await i none r .saveGlobalBucketAccountIdInfo
  | .deleteBucket => s.respond i none (.error r.account .NoSuchBucket)

def fetchGlobalBucketAccountIdInfo (s : State Account Server) (i : Server) (r : Request Account)
    (reply : Reply) : State Account Server :=
  if reply = .ok then
    match s.globalBucketList with
    | some owner => s.await i none r (.loadBucketInfo owner)
    | none => missing s i r
  else s.respond i none (.error r.account reply.code)

def loadBucketInfo (s : State Account Server) (i : Server) (r : Request Account)
    (owner : Account) (reply : Reply) : State Account Server :=
  if reply = .ok then
    if s.bucketMetadataList owner then present s i r owner else missing s i r
  else s.respond i none (.error r.account reply.code)

/-! ### Saving -/

/-- The put of the global entry overwrites what is there. -/
def saveGlobalBucketAccountIdInfo (s : State Account Server) (i : Server) (r : Request Account)
    (reply : Reply) : State Account Server :=
  if reply = .ok then
    { s with globalBucketList := some r.account }.await i none r (.createIndex .objectList 0)
  else s.respond i none (.error r.account reply.code)

/-- The call after an index was created.  The count of collisions starts anew only after the first. -/
def afterIndex : Index → Nat → Phase Account
  | .objectList, _ => .createIndex .multipart 0
  | .multipart, n => .createIndex .objectsVersionList n
  | .objectsVersionList, n => .createIndex .extendedMetadata n
  | .extendedMetadata, _ => .saveBucketInfo

/-- An index that exists is a collision, and another name is tried (`handle_collision`).  After too many
of them the save has failed, and the global entry stays.  For the extended metadata index there is
only one name. -/
def createIndex (s : State Account Server) (i : Server) (r : Request Account) (index : Index)
    (attempts : Nat) (reply : Reply) : State Account Server :=
  match reply with
  | .ok => s.await i none r (afterIndex index attempts)
  | .exists =>
    if index = .extendedMetadata then s.await i none r (.cleanupOnCreateErr .InternalError)
    else if attempts < maxCollisionRetryCount then
      s.await i none r (.createIndex index (attempts + 1))
    else s.respond i none (.error r.account .InternalError)
  | _ => s.await i none r (.cleanupOnCreateErr reply.code)

def saveBucketInfo (s : State Account Server) (i : Server) (r : Request Account) (reply : Reply) :
    State Account Server :=
  if reply = .ok then
    { s with bucketMetadataList := Function.update s.bucketMetadataList r.account true }.respond i
      (some r.account) (.created r.account)
  else s.await i none r (.cleanupOnCreateErr reply.code)

/-- The global entry is removed, whosever it is, and the request fails also when that fails. -/
def cleanupOnCreateErr (s : State Account Server) (i : Server) (r : Request Account)
    (code : S3ErrorCode) (reply : Reply) : State Account Server :=
  if reply = .ok then
    { s with globalBucketList := none }.respond i none (.error r.account code)
  else s.respond i none (.error r.account code)

/-! ### Removing -/

def emptyBucket (s : State Account Server) (i : Server) (r : Request Account) (owner : Account)
    (reply : Reply) : State Account Server :=
  if reply = .ok then s.await i (some owner) r (.removeBucketInfo owner)
  else s.respond i (some owner) (.error r.account reply.code)

def removeBucketInfo (s : State Account Server) (i : Server) (r : Request Account)
    (owner : Account) (reply : Reply) : State Account Server :=
  if reply = .ok ∧ s.bucketMetadataList owner = true then
    { s with bucketMetadataList := Function.update s.bucketMetadataList owner false }.await i
      (some owner) r (.removeGlobalBucketAccountIdInfo owner)
  else s.respond i none (.error r.account reply.code)

/-- The global entry is removed, whosever it is. -/
def removeGlobalBucketAccountIdInfo (s : State Account Server) (i : Server)
    (r : Request Account) (owner : Account) (reply : Reply) : State Account Server :=
  if reply = .ok ∧ s.globalBucketList ≠ none then
    { s with globalBucketList := none }.respond i none (.deleted r.account owner)
  else s.respond i none (.error r.account reply.code)

/-! ### The machine -/

/-- The call that `i` waits for was answered. -/
def onReply (s : State Account Server) (i : Server) (r : Request Account) (reply : Reply) :
    Phase Account → State Account Server
  | .fetchGlobalBucketAccountIdInfo => fetchGlobalBucketAccountIdInfo s i r reply
  | .loadBucketInfo owner => loadBucketInfo s i r owner reply
  | .saveGlobalBucketAccountIdInfo => saveGlobalBucketAccountIdInfo s i r reply
  | .createIndex index attempts => createIndex s i r index attempts reply
  | .saveBucketInfo => saveBucketInfo s i r reply
  | .cleanupOnCreateErr code => cleanupOnCreateErr s i r code reply
  | .emptyBucket owner => emptyBucket s i r owner reply
  | .removeBucketInfo owner => removeBucketInfo s i r owner reply
  | .removeGlobalBucketAccountIdInfo owner => removeGlobalBucketAccountIdInfo s i r owner reply

def step (s : State Account Server) (e : Event Account Server) : Option (State Account Server) :=
  let inst := s.instances e.server
  match e.action, inst.request with
  | .receive r, none => some (s.await e.server inst.cached r .fetchGlobalBucketAccountIdInfo)
  | .cacheHit, some (r, .fetchGlobalBucketAccountIdInfo) =>
    inst.cached.map (present s e.server r)
  | .reply reply, some (r, phase) => some (onReply s e.server r reply phase)
  | .refuse code, some (r, .emptyBucket owner) =>
    some (s.respond e.server (some owner) (.error r.account code))
  | _, _ => none

/-- Before the first request. -/
def start : State Account Server := {}

/-- Account `a` was told that it created the bucket, and not that the bucket was deleted after it. -/
def Told (responses : List (Response Account)) (a : Account) : Prop :=
  ∃ before after, responses = before ++ .created a :: after ∧ ∀ b, .deleted b a ∉ after

end S3BucketMetadataV1

end CortxS3
