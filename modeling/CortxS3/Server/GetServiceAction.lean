/-
Listing the buckets of an account, `S3GetServiceAction`.

The metadata of all buckets lies in one index, under the id of the account, a slash and the name of
the bucket.  The action reads it in batches with NEXT, beginning behind the requestor's prefix, and
stops at a key in which the prefix does not occur.  A value that is no bucket metadata is passed
over; what reads the values is a parameter.

Left out are the shutdown of the server, the alert about such a value and the rendering of the
answer.
-/
import CortxS3.Server.GetBucketAction
import CortxS3.Lib.Until

namespace CortxS3

structure S3GetServiceAction (β : Type) where
  lastKey : Bytes := []
  keyPrefix : Bytes := []
  /-- The buckets of the `S3ServiceListResponse`. -/
  bucketList : List β := []

namespace S3GetServiceAction

variable {β : Type}

/-- `BUCKET_KVS_FETCH_COUNT`. -/
def bucketKvsFetchCount : Nat := 12

/-- What the client is sent. -/
inductive Answer (β : Type) where
  | buckets (bucketList : List β)
  | error (code : String)
deriving DecidableEq

def getSearchBucketPrefix (accountId : Bytes) : Bytes := accountId ++ ascii "/"

/-- Only a request with an authorization header gets so far. -/
def initialization (accountId : Bytes) : S3GetServiceAction β where
  keyPrefix := getSearchBucketPrefix accountId
  lastKey := getSearchBucketPrefix accountId

/-- What the loop over a batch works on: the action, the pairs left, and whether a key of another
account has come. -/
structure Batch (β : Type) where
  action : S3GetServiceAction β
  length : Nat
  retrivedAllKeys : Bool := false

/-- What the loop does with a key of the account. -/
def Batch.addBucket (fromJson : Bytes → Option β) (kv : KeyValue) (b : Batch β) : Batch β where
  action :=
    { b.action with
      bucketList := b.action.bucketList ++ (fromJson kv.2).toList
      -- the last element that was returned
      lastKey := if b.length - 1 = 0 then kv.1 else b.action.lastKey }
  length := b.length - 1
  retrivedAllKeys := b.retrivedAllKeys

/-- The loop of `get_next_buckets_successful`. -/
def batchLoop (fromJson : Bytes → Option β) : List KeyValue → Batch β → Batch β
  | [], b => b
  | kv :: rest, b =>
    if find b.action.keyPrefix kv.1 = none then { b with retrivedAllKeys := true }
    else batchLoop fromJson rest (b.addBucket fromJson kv)

def getNextBucketsSuccessful (fromJson : Bytes → Option β) (a : S3GetServiceAction β)
    (kvps : List KeyValue) : Until.Outcome (S3GetServiceAction β) (Answer β) :=
  let b := batchLoop fromJson kvps { action := a, length := kvps.length }
  if kvps.length < bucketKvsFetchCount ∨ b.retrivedAllKeys then .done (.buckets b.action.bucketList)
  else .next b.action

/-- A NEXT that finds nothing ends the listing well. -/
def getNextBucketsFailed (a : S3GetServiceAction β) : NextResult → Answer β
  | .missing => .buckets a.bucketList
  | .failedToLaunch => .error "ServiceUnavailable"
  | _ => .error "InternalError"

/-- One batch of an index that can be read. -/
def getNextBuckets (fromJson : Bytes → Option β) (index : List KeyValue)
    (a : S3GetServiceAction β) : Until.Outcome (S3GetServiceAction β) (Answer β) :=
  match nextKeyval index { key := a.lastKey, count := bucketKvsFetchCount, inclusive := false } with
  | .present kvps => getNextBucketsSuccessful fromJson a kvps
  | result => .done (getNextBucketsFailed a result)

end S3GetServiceAction

end CortxS3
