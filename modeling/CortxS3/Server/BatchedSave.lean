/-
Pairs saved to an index, in batches when they are many.

`save_extended_metadata` of `S3ObjectExtendedMetadata` and `save_probable_list_metadata` of
`S3PostCompleteAction` are two copies of the same code.  Up to
`MAX_PUT_MULTIPART_EXTENDED_ENTRIES` pairs are put in one operation.  More are put by
`put_partial_keyval`, which takes the pairs from an offset on; its handler adds what was put to
`total_processed_count` and starts the next operation while that is below a bound.  The bound is the
number of parts in the one copy and the number of pairs in the other.

Every operation succeeds here.  The index has its identifier, the space that keeps a client
waiting is left out, and the action goes on when `success` is called.  An assertion that fails ends the
process.
-/
import CortxS3.Server.PostCompleteTasks
import CortxS3.Lib.Until

namespace CortxS3

namespace BatchedSave

abbrev KvList := List (Bytes × Bytes)

/-- What the save does, in order. -/
inductive Event where
  | putKeyval (pairs : KvList)
  /-- The pairs that are put, if the offset leads to any. -/
  | putPartialKeyval (offset howMany : Nat) (pairs : Option KvList)
  | success
deriving DecidableEq

/-- What it comes to. -/
inductive Ending where
  /-- Nothing is pending any more. -/
  | quiet
  | asserted
  /-- The offset is negative as an `int`: `std::advance` goes back from the first pair. -/
  | undefined
deriving DecidableEq

structure Result where
  events : List Event
  ending : Ending
deriving DecidableEq

structure State where
  totalProcessedCount : Nat := 0
  events : List Event := []

/-- `kv_to_be_processed`, an unsigned number of 32 bits. -/
def kvToBeProcessed (size totalProcessedCount : Nat) : Nat :=
  (size + (2 ^ 32 - totalProcessedCount)) % 2 ^ 32

/-- The pairs that `put_keyval_impl` puts. -/
def pairsFrom (keyValues : KvList) (offset howMany : Nat) : Option KvList :=
  if offset < 2 ^ 31 then some ((keyValues.drop offset).take howMany) else none

/-- The assertions of `put_partial_keyval`. -/
def asserts (keyValues : KvList) (offset howMany : Nat) : Bool :=
  howMany ≠ 0 ∧ offset < keyValues.length ∧ howMany ≤ keyValues.length ∧
    ∀ kv ∈ (keyValues.drop offset).take howMany, kv.1 ≠ []

/-- `save_partial_extended_metadata_successful` and
`save_partial_probable_list_metadata_successful`. -/
def savePartialSuccessful (bound processedCount : Nat) (s : State) :
    Until.Outcome State Result :=
  let s := { s with totalProcessedCount := (s.totalProcessedCount + processedCount) % 2 ^ 32 }
  if s.totalProcessedCount < bound then .next s
  else .done { events := s.events ++ [.success], ending := .quiet }

/-- `save_partial_extended_metadata` and `save_partial_probable_list_metadata`, up to the handler
of what they put. -/
def savePartial (keyValues : KvList) (bound : Nat) (s : State) : Until.Outcome State Result :=
  let howMany := S3PostCompleteAction.howManyKvToWrite keyValues.length s.totalProcessedCount
  let pairs := pairsFrom keyValues s.totalProcessedCount howMany
  let events := s.events ++ [.putPartialKeyval s.totalProcessedCount howMany pairs]
  if asserts keyValues s.totalProcessedCount howMany then
    if pairs.isSome then savePartialSuccessful bound howMany { s with events := events }
    else .done { events := events, ending := .undefined }
  else .done { events := events, ending := .asserted }

/-- The beginning of a save. -/
def save (keyValues : KvList) : Until.Outcome State Result :=
  if 0 < keyValues.length ∧ keyValues.length ≤ S3PostCompleteAction.maxPutMultipartExtendedEntries then
    .done { events := [.putKeyval keyValues, .success], ending := .quiet }
  else if keyValues.length > S3PostCompleteAction.maxPutMultipartExtendedEntries then .next {}
  else .done { events := [], ending := .quiet }

/-- What a save of the pairs comes to. -/
def Saves (keyValues : KvList) (bound : Nat) (w : Result) : Prop :=
  (save keyValues).Ends (savePartial keyValues bound) w

/-- `S3ObjectExtendedMetadata::save_extended_metadata`. -/
def SavesExtendedMetadata (codec : JsonCodec) (m : S3ObjectExtendedMetadata) (w : Result) : Prop :=
  Saves (m.getKvListOfExtendedEntries codec) m.extObjects.length w

/-- `S3PostCompleteAction::save_probable_list_metadata`, where `total_keys` is an unsigned number of
32 bits. -/
def SavesProbableListMetadata (kvList : KvList) (w : Result) : Prop :=
  Saves kvList (kvList.length % 2 ^ 32) w

end BatchedSave

end CortxS3
