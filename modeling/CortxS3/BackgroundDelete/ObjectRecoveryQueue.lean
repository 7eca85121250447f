/-
How a probable-delete record comes to the background delete, `ObjectRecoveryScheduler` and
`ObjectRecoveryMsgbus`.

The producer runs again and again.  A run purges the topic, lists the first records of the
probable-delete index and sends those that are old enough.  The consumer takes a message, has it
processed, and acknowledges it whether or not that has worked; the record is still in the index then
and is to come back with a later run.

The S3 server writes and deletes records meanwhile, and every call may fail.  A message that has not
been acknowledged comes again when the consumer has been started again.  JSON and times are
parameters, a message is processed in one step, and the shutdown of the two services is left out.
-/
import CortxS3.BackgroundDelete.IndexLists

namespace CortxS3

namespace ObjectRecoveryQueue

open ObjectRecoveryValidator

/-- What `json.loads` makes of the value of a record. -/
inductive LeakValue where
  /-- No JSON, or none with a time that can be read. -/
  | unreadable
  | null
  /-- A record of the S3 server, with its time in seconds. -/
  | leak (createTimestamp : Int) (info : ProbableDeleteJson)

structure Config where
  loads : Bytes → LeakValue
  probableDeleteIndexId : Bytes
  maxKeys : Nat
  leakProcessingDelayInMins : Int

/-- A key and a value of the probable-delete index, as a message too. -/
abbrev Record := Bytes × Bytes

structure State where
  /-- The probable-delete index. -/
  index : List Record
  /-- The other indexes, and the objects deleted so far. -/
  store : Store
  topic : List Record := []
  /-- The messages that consumers have in hand. -/
  received : List Record := []

section

variable (c : Config)

/-! ### The producer -/

/-- `isObjectLeakEntryOlderThan`. -/
def isObjectLeakEntryOlderThan (now createTimestamp olderInMins : Int) : Bool :=
  (now - createTimestamp) / 60 ≥ olderInMins

/-- The loop of `add_kv_to_msgbus`.  The handler of a value that is no JSON adds the exception to a
text, which is an exception itself, and like all others it ends the run. -/
def sendRecords (now : Int) (sends : Bytes → Bool) : List Record → List Record
  | [] => []
  | record :: rest =>
    match c.loads record.2 with
    | .unreadable => []
    | .null => sendRecords now sends rest
    | .leak createTimestamp _ =>
      if isObjectLeakEntryOlderThan now createTimestamp c.leakProcessingDelayInMins &&
          sends record.1 then
        record :: sendRecords now sends rest
      else sendRecords now sends rest

/-- `add_kv_to_msgbus`.  The listing has no marker and no second page. -/
def addKvToMsgbus (now : Int) (purged listed : Bool) (sends : Bytes → Bool) (st : State) : State :=
  let topic := if purged then [] else st.topic
  { st with topic :=
      if listed then topic ++ sendRecords c now sends (listPage st.index [] c.maxKeys []).keys
      else topic }

/-! ### The consumer -/

/-- The indexes as the validator sees them. -/
def State.view (st : State) : Store :=
  { st.store with kv := fun i k =>
      if i = c.probableDeleteIndexId then SortedMap.get k st.index else st.store.kv i k }

/-- `__process_msg`.  What cannot be read is discarded. -/
def processMsg (api : Api) (message : Record) (st : State) : State :=
  match c.loads message.2 with
  | .leak _ info =>
    let store := processResults api c.probableDeleteIndexId message.1 info (st.view c)
    { st with
      index := st.index.filter fun record => (store.kv c.probableDeleteIndexId record.1).isSome
      store := store }
  | _ => st

/-! ### Together -/

inductive Event where
  /-- The S3 server writes a record, or deletes it. -/
  | put (key value : Bytes)
  | drop (key : Bytes)
  /-- The other indexes change. -/
  | change (kv : Bytes → Bytes → Option Bytes)
  | run (now : Int) (purged listed : Bool) (sends : Bytes → Bool)
  | receive (message : Record)
  | process (api : Api) (message : Record)
  | ack (message : Record)
  | restart

def step (st : State) : Event → Option State
  | .put key value => some { st with index := SortedMap.set key value st.index }
  | .drop key => some { st with index := st.index.filter (·.1 ≠ key) }
  | .change kv => some { st with store := { st.store with kv := kv } }
  | .run now purged listed sends => some (addKvToMsgbus c now purged listed sends st)
  | .receive message =>
    if message ∈ st.topic then some { st with received := message :: st.received } else none
  | .process api message => if message ∈ st.received then some (processMsg c api message st) else none
  | .ack message =>
    if message ∈ st.received then
      some { st with topic := st.topic.erase message, received := st.received.erase message }
    else none
  | .restart => some { st with received := [] }

end

end ObjectRecoveryQueue

end CortxS3
