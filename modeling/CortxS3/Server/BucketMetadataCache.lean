/-
The cache of bucket metadata, `S3BucketMetadataCache`.

An entry of the cache (`Item`) has a value and up to two Motr operations in flight: a load and
a modification (save, update or remove).  Requests come in as calls and are answered through
the handlers they bring; the operations end whenever Motr ends them.

The server is single-threaded, so all of this is one machine driven by events.  But `on_done`
runs handlers, and a handler may call the cache again before it returns.  So `on_done` stops at
every handler it calls (`Control`), the calls the handler makes are events like all others, and
`resume` is the handler returning.  Operations are ended by the event loop, never from inside a
call, so they end only when no `on_done` is under way.

The asserts of the source are compiled out of a production server.  Here a failed one leaves a
`Fault` behind and the code runs on; where it would then follow a null pointer, call an empty
handler or touch a destroyed entry, the machine has crashed and takes no more events.  An entry
destroyed with an operation in flight is reported by the source as fatal, and ends the run as
well.

Four fields are not in the source and no code reads them: `launchedAt`, `modifiedAt` and
`savedAt` date the operations, by the number of events so far, and `destroyed` are the entries
that were destroyed, as they were then.
-/
import CortxS3.Basic
import CortxS3.Lib.Runs

namespace CortxS3

inductive S3BucketMetadataState where
  | empty
  | present
  | missing
  | failed
  | failedToLaunch
deriving DecidableEq

/-- The metadata of a bucket; `content` is all of it that the cache does not look at. -/
structure S3BucketMetadata where
  bucketName : Bytes
  state : S3BucketMetadataState := .empty
  content : Bytes := []
deriving DecidableEq

namespace S3BucketMetadataCache

inductive EngineOp where
  | load
  | save
  | update
  | remove
deriving DecidableEq

/-- An operation in flight, an `S3BucketMetadataV1`. -/
structure Engine where
  op : EngineOp
  metadata : S3BucketMetadata
  launchedAt : Nat
deriving DecidableEq

inductive CurrentOp where
  | none
  | fetching
  | saving
  | deleting
deriving DecidableEq

/-- The handler of a request. -/
abbrev Handler := Nat

structure Item where
  /-- Which entry this is: two entries for one bucket, one after the other, are not the same. -/
  id : Nat
  value : S3BucketMetadata
  updateTime : Int := 0
  accessTime : Int := 0
  currentOp : CurrentOp := .none
  onChanged : Option Handler := none
  fetchWaiters : List Handler := []
  engineModify : Option Engine := none
  engineLoad : Option Engine := none
  /-- When a save, an update or a remove last ended. -/
  modifiedAt : Option Nat := none
  /-- When a save or an update last ended well. -/
  savedAt : Option Nat := none
deriving DecidableEq

def Item.canRemove (it : Item) : Bool := it.engineLoad.isNone && it.engineModify.isNone

/-- A handler that was called, and what with. -/
structure Answer where
  handler : Handler
  state : S3BucketMetadataState
  value : Option S3BucketMetadata
deriving DecidableEq

/-- What ought not to happen: an assertion of `on_load` or `on_done` fails, or a value is
replaced by one that was loaded before it was saved. -/
inductive Fault where
  | noEngineLoad
  | noCurrentOp
  | noEngineModify
  | noOnChanged
  | staleLoad
deriving DecidableEq

/-- Where `on_done` stands while a handler runs.  It is the `on_done` of the entry `id` of
`bucket`, for the operation `op` that ended with `state`. -/
inductive Control where
  | idle
  /-- In the loop over the waiting fetches, at the call of one of them. -/
  | waiters (bucket : Bytes) (id : Nat) (op : CurrentOp) (state : S3BucketMetadataState)
  /-- At the call of `on_changed`. -/
  | changed (bucket : Bytes) (id : Nat) (op : CurrentOp) (state : S3BucketMetadataState)
deriving DecidableEq

end S3BucketMetadataCache

open S3BucketMetadataCache in
structure S3BucketMetadataCache where
  maxCacheSize : Nat
  expireIntervalSec : Nat
  refreshIntervalSec : Nat
  disabled : Bool := false
  items : AList fun _ : Bytes => Item := ∅
  sortedByAccess : List Bytes := []
  sortedByUpdate : List Bytes := []
  nextId : Nat := 0
  control : Control := .idle
  /-- How many events there have been. -/
  clock : Nat := 0
  answers : List Answer := []
  faults : List Fault := []
  destroyed : List Item := []
  crashed : Bool := false

namespace S3BucketMetadataCache

def put (c : S3BucketMetadataCache) (bucket : Bytes) (it : Item) : S3BucketMetadataCache :=
  { c with items := c.items.insert bucket it }

def answer (c : S3BucketMetadataCache) (h : Handler) (state : S3BucketMetadataState)
    (value : Option S3BucketMetadata) : S3BucketMetadataCache :=
  { c with answers := c.answers ++ [⟨h, state, value⟩] }

/-- `assert(ok)`. -/
def assert (c : S3BucketMetadataCache) (ok : Bool) (f : Fault) : S3BucketMetadataCache :=
  if ok then c else { c with faults := c.faults ++ [f] }

def crash (c : S3BucketMetadataCache) : S3BucketMetadataCache := { c with crashed := true }

/-! ### The containers -/

/-- `duration_cast<seconds>`. -/
def seconds (nanoseconds : Int) : Int := Int.tdiv nanoseconds 1000000000

/-- `remove_item`.  The destructor of the entry calls it fatal when an operation is in
flight. -/
def removeItem (c : S3BucketMetadataCache) (bucket : Bytes) : S3BucketMetadataCache :=
  match c.items.lookup bucket with
  | none => c.crash
  | some it =>
    let c := { c with
      sortedByAccess := c.sortedByAccess.erase bucket
      sortedByUpdate := c.sortedByUpdate.erase bucket
      items := c.items.erase bucket
      destroyed := c.destroyed ++ [it] }
    if it.canRemove then c else c.crash

/-- The first loop of `shrink`, from the back of `sorted_by_update`. -/
def expiredItem (c : S3BucketMetadataCache) (now : Int) : List Bytes → Option Bytes
  | [] => none
  | bucket :: rest =>
    match c.items.lookup bucket with
    | none => none
    | some it =>
      if seconds (now - it.updateTime) < c.expireIntervalSec then none
      else if it.canRemove then some bucket
      else expiredItem c now rest

/-- The second loop of `shrink`, from the back of `sorted_by_access`. -/
def removableItem (c : S3BucketMetadataCache) : List Bytes → Option Bytes
  | [] => none
  | bucket :: rest =>
    match c.items.lookup bucket with
    | none => none
    | some it => if it.canRemove then some bucket else removableItem c rest

/-- `shrink`; no result when nothing could be removed. -/
def shrink (c : S3BucketMetadataCache) (now : Int) : Option S3BucketMetadataCache :=
  match expiredItem c now c.sortedByUpdate.reverse with
  | some bucket => some (c.removeItem bucket)
  | none => (removableItem c c.sortedByAccess.reverse).map c.removeItem

/-- The entry of a bucket that is in the map, or a new one. -/
def touchItem (c : S3BucketMetadataCache) (src : S3BucketMetadata) (now : Int) :
    S3BucketMetadataCache × Item :=
  match c.items.lookup src.bucketName with
  | some it =>
    let it := { it with accessTime := now }
    ({ c.put src.bucketName it with
      sortedByAccess := src.bucketName :: c.sortedByAccess.erase src.bucketName }, it)
  | none =>
    let it : Item := { id := c.nextId, value := src, accessTime := now }
    ({ c.put src.bucketName it with
      nextId := c.nextId + 1
      sortedByAccess := src.bucketName :: c.sortedByAccess
      sortedByUpdate := c.sortedByUpdate ++ [src.bucketName] }, it)

/-- `get_item`; no result when the cache is full and nothing can be removed.  An entry that is
there and is then removed to make room would be a null pointer. -/
def getItem (c : S3BucketMetadataCache) (src : S3BucketMetadata) (now : Int) :
    Option (S3BucketMetadataCache × Item) :=
  let isNew := (c.items.lookup src.bucketName).isNone
  if c.maxCacheSize < c.items.entries.length + (if isNew then 1 else 0) then
    match c.shrink now with
    | none => none
    | some c =>
      if !isNew && (c.items.lookup src.bucketName).isNone then
        some ((c.touchItem src now).1.crash, (c.touchItem src now).2)
      else some (c.touchItem src now)
  else some (c.touchItem src now)

def updated (c : S3BucketMetadataCache) (bucket : Bytes) : S3BucketMetadataCache :=
  { c with sortedByUpdate := bucket :: c.sortedByUpdate.erase bucket }

/-! ### Calls -/

/-- `Item::fetch`. -/
def itemFetch (c : S3BucketMetadataCache) (bucket : Bytes) (it : Item) (onFetch : Handler) :
    S3BucketMetadataCache :=
  let it := { it with fetchWaiters := it.fetchWaiters ++ [onFetch] }
  let secondsLasted := seconds (it.accessTime - it.updateTime)
  if secondsLasted < c.expireIntervalSec ∧ !c.disabled ∧ it.value.state = .present ∧
      (secondsLasted < c.refreshIntervalSec ∨ 1 < it.fetchWaiters.length) then
    -- the oldest waiter is answered, which need not be this one
    (c.put bucket { it with fetchWaiters := it.fetchWaiters.tail }).answer
      (it.fetchWaiters.headD onFetch) .present (some it.value)
  else if it.engineModify.isSome || it.engineLoad.isSome then c.put bucket it
  else
    c.put bucket { it with
      engineLoad := some { op := .load, metadata := it.value, launchedAt := c.clock }
      currentOp := .fetching }

/-- `Item::save`, `Item::update` and `Item::remove`, which differ in the operation they launch. -/
def itemModify (c : S3BucketMetadataCache) (bucket : Bytes) (it : Item) (current : CurrentOp)
    (op : EngineOp) (src : S3BucketMetadata) (onDone : Handler) : S3BucketMetadataCache :=
  if it.engineModify.isSome then c.answer onDone .failedToLaunch none
  else
    c.put bucket { it with
      currentOp := current
      onChanged := some onDone
      engineModify := some { op := op, metadata := src, launchedAt := c.clock } }

def itemSave (c : S3BucketMetadataCache) (bucket : Bytes) (it : Item) (src : S3BucketMetadata)
    (onSave : Handler) : S3BucketMetadataCache :=
  c.itemModify bucket it .saving .save src onSave

def itemUpdate (c : S3BucketMetadataCache) (bucket : Bytes) (it : Item) (src : S3BucketMetadata)
    (onUpdate : Handler) : S3BucketMetadataCache :=
  c.itemModify bucket it .saving .update src onUpdate

def itemRemove (c : S3BucketMetadataCache) (bucket : Bytes) (it : Item)
    (onRemove : Handler) : S3BucketMetadataCache :=
  c.itemModify bucket it .deleting .remove it.value onRemove

/-- What all four calls of the cache have in common: find the entry, or refuse. -/
def withItem (c : S3BucketMetadataCache) (src : S3BucketMetadata) (now : Int)
    (refuse : S3BucketMetadataCache)
    (call : S3BucketMetadataCache → Item → S3BucketMetadataCache) : S3BucketMetadataCache :=
  match c.getItem src now with
  | some (c, it) => call c it
  | none => refuse

def fetch (c : S3BucketMetadataCache) (src : S3BucketMetadata) (onFetch : Handler) (now : Int) :
    S3BucketMetadataCache :=
  c.withItem src now (c.answer onFetch .failedToLaunch (some src))
    fun c it => c.itemFetch src.bucketName it onFetch

def save (c : S3BucketMetadataCache) (src : S3BucketMetadata) (onSave : Handler) (now : Int) :
    S3BucketMetadataCache :=
  c.withItem src now (c.answer onSave .failedToLaunch none)
    fun c it => c.itemSave src.bucketName it src onSave

def update (c : S3BucketMetadataCache) (src : S3BucketMetadata) (onUpdate : Handler) (now : Int) :
    S3BucketMetadataCache :=
  c.withItem src now (c.answer onUpdate .failedToLaunch none)
    fun c it => c.itemUpdate src.bucketName it src onUpdate

def remove (c : S3BucketMetadataCache) (src : S3BucketMetadata) (onRemove : Handler) (now : Int) :
    S3BucketMetadataCache :=
  c.withItem src now (c.answer onRemove .failedToLaunch none)
    fun c it => c.itemRemove src.bucketName it onRemove

/-! ### The end of an operation -/

/-- The engine is a load that was launched before the entry was last saved. -/
def Engine.stale (e : Engine) (it : Item) : Bool :=
  e.op == .load && it.savedAt.any fun t => e.launchedAt < t

/-- The entry once `on_done` has taken the engine's metadata over. -/
def Item.takeOver (it : Item) (e : Engine) (clock : Nat) (now : Int) : Item :=
  { it with
    currentOp := .none
    value := e.metadata
    engineModify := none
    updateTime := now
    modifiedAt := if e.op = .load then it.modifiedAt else some clock
    savedAt :=
      if (e.op = .save ∨ e.op = .update) ∧ e.metadata.state = .present then some clock
      else it.savedAt }

/-- The end of `on_done` removes the entry. -/
def Removes (op : CurrentOp) (state : S3BucketMetadataState) : Prop :=
  state = .failed ∨ state = .failedToLaunch ∨ op = .deleting
deriving Decidable

/-- The end of `on_done`. -/
def finishDone (c : S3BucketMetadataCache) (bucket : Bytes) (op : CurrentOp)
    (state : S3BucketMetadataState) : S3BucketMetadataCache :=
  let c := { c with control := .idle }
  if Removes op state then c.removeItem bucket else c

/-- The loop of `on_done` at its head: the next waiter is called, or what follows the loop. -/
def drain (c : S3BucketMetadataCache) (bucket : Bytes) (it : Item) (op : CurrentOp)
    (state : S3BucketMetadataState) : S3BucketMetadataCache :=
  match it.fetchWaiters with
  | w :: rest =>
    { (c.put bucket { it with fetchWaiters := rest }).answer w state (some it.value) with
      control := .waiters bucket it.id op state }
  | [] =>
    if op = .saving ∨ op = .deleting then
      let c := c.assert it.onChanged.isSome .noOnChanged
      match it.onChanged with
      | none => c.crash
      | some h =>
        { (c.put bucket { it with onChanged := none }).answer h state none with
          control := .changed bucket it.id op state }
    else c.finishDone bucket op state

/-- `on_done`, up to the first handler it calls. -/
def onDone (c : S3BucketMetadataCache) (bucket : Bytes) (it : Item) (now : Int) :
    S3BucketMetadataCache :=
  let c := c.assert (it.currentOp ≠ .none) .noCurrentOp
  let c := c.assert it.engineModify.isSome .noEngineModify
  match it.engineModify with
  | none => c.crash
  | some e =>
    let c := c.assert (!Engine.stale e it) .staleLoad
    let done := it.takeOver e c.clock now
    ((c.put bucket done).updated bucket).drain bucket done it.currentOp e.metadata.state

/-- `on_load`. -/
def onLoad (c : S3BucketMetadataCache) (bucket : Bytes) (it : Item) (now : Int) :
    S3BucketMetadataCache :=
  let c := c.assert it.engineLoad.isSome .noEngineLoad
  if it.engineModify.isSome then c.put bucket { it with engineLoad := none }
  else c.onDone bucket { it with engineModify := it.engineLoad, engineLoad := none } now

/-- A handler returns to `on_done`, whose entry may meanwhile have been destroyed.  Behind the
call of `on_changed` the entry is needed only to be removed. -/
def resume (c : S3BucketMetadataCache) : Option S3BucketMetadataCache :=
  match c.control with
  | .idle => none
  | .waiters bucket id op state =>
    match c.items.lookup bucket with
    | none => some c.crash
    | some it => if it.id = id then some (c.drain bucket it op state) else some c.crash
  | .changed bucket id op state =>
    if Removes op state then
      match c.items.lookup bucket with
      | none => some c.crash
      | some it => if it.id = id then some (c.finishDone bucket op state) else some c.crash
    else some (c.finishDone bucket op state)

/-! ### The machine -/

/-- What can happen.  A load or a modification ends with what its engine then holds. -/
inductive Event where
  | fetch (src : S3BucketMetadata) (h : Handler) (now : Int)
  | save (src : S3BucketMetadata) (h : Handler) (now : Int)
  | update (src : S3BucketMetadata) (h : Handler) (now : Int)
  | remove (src : S3BucketMetadata) (h : Handler) (now : Int)
  | loadDone (bucket : Bytes) (state : S3BucketMetadataState) (content : Bytes) (now : Int)
  | modifyDone (bucket : Bytes) (state : S3BucketMetadataState) (content : Bytes) (now : Int)
  | resume
deriving DecidableEq

/-- An engine that has ended. -/
def Engine.ended (e : Engine) (state : S3BucketMetadataState) (content : Bytes) : Engine :=
  { e with metadata := { e.metadata with state := state, content := content } }

/-- The entry of a bucket, when the event loop may end one of its operations. -/
def idleItem (c : S3BucketMetadataCache) (bucket : Bytes) : Option Item :=
  if c.control = .idle then c.items.lookup bucket else none

/-- What an event does. -/
def react (c : S3BucketMetadataCache) : Event → Option S3BucketMetadataCache
  | .fetch src h now => some (c.fetch src h now)
  | .save src h now => some (c.save src h now)
  | .update src h now => some (c.update src h now)
  | .remove src h now => some (c.remove src h now)
  | .loadDone bucket state content now =>
    match c.idleItem bucket with
    | none => none
    | some it =>
      match it.engineLoad with
      | none => none
      | some e =>
        some (c.onLoad bucket { it with engineLoad := some (e.ended state content) } now)
  | .modifyDone bucket state content now =>
    match c.idleItem bucket with
    | none => none
    | some it =>
      match it.engineModify with
      | none => none
      | some e =>
        some (c.onDone bucket { it with engineModify := some (e.ended state content) } now)
  | .resume => c.resume

/-- One event. -/
def step (c : S3BucketMetadataCache) (e : Event) : Option S3BucketMetadataCache :=
  if c.crashed then none else (c.react e).map fun c' => { c' with clock := c.clock + 1 }

/-- A cache as the server creates it. -/
def init (maxCacheSize expireIntervalSec refreshIntervalSec : Nat) : S3BucketMetadataCache :=
  { maxCacheSize := maxCacheSize
    expireIntervalSec := expireIntervalSec
    refreshIntervalSec := refreshIntervalSec }

end S3BucketMetadataCache

end CortxS3
