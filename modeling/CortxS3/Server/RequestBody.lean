/-
How the body of a request comes in: the part of `RequestObject` that buffers it.

The body arrives in buffers.  `notify_incoming_data` puts them into a container that is freezed with the
last byte, and calls back whoever listens once enough is there.  The socket can be paused.  While more
is expected from a client that is not paused, a timer runs; when it fires, or when memory runs short, a
read error is set, and from then on data is dropped.

The container is modelled by the number of bytes in it.  All its buffers but the last have one size, and
a buffer of another size is refused, so that a number of bytes is a number of buffers.

The client stays connected.  Only `process_request_data` hands data over: nothing comes in while the
request is paused, and nothing that is ignored does anything.
-/
import CortxS3.Basic
import CortxS3.Lib.Runs

namespace CortxS3

/-- `s3_client_read_error`. -/
inductive ReadError where
  | requestTimeout
  | serviceUnavailable
deriving DecidableEq

/-- What of the configuration and of the headers matters. -/
structure BodyConfig where
  /-- `get_data_length`. -/
  dataLength : Nat
  /-- `size_of_each_evbuf`. -/
  sizeOfEachEvbuf : Nat
  readAheadMultiple : Nat
  readAheadMultiple_pos : 0 < readAheadMultiple

structure RequestBody where
  pendingInFlight : Nat
  /-- `buffered_input->get_content_length()`. -/
  contentLength : Nat := 0
  isFreezed : Bool
  /-- `incoming_data_callback` is set, with this `notify_read_watermark`. -/
  listener : Option Nat := none
  isPaused : Bool := false
  ignoreIncomingData : Bool := false
  /-- `client_read_timer_event` is pending. -/
  readTimer : Bool := false
  readError : Option ReadError := none
deriving DecidableEq

namespace RequestBody

/-- `initialise`, and the timer that `dispatch_s3_api_request` sets. -/
def initialise (c : BodyConfig) : RequestBody where
  pendingInFlight := c.dataLength
  isFreezed := c.dataLength = 0
  readTimer := c.dataLength ≠ 0

def hasAllBodyContent (b : RequestBody) : Bool := b.pendingInFlight = 0

def isS3ClientReadError (b : RequestBody) : Bool := b.readError.isSome

def setStartClientRequestReadTimeout (b : RequestBody) : RequestBody :=
  if b.isS3ClientReadError then b else { b with readTimer := true }

def pause (b : RequestBody) : RequestBody :=
  if b.isS3ClientReadError then b
  else if b.isPaused then b
  else { b with isPaused := true, readTimer := false }

def resume (b : RequestBody) (setReadTimer : Bool := true) : RequestBody :=
  if b.isPaused then
    let b := { b with readTimer := false, isPaused := false }
    if setReadTimer then b.setStartClientRequestReadTimeout else b
  else b

def stopProcessingIncomingData (b : RequestBody) : RequestBody :=
  { b with readTimer := false, ignoreIncomingData := true }

/-- What `send_response` does to the body. -/
def sendResponse (b : RequestBody) : RequestBody :=
  b.stopProcessingIncomingData.resume false

/-- `add_content` of the container, for a PUT.  `none` stands for a buffer of the wrong size. -/
def addContent (c : BodyConfig) (b : RequestBody) (len : Nat) (isLastBuf : Bool) :
    Option RequestBody :=
  if isLastBuf then some { b with contentLength := b.contentLength + len, isFreezed := true }
  else if len ≠ c.sizeOfEachEvbuf then none
  else some { b with contentLength := b.contentLength + len }

/-- The buffers of one notification are added one by one, with the bytes received so far; after an error
the rest is freed.  The result says whether there was one. -/
def addBuffers (c : BodyConfig) (pending : Nat) :
    List Nat → RequestBody → Nat → RequestBody × Nat × Bool
  | [], b, received => (b, received, false)
  | len :: rest, b, received =>
    match b.addContent c len (pending = received + len) with
    | none => (b, received + len, true)
    | some b => addBuffers c pending rest b (received + len)

/-- `pending_in_flight` after the buffers, and the freeze with the last byte. -/
def received (b : RequestBody) (bytes : Nat) (failed : Bool) : RequestBody :=
  let failed := failed || b.pendingInFlight < bytes
  let b := { b with pendingInFlight := b.pendingInFlight - bytes }
  let b := if b.pendingInFlight = 0 then { b with isFreezed := true } else b
  if failed then { b with ignoreIncomingData := true, readError := some .serviceUnavailable } else b

/-- `notify_incoming_data` up to the callback, and whether there is one.  The buffers are what arrived, or
for an upload in chunks what the parser made of it. -/
def notifyIncomingData (c : BodyConfig) (b : RequestBody) (bufs : List Nat)
    (memoryAboveThreshold : Bool) : RequestBody × Bool :=
  if !memoryAboveThreshold then
    ({ b with ignoreIncomingData := true, readError := some .serviceUnavailable },
      b.listener.isSome)
  else if b.isS3ClientReadError then (b, false)
  else
    let (b', bytes, failed) := addBuffers c b.pendingInFlight bufs b 0
    let b' := b'.received bytes failed
    match b'.listener with
    | some watermark =>
      (b', watermark ≤ b'.contentLength || b'.pendingInFlight = 0 || b'.isS3ClientReadError)
    | none => (b', false)

/-- The rest of it, after the callback. -/
def notified (c : BodyConfig) (b : RequestBody) : RequestBody :=
  if b.isS3ClientReadError then b
  else
    let b :=
      -- nobody has set a watermark yet
      if b.listener.isNone && !b.isFreezed && 0 * c.readAheadMultiple ≤ b.contentLength then b.pause
      else b
    if !b.isPaused && !b.isFreezed then b.setStartClientRequestReadTimeout else b

/-- `trigger_client_read_timeout_callback`, and whether somebody is called back. -/
def triggerClientReadTimeout (b : RequestBody) : RequestBody × Bool :=
  ({ b with readError := some .requestTimeout, readTimer := false, isFreezed := true },
    b.listener.isSome)

/-- `listen_for_incoming_data`, when there is no read error. -/
def listenForIncomingData (b : RequestBody) (notifyOnSize : Nat) : RequestBody :=
  { b with listener := some notifyOnSize }.resume

/-- `get_buffers` hands out this many bytes and takes them out of the container. -/
def getBuffers (b : RequestBody) (expectedContentSize : Nat) : RequestBody :=
  { b with contentLength := b.contentLength - expectedContentSize }

end RequestBody

end CortxS3
