/-
The body of a request on its way to Motr, `S3AsyncBufferOptContainer`.

Here a buffer is handed out whole, so what is asked for is turned into a number of buffers.  All
buffers have one size, except that the last may be shorter; `add_content` refuses others, but for
the first of a request that is no PUT.  A buffer that was handed out stays in `processing_q` until
`flush_used_buffers` frees it.

`none` stands for an assertion that fails.
-/
import CortxS3.Server.AsyncBuffer
import CortxS3.Lib.Runs

namespace CortxS3

structure S3AsyncBufferOptContainer where
  /-- Buffers that are ready for use. -/
  readyQ : List EvBuffer := []
  /-- Buffers given out for consumption. -/
  processingQ : List EvBuffer := []
  contentLength : Nat := 0
  isExpectingMore : Bool := true
  countBufsSharedForRead : Nat := 0

namespace S3AsyncBufferOptContainer

def freeze (c : S3AsyncBufferOptContainer) : S3AsyncBufferOptContainer :=
  { c with isExpectingMore := false }

def isFreezed (c : S3AsyncBufferOptContainer) : Bool := !c.isExpectingMore

def pushReady (c : S3AsyncBufferOptContainer) (buf : EvBuffer) : S3AsyncBufferOptContainer :=
  { c with readyQ := c.readyQ ++ [buf], contentLength := c.contentLength + buf.length }

/-- `add_content`, and whether it has taken the buffer. -/
def addContent (sizeOfEachEvbuf : Nat) (c : S3AsyncBufferOptContainer) (buf : EvBuffer)
    (isFirstBuf isLastBuf isPutRequest : Bool) : Bool × S3AsyncBufferOptContainer :=
  if isLastBuf then (true, c.freeze.pushReady buf)
  else if sizeOfEachEvbuf ≠ buf.length ∧ (isPutRequest ∨ (!isPutRequest ∧ !isFirstBuf)) then
    (false, c)
  else (true, c.pushReady buf)

/-- One buffer after another is freed, and taken off the count. -/
def flushUsedBuffers (c : S3AsyncBufferOptContainer) : S3AsyncBufferOptContainer :=
  { c with
    processingQ := []
    countBufsSharedForRead :=
      c.processingQ.foldl (fun count _ => subSize count 1) c.countBufsSharedForRead }

/-- The loop of `get_buffers` that moves buffers over to `processing_q`. -/
def handOut : Nat → S3AsyncBufferOptContainer → List Bytes →
    Option (List Bytes × S3AsyncBufferOptContainer)
  | 0, c, bufferSequence => some (bufferSequence, c)
  | count + 1, c, bufferSequence =>
    match c.readyQ with
    | [] => none
    | buf :: rest =>
      handOut count { c with
        readyQ := rest
        processingQ := c.processingQ ++ [buf]
        contentLength := c.contentLength - buf.length } (bufferSequence ++ buf.extents)

/-- How many buffers are handed out for a size.  When all data are there the last may be shorter. -/
def bufferCount (sizeOfEachEvbuf : Nat) (c : S3AsyncBufferOptContainer)
    (expectedContentSize : Nat) : Nat :=
  let count := expectedContentSize / sizeOfEachEvbuf
  if !c.isExpectingMore ∧ expectedContentSize % sizeOfEachEvbuf ≠ 0 then count + 1 else count

/-- What was handed out before is freed, and the count begins anew. -/
def startOver (c : S3AsyncBufferOptContainer) : S3AsyncBufferOptContainer :=
  { (if c.processingQ = [] then c else c.flushUsedBuffers) with countBufsSharedForRead := 0 }

def getBuffers (sizeOfEachEvbuf : Nat) (c : S3AsyncBufferOptContainer)
    (expectedContentSize : Nat) : Option (List Bytes × S3AsyncBufferOptContainer) :=
  let c := c.startOver
  if expectedContentSize ≤ c.contentLength ∨ !c.isExpectingMore then
    let count := c.bufferCount sizeOfEachEvbuf expectedContentSize
    if count ≤ c.readyQ.length then
      handOut count { c with countBufsSharedForRead := count } []
    else none
  else some ([], c)

/-! ### What callers do with it -/

inductive Call where
  | addContent (buf : EvBuffer) (isFirstBuf isLastBuf isPutRequest : Bool)
  | getBuffers (expectedContentSize : Nat)
  | flushUsedBuffers
  | freeze

/-- A container, with all that was added to it and all that it has handed out. -/
structure Session where
  container : S3AsyncBufferOptContainer := {}
  added : List Bytes := []
  handedOut : List Bytes := []

def Session.step (sizeOfEachEvbuf : Nat) (s : Session) : Call → Option Session
  | .addContent buf isFirstBuf isLastBuf isPutRequest =>
    let (taken, c) := s.container.addContent sizeOfEachEvbuf buf isFirstBuf isLastBuf isPutRequest
    some { s with
      container := c
      added := if taken then s.added ++ [buf.content] else s.added }
  | .getBuffers expectedContentSize =>
    (s.container.getBuffers sizeOfEachEvbuf expectedContentSize).map fun (bufferSequence, c) =>
      { s with container := c, handedOut := s.handedOut ++ bufferSequence }
  | .flushUsedBuffers => some { s with container := s.container.flushUsedBuffers }
  | .freeze => some { s with container := s.container.freeze }

/-- What the callers see to: nothing is added after the freeze, every buffer is full but the last,
and no more is asked for than there is. -/
def Allowed (sizeOfEachEvbuf : Nat) (s : Session) : Call → Prop
  | .addContent buf isFirstBuf isLastBuf isPutRequest =>
    s.container.isExpectingMore = true ∧
      if isLastBuf then buf.length ≤ sizeOfEachEvbuf
      else buf.length = sizeOfEachEvbuf ∨ isPutRequest = true ∨ isFirstBuf = false
  | .getBuffers expectedContentSize => expectedContentSize ≤ s.container.contentLength
  | .flushUsedBuffers => True
  | .freeze => True

instance instDecidableAllowed (sizeOfEachEvbuf : Nat) (s : Session) (call : Call) :
    Decidable (Allowed sizeOfEachEvbuf s call) :=
  match call with
  | .addContent buf isFirstBuf isLastBuf isPutRequest =>
    inferInstanceAs (Decidable (s.container.isExpectingMore = true ∧
      if isLastBuf then buf.length ≤ sizeOfEachEvbuf
      else buf.length = sizeOfEachEvbuf ∨ isPutRequest = true ∨ isFirstBuf = false))
  | .getBuffers expectedContentSize =>
    inferInstanceAs (Decidable (expectedContentSize ≤ s.container.contentLength))
  | .flushUsedBuffers => isTrue trivial
  | .freeze => isTrue trivial

end S3AsyncBufferOptContainer

end CortxS3
