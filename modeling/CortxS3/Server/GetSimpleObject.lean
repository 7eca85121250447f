/-
Reading the data of an object that lies in one Motr object, `S3GetObjectAction`.

The path is that of `GetObjectAction`, without the list of objects.  The action works out how many blocks
the range needs, sets the reader to the start of the first one, and reads at most `motr_units_per_request`
blocks at a time; the first read of a long range may be shorter, so that the client gets its first byte
early.  The buffer is cut at the front of the first read and at the end of the range.

Every read is noted, with its index and its number of blocks.  The sums and products of the source are
taken not to wrap: a simple object has at most 5 GB, the unit size is an `int` and
`motr_units_per_request` an `unsigned short`.  Its differences of two counters could, and are `subSize`.
Throttling, shutdown and a lost connection are left out, as are failures of Motr.
-/
import CortxS3.Basic
import CortxS3.Lib.Until

namespace CortxS3

structure S3GetSimpleObject where
  /-- The bytes of the Motr object, the padding of its last unit included. -/
  object : Nat → UInt8
  contentLength : Nat
  motrUnitSize : Nat
  motrUnitsPerRequest : Nat
  motrFirstReadSize : Nat
  firstByteOffsetToRead : Nat
  lastByteOffsetToRead : Nat
  totalBlocksInObject : Nat
  totalBlocksToRead : Nat
  /-- Where the Motr reader stands. -/
  lastIndex : Nat
  blocksAlreadyRead : Nat := 0
  dataSentToClient : Nat := 0
  /-- Index and number of blocks of the reads so far. -/
  reads : List (Nat × Nat) := []
  /-- The bodies sent so far. -/
  body : Bytes := []

namespace S3GetSimpleObject

def getRequestedContentLength (a : S3GetSimpleObject) : Nat :=
  a.lastByteOffsetToRead - a.firstByteOffsetToRead + 1

/-- `set_total_blocks_to_read_from_object`. -/
def totalBlocksToReadFromObject (contentLength motrUnitSize totalBlocksInObject first last : Nat) :
    Nat :=
  if first = 0 ∧ last = contentLength - 1 then totalBlocksInObject
  else (last + motrUnitSize) / motrUnitSize - (first + motrUnitSize) / motrUnitSize + 1

/-- How many blocks `read_object_data` asks for. -/
def blocksToRead (a : S3GetSimpleObject) : Nat :=
  if a.blocksAlreadyRead = 0 ∧
      a.motrUnitsPerRequest * a.motrUnitSize < a.getRequestedContentLength then
    if a.motrUnitsPerRequest < a.motrFirstReadSize then a.motrUnitsPerRequest
    else a.motrFirstReadSize
  else if a.motrUnitsPerRequest < subSize a.totalBlocksToRead a.blocksAlreadyRead then
    a.motrUnitsPerRequest
  else subSize a.totalBlocksToRead a.blocksAlreadyRead

/-- So many bytes of an object from an index on. -/
def bytesOf (object : Nat → UInt8) (index length : Nat) : Bytes :=
  (List.range length).map fun j => object (index + j)

/-- What of a buffer of `blocks` blocks is sent. -/
def bytesToSend (a : S3GetSimpleObject) (blocks : Nat) (evbuffer : Bytes) : Bytes :=
  let readDataStartOffset := a.firstByteOffsetToRead % a.motrUnitSize
  let lengthInEvbuf :=
    if a.dataSentToClient = 0 ∧ readDataStartOffset ≠ 0 then
      (evbuffer.drop readDataStartOffset).length
    else blocks * a.motrUnitSize
  let evbuffer :=
    if a.dataSentToClient = 0 ∧ readDataStartOffset ≠ 0 then evbuffer.drop readDataStartOffset
    else evbuffer
  if a.getRequestedContentLength ≤ a.dataSentToClient + lengthInEvbuf ∨
      a.getRequestedContentLength ≤ evbuffer.length then
    evbuffer.take (subSize a.getRequestedContentLength a.dataSentToClient)
  else evbuffer

/-- `send_data_to_client`, for a read of `blocks` blocks. -/
def sendDataToClient (a : S3GetSimpleObject) (blocks : Nat) (evbuffer : Bytes) :
    Until.Outcome S3GetSimpleObject S3GetSimpleObject :=
  let sent := a.bytesToSend blocks evbuffer
  let a := { a with
    blocksAlreadyRead := (a.blocksAlreadyRead + blocks) % sizeMod
    dataSentToClient := a.dataSentToClient + sent.length
    body := a.body ++ sent }
  if a.dataSentToClient ≠ a.getRequestedContentLength then .next a else .done a

/-- `read_object_data`, with the read it launches and the callback of it. -/
def readObjectData (a : S3GetSimpleObject) : Until.Outcome S3GetSimpleObject S3GetSimpleObject :=
  if a.blocksAlreadyRead ≠ a.totalBlocksToRead then
    let blocks := a.blocksToRead
    let length := blocks * a.motrUnitSize
    if 0 < blocks then
      sendDataToClient
        { a with
          lastIndex := a.lastIndex + length
          reads := a.reads ++ [(a.lastIndex, blocks)] }
        blocks (bytesOf a.object a.lastIndex length)
    else .done a
  else .done a

/-- `read_object`, after `validate_object_info` has counted the blocks of the object. -/
def readObject (object : Nat → UInt8) (contentLength motrUnitSize unitsPerRequest firstReadSize
    first last : Nat) : S3GetSimpleObject :=
  let totalBlocksInObject := (contentLength + (motrUnitSize - 1)) / motrUnitSize
  { object := object
    contentLength := contentLength
    motrUnitSize := motrUnitSize
    motrUnitsPerRequest := unitsPerRequest
    motrFirstReadSize := firstReadSize
    firstByteOffsetToRead := first
    lastByteOffsetToRead := last
    totalBlocksInObject := totalBlocksInObject
    totalBlocksToRead :=
      totalBlocksToReadFromObject contentLength motrUnitSize totalBlocksInObject first last
    lastIndex := first - first % motrUnitSize }

/-- The blocks of a read. -/
def blocksOf (motrUnitSize : Nat) (read : Nat × Nat) : List Nat :=
  List.range' (read.1 / motrUnitSize) read.2

end S3GetSimpleObject

end CortxS3
