/-
Reading the data of an object, `S3GetObjectAction`, for an object that lies in several Motr
objects: the parts of a multipart upload, or the fragments of a degraded write.

The action keeps a list of these objects.  For a range it finds the first and the last one that
it needs, works out how many blocks each has to give, and drops the others from the list.  Then it
reads block after block, each read at most `motr_units_per_request` units long.  Motr returns whole
units, so what is behind the end of an object is padding, and the buffer is cut before it is sent:
at the front of the first read, at the end of the range, and at the end of an object.

`readObjectData` is one round of this: it launches the read, sends what came back, and says whether
the next thing is another read, another object or the end of the reply.  Throttling, shutdown and a
lost connection are left out: the first delays the next round and the others end the reply early.

Block counters are `size_t` and `total_blocks_to_read - blocks_already_read` does wrap, so they are
kept modulo 2^64, and so is the question whether the reader stands at the start.  Offsets and
lengths are below the length of the object and do not wrap.
-/
import CortxS3.Basic
import CortxS3.Lib.Until

namespace CortxS3

/-- Size and unit size (that of the layout) of a part. -/
structure PartLayout where
  size : Nat
  unitSize : Nat
  size_pos : 0 < size
  unit_pos : 0 < unitSize

/-- The bytes of the Motr objects, padding included. -/
abbrev MotrObjects := Nat → Nat → UInt8

/-- `S3ExtendedObjectInfo`.  The layout is that of its unit size. -/
structure S3ExtendedObjectInfo where
  startOffsetInObject : Nat := 0
  totalBlocksInObject : Nat := 0
  objectSize : Nat := 0
  requestedObjectSize : Nat := 0
  totalReadableBlocks : Nat := 0
  objectOID : Nat := 0
  unitSize : Nat := 0
deriving Inhabited, DecidableEq

structure S3GetObjectAction where
  motr : MotrObjects
  motrUnitsPerRequest : Nat
  motrFirstReadSize : Nat
  firstByteOffsetToRead : Nat
  lastByteOffsetToRead : Nat
  extendedObjects : List S3ExtendedObjectInfo
  nextFragmentObject : Nat := 0
  blocksAlreadyRead : Nat := 0
  totalBlocksToRead : Nat := 0
  /-- Where the Motr reader stands, before it is cut to 64 bits. -/
  lastIndex : Nat := 0
  dataSentToClient : Nat := 0
  dataSentToClientForObject : Nat := 0
  /-- The bodies sent so far. -/
  body : Bytes := []

namespace S3GetObjectAction

/-! ### The objects to read -/

/-- The list made in `validate_object_info`: each object starts where the one before it ends. -/
def extendedObjectsFrom : Nat → Nat → List PartLayout → List S3ExtendedObjectInfo
  | _, _, [] => []
  | i, offset, p :: rest =>
    { startOffsetInObject := offset
      totalBlocksInObject := (p.size + (p.unitSize - 1)) / p.unitSize
      objectSize := p.size
      requestedObjectSize := p.size
      objectOID := i
      unitSize := p.unitSize } :: extendedObjectsFrom (i + 1) (offset + p.size) rest

/-- The first object from `start` on that ends behind an offset. -/
def objectIndex (objects : List S3ExtendedObjectInfo) (offset start dflt : Nat) : Nat :=
  match (objects.drop start).findIdx? fun o => offset < o.startOffsetInObject + o.objectSize with
  | some i => start + i
  | none => dflt

/-- The sizes and blocks wanted of the object at index `k`, when the range begins in the object at
`firstIndex` and ends in the one at `lastIndex`. -/
def updateForRange (first last firstIndex lastIndex k : Nat) (o : S3ExtendedObjectInfo) :
    S3ExtendedObjectInfo :=
  { o with
    requestedObjectSize :=
      if firstIndex = lastIndex then
        if k = firstIndex then last - first + 1 else o.requestedObjectSize
      else if k = firstIndex then o.objectSize - (first - o.startOffsetInObject) + 1
      else if k = lastIndex then last - o.startOffsetInObject + 1
      else o.requestedObjectSize
    totalReadableBlocks :=
      if k = firstIndex then
        o.totalBlocksInObject - (first - o.startOffsetInObject + o.unitSize) / o.unitSize + 1
      else if k = lastIndex then (last - o.startOffsetInObject + o.unitSize) / o.unitSize
      else if firstIndex ≤ k ∧ k ≤ lastIndex then o.totalBlocksInObject
      else o.totalReadableBlocks }

/-- `set_total_blocks_to_read_from_fragmented_object`. -/
def setTotalBlocksToReadFromFragmentedObject (objects : List S3ExtendedObjectInfo)
    (contentLength first last : Nat) : List S3ExtendedObjectInfo :=
  if first = 0 ∧ last = contentLength - 1 then
    objects.map fun o => { o with totalReadableBlocks := o.totalBlocksInObject }
  else
    let firstIndex := objectIndex objects first 0 0
    let lastIndex := objectIndex objects last firstIndex (objects.length - 1)
    -- the list is cut to the objects of the range
    ((objects.mapIdx (updateForRange first last firstIndex lastIndex)).drop firstIndex).take
      (lastIndex + 1 - firstIndex)

/-! ### Reading -/

def getRequestedContentLength (a : S3GetObjectAction) : Nat :=
  a.lastByteOffsetToRead - a.firstByteOffsetToRead + 1

/-- `extended_objects[next_fragment_object]`. -/
def currentObject (a : S3GetObjectAction) : S3ExtendedObjectInfo :=
  a.extendedObjects.getD a.nextFragmentObject default

/-- `read_fragmented_object`, up to the call of `read_object_data`. -/
def readFragmentedObject (a : S3GetObjectAction) : S3GetObjectAction :=
  let o := a.currentObject
  { a with
    blocksAlreadyRead := 0
    dataSentToClientForObject := 0
    totalBlocksToRead := o.totalReadableBlocks
    lastIndex :=
      if a.nextFragmentObject = 0 then
        ((a.firstByteOffsetToRead - o.startOffsetInObject + o.unitSize) / o.unitSize - 1) *
          o.unitSize
      else 0 }

/-- How many blocks `read_object_data` asks for. -/
def blocksToRead (a : S3GetObjectAction) : Nat :=
  let o := a.currentObject
  let blocks :=
    if a.blocksAlreadyRead = 0 ∧ a.nextFragmentObject = 0 ∧
        a.motrUnitsPerRequest * o.unitSize < a.getRequestedContentLength then
      if a.motrUnitsPerRequest < a.motrFirstReadSize then a.motrUnitsPerRequest
      else a.motrFirstReadSize
    else if a.motrUnitsPerRequest < subSize a.totalBlocksToRead a.blocksAlreadyRead then
      a.motrUnitsPerRequest
    else subSize a.totalBlocksToRead a.blocksAlreadyRead
  -- a first read behind the start of the object does not go beyond its end
  if a.blocksAlreadyRead = 0 ∧ a.lastIndex % sizeMod ≠ 0 ∧ o.totalReadableBlocks < blocks then
    o.totalReadableBlocks
  else blocks

/-- What Motr returns: so many bytes from an index on. -/
def motrRead (motr : MotrObjects) (oid index length : Nat) : Bytes :=
  (List.range length).map fun j => motr oid (index + j)

/-- The next object, or the end of the reply. -/
def readNextObject (a : S3GetObjectAction) : Until.Outcome S3GetObjectAction Bytes :=
  let a := { a with nextFragmentObject := a.nextFragmentObject + 1 }
  if a.nextFragmentObject < a.extendedObjects.length then .next a.readFragmentedObject
  else .done a.body

/-- What of a buffer is sent: without what is before the range, behind it, or behind the object. -/
def bytesToSend (a : S3GetObjectAction) (evbuffer : Bytes) : Bytes :=
  let o := a.currentObject
  let evbuffer :=
    if a.dataSentToClient = 0 then evbuffer.drop (a.firstByteOffsetToRead % o.unitSize)
    else evbuffer
  if a.getRequestedContentLength ≤ a.dataSentToClient + evbuffer.length then
    evbuffer.take (a.getRequestedContentLength - a.dataSentToClient)
  else if o.objectSize ≤ a.dataSentToClientForObject + evbuffer.length then
    evbuffer.take (o.objectSize - a.dataSentToClientForObject)
  else evbuffer

/-- `send_data_to_client`, for a read of `blocks` blocks. -/
def sendDataToClient (a : S3GetObjectAction) (blocks : Nat) (evbuffer : Bytes) :
    Until.Outcome S3GetObjectAction Bytes :=
  let sent := a.bytesToSend evbuffer
  let a := { a with
    blocksAlreadyRead := (a.blocksAlreadyRead + blocks) % sizeMod
    dataSentToClient := a.dataSentToClient + sent.length
    dataSentToClientForObject := a.dataSentToClientForObject + sent.length
    body := a.body ++ sent }
  if a.dataSentToClient = a.getRequestedContentLength then .done a.body
  else if a.dataSentToClientForObject ≠ a.currentObject.requestedObjectSize then .next a
  else a.readNextObject

/-- `read_object_data`, with the read it launches and the callback of it. -/
def readObjectData (a : S3GetObjectAction) : Until.Outcome S3GetObjectAction Bytes :=
  if a.blocksAlreadyRead ≠ a.totalBlocksToRead then
    let blocks := a.blocksToRead
    let length := blocks * a.currentObject.unitSize
    if 0 < blocks then
      sendDataToClient { a with lastIndex := a.lastIndex + length } blocks
        (motrRead a.motr a.currentObject.objectOID a.lastIndex length)
    else .done a.body
  else a.readNextObject

/-- The length of an object. -/
def contentLength (parts : List PartLayout) : Nat := (parts.map PartLayout.size).sum

/-- `read_object` of an object in several parts. -/
def readObject (motr : MotrObjects) (unitsPerRequest firstReadSize : Nat)
    (parts : List PartLayout) (first last : Nat) : S3GetObjectAction :=
  readFragmentedObject {
    motr := motr
    motrUnitsPerRequest := unitsPerRequest
    motrFirstReadSize := firstReadSize
    firstByteOffsetToRead := first
    lastByteOffsetToRead := last
    extendedObjects := setTotalBlocksToReadFromFragmentedObject (extendedObjectsFrom 0 0 parts)
      (contentLength parts) first last }

end S3GetObjectAction

end CortxS3
