/-
The parser of chunked uploads, `S3ChunkPayloadParser`.

The body of a chunked upload is a sequence of frames

    string(IntHexBase(chunk-size)) ";chunk-signature=" signature \r\n chunk-data \r\n

and the parser strips the frame from the data.  It keeps one or more spare buffers, copies
the chunk data into the first of them, and gives a buffer out only when it is full; the
buffer that was just parsed becomes a spare in its turn.

An `evbuffer` is the list of its extents when it comes in and only its contents afterwards.
`run` is the source's two nested loops.  The inner loop reads the bytes of one extent with an
index `j`, and what the model carries is the rest of the extent from `j` on.  A pass moves `j`
by one, except where chunk data are read (by all the data at hand) and where a chunk of size
zero is found (`j--`, so not at all).  The passes are bounded by a fuel, and no run exhausts it
(`run_spec`).

The two parameters are the size of a pool buffer and the digest, which is SHA-256 in the
source; what a digest is taken of is kept beside it.
-/
import CortxS3.Basic
import CortxS3.Lib.Feed

namespace CortxS3

inductive ChunkParserState where
  | cStart
  | cChunkSize
  | cChunkSignatureKey
  | cChunkSignatureValue
  | cCr
  | cChunkData
  | cChunkDataEndCr
  | cChunkDataEndLf
  | cError
deriving DecidableEq

/-- One frame that was parsed.  `hashCtx` is what the digest has been fed. -/
structure S3ChunkDetail where
  chunkSize : Nat := 0
  signature : Bytes := []
  payloadHash : Bytes := []
  hashCtx : Bytes := []
  ready : Bool := false
  chunkNumber : Nat := 0
deriving DecidableEq

namespace S3ChunkDetail

def reset (d : S3ChunkDetail) : S3ChunkDetail :=
  { d with ready := false, chunkSize := 0, signature := [], payloadHash := [], hashCtx := [] }

def incrChunkNumber (d : S3ChunkDetail) : S3ChunkDetail :=
  { d with chunkNumber := d.chunkNumber + 1 }

def addSize (d : S3ChunkDetail) (size : Nat) : S3ChunkDetail := { d with chunkSize := size }

def addSignature (d : S3ChunkDetail) (sign : Bytes) : S3ChunkDetail :=
  { d with signature := sign }

/-- `update_hash`; a null pointer is hashed as the empty string. -/
def updateHash (d : S3ChunkDetail) (data : Bytes) : S3ChunkDetail :=
  { d with hashCtx := d.hashCtx ++ data }

def finiHash (sha256 : Bytes → Bytes) (d : S3ChunkDetail) : S3ChunkDetail :=
  { d with payloadHash := sha256 d.hashCtx, ready := true }

end S3ChunkDetail

/-- The characters of the key that announces a signature. -/
def s3AwsChunkKey : Bytes := ascii "chunk-signature"

def lf : UInt8 := 10
def cr : UInt8 := 13
def semicolon : UInt8 := 59
def equalSign : UInt8 := 61

structure S3ChunkPayloadParser where
  chunkDetails : List S3ChunkDetail := []
  parserState : ChunkParserState := .cStart
  currentChunkSize : Bytes := []
  chunkDataSizeToRead : Nat := 0
  /-- What is still to come of the data embedded in chunks. -/
  contentLength : Nat := 0
  currentChunkSignature : Bytes := []
  currentChunkDetail : S3ChunkDetail := {}
  chunkSigKeyCharState : Bytes := s3AwsChunkKey
  spareBuffers : List Bytes := [[]]
  readyBuffers : List Bytes := []
deriving DecidableEq

namespace S3ChunkPayloadParser

def setupContentLength (p : S3ChunkPayloadParser) (len : Nat) : S3ChunkPayloadParser :=
  { p with contentLength := len }

def resetParserState (p : S3ChunkPayloadParser) : S3ChunkPayloadParser :=
  { p with
    chunkDataSizeToRead := 0
    currentChunkSize := []
    currentChunkSignature := []
    chunkSigKeyCharState := s3AwsChunkKey
    currentChunkDetail := p.currentChunkDetail.reset.incrChunkNumber }

def isChunkDetailReady (p : S3ChunkPayloadParser) : Bool :=
  match p.chunkDetails with
  | [] => false
  | d :: _ => d.ready

/-- `pop_chunk_detail`: the oldest detail, or a blank one when it is not ready.  The callers
ask first, so the front of an empty queue is never read. -/
def popChunkDetail (p : S3ChunkPayloadParser) : S3ChunkDetail × S3ChunkPayloadParser :=
  match p.chunkDetails with
  | [] => ({}, p)
  | d :: rest => if d.ready then (d, { p with chunkDetails := rest }) else ({}, p)

section Run

variable (bufSize : Nat) (sha256 : Bytes → Bytes)

/-- `add_to_spare`: fill the first spare, and put what does not fit into the next one.
There is no result when the source would read the front of an empty deque. -/
def addToSpare (p : S3ChunkPayloadParser) (data : Bytes) : Option S3ChunkPayloadParser :=
  match p.spareBuffers with
  | [] => none
  | spare :: others =>
    let freeInCurrentSpare := subSize bufSize spare.length
    if data.length ≤ freeInCurrentSpare then
      some { p with spareBuffers := (spare ++ data) :: others }
    else
      match others with
      | [] => none
      | next :: rest =>
        some { p with
          readyBuffers := p.readyBuffers ++ [spare ++ data.take freeInCurrentSpare]
          spareBuffers := (next ++ data.drop freeInCurrentSpare) :: rest }

/-- Where one pass of the inner loop leaves off: `j` has moved by `read` bytes, or `run` has
returned. -/
inductive Pass where
  | next (p : S3ChunkPayloadParser) (read : Nat)
  | ret (p : S3ChunkPayloadParser)

/-- The early `return ready_buffers` of every malformed frame. -/
def fail (p : S3ChunkPayloadParser) : Pass := .ret { p with parserState := .cError }

/-- The case of `c_chunk_data`.  `vec` is the current extent from `j` on. -/
def readChunkData (p : S3ChunkPayloadParser) (vec : Bytes) : Option Pass :=
  if 0 < p.chunkDataSizeToRead then
    let dataLen :=
      if p.chunkDataSizeToRead ≤ vec.length then p.chunkDataSizeToRead else vec.length
    match addToSpare bufSize p (vec.take dataLen) with
    | none => none
    | some p =>
      let p := { p with
        currentChunkDetail := p.currentChunkDetail.updateHash (vec.take dataLen)
        chunkDataSizeToRead := subSize p.chunkDataSizeToRead dataLen
        contentLength := subSize p.contentLength dataLen }
      -- the source also tests for `< 0`, which no `size_t` is
      if p.chunkDataSizeToRead = 0 then
        some (.next { p with parserState := .cChunkDataEndCr } dataLen)
      else
        some (.next p dataLen)
  else
    some (.next { p with
      parserState := .cChunkDataEndCr
      currentChunkDetail := p.currentChunkDetail.updateHash [] } 0)

/-- The `switch` of the inner loop, at the byte `ch`; `vec` is `ch` and what follows it. -/
def dispatch (p : S3ChunkPayloadParser) (ch : UInt8) (vec : Bytes) : Option Pass :=
  match p.parserState with
  | .cError => some (.ret p)
  | .cStart | .cChunkSize =>
    if ch = semicolon then
      let size := toSize (strtol16 p.currentChunkSize)
      some (.next { p with
        parserState := .cChunkSignatureKey
        chunkSigKeyCharState := s3AwsChunkKey
        chunkDataSizeToRead := size
        currentChunkDetail := p.currentChunkDetail.addSize size } 1)
    else
      some (.next { p with currentChunkSize := p.currentChunkSize ++ [ch] } 1)
  | .cChunkSignatureKey =>
    match p.chunkSigKeyCharState with
    | [] =>
      if ch = equalSign then
        some (.next { p with parserState := .cChunkSignatureValue } 1)
      else some p.fail
    | key :: rest =>
      if ch = key then some (.next { p with chunkSigKeyCharState := rest } 1)
      else some p.fail
  | .cChunkSignatureValue =>
    if ch = cr then some (.next { p with parserState := .cCr } 1)
    else some (.next { p with
      currentChunkSignature := p.currentChunkSignature ++ [ch] } 1)
  | .cCr =>
    if ch = lf then
      some (.next { p with
        parserState := .cChunkData
        currentChunkDetail := p.currentChunkDetail.addSignature p.currentChunkSignature } 1)
    else if ch = cr then
      some (.next { p with currentChunkSignature := p.currentChunkSignature ++ [cr] } 1)
    else
      -- the state stays `c_cr` here: the source does not go back to the signature
      some (.next { p with
        currentChunkSignature := p.currentChunkSignature ++ [cr] ++ [ch] } 1)
  | .cChunkData => readChunkData bufSize p vec
  | .cChunkDataEndCr =>
    if ch = cr then some (.next { p with parserState := .cChunkDataEndLf } 1)
    else some p.fail
  | .cChunkDataEndLf =>
    if ch = lf then
      let detail := p.currentChunkDetail.finiHash sha256
      some (.next { p with
        parserState := .cStart
        currentChunkDetail := detail
        chunkDetails := p.chunkDetails ++ [detail] } 1)
    else some p.fail

/-- The `if` at the head of the inner loop. -/
def leaveStart (p : S3ChunkPayloadParser) : S3ChunkPayloadParser :=
  if p.parserState = .cStart then
    { p.resetParserState with parserState := .cChunkSize }
  else p

/-- The inner loop over one extent.  `.next p 0` says that the extent is read to its end. -/
def parseExtent : Nat → S3ChunkPayloadParser → Bytes → Option Pass
  | _, p, [] => some (.next p 0)
  | 0, _, _ :: _ => none
  | fuel + 1, p, ch :: rest =>
    match dispatch bufSize sha256 p.leaveStart ch (ch :: rest) with
    | none => none
    | some (.ret p) => some (.ret p)
    | some (.next p read) => parseExtent fuel p ((ch :: rest).drop read)

/-- The outer loop. -/
def parseExtents : S3ChunkPayloadParser → List Bytes → Option Pass
  | p, [] => some (.next p 0)
  | p, vec :: rest =>
    match parseExtent bufSize sha256 (2 * vec.length) p vec with
    | none => none
    | some (.ret p) => some (.ret p)
    | some (.next p _) => parseExtents p rest

/-- What `run` does after its loops: with all data read the spares that hold some are given
out, and the drained buffer becomes a spare. -/
def finishRun (p : S3ChunkPayloadParser) : S3ChunkPayloadParser :=
  let p :=
    if p.contentLength = 0 then
      { p with
        readyBuffers := p.readyBuffers ++ p.spareBuffers.filter fun b => 0 < b.length
        spareBuffers := [] }
    else p
  { p with spareBuffers := p.spareBuffers ++ [[]] }

/-- `run(buf)`; the buffers it returns are the `readyBuffers` it leaves. -/
def run (p : S3ChunkPayloadParser) (buf : List Bytes) : Option S3ChunkPayloadParser :=
  match parseExtents bufSize sha256 { p with readyBuffers := [] } buf with
  | none => none
  | some (.ret p) => some p
  | some (.next p _) => some p.finishRun

/-- A parser in use: the parser, and every buffer it has returned so far. -/
structure Session where
  parser : S3ChunkPayloadParser
  returned : List Bytes := []
deriving DecidableEq

/-- One call of `run`, and its caller keeping what it returns. -/
def Session.run (s : Session) (buf : List Bytes) : Option Session :=
  (s.parser.run bufSize sha256 buf).map fun p => ⟨p, s.returned ++ p.readyBuffers⟩

/-- The callers stop at the first run that leaves the parser in `c_error`. -/
def Session.failed (s : Session) : Bool := s.parser.parserState == .cError

/-- An upload of `contentLength` bytes of data, whose body arrives in the buffers `bufs`. -/
def upload (contentLength : Nat) (bufs : List (List Bytes)) : Option Session :=
  Feed.feed (Session.run bufSize sha256) Session.failed
    { parser := setupContentLength {} contentLength } bufs

/-- The data an upload has come out with: what was returned, then what the spares hold. -/
def Session.data (s : Session) : Bytes :=
  s.returned.flatten ++ s.parser.spareBuffers.flatten

end Run

end S3ChunkPayloadParser

end CortxS3
