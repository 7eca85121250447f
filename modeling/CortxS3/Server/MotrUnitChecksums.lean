/-
The checksums of the units of a Motr object: `MD5hash`, and what of `S3MotrWiter` and `S3MotrReader` is
about them.

An object is written in operations of many buffers, and stored in units.  With each unit goes an
attribute: the context of the running MD5 before the unit, and a digest of the unit, seeded with the id of
the object and the offset of the unit.  The writer keeps the running context from one operation to the
next; the reader takes it out of the attribute, so it can start anywhere, and only has to know where it
is.

The digest itself is Motr's (`motr_client_calculate_pi`).  All that is known of it is what it reads: the
seed, the context and the data.
-/
import CortxS3.Server.Base64

namespace CortxS3

/-! ### What Motr offers -/

/-- `m0_pi_seed`. -/
structure M0PiSeed where
  dataUnitOffset : Nat
  objId : M0Uint128
deriving DecidableEq

/-- All that a checksum is calculated from. -/
structure PiInput (Ctx : Type) where
  seed : Option M0PiSeed
  context : Ctx
  data : Bytes
deriving DecidableEq

/-- `m0_md5_inc_context_pi`, the attribute of a unit. -/
structure M0Md5IncContextPi (Ctx Digest : Type) where
  prevContext : Ctx
  value : Digest
deriving DecidableEq

/-- The functions of Motr that calculate a checksum. -/
structure MotrPi (Ctx Digest : Type) where
  /-- The context before any data. -/
  init : Ctx
  /-- The running context after the data.  The seed does not go into it. -/
  update : PiInput Ctx → Ctx
  value : PiInput Ctx → Digest
  /-- What memory that has just been allocated is taken for. -/
  zero : M0Md5IncContextPi Ctx Digest

inductive M0PiCalcFlag where
  | noFlag
  | calcUnitZero
deriving DecidableEq

/-- `motr_client_calculate_pi`: the attribute and the running context. -/
def MotrPi.motrClientCalculatePi {Ctx Digest : Type} (m : MotrPi Ctx Digest)
    (pi : M0Md5IncContextPi Ctx Digest) (seed : Option M0PiSeed) (bufvec : List Bytes)
    (flag : M0PiCalcFlag) : M0Md5IncContextPi Ctx Digest × Ctx :=
  let prev := if flag = .calcUnitZero then m.init else pi.prevContext
  let input := ⟨seed, prev, bufvec.flatten⟩
  (⟨prev, m.value input⟩, m.update input)

/-- An object as Motr stores it: bytes, and an attribute for each unit. -/
structure MotrObject (Ctx Digest : Type) where
  data : Nat → Option UInt8 := fun _ => none
  attr : Nat → Option (M0Md5IncContextPi Ctx Digest) := fun _ => none

namespace MotrObject

variable {Ctx Digest : Type}

def writeAt (o : MotrObject Ctx Digest) (index : Nat) (buf : Bytes) : MotrObject Ctx Digest :=
  { o with data := fun i => if index ≤ i ∧ i < index + buf.length then buf[i - index]? else o.data i }

/-- The extents of an operation. -/
def writeExtents (o : MotrObject Ctx Digest) : List Nat → List Bytes → MotrObject Ctx Digest
  | index :: ext, buf :: data => (o.writeAt index buf).writeExtents ext data
  | _, _ => o

/-- The attributes belong to the units from `first` on. -/
def writeAttrs (o : MotrObject Ctx Digest) (first : Nat) (attr : List (M0Md5IncContextPi Ctx Digest)) :
    MotrObject Ctx Digest :=
  { o with
    attr := fun i => if first ≤ i ∧ i < first + attr.length then attr[i - first]? else o.attr i }

/-- `M0_OC_READ`.  There is no reading over a hole. -/
def readAt (o : MotrObject Ctx Digest) (index len : Nat) : Option Bytes :=
  (List.range len).mapM fun i => o.data (index + i)

def readAttrs (o : MotrObject Ctx Digest) (first count : Nat) :
    Option (List (M0Md5IncContextPi Ctx Digest)) :=
  (List.range count).mapM fun i => o.attr (first + i)

end MotrObject

/-- The options of the integrity check.  What has no checksum is not checked. -/
structure S3DataIntegrityOption where
  writeDiCheckEnabled : Bool
  readDiCheckEnabled : Bool

/-- As `load_section` reads them. -/
def S3DataIntegrityOption.load (writeCheck readCheck : Bool) : S3DataIntegrityOption where
  writeDiCheckEnabled := writeCheck
  readDiCheckEnabled := if !writeCheck then false else readCheck

/-! ### `MD5hash` -/

structure MD5hash (Ctx Digest : Type) where
  md5ctx : Ctx
  md5ctxPreUnaligned : Ctx
  md5Digest : Option Digest := none
  checksumSaved : Bool := false
  isInitialized : Bool := false
  isFinalized : Bool := false
  /-- What the units have been given their checksums from, in the order of the calls. -/
  unitInputs : List (PiInput Ctx) := []

/-- `S3_FIRST_UNIT` and `S3_SEED_UNIT`. -/
structure ChecksumFlag where
  firstUnit : Bool := false
  seedUnit : Bool := false
deriving DecidableEq

/-- `s3_motr_rw_op_context`. -/
structure RwOpContext (Ctx Digest : Type) where
  /-- `data->ov_buf`, and `ext->iv_index` of each. -/
  data : List Bytes := []
  ext : List Nat := []
  attr : List (M0Md5IncContextPi Ctx Digest)
  /-- `pi_bufvec->ov_buf`: the buffers of one unit. -/
  piBufvec : List Bytes
  currentDigest : Ctx

namespace MD5hash

variable {Ctx Digest : Type} (m : MotrPi Ctx Digest)

/-- `s3_calculate_unit_pi`. -/
def s3CalculateUnitPi (h : MD5hash Ctx Digest) (rwCtx : RwOpContext Ctx Digest)
    (currentAttrIndex seedOffset : Nat) (seedOid : M0Uint128) (flag : ChecksumFlag) :
    MD5hash Ctx Digest × RwOpContext Ctx Digest :=
  let pi := rwCtx.attr.getD currentAttrIndex m.zero
  let pi :=
    if !flag.firstUnit && h.checksumSaved then { pi with prevContext := h.md5ctx } else pi
  let seed := if flag.seedUnit then some ⟨seedOffset, seedOid⟩ else none
  let motrPiFlag := if flag.firstUnit then M0PiCalcFlag.calcUnitZero else .noFlag
  let (pi, digest) := m.motrClientCalculatePi pi seed rwCtx.piBufvec motrPiFlag
  ({ h with
      md5ctx := digest
      checksumSaved := true
      isInitialized := h.isInitialized || flag.firstUnit
      unitInputs := h.unitInputs ++ [⟨seed, pi.prevContext, rwCtx.piBufvec.flatten⟩] },
    { rwCtx with
      attr := rwCtx.attr.set currentAttrIndex pi
      currentDigest := digest })

/-- `s3_calculate_unaligned_buffs_pi`: the digest of the content, over the buffers given. -/
def s3CalculateUnalignedBuffsPi (h : MD5hash Ctx Digest) (rwCtx : RwOpContext Ctx Digest)
    (bufvec : List Bytes) (flag : ChecksumFlag) : MD5hash Ctx Digest × RwOpContext Ctx Digest :=
  let pi := { m.zero with prevContext := h.md5ctxPreUnaligned }
  let piFlag := if flag.firstUnit then M0PiCalcFlag.calcUnitZero else .noFlag
  let (pi, digest) := m.motrClientCalculatePi pi none bufvec piFlag
  ({ h with
      md5Digest := some pi.value
      isInitialized := h.isInitialized || flag.firstUnit
      isFinalized := true },
    { rwCtx with currentDigest := digest })

/-- `Finalize`.  What is finalized stays as it is. -/
def finalize (h : MD5hash Ctx Digest) : MD5hash Ctx Digest :=
  if h.isFinalized then h
  else
    let md5ctx :=
      if h.isInitialized then h.md5ctx
      else (m.motrClientCalculatePi m.zero none [] .calcUnitZero).2
    let (pi, digest) :=
      m.motrClientCalculatePi { m.zero with prevContext := md5ctx } none [] .noFlag
    { h with
        md5ctx := digest
        md5Digest := some pi.value
        isFinalized := true }

/-- `hex_tbl`. -/
def hexTbl : Bytes := ascii "0123456789abcdef"

/-- `get_md5_string`. -/
def getMd5String (digest : Bytes) : Bytes :=
  digest.flatMap fun ch => [hexTbl.getD (ch.toNat / 16) 0, hexTbl.getD (ch.toNat % 16) 0]

end MD5hash

/-! ### `S3MotrWiter` -/

/-- A buffer of `S3BufferSequence`: its memory, and how much of it is data. -/
structure DataBuffer where
  mem : Bytes
  len : Nat

structure S3MotrWiter (Ctx Digest : Type) where
  oid : M0Uint128
  lastIndex : Nat := 0
  md5 : MD5hash Ctx Digest
  motrUnitSize : Nat
  sizeOfEachBuf : Nat
  isS3WriteDiCheckEnabled : Bool

namespace S3MotrWiter

/-- The local variables of `set_up_motr_data_buffers`, with what it works on. -/
structure SetUp (Ctx Digest : Type) where
  rwCtx : RwOpContext Ctx Digest
  md5 : MD5hash Ctx Digest
  lastIndex : Nat
  sizeInCurrentWrite : Nat := 0
  bufIdx : Nat := 0
  unalignedBufIdxOffset : Nat := 0
  chksumBufIdx : Nat := 0
  calculatedChksumAtUnitBoundary : Bool := false
  savedLastIndex : Nat
  initialBuffersPartWrite : Bool
  startingChecksumBufIdx : Nat := 0
  lenInBuf : Nat := 0
  s3ChecksumFlag : ChecksumFlag := {}

section Steps

variable {Ctx Digest : Type} (m : MotrPi Ctx Digest) (w : S3MotrWiter Ctx Digest)

def addBufferToMotrStructures (s : SetUp Ctx Digest) (buffer : Bytes) : SetUp Ctx Digest :=
  { s with
    rwCtx :=
      { s.rwCtx with
        data := s.rwCtx.data ++ [buffer]
        ext := s.rwCtx.ext ++ [s.lastIndex]
        piBufvec := s.rwCtx.piBufvec.set s.startingChecksumBufIdx buffer }
    lastIndex := s.lastIndex + w.sizeOfEachBuf
    startingChecksumBufIdx := s.startingChecksumBufIdx + 1
    bufIdx := s.bufIdx + 1 }

/-- The first lines of `calc_pi_info`: whether this is the first unit of the object. -/
def calledForFirstUnit (s : SetUp Ctx Digest) (resetInitialBuffers : Bool) : SetUp Ctx Digest :=
  if s.savedLastIndex = 0 || s.initialBuffersPartWrite then
    { s with
      s3ChecksumFlag := { s.s3ChecksumFlag with firstUnit := true }
      initialBuffersPartWrite := s.initialBuffersPartWrite && !resetInitialBuffers }
  else s

/-- `calc_pi_info` where it calculates the checksum of a unit. -/
def calcUnitPiInfo (s : SetUp Ctx Digest) (resetInitialBuffers : Bool) : SetUp Ctx Digest :=
  let s := calledForFirstUnit s resetInitialBuffers
  let flag :=
    { s.s3ChecksumFlag with seedUnit := s.s3ChecksumFlag.seedUnit || w.isS3WriteDiCheckEnabled }
  let (md5, rwCtx) :=
    s.md5.s3CalculateUnitPi m s.rwCtx s.chksumBufIdx s.savedLastIndex w.oid flag
  { s with
    md5 := md5
    rwCtx := rwCtx
    s3ChecksumFlag := flag
    chksumBufIdx := s.chksumBufIdx + 1 }

/-- `calc_pi_info` at the end of a unit. -/
def calcAlignedPiInfo (s : SetUp Ctx Digest) : SetUp Ctx Digest :=
  let s := calcUnitPiInfo m w s true
  { s with
    savedLastIndex := s.lastIndex
    startingChecksumBufIdx := 0
    unalignedBufIdxOffset := s.bufIdx
    s3ChecksumFlag := { s.s3ChecksumFlag with firstUnit := false }
    calculatedChksumAtUnitBoundary := true }

/-- `calc_pi_info` for the digest of the content. -/
def calcFinalPiInfo (s : SetUp Ctx Digest) (bufvec : List Bytes) : SetUp Ctx Digest :=
  let s := calledForFirstUnit s false
  let (md5, rwCtx) := s.md5.s3CalculateUnalignedBuffsPi m s.rwCtx bufvec s.s3ChecksumFlag
  { s with
    md5 := md5
    rwCtx := rwCtx }

/-- A buffer of the sequence.  The whole buffer goes to Motr, whatever is data in it. -/
def addDataBuffer (s : SetUp Ctx Digest) (buf : DataBuffer) : SetUp Ctx Digest :=
  let s := { s with
    calculatedChksumAtUnitBoundary := false
    lenInBuf := buf.len }
  let s := addBufferToMotrStructures w s buf.mem
  let s := { s with sizeInCurrentWrite := s.sizeInCurrentWrite + buf.len }
  if s.sizeInCurrentWrite % w.motrUnitSize = 0 then calcAlignedPiInfo m w s else s

/-- The rest of the last unit is filled with one and the same buffer. -/
def alignDataToMotrUnitSize (s : SetUp Ctx Digest) (placeHolder : Bytes) (motrBufCount : Nat) :
    SetUp Ctx Digest :=
  (List.replicate (motrBufCount - s.bufIdx) placeHolder).foldl (addBufferToMotrStructures w) s

/-- What is done after the last buffer of the sequence. -/
def finishMotrDataBuffers (s : SetUp Ctx Digest) (placeHolder : Bytes) (motrBufCount : Nat) :
    SetUp Ctx Digest :=
  let numberOfUnitUnaligned := s.bufIdx - s.unalignedBufIdxOffset
  let lastDataBufIndxForPi :=
    if numberOfUnitUnaligned ≠ 0 then s.startingChecksumBufIdx - 1 else 0
  let s :=
    if s.md5.checksumSaved then { s with md5 := { s.md5 with md5ctxPreUnaligned := s.md5.md5ctx } }
    else s
  let s := alignDataToMotrUnitSize w s placeHolder motrBufCount
  let s :=
    if w.isS3WriteDiCheckEnabled && numberOfUnitUnaligned ≠ 0 then
      calcUnitPiInfo m w { s with s3ChecksumFlag := { seedUnit := true } } false
    else s
  if !s.calculatedChksumAtUnitBoundary || s.lenInBuf ≠ w.sizeOfEachBuf then
    let bufvec := s.rwCtx.piBufvec.take lastDataBufIndxForPi ++
      [(s.rwCtx.piBufvec.getD lastDataBufIndxForPi []).take s.lenInBuf]
    calcFinalPiInfo m { s with s3ChecksumFlag := {} } bufvec
  else s

def buffersPerUnit : Nat :=
  let n := w.motrUnitSize / w.sizeOfEachBuf
  if n = 0 then 1 else n

/-- The buffers of an operation, with those that fill the last unit. -/
def motrBufCount (buffers : Nat) : Nat :=
  if 1 < w.buffersPerUnit ∧ 0 < buffers % w.buffersPerUnit then
    buffers + (w.buffersPerUnit - buffers % w.buffersPerUnit)
  else buffers

/-- `create_basic_rw_op_ctx`, with memory for the buffers of one unit. -/
def initWriteOpCtx (motrBufCount : Nat) : RwOpContext Ctx Digest where
  attr := List.replicate (motrBufCount / w.buffersPerUnit) m.zero
  piBufvec := List.replicate w.buffersPerUnit (List.replicate 8 0)
  currentDigest := m.zero.prevContext

/-- `set_up_motr_data_buffers`. -/
def setUpMotrDataBuffers (isFirstWritePartSegment : Bool) (buffers : List DataBuffer)
    (placeHolder : Bytes) : SetUp Ctx Digest :=
  let count := w.motrBufCount buffers.length
  let s : SetUp Ctx Digest :=
    { rwCtx := w.initWriteOpCtx m count
      md5 := w.md5
      lastIndex := w.lastIndex
      savedLastIndex := w.lastIndex
      initialBuffersPartWrite := isFirstWritePartSegment }
  finishMotrDataBuffers m w (buffers.foldl (addDataBuffer m w) s) placeHolder count

/-- `write_content`.  Without the check no attributes are handed over. -/
def writeContent (o : MotrObject Ctx Digest) (isFirstWritePartSegment : Bool)
    (buffers : List DataBuffer) (placeHolder : Bytes) :
    S3MotrWiter Ctx Digest × MotrObject Ctx Digest :=
  let s := w.setUpMotrDataBuffers m isFirstWritePartSegment buffers placeHolder
  let o := o.writeExtents s.rwCtx.ext s.rwCtx.data
  ({ w with
      md5 := s.md5
      lastIndex := s.lastIndex },
    if w.isS3WriteDiCheckEnabled then
      o.writeAttrs ((s.rwCtx.ext.headD 0) / w.motrUnitSize) s.rwCtx.attr
    else o)

end Steps

/-- One call of `write_content`: the buffers, and the one that the last unit is filled with. -/
structure WriteOp where
  buffers : List DataBuffer
  placeHolder : Bytes

/-- The calls of an upload, one after the other.  Only the first can be the first of a part. -/
def writeAll {Ctx Digest : Type} (m : MotrPi Ctx Digest) :
    S3MotrWiter Ctx Digest × MotrObject Ctx Digest → Bool → List WriteOp →
      S3MotrWiter Ctx Digest × MotrObject Ctx Digest
  | wo, _, [] => wo
  | (w, o), firstPart, op :: ops =>
    writeAll m (w.writeContent m o firstPart op.buffers op.placeHolder) false ops

/-- `get_content_md5`, when no `content_md5` is kept yet. -/
def getContentMd5 {Ctx : Type} (m : MotrPi Ctx Bytes) (w : S3MotrWiter Ctx Bytes) : Bytes :=
  MD5hash.getMd5String (((w.md5.finalize m).md5Digest).getD [])

/-- The writer of a new object. -/
def create {Ctx Digest : Type} (m : MotrPi Ctx Digest) (opt : S3DataIntegrityOption)
    (oid : M0Uint128) (motrUnitSize sizeOfEachBuf : Nat) : S3MotrWiter Ctx Digest where
  oid := oid
  md5 :=
    { md5ctx := m.zero.prevContext
      md5ctxPreUnaligned := m.zero.prevContext }
  motrUnitSize := motrUnitSize
  sizeOfEachBuf := sizeOfEachBuf
  isS3WriteDiCheckEnabled := opt.writeDiCheckEnabled

end S3MotrWiter

/-! ### `S3MotrReader` -/

structure S3MotrReader (Ctx : Type) where
  oid : M0Uint128
  motrUnitSize : Nat
  /-- `get_libevent_pool_buffer_size`. -/
  evbufUnitBufSz : Nat
  isS3ReadDiCheckEnabled : Bool
  lastIndex : Nat := 0
  startingIndexForRead : Nat := 0
  /-- What the checksums have been calculated from again. -/
  unitInputs : List (PiInput Ctx) := []

namespace S3MotrReader

variable {Ctx Digest : Type} [DecidableEq Digest] (m : MotrPi Ctx Digest)

def setLastIndex (r : S3MotrReader Ctx) (index : Nat) : S3MotrReader Ctx :=
  { r with
    lastIndex := index
    startingIndexForRead := index }

/-- `ValidateStoredMD5Chksum`: what is calculated, and whether it is what was stored. -/
def validateStoredMD5Chksum (unit : List Bytes) (piInfo : M0Md5IncContextPi Ctx Digest)
    (seed : M0PiSeed) : PiInput Ctx × Bool :=
  let md5Info := { m.zero with prevContext := piInfo.prevContext }
  let (md5Info, _) := m.motrClientCalculatePi md5Info (some seed) unit .noFlag
  (⟨some seed, md5Info.prevContext, unit.flatten⟩, decide (md5Info.value = piInfo.value))

def calculateBytesProcessed (unit : List Bytes) : Nat := (unit.map List.length).sum

/-- The loop of `ValidateStoredChksum`, from the unit at `currentIndex` on. -/
def validateUnits (r : S3MotrReader Ctx) (piToDataBufferRatio : Nat) :
    Nat → List Bytes → List (M0Md5IncContextPi Ctx Digest) → Option (S3MotrReader Ctx)
  | _, _, [] => some r
  | currentIndex, data, piInfo :: pibuf =>
    let unit := data.take piToDataBufferRatio
    let (input, valid) := validateStoredMD5Chksum m unit piInfo ⟨currentIndex, r.oid⟩
    if valid then
      validateUnits { r with unitInputs := r.unitInputs ++ [input] } piToDataBufferRatio
        (currentIndex + calculateBytesProcessed unit) (data.drop piToDataBufferRatio) pibuf
    else none

/-- `ValidateStoredChksum`.  The next read goes on where this one ended. -/
def validateStoredChksum (r : S3MotrReader Ctx) (data : List Bytes)
    (attr : List (M0Md5IncContextPi Ctx Digest)) : Option (S3MotrReader Ctx) := do
  let r ← validateUnits m r (data.length / attr.length) r.startingIndexForRead data attr
  return { r with startingIndexForRead := r.lastIndex }

/-- `init_read_op_ctx`: how many buffers are read, and how many attributes. -/
def bufCountInEvbuf (r : S3MotrReader Ctx) (numOfBlocks : Nat) : Nat :=
  (numOfBlocks * r.motrUnitSize + (r.evbufUnitBufSz - 1)) / r.evbufUnitBufSz

def bufPerMotrUnit (r : S3MotrReader Ctx) : Nat :=
  (r.motrUnitSize + (r.evbufUnitBufSz - 1)) / r.evbufUnitBufSz

/-- `read_object_data`, up to `read_object_successful`.  There is no result when Motr cannot read or a
checksum is not the one stored: the action gives up. -/
def readObjectData (o : MotrObject Ctx Digest) (r : S3MotrReader Ctx) (numOfBlocks : Nat) :
    Option (S3MotrReader Ctx) := do
  let count := r.bufCountInEvbuf numOfBlocks
  guard (0 < count)
  let data ← (List.range count).mapM fun i =>
    o.readAt (r.lastIndex + i * r.evbufUnitBufSz) r.evbufUnitBufSz
  let first := r.lastIndex / r.motrUnitSize
  let r := { r with lastIndex := r.lastIndex + count * r.evbufUnitBufSz }
  if r.isS3ReadDiCheckEnabled then
    let attr ← o.readAttrs first (count / r.bufPerMotrUnit)
    validateStoredChksum m r data attr
  else return r

inductive ReadEvent where
  | setLastIndex (index : Nat)
  | readObjectData (numOfBlocks : Nat)

def readEvent (o : MotrObject Ctx Digest) (r : S3MotrReader Ctx) :
    ReadEvent → Option (S3MotrReader Ctx)
  | .setLastIndex index => some (r.setLastIndex index)
  | .readObjectData numOfBlocks => readObjectData m o r numOfBlocks

def readAll (o : MotrObject Ctx Digest) (r : S3MotrReader Ctx) (events : List ReadEvent) :
    Option (S3MotrReader Ctx) :=
  events.foldlM (readEvent m o) r

def create (opt : S3DataIntegrityOption) (oid : M0Uint128) (motrUnitSize evbufUnitBufSz : Nat) :
    S3MotrReader Ctx where
  oid := oid
  motrUnitSize := motrUnitSize
  evbufUnitBufSz := evbufUnitBufSz
  isS3ReadDiCheckEnabled := opt.readDiCheckEnabled

end S3MotrReader

end CortxS3
