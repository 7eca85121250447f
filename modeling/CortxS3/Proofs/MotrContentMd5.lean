/-
The ETag of an upload is the MD5 of its bytes.

The running context of `MD5hash` goes on from unit to unit, and the last unit of an object is filled up
before its checksum is calculated for Motr.  So the context before it is kept aside, and the digest of
the content is calculated from there, over the buffers of the last unit as far as they hold data
(`digest_of_begun`).  When the data ends with a unit nothing was filled up, and `Finalize` takes the
running context as it is (`running_of_whole`).

`Running` is what the context stands for between units: the bytes of all units that are full.
`Hashing` says it within an operation, with the buffers of the unit that is not full yet, and keeps the
one condition that the source recognises the first unit by: nothing is saved yet.

The placing of the buffers is a matter of its own (`Placed`), which does not depend on how much of them
is data.
-/
import CortxS3.Lib.Md5
import CortxS3.Proofs.MotrUnitChecksums

namespace CortxS3

open List

/-- Motr's MD5, which is calculated piece by piece: a context stands for the bytes it has seen, and a
digest without a seed is that of all bytes. -/
structure IncrementalMd5 {Ctx : Type} (m : MotrPi Ctx Bytes) (md5 : Bytes → Bytes)
    (ctxOf : Bytes → Ctx) : Prop where
  init : m.init = ctxOf []
  update : ∀ seed a b, m.update ⟨seed, ctxOf a, b⟩ = ctxOf (a ++ b)
  value : ∀ a b, m.value ⟨none, ctxOf a, b⟩ = md5 (a ++ b)

namespace S3MotrWiter

section Placing

variable {Ctx Digest : Type} {m : MotrPi Ctx Digest} {w : S3MotrWiter Ctx Digest}
  {start : Nat} {buffers : List Bytes} {s : SetUp Ctx Digest}

/-! ### Where the buffers go -/

/-- The buffers handed to Motr, one behind the other. -/
structure Placed (w : S3MotrWiter Ctx Digest) (start : Nat) (buffers : List Bytes)
    (s : SetUp Ctx Digest) : Prop where
  data : s.rwCtx.data = buffers
  ext : s.rwCtx.ext = (List.range buffers.length).map (start + · * w.sizeOfEachBuf)
  lastIndex : s.lastIndex = start + buffers.length * w.sizeOfEachBuf
  bufIdx : s.bufIdx = buffers.length

section

variable (hp : Placed w start buffers s)

include hp

theorem placed_addBuffer (buf : Bytes) :
    Placed w start (buffers ++ [buf]) (addBufferToMotrStructures w s buf) := by
  have hlen : (buffers ++ [buf]).length = buffers.length + 1 := by simp
  refine ⟨?_, ?_, ?_, ?_⟩
  · simp [addBufferToMotrStructures, hp.data]
  · simp only [addBufferToMotrStructures]
    rw [hlen, range_succ, map_append, hp.ext, hp.lastIndex]
    rfl
  · simp only [addBufferToMotrStructures]
    rw [hlen, hp.lastIndex]
    ring
  · simp only [addBufferToMotrStructures]
    rw [hlen, hp.bufIdx]

theorem Placed.congr {t : SetUp Ctx Digest}
    (hdata : t.rwCtx.data = s.rwCtx.data) (hext : t.rwCtx.ext = s.rwCtx.ext)
    (hlast : t.lastIndex = s.lastIndex) (hidx : t.bufIdx = s.bufIdx) : Placed w start buffers t :=
  ⟨hdata.trans hp.data, hext.trans hp.ext, hlast.trans hp.lastIndex, hidx.trans hp.bufIdx⟩

theorem placed_addedBuffer (buf : DataBuffer) :
    Placed w start (buffers ++ [buf.mem]) (addedBuffer w s buf) :=
  (placed_addBuffer hp buf.mem).congr rfl rfl rfl rfl

theorem placed_calcUnit (reset : Bool) :
    Placed w start buffers (calcUnitPiInfo m w s reset) := by
  obtain ⟨hdata, hext, hlast, hidx, -, -⟩ := calcUnitPiInfo_frame m w s reset
  exact hp.congr hdata hext hlast hidx

theorem placed_addDataBuffer (buf : DataBuffer) :
    Placed w start (buffers ++ [buf.mem]) (addDataBuffer m w s buf) := by
  rw [addDataBuffer_eq]
  have hadded := placed_addedBuffer hp buf
  split
  · exact (placed_calcUnit (m := m) hadded true).congr rfl rfl rfl rfl
  · exact hadded

end

theorem placed_foldl (bufs : List DataBuffer) (hp : Placed w start buffers s) :
    Placed w start (buffers ++ bufs.map (·.mem)) (bufs.foldl (addDataBuffer m w) s) := by
  induction bufs generalizing buffers s with
  | nil => simpa using hp
  | cons buf bufs ih =>
    have hrest := ih (placed_addDataBuffer (m := m) hp buf)
    rw [append_assoc] at hrest
    exact hrest

theorem placed_align (placeHolder : Bytes) (k : Nat) (hp : Placed w start buffers s) :
    Placed w start (buffers ++ List.replicate k placeHolder)
      ((List.replicate k placeHolder).foldl (addBufferToMotrStructures w) s) := by
  induction k generalizing buffers s with
  | zero => simpa using hp
  | succ k ih =>
    have hrest := ih (placed_addBuffer hp placeHolder)
    rw [append_assoc] at hrest
    exact hrest

theorem placed_calcFinal (hp : Placed w start buffers s) (bufvec : List Bytes) :
    Placed w start buffers (calcFinalPiInfo m s bufvec) := by
  have hsame : (calcFinalPiInfo m s bufvec).rwCtx.data = s.rwCtx.data ∧
      (calcFinalPiInfo m s bufvec).rwCtx.ext = s.rwCtx.ext ∧
      (calcFinalPiInfo m s bufvec).lastIndex = s.lastIndex ∧
      (calcFinalPiInfo m s bufvec).bufIdx = s.bufIdx := by
    simp only [calcFinalPiInfo, MD5hash.s3CalculateUnalignedBuffsPi, calledForFirstUnit]
    split <;> simp
  obtain ⟨hdata, hext, hlast, hidx⟩ := hsame
  exact hp.congr hdata hext hlast hidx

theorem placed_finish (hp : Placed w start buffers s) (placeHolder : Bytes) (count : Nat) :
    Placed w start (buffers ++ List.replicate (count - buffers.length) placeHolder)
      (finishMotrDataBuffers m w s placeHolder count) := by
  obtain ⟨s₁, hs₁⟩ : ∃ s₁, s₁ =
      if s.md5.checksumSaved then { s with md5 := { s.md5 with md5ctxPreUnaligned := s.md5.md5ctx } }
      else s := ⟨_, rfl⟩
  have hp₁ : Placed w start buffers s₁ := by
    rw [hs₁]
    split
    · exact hp.congr rfl rfl rfl rfl
    · exact hp
  have hp₂ : Placed w start (buffers ++ List.replicate (count - buffers.length) placeHolder)
      (alignDataToMotrUnitSize w s₁ placeHolder count) := by
    unfold alignDataToMotrUnitSize
    rw [hp₁.bufIdx]
    exact placed_align placeHolder _ hp₁
  obtain ⟨s₃, hs₃⟩ : ∃ s₃, s₃ =
      if w.isS3WriteDiCheckEnabled && s.bufIdx - s.unalignedBufIdxOffset ≠ 0 then
        calcUnitPiInfo m w
          { alignDataToMotrUnitSize w s₁ placeHolder count with
            s3ChecksumFlag := { seedUnit := true } } false
      else alignDataToMotrUnitSize w s₁ placeHolder count := ⟨_, rfl⟩
  have hp₃ : Placed w start (buffers ++ List.replicate (count - buffers.length) placeHolder) s₃ := by
    rw [hs₃]
    split
    · refine placed_calcUnit ?_ false
      exact hp₂.congr rfl rfl rfl rfl
    · exact hp₂
  simp only [finishMotrDataBuffers]
  rw [← hs₁, ← hs₃]
  split
  · refine placed_calcFinal ?_ _
    exact hp₃.congr rfl rfl rfl rfl
  · exact hp₃

theorem placed_setUp (m : MotrPi Ctx Digest) (w : S3MotrWiter Ctx Digest) (first : Bool)
    (op : WriteOp) :
    Placed w w.lastIndex
      (op.buffers.map (·.mem) ++
        List.replicate (w.motrBufCount op.buffers.length - op.buffers.length) op.placeHolder)
      (w.setUpMotrDataBuffers m first op.buffers op.placeHolder) := by
  unfold setUpMotrDataBuffers
  dsimp only
  obtain ⟨s₀, hs₀⟩ : ∃ s₀ : SetUp Ctx Digest, s₀ =
      { rwCtx := w.initWriteOpCtx m (w.motrBufCount op.buffers.length)
        md5 := w.md5
        lastIndex := w.lastIndex
        savedLastIndex := w.lastIndex
        initialBuffersPartWrite := first } := ⟨_, rfl⟩
  have hp₀ : Placed w w.lastIndex [] s₀ := by
    rw [hs₀]
    exact ⟨rfl, rfl, by simp, rfl⟩
  have hp := placed_foldl (m := m) op.buffers hp₀
  have hfinish := placed_finish (m := m) hp op.placeHolder (w.motrBufCount op.buffers.length)
  rw [← hs₀]
  rw [nil_append, length_map] at hfinish
  exact hfinish

end Placing

section Digest

variable {Ctx : Type} {m : MotrPi Ctx Bytes} {md5 : Bytes → Bytes} {ctxOf : Bytes → Ctx}
  {w : S3MotrWiter Ctx Bytes}

/-! ### The running context -/

/-- The context of a hash stands for these bytes, and none are there before the first unit. -/
structure Running (ctxOf : Bytes → Ctx) (h : MD5hash Ctx Bytes) (seen : Bytes) : Prop where
  unfinalized : h.isFinalized = false
  initialized : h.isInitialized = h.checksumSaved
  context : h.checksumSaved = true → h.md5ctx = ctxOf seen
  fresh : h.checksumSaved = false → seen = []

variable {seen : Bytes}

theorem finalize_of_running (hm : IncrementalMd5 m md5 ctxOf) {h : MD5hash Ctx Bytes}
    (hr : Running ctxOf h seen) : (h.finalize m).md5Digest = some (md5 seen) := by
  unfold MD5hash.finalize MotrPi.motrClientCalculatePi
  rw [hr.unfinalized, hr.initialized]
  cases hsaved : h.checksumSaved with
  | true =>
    simp only [Bool.false_eq_true, if_false, if_true, reduceCtorEq, hr.context hsaved,
      flatten_nil, hm.value, append_nil]
  | false =>
    simp only [Bool.false_eq_true, if_false, if_true, reduceCtorEq, hr.fresh hsaved,
      flatten_nil, hm.init, hm.update, hm.value, append_nil]

/-- Buffers divide units. -/
structure Divided (w : S3MotrWiter Ctx Bytes) : Prop where
  buf_pos : 0 < w.sizeOfEachBuf
  unit_pos : 0 < w.motrUnitSize
  dvd : w.sizeOfEachBuf ∣ w.motrUnitSize

theorem Divided.perUnit_mul (hw : Divided w) :
    w.buffersPerUnit * w.sizeOfEachBuf = w.motrUnitSize :=
  Sized.perUnit_mul (w := { w with isS3WriteDiCheckEnabled := true })
    ⟨hw.buf_pos, hw.unit_pos, hw.dvd, rfl⟩

variable {r : Nat}

theorem unit_full_iff (hw : Divided w) {c len : Nat} (hr : r < w.buffersPerUnit) (hpos : 0 < len)
    (hle : len ≤ w.sizeOfEachBuf) :
    ((c * w.buffersPerUnit + r) * w.sizeOfEachBuf + len) % w.motrUnitSize = 0 ↔
      len = w.sizeOfEachBuf ∧ r + 1 = w.buffersPerUnit := by
  have hsplit : (c * w.buffersPerUnit + r) * w.sizeOfEachBuf + len =
      (r * w.sizeOfEachBuf + len) + c * w.motrUnitSize := by
    rw [← hw.perUnit_mul]
    ring
  have hroom : (r + 1) * w.sizeOfEachBuf ≤ w.motrUnitSize := by
    rw [← hw.perUnit_mul]
    exact Nat.mul_le_mul_right _ hr
  have hsucc : (r + 1) * w.sizeOfEachBuf = r * w.sizeOfEachBuf + w.sizeOfEachBuf := by ring
  rw [hsplit, Nat.add_mul_mod_self_right]
  constructor
  · intro hzero
    have hunit : r * w.sizeOfEachBuf + len = w.motrUnitSize := by
      rcases Nat.lt_or_ge (r * w.sizeOfEachBuf + len) w.motrUnitSize with hlt | hge
      · rw [Nat.mod_eq_of_lt hlt] at hzero
        omega
      · omega
    have hlen : len = w.sizeOfEachBuf := by omega
    refine ⟨hlen, ?_⟩
    have hmul : (r + 1) * w.sizeOfEachBuf = w.buffersPerUnit * w.sizeOfEachBuf := by
      rw [hw.perUnit_mul]
      omega
    exact Nat.eq_of_mul_eq_mul_right hw.buf_pos hmul
  · rintro ⟨hlen, hlast⟩
    have hunit : r * w.sizeOfEachBuf + len = w.motrUnitSize := by
      rw [← hw.perUnit_mul, ← hlast, hsucc, hlen]
    rw [hunit, Nat.mod_self]

/-! ### One operation -/

/-- How far an operation has come with full buffers. -/
structure Hashing (ctxOf : Bytes → Ctx) (w : S3MotrWiter Ctx Bytes) (before : Bytes)
    (buffers : List Bytes) (s : SetUp Ctx Bytes) : Prop where
  bufIdx : s.bufIdx = buffers.length
  pi_length : s.rwCtx.piBufvec.length = w.buffersPerUnit
  split : buffers.length = s.chksumBufIdx * w.buffersPerUnit + s.startingChecksumBufIdx
  pi : s.rwCtx.piBufvec.take s.startingChecksumBufIdx =
    buffers.drop (s.chksumBufIdx * w.buffersPerUnit)
  offset : s.unalignedBufIdxOffset = s.chksumBufIdx * w.buffersPerUnit
  running : Running ctxOf s.md5
    (before ++ (buffers.take (s.chksumBufIdx * w.buffersPerUnit)).flatten)
  /-- The first unit is the one before which nothing is saved. -/
  first : (decide (s.savedLastIndex = 0) || s.initialBuffersPartWrite) = !s.md5.checksumSaved
  flag : s.s3ChecksumFlag.firstUnit = false

variable {before : Bytes} {buffers : List Bytes} {s : SetUp Ctx Bytes}

theorem hashing_addedBuffer (hs : Hashing ctxOf w before buffers s)
    (hroom : s.startingChecksumBufIdx < w.buffersPerUnit) (buf : DataBuffer) :
    Hashing ctxOf w before (buffers ++ [buf.mem]) (addedBuffer w s buf) := by
  have hsplit := hs.split
  have hle : s.chksumBufIdx * w.buffersPerUnit ≤ buffers.length := by omega
  refine ⟨?_, ?_, ?_, ?_, hs.offset, ?_, hs.first, hs.flag⟩
  · show s.bufIdx + 1 = _
    rw [hs.bufIdx, length_append, length_singleton]
  · show (s.rwCtx.piBufvec.set _ _).length = _
    rw [length_set, hs.pi_length]
  · show _ = s.chksumBufIdx * w.buffersPerUnit + (s.startingChecksumBufIdx + 1)
    rw [length_append, length_singleton]
    omega
  · show (s.rwCtx.piBufvec.set s.startingChecksumBufIdx buf.mem).take
      (s.startingChecksumBufIdx + 1) = (buffers ++ [buf.mem]).drop (s.chksumBufIdx * w.buffersPerUnit)
    rw [take_set_succ (by rw [hs.pi_length]; exact hroom), hs.pi, drop_append_of_le_length hle]
  · show Running ctxOf s.md5
      (before ++ ((buffers ++ [buf.mem]).take (s.chksumBufIdx * w.buffersPerUnit)).flatten)
    rw [take_append_of_le_length hle]
    exact hs.running

/-- The context a unit is calculated from: none before the first, and the saved one after that. -/
theorem s3CalculateUnitPi_md5 (m : MotrPi Ctx Bytes) (h : MD5hash Ctx Bytes)
    (rwCtx : RwOpContext Ctx Bytes) (index offset : Nat) (oid : M0Uint128) (flag : ChecksumFlag)
    (hflag : flag.firstUnit = !h.checksumSaved) :
    ∃ seed, (h.s3CalculateUnitPi m rwCtx index offset oid flag).1.md5ctx =
        m.update ⟨seed, if h.checksumSaved then h.md5ctx else m.init, rwCtx.piBufvec.flatten⟩ ∧
      (h.s3CalculateUnitPi m rwCtx index offset oid flag).1.checksumSaved = true ∧
      (h.s3CalculateUnitPi m rwCtx index offset oid flag).1.isInitialized =
        (h.isInitialized || !h.checksumSaved) ∧
      (h.s3CalculateUnitPi m rwCtx index offset oid flag).1.isFinalized = h.isFinalized := by
  unfold MD5hash.s3CalculateUnitPi MotrPi.motrClientCalculatePi
  rw [hflag]
  cases h.checksumSaved with
  | true | false => exact ⟨_, rfl, rfl, rfl, rfl⟩

/-- The flag for the first unit is set where nothing is saved yet. -/
theorem calledForFirstUnit_spec {s : SetUp Ctx Bytes}
    (hfirst : (decide (s.savedLastIndex = 0) || s.initialBuffersPartWrite) = !s.md5.checksumSaved)
    (hflag : s.s3ChecksumFlag.firstUnit = false) (reset : Bool) :
    (calledForFirstUnit s reset).s3ChecksumFlag.firstUnit = !s.md5.checksumSaved ∧
      (calledForFirstUnit s reset).md5 = s.md5 ∧ (calledForFirstUnit s reset).rwCtx = s.rwCtx := by
  unfold calledForFirstUnit
  rw [hfirst]
  cases s.md5.checksumSaved with
  | true => exact ⟨hflag, rfl, rfl⟩
  | false => exact ⟨rfl, rfl, rfl⟩

theorem running_calcUnit (hm : IncrementalMd5 m md5 ctxOf) (hr : Running ctxOf s.md5 seen)
    (hfirst : (decide (s.savedLastIndex = 0) || s.initialBuffersPartWrite) = !s.md5.checksumSaved)
    (hflag : s.s3ChecksumFlag.firstUnit = false) (reset : Bool) :
    Running ctxOf (calcUnitPiInfo m w s reset).md5 (seen ++ s.rwCtx.piBufvec.flatten) ∧
      (calcUnitPiInfo m w s reset).md5.checksumSaved = true := by
  obtain ⟨hcalled, hmd5, hrw⟩ := calledForFirstUnit_spec hfirst hflag reset
  obtain ⟨t, ht⟩ : ∃ t, t = calledForFirstUnit s reset := ⟨_, rfl⟩
  rw [← ht] at hcalled hmd5 hrw
  obtain ⟨seed, hctx, hsaved, hinit, hfin⟩ := s3CalculateUnitPi_md5 m t.md5 t.rwCtx t.chksumBufIdx
    t.savedLastIndex w.oid
    { t.s3ChecksumFlag with seedUnit := t.s3ChecksumFlag.seedUnit || w.isS3WriteDiCheckEnabled }
    (by rw [hmd5]; exact hcalled)
  have hcalc : (calcUnitPiInfo m w s reset).md5 = (t.md5.s3CalculateUnitPi m t.rwCtx t.chksumBufIdx
      t.savedLastIndex w.oid { t.s3ChecksumFlag with
        seedUnit := t.s3ChecksumFlag.seedUnit || w.isS3WriteDiCheckEnabled }).1 := by
    rw [ht]
    rfl
  rw [← hcalc] at hctx hsaved hinit hfin
  rw [hmd5, hrw] at hctx
  rw [hmd5] at hinit hfin
  refine ⟨⟨hfin.trans hr.unfinalized, ?_, fun _ => ?_, fun hno => ?_⟩, hsaved⟩
  · rw [hinit, hsaved, hr.initialized]
    cases s.md5.checksumSaved <;> rfl
  · rw [hctx]
    cases hwas : s.md5.checksumSaved with
    | true =>
      rw [if_pos rfl, hr.context hwas, hm.update]
    | false =>
      rw [if_neg Bool.false_ne_true, hm.init, hr.fresh hwas, hm.update]
  · rw [hsaved] at hno
    cases hno

theorem hashing_calcAligned (hm : IncrementalMd5 m md5 ctxOf)
    (hs : Hashing ctxOf w before buffers s) (hfull : s.startingChecksumBufIdx = w.buffersPerUnit)
    (hlast : 0 < s.lastIndex) :
    Hashing ctxOf w before buffers (calcAlignedPiInfo m w s) ∧
      (calcAlignedPiInfo m w s).md5.checksumSaved = true := by
  obtain ⟨hrunning, hsaved⟩ := running_calcUnit (w := w) hm hs.running hs.first hs.flag true
  obtain ⟨-, -, hlastIndex, hidx, hpi, hnext⟩ := calcUnitPiInfo_frame m w s true
  have hsplit := hs.split
  have hmul : (s.chksumBufIdx + 1) * w.buffersPerUnit =
      s.chksumBufIdx * w.buffersPerUnit + w.buffersPerUnit := by ring
  have hunit : s.rwCtx.piBufvec = buffers.drop (s.chksumBufIdx * w.buffersPerUnit) := by
    rw [← hs.pi, hfull, take_of_length_le hs.pi_length.le]
  have hinitial : (calcUnitPiInfo m w s true).initialBuffersPartWrite = false := by
    have hreset : (calledForFirstUnit s true).initialBuffersPartWrite = false := by
      have hfirst := hs.first
      unfold calledForFirstUnit
      rw [hfirst]
      cases hwas : s.md5.checksumSaved with
      | true =>
        rw [hwas] at hfirst
        exact (Bool.or_eq_false_iff.mp hfirst).2
      | false => exact Bool.and_false _
    exact hreset
  refine ⟨⟨hidx.trans hs.bufIdx, (congrArg List.length hpi).trans hs.pi_length, ?_, ?_, ?_, ?_, ?_,
    rfl⟩, hsaved⟩
  · show buffers.length = (calcUnitPiInfo m w s true).chksumBufIdx * _ + 0
    rw [hnext]
    omega
  · show _ = buffers.drop ((calcUnitPiInfo m w s true).chksumBufIdx * _)
    rw [hnext, drop_of_length_le (by omega)]
    exact take_zero
  · show (calcUnitPiInfo m w s true).bufIdx = (calcUnitPiInfo m w s true).chksumBufIdx * _
    rw [hidx, hnext, hs.bufIdx]
    omega
  · show Running ctxOf (calcUnitPiInfo m w s true).md5
      (before ++ (buffers.take ((calcUnitPiInfo m w s true).chksumBufIdx * _)).flatten)
    rw [hnext, take_of_length_le (by omega)]
    rw [hunit, append_assoc, ← flatten_append, take_append_drop] at hrunning
    exact hrunning
  · show (decide ((calcUnitPiInfo m w s true).lastIndex = 0) ||
      (calcUnitPiInfo m w s true).initialBuffersPartWrite) =
        !(calcUnitPiInfo m w s true).md5.checksumSaved
    rw [hinitial, hsaved, hlastIndex, decide_eq_false (by omega)]
    rfl

variable {buf : DataBuffer}

theorem addedBuffer_full_iff (hw : Divided w) (hs : Hashing ctxOf w before buffers s)
    (hroom : s.startingChecksumBufIdx < w.buffersPerUnit)
    (hsize : s.sizeInCurrentWrite = buffers.length * w.sizeOfEachBuf) (hpos : 0 < buf.len)
    (hle : buf.len ≤ w.sizeOfEachBuf) :
    (addedBuffer w s buf).sizeInCurrentWrite % w.motrUnitSize = 0 ↔
      buf.len = w.sizeOfEachBuf ∧ s.startingChecksumBufIdx + 1 = w.buffersPerUnit := by
  have hboundary := unit_full_iff hw (c := s.chksumBufIdx) hroom hpos hle
  rw [← hs.split, ← hsize] at hboundary
  exact hboundary

/-- A buffer full of data.  The unit is full if and only if it is the last of it. -/
theorem hashing_addDataBuffer (hw : Divided w) (hm : IncrementalMd5 m md5 ctxOf)
    (hs : Hashing ctxOf w before buffers s) (hroom : s.startingChecksumBufIdx < w.buffersPerUnit)
    (hsize : s.sizeInCurrentWrite = buffers.length * w.sizeOfEachBuf)
    (hlen : buf.len = w.sizeOfEachBuf) :
    Hashing ctxOf w before (buffers ++ [buf.mem]) (addDataBuffer m w s buf) ∧
      (addDataBuffer m w s buf).startingChecksumBufIdx < w.buffersPerUnit ∧
      (addDataBuffer m w s buf).sizeInCurrentWrite =
        (buffers ++ [buf.mem]).length * w.sizeOfEachBuf := by
  have hpos := hw.buf_pos
  have hadded := hashing_addedBuffer hs hroom buf
  have hsizeAdded : (addedBuffer w s buf).sizeInCurrentWrite =
      (buffers ++ [buf.mem]).length * w.sizeOfEachBuf := by
    show s.sizeInCurrentWrite + buf.len = _
    rw [hsize, hlen, length_append, length_singleton]
    ring
  have hboundary := addedBuffer_full_iff hw hs hroom hsize (by omega) hlen.le
  rw [addDataBuffer_eq]
  by_cases hfull : s.startingChecksumBufIdx + 1 = w.buffersPerUnit
  · rw [if_pos (hboundary.mpr ⟨hlen, hfull⟩)]
    have hlast : 0 < (addedBuffer w s buf).lastIndex := by
      show 0 < s.lastIndex + w.sizeOfEachBuf
      omega
    refine ⟨(hashing_calcAligned hm hadded hfull hlast).1, perUnit_pos, ?_⟩
    rw [calcAlignedPiInfo_size, hsizeAdded]
  · rw [if_neg fun h => hfull (hboundary.mp h).2]
    refine ⟨hadded, ?_, hsizeAdded⟩
    show s.startingChecksumBufIdx + 1 < _
    omega

theorem hashing_foldl (hw : Divided w) (hm : IncrementalMd5 m md5 ctxOf) (bufs : List DataBuffer)
    (hfull : ∀ buf ∈ bufs, buf.len = w.sizeOfEachBuf)
    (hs : Hashing ctxOf w before buffers s) (hroom : s.startingChecksumBufIdx < w.buffersPerUnit)
    (hsize : s.sizeInCurrentWrite = buffers.length * w.sizeOfEachBuf) :
    Hashing ctxOf w before (buffers ++ bufs.map (·.mem)) (bufs.foldl (addDataBuffer m w) s) ∧
      (bufs.foldl (addDataBuffer m w) s).startingChecksumBufIdx < w.buffersPerUnit ∧
      (bufs.foldl (addDataBuffer m w) s).sizeInCurrentWrite =
        (buffers ++ bufs.map (·.mem)).length * w.sizeOfEachBuf := by
  induction bufs generalizing buffers s with
  | nil => simpa using ⟨hs, hroom, hsize⟩
  | cons buf bufs ih =>
    obtain ⟨hs', hroom', hsize'⟩ :=
      hashing_addDataBuffer hw hm hs hroom hsize (hfull buf mem_cons_self)
    have hrest := ih (fun x hx => hfull x (mem_cons_of_mem _ hx)) hs' hroom' hsize'
    simpa using hrest

/-! ### After the last buffer -/

theorem align_frame (placeHolder : Bytes) (k : Nat) (s : SetUp Ctx Bytes) :
    let t := (List.replicate k placeHolder).foldl (addBufferToMotrStructures w) s
    t.md5 = s.md5 ∧ t.savedLastIndex = s.savedLastIndex ∧
      t.initialBuffersPartWrite = s.initialBuffersPartWrite ∧ t.lenInBuf = s.lenInBuf ∧
      t.calculatedChksumAtUnitBoundary = s.calculatedChksumAtUnitBoundary ∧
      t.rwCtx.piBufvec.take s.startingChecksumBufIdx =
        s.rwCtx.piBufvec.take s.startingChecksumBufIdx := by
  induction k generalizing s with
  | zero => exact ⟨rfl, rfl, rfl, rfl, rfl, rfl⟩
  | succ k ih =>
    obtain ⟨hmd5, hsaved, hinitial, hlen, hcalc, hpi⟩ := ih (addBufferToMotrStructures w s placeHolder)
    refine ⟨hmd5, hsaved, hinitial, hlen, hcalc, ?_⟩
    have hstart : (addBufferToMotrStructures w s placeHolder).startingChecksumBufIdx =
        s.startingChecksumBufIdx + 1 := rfl
    have hset : (addBufferToMotrStructures w s placeHolder).rwCtx.piBufvec =
        s.rwCtx.piBufvec.set s.startingChecksumBufIdx placeHolder := rfl
    rw [hstart, hset] at hpi
    have htake := congrArg (List.take s.startingChecksumBufIdx) hpi
    rw [take_take, take_take, Nat.min_eq_left (Nat.le_succ _),
      take_set_of_le (Nat.le_refl _)] at htake
    exact htake

/-- A checksum that is not at the end of a unit of data leaves the rest as it was. -/
theorem calcUnit_frame (m : MotrPi Ctx Bytes) (w : S3MotrWiter Ctx Bytes) (s : SetUp Ctx Bytes) :
    (calcUnitPiInfo m w s false).md5.md5ctxPreUnaligned = s.md5.md5ctxPreUnaligned ∧
      (calcUnitPiInfo m w s false).savedLastIndex = s.savedLastIndex ∧
      (calcUnitPiInfo m w s false).initialBuffersPartWrite = s.initialBuffersPartWrite ∧
      (calcUnitPiInfo m w s false).lenInBuf = s.lenInBuf ∧
      (calcUnitPiInfo m w s false).calculatedChksumAtUnitBoundary =
        s.calculatedChksumAtUnitBoundary ∧
      (calcUnitPiInfo m w s false).rwCtx.piBufvec = s.rwCtx.piBufvec := by
  simp only [calcUnitPiInfo, MD5hash.s3CalculateUnitPi, calledForFirstUnit]
  split <;> simp

theorem calcFinal_md5 (m : MotrPi Ctx Bytes) {saved : Bool} (bufvec : List Bytes)
    (hfirst : (decide (s.savedLastIndex = 0) || s.initialBuffersPartWrite) = !saved)
    (hflag : s.s3ChecksumFlag.firstUnit = false) :
    (calcFinalPiInfo m s bufvec).md5.isFinalized = true ∧
      (calcFinalPiInfo m s bufvec).md5.md5Digest =
        some (m.value ⟨none, if saved then s.md5.md5ctxPreUnaligned else m.init,
          bufvec.flatten⟩) := by
  unfold calcFinalPiInfo calledForFirstUnit MD5hash.s3CalculateUnalignedBuffsPi
    MotrPi.motrClientCalculatePi
  rw [hfirst]
  cases saved with
  | true =>
    simp only [Bool.not_true, Bool.false_eq_true, if_false, hflag, reduceCtorEq, if_true]
    exact ⟨trivial, trivial⟩
  | false =>
    simp only [Bool.not_false, if_true, Bool.false_eq_true, if_false]
    exact ⟨trivial, trivial⟩

theorem running_of_whole (hs : Hashing ctxOf w before buffers s)
    (hend : s.startingChecksumBufIdx = 0) (hcalc : s.calculatedChksumAtUnitBoundary = true)
    (hlen : s.lenInBuf = w.sizeOfEachBuf) (placeHolder : Bytes) (count : Nat) :
    Running ctxOf (finishMotrDataBuffers m w s placeHolder count).md5 (before ++ buffers.flatten) ∧
      (finishMotrDataBuffers m w s placeHolder count).md5.checksumSaved = s.md5.checksumSaved := by
  have hsplit := hs.split
  have hrunning := hs.running
  rw [take_of_length_le (by omega)] at hrunning
  have hunaligned : s.bufIdx - s.unalignedBufIdxOffset = 0 := by
    rw [hs.bufIdx, hs.offset]
    omega
  obtain ⟨s₁, hs₁⟩ : ∃ s₁, s₁ =
      if s.md5.checksumSaved then { s with md5 := { s.md5 with md5ctxPreUnaligned := s.md5.md5ctx } }
      else s := ⟨_, rfl⟩
  have hkept : Running ctxOf s₁.md5 (before ++ buffers.flatten) ∧
      s₁.md5.checksumSaved = s.md5.checksumSaved ∧ s₁.lenInBuf = s.lenInBuf ∧
      s₁.calculatedChksumAtUnitBoundary = s.calculatedChksumAtUnitBoundary := by
    rw [hs₁]
    split
    · exact ⟨⟨hrunning.unfinalized, hrunning.initialized, hrunning.context, hrunning.fresh⟩,
        rfl, rfl, rfl⟩
    · exact ⟨hrunning, rfl, rfl, rfl⟩
  obtain ⟨hrunning₁, hsaved₁, hlen₁, hcalc₁⟩ := hkept
  obtain ⟨hmd5, -, -, hlen₂, hcalc₂, -⟩ := align_frame (w := w) placeHolder (count - s₁.bufIdx) s₁
  simp only [finishMotrDataBuffers, alignDataToMotrUnitSize]
  rw [← hs₁, hunaligned]
  simp only [ne_eq, not_true_eq_false, decide_false, Bool.and_false, Bool.false_eq_true, if_false]
  rw [hcalc₂, hcalc₁, hcalc, hlen₂, hlen₁, hlen]
  simp only [Bool.not_true, Bool.false_or, not_true_eq_false, decide_false, Bool.false_eq_true,
    if_false]
  rw [hmd5]
  exact ⟨hrunning₁, hsaved₁⟩

variable {last : Bytes}

theorem dataOfUnit {pi before : List Bytes} (hr : 0 < r) (hpi : pi.take r = before ++ [last])
    (hlen : (before ++ [last]).length = r) (len : Nat) :
    (pi.take (r - 1) ++ [(pi.getD (r - 1) []).take len]).flatten =
      before.flatten ++ last.take len := by
  rw [length_append, length_singleton] at hlen
  have hfirst : pi.take (r - 1) = before := by
    have htake := congrArg (List.take (r - 1)) hpi
    rw [take_take, Nat.min_eq_left (Nat.sub_le r 1), take_left' (by omega)] at htake
    exact htake
  have hlast : pi.getD (r - 1) [] = last := by
    have hget : (pi.take r)[r - 1]? = (before ++ [last])[r - 1]? := by rw [hpi]
    rw [List.getElem?_take_of_lt (by omega), List.getElem?_append_right (by omega),
      show r - 1 - before.length = 0 by omega] at hget
    rw [getD_eq_getElem?_getD, hget]
    rfl
  rw [hfirst, hlast, flatten_append, flatten_singleton]

theorem digest_of_begun (hm : IncrementalMd5 m md5 ctxOf)
    (hs : Hashing ctxOf w before (buffers ++ [last]) s) (hbegun : 0 < s.startingChecksumBufIdx)
    (hcalc : s.calculatedChksumAtUnitBoundary = false) (placeHolder : Bytes) (count : Nat) :
    (finishMotrDataBuffers m w s placeHolder count).md5.isFinalized = true ∧
      (finishMotrDataBuffers m w s placeHolder count).md5.md5Digest =
        some (md5 (before ++ buffers.flatten ++ last.take s.lenInBuf)) := by
  have hsplit := hs.split
  rw [length_append, length_singleton] at hsplit
  obtain ⟨units, hunits⟩ : ∃ units, units = s.chksumBufIdx * w.buffersPerUnit := ⟨_, rfl⟩
  rw [← hunits] at hsplit
  have hunaligned : s.bufIdx - s.unalignedBufIdxOffset = s.startingChecksumBufIdx := by
    rw [hs.bufIdx, hs.offset, length_append, length_singleton]
    omega
  have hpi := hs.pi
  have hrunning := hs.running
  rw [← hunits, drop_append_of_le_length (by omega)] at hpi
  rw [← hunits, take_append_of_le_length (by omega)] at hrunning
  -- The context is kept aside.
  obtain ⟨s₁, hs₁⟩ : ∃ s₁, s₁ =
      if s.md5.checksumSaved then { s with md5 := { s.md5 with md5ctxPreUnaligned := s.md5.md5ctx } }
      else s := ⟨_, rfl⟩
  have hkept : (s.md5.checksumSaved = true → s₁.md5.md5ctxPreUnaligned = s.md5.md5ctx) ∧
      s₁.savedLastIndex = s.savedLastIndex ∧ s₁.initialBuffersPartWrite = s.initialBuffersPartWrite ∧
      s₁.lenInBuf = s.lenInBuf ∧
      s₁.calculatedChksumAtUnitBoundary = s.calculatedChksumAtUnitBoundary ∧
      s₁.rwCtx.piBufvec = s.rwCtx.piBufvec ∧
      s₁.startingChecksumBufIdx = s.startingChecksumBufIdx := by
    rw [hs₁]
    cases s.md5.checksumSaved with
    | true => exact ⟨fun _ => rfl, rfl, rfl, rfl, rfl, rfl, rfl⟩
    | false => exact ⟨fun h => (nomatch h), rfl, rfl, rfl, rfl, rfl, rfl⟩
  obtain ⟨hpre₁, hsaved₁, hinitial₁, hlen₁, hcalc₁, hpi₁, hstart₁⟩ := hkept
  -- The unit is filled up.
  obtain ⟨s₂, hs₂⟩ : ∃ s₂, s₂ = (List.replicate (count - s₁.bufIdx) placeHolder).foldl
      (addBufferToMotrStructures w) s₁ := ⟨_, rfl⟩
  obtain ⟨hmd5₂, hsaved₂, hinitial₂, hlen₂, hcalc₂, hpi₂⟩ :=
    align_frame (w := w) placeHolder (count - s₁.bufIdx) s₁
  rw [← hs₂] at hmd5₂ hsaved₂ hinitial₂ hlen₂ hcalc₂ hpi₂
  -- It gets its checksum, where there is one.
  obtain ⟨s₃, hs₃⟩ : ∃ s₃, s₃ =
      if w.isS3WriteDiCheckEnabled && s.bufIdx - s.unalignedBufIdxOffset ≠ 0 then
        calcUnitPiInfo m w { s₂ with s3ChecksumFlag := { seedUnit := true } } false
      else s₂ := ⟨_, rfl⟩
  have hframe : s₃.md5.md5ctxPreUnaligned = s₂.md5.md5ctxPreUnaligned ∧
      s₃.savedLastIndex = s₂.savedLastIndex ∧
      s₃.initialBuffersPartWrite = s₂.initialBuffersPartWrite ∧ s₃.lenInBuf = s₂.lenInBuf ∧
      s₃.calculatedChksumAtUnitBoundary = s₂.calculatedChksumAtUnitBoundary ∧
      s₃.rwCtx.piBufvec = s₂.rwCtx.piBufvec := by
    rw [hs₃]
    split
    · exact calcUnit_frame m w { s₂ with s3ChecksumFlag := { seedUnit := true } }
    · exact ⟨rfl, rfl, rfl, rfl, rfl, rfl⟩
  obtain ⟨hpre₃, hsaved₃, hinitial₃, hlen₃, hcalc₃, hpi₃⟩ := hframe
  have hlen : s₃.lenInBuf = s.lenInBuf := hlen₃.trans (hlen₂.trans hlen₁)
  have hno : s₃.calculatedChksumAtUnitBoundary = false :=
    hcalc₃.trans (hcalc₂.trans (hcalc₁.trans hcalc))
  have htake : s₃.rwCtx.piBufvec.take s.startingChecksumBufIdx = buffers.drop units ++ [last] := by
    rw [hstart₁] at hpi₂
    rw [hpi₃, hpi₂, hpi₁, hpi]
  have hfirst : (decide (s₃.savedLastIndex = 0) || s₃.initialBuffersPartWrite) =
      !s.md5.checksumSaved := by
    rw [hsaved₃, hsaved₂, hsaved₁, hinitial₃, hinitial₂, hinitial₁]
    exact hs.first
  have hdata := dataOfUnit hbegun htake
    (by rw [length_append, length_singleton, length_drop]; omega) s.lenInBuf
  obtain ⟨hfinal, hdigest⟩ := calcFinal_md5 m (s := { s₃ with s3ChecksumFlag := {} })
    (s₃.rwCtx.piBufvec.take (s.startingChecksumBufIdx - 1) ++
      [(s₃.rwCtx.piBufvec.getD (s.startingChecksumBufIdx - 1) []).take s.lenInBuf]) hfirst rfl
  have hresult : (finishMotrDataBuffers m w s placeHolder count).md5 =
      (calcFinalPiInfo m { s₃ with s3ChecksumFlag := {} }
        (s₃.rwCtx.piBufvec.take (s.startingChecksumBufIdx - 1) ++
          [(s₃.rwCtx.piBufvec.getD (s.startingChecksumBufIdx - 1) []).take s.lenInBuf])).md5 := by
    simp only [finishMotrDataBuffers, alignDataToMotrUnitSize]
    rw [← hs₁, ← hs₂, ← hs₃, hno, hunaligned, if_pos (by rfl), if_pos (by omega), hlen]
  rw [hresult]
  refine ⟨hfinal, ?_⟩
  rw [hdigest, hdata]
  -- What was kept aside stands for the units that are full.
  have hcontext : (if s.md5.checksumSaved then s₃.md5.md5ctxPreUnaligned else m.init) =
      ctxOf (before ++ (buffers.take units).flatten) := by
    cases hwas : s.md5.checksumSaved with
    | true => rw [if_pos rfl, hpre₃, hmd5₂, hpre₁ hwas, hrunning.context hwas]
    | false => rw [if_neg Bool.false_ne_true, hm.init, hrunning.fresh hwas]
  have hall : before ++ (buffers.take units).flatten ++ ((buffers.drop units).flatten ++
      last.take s.lenInBuf) = before ++ buffers.flatten ++ last.take s.lenInBuf := by
    rw [append_assoc, append_assoc, ← append_assoc (buffers.take units).flatten,
      ← flatten_append, take_append_drop]
  show some (m.value ⟨none, if s.md5.checksumSaved then s₃.md5.md5ctxPreUnaligned else m.init,
    _⟩) = _
  rw [hcontext, hm.value, hall]

/-! ### One call -/

/-- The data of a call. -/
def WriteOp.content (op : WriteOp) : Bytes := op.buffers.flatMap fun buf => buf.mem.take buf.len

/-- What a writer is between the calls: nothing is finalized, and the next unit is the first of the
object if and only if nothing is saved. -/
structure Ready (ctxOf : Bytes → Ctx) (w : S3MotrWiter Ctx Bytes) (first : Bool) (before : Bytes) :
    Prop where
  running : Running ctxOf w.md5 before
  first : (decide (w.lastIndex = 0) || first) = !w.md5.checksumSaved

/-- Buffers of one size, and all but the last are full. -/
structure WriteOp.Filled (size : Nat) (op : WriteOp) : Prop where
  nonempty : op.buffers ≠ []
  mem : ∀ buf ∈ op.buffers, buf.mem.length = size
  full : ∀ buf ∈ op.buffers.dropLast, buf.len = size
  last : ∀ buf ∈ op.buffers.getLast?, 0 < buf.len ∧ buf.len ≤ size

theorem content_of_full {bufs : List DataBuffer} {size : Nat}
    (hmem : ∀ buf ∈ bufs, buf.mem.length = size) (hfull : ∀ buf ∈ bufs, buf.len = size) :
    bufs.flatMap (fun buf => buf.mem.take buf.len) = (bufs.map (·.mem)).flatten := by
  rw [flatMap_def]
  congr 1
  refine map_congr_left fun buf hbuf => ?_
  exact take_of_length_le (by rw [hmem buf hbuf, hfull buf hbuf])

variable {first : Bool} {op : WriteOp}

/-- A call ends with a unit, and the context goes on, or the digest is made. -/
theorem setUp_cases (hw : Divided w) (hm : IncrementalMd5 m md5 ctxOf)
    (hr : Ready ctxOf w first before) (hop : op.Filled w.sizeOfEachBuf) :
    (Running ctxOf (w.setUpMotrDataBuffers m first op.buffers op.placeHolder).md5
        (before ++ op.content) ∧
      (w.setUpMotrDataBuffers m first op.buffers op.placeHolder).md5.checksumSaved = true) ∨
    ((w.setUpMotrDataBuffers m first op.buffers op.placeHolder).md5.isFinalized = true ∧
      (w.setUpMotrDataBuffers m first op.buffers op.placeHolder).md5.md5Digest =
        some (md5 (before ++ op.content)) ∧
      ¬ ((∀ buf ∈ op.buffers, buf.len = w.sizeOfEachBuf) ∧
        w.buffersPerUnit ∣ op.buffers.length)) := by
  obtain ⟨init, last, hconcat⟩ := (eq_nil_or_concat' op.buffers).resolve_left hop.nonempty
  have hinit : ∀ buf ∈ init, buf.len = w.sizeOfEachBuf := by
    intro buf hbuf
    exact hop.full buf (by simpa [hconcat] using hbuf)
  have hinitMem : ∀ buf ∈ init, buf.mem.length = w.sizeOfEachBuf := by
    intro buf hbuf
    exact hop.mem buf (by simp [hconcat, hbuf])
  have hlastMem : last.mem.length = w.sizeOfEachBuf := hop.mem last (by simp [hconcat])
  obtain ⟨hpos, hle⟩ := hop.last last (by simp [hconcat])
  have hcontent : op.content = (init.map (·.mem)).flatten ++ last.mem.take last.len := by
    unfold WriteOp.content
    rw [hconcat, flatMap_append, content_of_full hinitMem hinit]
    simp
  obtain ⟨s₀, hs₀⟩ : ∃ s₀ : SetUp Ctx Bytes, s₀ =
      { rwCtx := w.initWriteOpCtx m (w.motrBufCount op.buffers.length)
        md5 := w.md5
        lastIndex := w.lastIndex
        savedLastIndex := w.lastIndex
        initialBuffersPartWrite := first } := ⟨_, rfl⟩
  have hstart : Hashing ctxOf w before [] s₀ := by
    rw [hs₀]
    refine ⟨rfl, by simp [initWriteOpCtx], by simp, by simp, by simp, ?_, hr.first, rfl⟩
    have hrunning := hr.running
    simpa using hrunning
  have hroom₀ : s₀.startingChecksumBufIdx < w.buffersPerUnit := by
    rw [hs₀]
    exact perUnit_pos
  obtain ⟨hs, hroom, hsize⟩ := hashing_foldl hw hm init hinit hstart hroom₀
    (by rw [hs₀]; simp)
  rw [nil_append] at hs hsize
  obtain ⟨s, hsdef⟩ : ∃ s, s = init.foldl (addDataBuffer m w) s₀ := ⟨_, rfl⟩
  rw [← hsdef] at hs hroom hsize
  have hboundary := addedBuffer_full_iff hw hs hroom hsize hpos hle
  have hadded := hashing_addedBuffer hs hroom last
  have hsetUp : w.setUpMotrDataBuffers m first op.buffers op.placeHolder =
      finishMotrDataBuffers m w (addDataBuffer m w s last) op.placeHolder
        (w.motrBufCount op.buffers.length) := by
    unfold setUpMotrDataBuffers
    dsimp only
    rw [← hs₀, hconcat, foldl_append, ← hsdef]
    rfl
  rw [hsetUp, addDataBuffer_eq]
  by_cases hend : last.len = w.sizeOfEachBuf ∧ s.startingChecksumBufIdx + 1 = w.buffersPerUnit
  · left
    rw [if_pos (hboundary.mpr hend)]
    obtain ⟨haligned, hsaved⟩ := hashing_calcAligned hm hadded hend.2 (by
      show 0 < s.lastIndex + w.sizeOfEachBuf
      have hbuf := hw.buf_pos
      omega)
    have hlen : (calcAlignedPiInfo m w (addedBuffer w s last)).lenInBuf = w.sizeOfEachBuf := by
      have hsame : (calcAlignedPiInfo m w (addedBuffer w s last)).lenInBuf = last.len := by
        simp only [calcAlignedPiInfo, calcUnitPiInfo, calledForFirstUnit]
        split <;> rfl
      rw [hsame, hend.1]
    obtain ⟨hrunning, hkept⟩ := running_of_whole haligned rfl rfl hlen op.placeHolder
      (w.motrBufCount op.buffers.length)
    refine ⟨?_, hkept.trans hsaved⟩
    rw [hcontent, take_of_length_le (by rw [hlastMem, hend.1])]
    rw [flatten_append, flatten_singleton] at hrunning
    exact hrunning
  · right
    rw [if_neg fun h => hend (hboundary.mp h)]
    obtain ⟨hfinal, hdigest⟩ := digest_of_begun hm hadded (Nat.succ_pos _) rfl op.placeHolder
      (w.motrBufCount op.buffers.length)
    refine ⟨hfinal, ?_, ?_⟩
    · rw [hdigest, hcontent, append_assoc]
      rfl
    · rintro ⟨hall, hwhole⟩
      refine hend ⟨hall last (by simp [hconcat]), ?_⟩
      have hsplit := hs.split
      rw [length_map] at hsplit
      rw [hconcat, length_append, length_singleton, hsplit, Nat.add_assoc] at hwhole
      have hdvd := (Nat.dvd_add_right (Nat.dvd_mul_left _ _)).mp hwhole
      have hge := Nat.le_of_dvd (Nat.succ_pos _) hdvd
      omega

/-! ### The calls of an upload -/

/-- A content cut into calls: every call but the last is of whole units. -/
structure Upload (motrUnitSize sizeOfEachBuf : Nat) (ops : List WriteOp) : Prop where
  filled : ∀ op ∈ ops, op.Filled sizeOfEachBuf
  whole : ∀ op ∈ ops.dropLast, (∀ buf ∈ op.buffers, buf.len = sizeOfEachBuf) ∧
    motrUnitSize ∣ op.buffers.length * sizeOfEachBuf

/-- What `set_up_motr_data_buffers` leaves in each call of an upload. -/
def setUpAll {Digest : Type} (m : MotrPi Ctx Digest) :
    S3MotrWiter Ctx Digest → Bool → List WriteOp → List (SetUp Ctx Digest)
  | _, _, [] => []
  | w, firstPart, op :: ops =>
    let s := w.setUpMotrDataBuffers m firstPart op.buffers op.placeHolder
    s :: setUpAll m { w with md5 := s.md5, lastIndex := s.lastIndex } false ops

theorem perUnit_dvd (hw : Divided w) {n : Nat} (h : w.motrUnitSize ∣ n * w.sizeOfEachBuf) :
    w.buffersPerUnit ∣ n := by
  rw [← hw.perUnit_mul] at h
  exact Nat.dvd_of_mul_dvd_mul_right hw.buf_pos h

theorem Upload.tail {motrUnitSize sizeOfEachBuf : Nat} {ops : List WriteOp}
    (h : Upload motrUnitSize sizeOfEachBuf (op :: ops)) :
    Upload motrUnitSize sizeOfEachBuf ops := by
  refine ⟨fun x hx => h.filled x (mem_cons_of_mem _ hx), fun x hx => h.whole x ?_⟩
  cases ops with
  | nil => cases hx
  | cons op' rest => exact mem_cons_of_mem _ hx

theorem ready_writeContent (hw : Divided w) (hm : IncrementalMd5 m md5 ctxOf)
    (hr : Ready ctxOf w first before) (hop : op.Filled w.sizeOfEachBuf)
    (hfull : ∀ buf ∈ op.buffers, buf.len = w.sizeOfEachBuf)
    (hwhole : w.motrUnitSize ∣ op.buffers.length * w.sizeOfEachBuf) (o : MotrObject Ctx Bytes) :
    Ready ctxOf (w.writeContent m o first op.buffers op.placeHolder).1 false
      (before ++ op.content) := by
  rcases setUp_cases hw hm hr hop with ⟨hrunning, hsaved⟩ | ⟨-, -, hno⟩
  · have hplaced := (placed_setUp m w first op).lastIndex
    have hpos : 0 < op.buffers.length := length_pos_of_ne_nil hop.nonempty
    have hlast : 0 < (w.setUpMotrDataBuffers m first op.buffers op.placeHolder).lastIndex := by
      rw [hplaced, length_append, length_map, Nat.add_mul]
      have hmul : 0 < op.buffers.length * w.sizeOfEachBuf := Nat.mul_pos hpos hw.buf_pos
      omega
    refine ⟨hrunning, ?_⟩
    show (decide ((w.setUpMotrDataBuffers m first op.buffers op.placeHolder).lastIndex = 0) ||
      false) = !(w.setUpMotrDataBuffers m first op.buffers op.placeHolder).md5.checksumSaved
    rw [hsaved, decide_eq_false (by omega)]
    rfl
  · exact absurd ⟨hfull, perUnit_dvd hw hwhole⟩ hno

theorem digest_writeAll (hm : IncrementalMd5 m md5 ctxOf) (ops : List WriteOp) :
    ∀ {w : S3MotrWiter Ctx Bytes} {o : MotrObject Ctx Bytes} {first : Bool} {before : Bytes},
      Divided w → Ready ctxOf w first before → Upload w.motrUnitSize w.sizeOfEachBuf ops →
      (((writeAll m (w, o) first ops).1.md5).finalize m).md5Digest =
        some (md5 (before ++ ops.flatMap WriteOp.content)) := by
  induction ops with
  | nil =>
    intro w o first before hw hr hops
    rw [flatMap_nil, append_nil]
    exact finalize_of_running hm hr.running
  | cons op rest ih =>
    intro w o first before hw hr hops
    have hop := hops.filled op mem_cons_self
    cases rest with
    | nil =>
      show (((w.setUpMotrDataBuffers m first op.buffers op.placeHolder).md5).finalize m).md5Digest
        = _
      rw [flatMap_singleton]
      rcases setUp_cases hw hm hr hop with ⟨hrunning, -⟩ | ⟨hfinal, hdigest, -⟩
      · exact finalize_of_running hm hrunning
      · unfold MD5hash.finalize
        rw [if_pos hfinal]
        exact hdigest
    | cons op' rest =>
      obtain ⟨hfull, hwhole⟩ := hops.whole op mem_cons_self
      have hnext := ready_writeContent hw hm hr hop hfull hwhole o
      have hrest := ih (o := (w.writeContent m o first op.buffers op.placeHolder).2)
        (w := (w.writeContent m o first op.buffers op.placeHolder).1)
        ⟨hw.buf_pos, hw.unit_pos, hw.dvd⟩ hnext hops.tail
      rw [flatMap_cons, ← append_assoc]
      exact hrest

/-- The buffers of all calls, one behind the other, and what fills the last unit. -/
theorem placed_setUpAll (m : MotrPi Ctx Bytes) (ops : List WriteOp) :
    ∀ {w : S3MotrWiter Ctx Bytes} (first : Bool), Divided w →
      Upload w.motrUnitSize w.sizeOfEachBuf ops →
      ∃ fill : List Bytes,
        (setUpAll m w first ops).flatMap (·.rwCtx.data) =
          (ops.flatMap (·.buffers)).map (·.mem) ++ fill ∧
        (setUpAll m w first ops).flatMap (·.rwCtx.ext) =
          (List.range ((ops.flatMap (·.buffers)).length + fill.length)).map
            (w.lastIndex + · * w.sizeOfEachBuf) := by
  induction ops with
  | nil =>
    intro w first hw hops
    exact ⟨[], rfl, rfl⟩
  | cons op rest ih =>
    intro w first hw hops
    obtain ⟨hdata, hext, hlast, -⟩ := placed_setUp m w first op
    cases rest with
    | nil =>
      refine ⟨List.replicate (w.motrBufCount op.buffers.length - op.buffers.length)
        op.placeHolder, ?_, ?_⟩
      · simp only [setUpAll, flatMap_cons, flatMap_nil, append_nil]
        exact hdata
      · simp only [setUpAll, flatMap_cons, flatMap_nil, append_nil]
        rw [hext, length_append, length_map]
    | cons op' rest =>
      obtain ⟨-, hwhole⟩ := hops.whole op mem_cons_self
      have hcount : w.motrBufCount op.buffers.length = op.buffers.length := by
        have hzero := Nat.mod_eq_zero_of_dvd (perUnit_dvd hw hwhole)
        unfold motrBufCount
        rw [hzero, if_neg (by omega)]
      rw [hcount, Nat.sub_self, replicate_zero, append_nil] at hdata hext hlast
      rw [length_map] at hext hlast
      obtain ⟨s, hs⟩ : ∃ s, s = w.setUpMotrDataBuffers m first op.buffers op.placeHolder :=
        ⟨_, rfl⟩
      rw [← hs] at hdata hext hlast
      obtain ⟨fill, hdata', hext'⟩ := ih (w := { w with md5 := s.md5, lastIndex := s.lastIndex })
        false ⟨hw.buf_pos, hw.unit_pos, hw.dvd⟩ hops.tail
      have hall : setUpAll m w first (op :: op' :: rest) =
          s :: setUpAll m { w with md5 := s.md5, lastIndex := s.lastIndex } false
            (op' :: rest) := by
        rw [hs]
        rfl
      have hbuffers : (op :: op' :: rest).flatMap (·.buffers) =
          op.buffers ++ (op' :: rest).flatMap (·.buffers) := flatMap_cons
      refine ⟨fill, ?_, ?_⟩
      · rw [hall, flatMap_cons, hdata', hdata, hbuffers, map_append, append_assoc]
      · obtain ⟨n, hn⟩ : ∃ n, n = ((op' :: rest).flatMap (·.buffers)).length + fill.length :=
          ⟨_, rfl⟩
        rw [hall, flatMap_cons, hext', hext, hbuffers, length_append, Nat.add_assoc,
          ← hn, range_add, map_append, map_map]
        congr 1
        refine map_congr_left fun i _ => ?_
        show s.lastIndex + i * w.sizeOfEachBuf =
          w.lastIndex + (op.buffers.length + i) * w.sizeOfEachBuf
        rw [hlast]
        ring

theorem bufIdx_setUpAll (m : MotrPi Ctx Bytes) (ops : List WriteOp) :
    ∀ (w : S3MotrWiter Ctx Bytes) (first : Bool),
      List.Forall₂ (fun op s => s.bufIdx = w.motrBufCount op.buffers.length) ops
        (setUpAll m w first ops) := by
  induction ops with
  | nil =>
    intro w first
    exact List.Forall₂.nil
  | cons op rest ih =>
    intro w first
    refine List.Forall₂.cons ?_ (ih { w with
      md5 := (w.setUpMotrDataBuffers m first op.buffers op.placeHolder).md5
      lastIndex := (w.setUpMotrDataBuffers m first op.buffers op.placeHolder).lastIndex } false)
    rw [(placed_setUp m w first op).bufIdx, length_append, length_map, length_replicate]
    have hle := le_motrBufCount (w := w) op.buffers.length
    omega

/-- **The ETag of an upload is the MD5 of its data.**  However the data is cut into calls, nothing that
fills the last unit goes into it, with checksums for Motr or without.  Buffer i of the upload is
placed at i times the size of a buffer, and every call has placed as many buffers as it has counted. -/
theorem contentMd5_of_upload {m : MotrPi Ctx Bytes} {md5 : Bytes → Bytes} {ctxOf : Bytes → Ctx}
    (hm : IncrementalMd5 m md5 ctxOf) (opt : S3DataIntegrityOption) (oid : M0Uint128)
    {motrUnitSize sizeOfEachBuf : Nat} (hbuf : 0 < sizeOfEachBuf) (hunit : 0 < motrUnitSize)
    (hdvd : sizeOfEachBuf ∣ motrUnitSize) (offset : Nat) (firstPart : Bool)
    (hoffset : offset = 0 ∨ firstPart = true) (o : MotrObject Ctx Bytes) (ops : List WriteOp)
    (hops : Upload motrUnitSize sizeOfEachBuf ops) :
    let w : S3MotrWiter Ctx Bytes :=
      { create m opt oid motrUnitSize sizeOfEachBuf with lastIndex := offset }
    (writeAll m (w, o) firstPart ops).1.getContentMd5 m =
        MD5hash.getMd5String (md5 (ops.flatMap WriteOp.content)) ∧
      List.Forall₂ (fun op s => s.bufIdx = w.motrBufCount op.buffers.length) ops
        (setUpAll m w firstPart ops) ∧
      ∀ i buf, (ops.flatMap (·.buffers))[i]? = some buf →
        ((setUpAll m w firstPart ops).flatMap (·.rwCtx.data))[i]? = some buf.mem ∧
        ((setUpAll m w firstPart ops).flatMap (·.rwCtx.ext))[i]? =
          some (offset + i * sizeOfEachBuf) := by
  intro w
  have hw : Divided w := ⟨hbuf, hunit, hdvd⟩
  have hready : Ready ctxOf w firstPart [] := by
    refine ⟨⟨rfl, rfl, fun h => (nomatch h), fun _ => rfl⟩, ?_⟩
    rcases hoffset with hzero | hfirst
    · show (decide (offset = 0) || firstPart) = true
      rw [decide_eq_true hzero, Bool.true_or]
    · rw [hfirst, Bool.or_true]
      rfl
  refine ⟨?_, bufIdx_setUpAll m ops w firstPart, ?_⟩
  · unfold getContentMd5
    rw [digest_writeAll hm ops hw hready hops, nil_append]
    rfl
  · intro i buf hi
    obtain ⟨fill, hdata, hext⟩ := placed_setUpAll m ops firstPart hw hops
    have hlt : i < (ops.flatMap (·.buffers)).length := (List.getElem?_eq_some_iff.mp hi).1
    refine ⟨?_, ?_⟩
    · rw [hdata, List.getElem?_append_left (by rw [length_map]; exact hlt), List.getElem?_map,
        hi]
      rfl
    · rw [hext, List.getElem?_map, List.getElem?_range (by omega)]
      rfl

end Digest

/-- MD5 with a context that keeps the bytes it has seen. -/
def md5Pi : MotrPi Bytes Bytes where
  init := []
  update t := t.context ++ t.data
  value t := Md5.md5 (t.context ++ t.data ++
    (t.seed.map fun seed => Md5.bytesOf seed.dataUnitOffset 8).getD [])
  zero := ⟨[], []⟩

theorem md5Pi_incremental : IncrementalMd5 md5Pi Md5.md5 id where
  init := rfl
  update _ _ _ := rfl
  value a b := by
    show Md5.md5 (a ++ b ++ []) = _
    rw [append_nil]

/-- Two buffers that are a unit, and then one that is half full. -/
def halfUnit : List WriteOp :=
  [{ buffers := [⟨[1, 2], 2⟩, ⟨[3, 4], 2⟩], placeHolder := [9, 9] },
    { buffers := [⟨[5, 0], 1⟩], placeHolder := [9, 9] }]

theorem contentMd5_of_halfUnit :
    (writeAll md5Pi (create md5Pi (S3DataIntegrityOption.load true true) {} 4 2, {}) false
      halfUnit).1.getContentMd5 md5Pi = MD5hash.getMd5String (Md5.md5 [1, 2, 3, 4, 5]) :=
  (contentMd5_of_upload md5Pi_incremental (S3DataIntegrityOption.load true true) {} (by decide)
    (by decide) (by decide) 0 false (Or.inl rfl) {} halfUnit
    ⟨by
      intro op hop
      rcases mem_cons.mp hop with rfl | hop
      · exact ⟨by decide, by decide, by decide, by decide⟩
      · obtain rfl := mem_singleton.mp hop
        exact ⟨by decide, by decide, by decide, by decide⟩, by decide⟩).1

end S3MotrWiter

end CortxS3
