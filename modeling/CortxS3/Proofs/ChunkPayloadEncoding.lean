/-
The parser of chunked uploads undoes the encoding.

A client cuts its data into chunks, puts each into a frame and ends with a frame without data.  The
reference machine reads such a frame piece by piece, and comes back to where it started with one chunk more
(`read_chunk`); the parser comes to the same state (`upload_refines`).

That says what was read, not whether it was given out.  For that the parser counts: what is left of
`content_length` and what it has come out with is together the length of the data (`Counted`).  With the
last byte of data the count is zero, and then the spares are given out.
-/
import CortxS3.Proofs.ChunkPayloadParser

namespace CortxS3

open Option (some.inj)
open List

/-! ### The encoding -/

/-- A chunk as the client sends it; `size` is the text of its length. -/
structure EncodedChunk where
  size : Bytes
  signature : Bytes
  data : Bytes

/-- A number, written in hexadecimal digits. -/
structure WrittenInHex (text : Bytes) (n : Nat) : Prop where
  nonempty : text ≠ []
  digits : ∀ c ∈ text, (hexDigit c).isSome
  value : hexValue text 0 = n

namespace EncodedChunk

structure WellFormed (c : EncodedChunk) : Prop where
  size : WrittenInHex c.size c.data.length
  signature : cr ∉ c.signature

/-- The frame of a chunk. -/
def encode (c : EncodedChunk) : Bytes :=
  c.size ++ semicolon :: (s3AwsChunkKey ++ equalSign :: (c.signature ++ cr :: lf ::
    (c.data ++ [cr, lf])))

end EncodedChunk

/-- The frame is the text that the source gives for it. -/
example (size signature data : Bytes) :
    EncodedChunk.encode ⟨size, signature, data⟩ =
      size ++ ascii ";chunk-signature=" ++ signature ++ ascii "\r\n" ++ data ++ ascii "\r\n" := by
  simp only [EncodedChunk.encode, append_assoc]
  rfl

/-! ### The size -/

variable {c : UInt8}

theorem isSpace_of_hexDigit (h : (hexDigit c).isSome) : isSpace c = false := by
  revert c
  decide +kernel

theorem hexDigit_ne_sign (h : (hexDigit c).isSome) : c ≠ 45 ∧ c ≠ 43 := by
  revert c
  decide +kernel

theorem hexDigit_ne_mark (h : (hexDigit c).isSome) :
    (c == 120 || c == 88) = false := by
  revert c
  decide +kernel

theorem hexDigit_ne_semicolon (h : (hexDigit c).isSome) : c ≠ semicolon := by
  revert c
  decide +kernel

theorem dropHexMark_of_digits {text : Bytes} (h : ∀ c ∈ text, (hexDigit c).isSome) :
    dropHexMark text = text := by
  unfold dropHexMark
  split
  · rename_i x d rest
    rw [hexDigit_ne_mark (h x (by simp))]
    simp
  · rfl

theorem strtol16_of_writtenInHex {text : Bytes} {n : Nat} (h : WrittenInHex text n)
    (hn : n < 2 ^ 63) : strtol16 text = n := by
  cases htext : text with
  | nil => exact absurd htext h.nonempty
  | cons c rest =>
    have hc : (hexDigit c).isSome := h.digits c (by rw [htext]; exact mem_cons_self)
    have hdrop : (c :: rest).dropWhile isSpace = c :: rest := by
      rw [dropWhile_cons_of_neg (by simp [isSpace_of_hexDigit hc])]
    obtain ⟨hminus, hplus⟩ := hexDigit_ne_sign hc
    have hvalue : hexValue (dropHexMark (c :: rest)) 0 = n := by
      rw [← htext, dropHexMark_of_digits h.digits, h.value]
    unfold strtol16
    rw [hdrop]
    split
    · rename_i heq
      exact absurd (List.cons.inj heq).1 hminus
    · rename_i heq
      exact absurd (List.cons.inj heq).1 hplus
    · rw [hvalue]
      omega

/-! ### The reference on a frame -/

namespace ChunkStream

variable {sha256 : Bytes → Bytes}

variable {t : ChunkStream}

theorem foldl_leaveStart {bytes : Bytes} (h : bytes ≠ []) :
    bytes.foldl (read sha256) t = bytes.foldl (read sha256) t.leaveStart := by
  cases bytes with
  | nil => exact absurd rfl h
  | cons ch rest => rw [foldl_cons, foldl_cons, read_leaveStart]

theorem foldl_read_size :
    ∀ (text : Bytes) (t : ChunkStream), t.parserState = .cChunkSize →
      (∀ c ∈ text, (hexDigit c).isSome) →
      text.foldl (read sha256) t = { t with currentChunkSize := t.currentChunkSize ++ text } := by
  intro text
  induction text with
  | nil => intro t _ _; simp
  | cons c rest ih =>
    intro t hs hdigits
    have hne := hexDigit_ne_semicolon (hdigits c mem_cons_self)
    have hone : t.read sha256 c = { t with currentChunkSize := t.currentChunkSize ++ [c] } := by
      rw [read_of_ne (by rw [hs]; decide)]
      unfold readFrame
      rw [hs]
      simp only [if_neg hne]
    rw [foldl_cons, hone, ih { t with currentChunkSize := t.currentChunkSize ++ [c] } hs
      fun d hd => hdigits d (mem_cons_of_mem _ hd)]
    simp

theorem foldl_read_key :
    ∀ (key : Bytes) (t : ChunkStream), t.parserState = .cChunkSignatureKey →
      t.chunkSigKeyCharState = key →
      key.foldl (read sha256) t = { t with chunkSigKeyCharState := [] } := by
  intro key
  induction key with
  | nil =>
    intro t _ hkey
    rw [foldl_nil, ← hkey]
  | cons c rest ih =>
    intro t hs hkey
    have hone : t.read sha256 c = { t with chunkSigKeyCharState := rest } := by
      rw [read_of_ne (by rw [hs]; decide)]
      unfold readFrame
      rw [hs, hkey]
      simp only [if_true]
    rw [foldl_cons, hone, ih { t with chunkSigKeyCharState := rest } hs rfl]

theorem foldl_read_signature :
    ∀ (signature : Bytes) (t : ChunkStream), t.parserState = .cChunkSignatureValue →
      cr ∉ signature →
      signature.foldl (read sha256) t =
        { t with currentChunkSignature := t.currentChunkSignature ++ signature } := by
  intro signature
  induction signature with
  | nil => intro t _ _; simp
  | cons c rest ih =>
    intro t hs hcr
    have hne : c ≠ cr := fun hc => hcr (by rw [hc]; exact mem_cons_self)
    have hone : t.read sha256 c =
        { t with currentChunkSignature := t.currentChunkSignature ++ [c] } := by
      rw [read_of_ne (by rw [hs]; decide)]
      unfold readFrame
      rw [hs]
      simp only [if_neg hne]
    rw [foldl_cons, hone,
      ih { t with currentChunkSignature := t.currentChunkSignature ++ [c] } hs
        fun hmem => hcr (mem_cons_of_mem _ hmem)]
    simp

theorem read_semicolon (hs : t.parserState = .cChunkSize) :
    t.read sha256 semicolon = { t with
      parserState := .cChunkSignatureKey
      chunkSigKeyCharState := s3AwsChunkKey
      chunkDataSizeToRead := toSize (strtol16 t.currentChunkSize)
      currentChunkDetail :=
        t.currentChunkDetail.addSize (toSize (strtol16 t.currentChunkSize)) } := by
  rw [read_of_ne (by rw [hs]; decide)]
  unfold readFrame
  rw [hs]
  simp only [if_true]

theorem read_equalSign (hs : t.parserState = .cChunkSignatureKey)
    (hkey : t.chunkSigKeyCharState = []) :
    t.read sha256 equalSign = { t with parserState := .cChunkSignatureValue } := by
  rw [read_of_ne (by rw [hs]; decide)]
  unfold readFrame
  rw [hs, hkey]
  simp only [if_true]

theorem read_cr_lf (hs : t.parserState = .cChunkSignatureValue) :
    (t.read sha256 cr).read sha256 lf = { t with
      parserState := .cChunkData
      currentChunkDetail := t.currentChunkDetail.addSignature t.currentChunkSignature } := by
  have hone : t.read sha256 cr = { t with parserState := .cCr } := by
    rw [read_of_ne (by rw [hs]; decide)]
    unfold readFrame
    rw [hs]
    simp only [if_true]
  rw [hone, read_of_ne (by simp)]
  simp only [readFrame, if_true]

theorem foldl_read_body {d : Bytes} (hs : t.parserState = .cChunkData)
    (hsize : t.chunkDataSizeToRead = d.length) :
    (d ++ [cr, lf]).foldl (read sha256) t = { t with
      parserState := .cStart
      data := t.data ++ d
      chunkDataSizeToRead := 0
      currentChunkDetail := (t.currentChunkDetail.updateHash d).finiHash sha256
      chunkDetails := t.chunkDetails ++ [(t.currentChunkDetail.updateHash d).finiHash sha256] } := by
  rw [foldl_append]
  by_cases hd : d = []
  · subst hd
    have hone : t.read sha256 cr = { t with parserState := .cChunkDataEndLf } := by
      rw [read_of_ne (by rw [hs]; decide)]
      unfold readFrame readData readEndCr
      rw [hs]
      simp only [hsize, length_nil, Nat.lt_irrefl, if_false, if_true]
    rw [foldl_nil, foldl_cons, hone, foldl_cons, foldl_nil,
      read_of_ne (by simp)]
    simp only [readFrame, if_true]
    rw [length_nil] at hsize
    simp [S3ChunkDetail.updateHash, hsize]
  · rw [foldl_read_data d t hs hd (Nat.le_of_eq hsize.symm), hsize, if_pos rfl, Nat.sub_self,
      foldl_cons, foldl_cons, foldl_nil]
    simp [read, leaveStart, readFrame, readEndCr]

/-- What the reference knows of a chunk when its frame has been read. -/
def Describes (sha256 : Bytes → Bytes) (d : S3ChunkDetail) (c : EncodedChunk) : Prop :=
  d.chunkSize = c.data.length ∧ d.signature = c.signature ∧ d.payloadHash = sha256 c.data ∧
    d.ready = true

variable (sha256) in
/-- **A frame is read to its end, and leaves its data and its detail.** -/
theorem read_chunk {c : EncodedChunk} (hs : t.parserState = .cStart) (hc : c.WellFormed)
    (hlen : c.data.length < 2 ^ 63) :
    ∃ d, Describes sha256 d c ∧
      (c.encode.foldl (read sha256) t).parserState = .cStart ∧
      (c.encode.foldl (read sha256) t).data = t.data ++ c.data ∧
      (c.encode.foldl (read sha256) t).chunkDetails = t.chunkDetails ++ [d] := by
  have hsize : toSize (strtol16 c.size) = c.data.length := by
    rw [strtol16_of_writtenInHex hc.size hlen]
    exact toSize_natCast (by unfold sizeMod; omega)
  have hstart : t.leaveStart.parserState = .cChunkSize := by
    unfold leaveStart
    rw [if_pos hs]
  have hempty : t.leaveStart.currentChunkSize = [] ∧ t.leaveStart.currentChunkSignature = [] := by
    unfold leaveStart
    rw [if_pos hs]
    exact ⟨rfl, rfl⟩
  have hkept : t.leaveStart.chunkDetails = t.chunkDetails ∧ t.leaveStart.data = t.data ∧
      t.leaveStart.currentChunkDetail.hashCtx = [] := by
    unfold leaveStart
    rw [if_pos hs]
    exact ⟨rfl, rfl, rfl⟩
  rw [foldl_leaveStart (by simp [EncodedChunk.encode])]
  generalize t.leaveStart = t₀ at hstart hempty hkept
  -- the size, the key, the signature, and then the data
  unfold EncodedChunk.encode
  rw [foldl_append, foldl_read_size _ _ hstart hc.size.digits, hempty.1, nil_append,
    foldl_cons, read_semicolon (t := { t₀ with currentChunkSize := c.size }) hstart]
  simp only [hsize]
  rw [foldl_append, foldl_read_key _ _ rfl rfl, foldl_cons, read_equalSign rfl rfl,
    foldl_append, foldl_read_signature _ _ rfl hc.signature, foldl_cons, foldl_cons, read_cr_lf rfl]
  simp only [hempty.2, nil_append]
  rw [foldl_read_body rfl rfl]
  simp only [hkept.1, hkept.2.1]
  refine ⟨_, ?_, trivial, trivial, rfl⟩
  simp [Describes, S3ChunkDetail.finiHash, S3ChunkDetail.updateHash, S3ChunkDetail.addSignature,
    S3ChunkDetail.addSize, hkept.2.2]

variable (sha256) in
theorem read_chunks :
    ∀ (chunks : List EncodedChunk) (t : ChunkStream), t.parserState = .cStart →
      (∀ c ∈ chunks, c.WellFormed ∧ c.data.length < 2 ^ 63) →
      ∃ ds, List.Forall₂ (Describes sha256) ds chunks ∧
        ((chunks.flatMap EncodedChunk.encode).foldl (read sha256) t).parserState = .cStart ∧
        ((chunks.flatMap EncodedChunk.encode).foldl (read sha256) t).data =
          t.data ++ chunks.flatMap EncodedChunk.data ∧
        ((chunks.flatMap EncodedChunk.encode).foldl (read sha256) t).chunkDetails =
          t.chunkDetails ++ ds := by
  intro chunks
  induction chunks with
  | nil =>
    intro t hs _
    exact ⟨[], .nil, hs, (append_nil _).symm, (append_nil _).symm⟩
  | cons c rest ih =>
    intro t hs hall
    obtain ⟨hc, hlen⟩ := hall c mem_cons_self
    obtain ⟨d, hd, hstart, hdata, hdetails⟩ := read_chunk sha256 hs hc hlen
    obtain ⟨ds, hds, hstart', hdata', hdetails'⟩ := ih _ hstart
      fun c' hc' => hall c' (mem_cons_of_mem _ hc')
    refine ⟨d :: ds, .cons hd hds, ?_⟩
    rw [flatMap_cons, foldl_append, flatMap_cons]
    refine ⟨hstart', ?_, ?_⟩
    · rw [hdata', hdata, append_assoc]
    · rw [hdetails', hdetails, append_assoc, singleton_append]

end ChunkStream

/-! ### The count of the data -/

namespace S3ChunkPayloadParser

variable {bufSize : Nat} {sha256 : Bytes → Bytes}

/-- How much data the parser holds. -/
def held (p : S3ChunkPayloadParser) : Nat :=
  p.readyBuffers.flatten.length + p.spareBuffers.flatten.length

/-- Of `total` bytes of data `returned` were given out by earlier runs, and what is not held is still to
come. -/
def Counted (total returned : Nat) (p : S3ChunkPayloadParser) : Prop :=
  p.contentLength = toSize ((total : Int) - (returned + p.held : Nat))

variable {p : S3ChunkPayloadParser} {returned total : Nat}

theorem Counted.congr {p' : S3ChunkPayloadParser} (h : Counted total returned p)
    (hlength : p'.contentLength = p.contentLength) (hready : p'.readyBuffers = p.readyBuffers)
    (hspare : p'.spareBuffers = p.spareBuffers) :
    Counted total returned p' := by
  unfold Counted held at h ⊢
  rw [hlength, hready, hspare]
  exact h

theorem subSize_toSize (z : Int) (n : Nat) : subSize (toSize z) n = toSize (z - n) := by
  have hpos : (0 : Int) < (sizeMod : Int) := by decide
  have hnonneg := Int.emod_nonneg z (Int.ne_of_gt hpos)
  unfold subSize toSize
  rw [Int.toNat_of_nonneg hnonneg, Int.emod_sub_emod]

theorem addToSpare_held {p' : S3ChunkPayloadParser} {d : Bytes}
    (h : addToSpare bufSize p d = some p') :
    p'.contentLength = p.contentLength ∧ p'.held = p.held + d.length := by
  unfold addToSpare at h
  split at h
  · cases h
  · rename_i spare others hspare
    simp only at h
    split at h
    · obtain rfl := some.inj h
      refine ⟨rfl, ?_⟩
      simp only [held, hspare, flatten_cons, length_append]
      omega
    · split at h
      · cases h
      · obtain rfl := some.inj h
        refine ⟨rfl, ?_⟩
        simp only [held, hspare, flatten_cons, flatten_append, flatten_nil,
          append_nil, length_append, length_take, length_drop]
        omega

/-- The count is right after a pass.  An early return is one of a malformed frame. -/
def Pass.Counted (total returned : Nat) : Pass → Prop
  | .next p _ => S3ChunkPayloadParser.Counted total returned p
  | .ret p => S3ChunkPayloadParser.Counted total returned p ∧ p.parserState = .cError

theorem readChunkData_counted {vec : Bytes} {pass : Pass} (h : Counted total returned p)
    (hpass : readChunkData bufSize p vec = some pass) :
    pass.Counted total returned := by
  unfold readChunkData at hpass
  split at hpass
  · simp only at hpass
    obtain ⟨dataLen, hdataLen⟩ : ∃ n, n =
        (if p.chunkDataSizeToRead ≤ vec.length then p.chunkDataSizeToRead else vec.length) :=
      ⟨_, rfl⟩
    have hle : dataLen ≤ vec.length := by
      rw [hdataLen]
      split <;> omega
    rw [← hdataLen] at hpass
    split at hpass
    · cases hpass
    · rename_i p' hadd
      obtain ⟨hlength, hheld⟩ := addToSpare_held hadd
      rw [length_take, Nat.min_eq_left hle] at hheld
      -- what was added to the spares was taken off the count
      have hcount : ∀ q : S3ChunkPayloadParser,
          q.contentLength = subSize p'.contentLength dataLen → q.held = p'.held →
          Counted total returned q := by
        intro q hq hqheld
        unfold Counted at h ⊢
        rw [hq, hqheld, hheld, hlength, h, subSize_toSize]
        congr 1
        omega
      split at hpass
      · obtain rfl := some.inj hpass
        exact hcount _ rfl rfl
      · obtain rfl := some.inj hpass
        exact hcount _ rfl rfl
  · obtain rfl := some.inj hpass
    exact h.congr rfl rfl rfl

theorem dispatch_counted {ch : UInt8} {vec : Bytes} {pass : Pass} (h : Counted total returned p)
    (hpass : dispatch bufSize sha256 p ch vec = some pass) :
    pass.Counted total returned := by
  have hfail : p.fail.Counted total returned := ⟨h.congr rfl rfl rfl, rfl⟩
  unfold dispatch at hpass
  cases hs : p.parserState with
  | cChunkData =>
    rw [hs] at hpass
    exact readChunkData_counted h hpass
  | cChunkSignatureKey =>
    rw [hs] at hpass
    simp only at hpass
    split at hpass <;> split at hpass <;> obtain rfl := some.inj hpass
    · exact h.congr rfl rfl rfl
    · exact hfail
    · exact h.congr rfl rfl rfl
    · exact hfail
  | cCr =>
    rw [hs] at hpass
    simp only at hpass
    split at hpass
    · obtain rfl := some.inj hpass
      exact h.congr rfl rfl rfl
    · split at hpass <;> obtain rfl := some.inj hpass <;> exact h.congr rfl rfl rfl
  | cError =>
    rw [hs] at hpass
    obtain rfl := some.inj hpass
    exact ⟨h, hs⟩
  | cStart | cChunkSize | cChunkSignatureValue =>
    rw [hs] at hpass
    simp only at hpass
    split at hpass <;> obtain rfl := some.inj hpass <;> exact h.congr rfl rfl rfl
  | cChunkDataEndCr | cChunkDataEndLf =>
    rw [hs] at hpass
    simp only at hpass
    split at hpass <;> obtain rfl := some.inj hpass
    · exact h.congr rfl rfl rfl
    · exact hfail

theorem leaveStart_counted (h : Counted total returned p) :
    Counted total returned p.leaveStart := by
  unfold leaveStart
  split
  · exact h.congr rfl rfl rfl
  · exact h

theorem parseExtent_counted :
    ∀ (fuel : Nat) (p : S3ChunkPayloadParser) (vec : Bytes) {pass : Pass},
      Counted total returned p → parseExtent bufSize sha256 fuel p vec = some pass →
      pass.Counted total returned := by
  intro fuel
  induction fuel with
  | zero =>
    intro p vec pass h hpass
    cases vec with
    | nil =>
      rw [parseExtent] at hpass
      obtain rfl := some.inj hpass
      exact h
    | cons ch rest =>
      rw [parseExtent] at hpass
      cases hpass
  | succ fuel ih =>
    intro p vec pass h hpass
    cases vec with
    | nil =>
      rw [parseExtent] at hpass
      obtain rfl := some.inj hpass
      exact h
    | cons ch rest =>
      rw [parseExtent] at hpass
      split at hpass
      · cases hpass
      · rename_i p' hdispatch
        obtain rfl := some.inj hpass
        exact dispatch_counted (leaveStart_counted h) hdispatch
      · rename_i p' read hdispatch
        exact ih p' _ (dispatch_counted (leaveStart_counted h) hdispatch) hpass

theorem parseExtents_counted :
    ∀ (buf : List Bytes) (p : S3ChunkPayloadParser) {pass : Pass},
      Counted total returned p → parseExtents bufSize sha256 p buf = some pass →
      pass.Counted total returned := by
  intro buf
  induction buf with
  | nil =>
    intro p pass h hpass
    rw [parseExtents] at hpass
    obtain rfl := some.inj hpass
    exact h
  | cons vec rest ih =>
    intro p pass h hpass
    rw [parseExtents] at hpass
    split at hpass
    · cases hpass
    · rename_i p' hextent
      obtain rfl := some.inj hpass
      exact parseExtent_counted _ p vec h hextent
    · rename_i p' read hextent
      exact ih p' (parseExtent_counted _ p vec h hextent) hpass

/-- Between two runs: the count is right, and with all data read nothing is held back. -/
structure Session.Counts (total : Nat) (s : Session) : Prop where
  counted : Counted total s.returned.flatten.length { s.parser with readyBuffers := [] }
  released : s.failed = false → s.parser.contentLength = 0 → s.parser.spareBuffers.flatten = []

theorem finishRun_counted (h : Counted total returned p) : Counted total returned p.finishRun := by
  have hlength : p.finishRun.contentLength = p.contentLength := by
    unfold finishRun
    simp only
    split <;> rfl
  have hheld : p.finishRun.held = p.held := by
    unfold finishRun held
    simp only
    split
    · have hfilter := congrArg List.length (flatten_filter_pos p.spareBuffers)
      simp only [flatten_append, length_append, hfilter, flatten_nil,
        nil_append, flatten_cons, append_nil, length_nil]
      omega
    · simp
  unfold Counted at h ⊢
  rw [hlength, hheld]
  exact h

theorem finishRun_released (h : p.finishRun.contentLength = 0) :
    p.finishRun.spareBuffers.flatten = [] := by
  unfold finishRun at h ⊢
  simp only at h ⊢
  split
  · rfl
  · rename_i hne
    rw [if_neg hne] at h
    exact absurd h hne

/-- **A run keeps the count, and holds nothing back when all data are read.** -/
theorem run_counts {s s' : Session} {buf : List Bytes} (h : s.Counts total)
    (hrun : s.run bufSize sha256 buf = some s') : s'.Counts total := by
  -- what a run returns is counted as returned from then on
  have hmove : ∀ p : S3ChunkPayloadParser, Counted total s.returned.flatten.length p →
      Counted total (s.returned ++ p.readyBuffers).flatten.length { p with readyBuffers := [] } := by
    intro p hp
    unfold Counted held at hp ⊢
    simp only [flatten_append, length_append, flatten_nil, length_nil, Nat.zero_add]
    rw [hp, Nat.add_assoc]
  obtain ⟨p, hp, heq⟩ := Option.map_eq_some_iff.mp hrun
  obtain rfl := heq
  unfold run at hp
  split at hp
  · cases hp
  · rename_i p' hpass
    obtain rfl := some.inj hp
    obtain ⟨hcounted, herror⟩ := parseExtents_counted _ _ h.counted hpass
    exact ⟨hmove _ hcounted, fun hlive => absurd herror (by simpa [Session.failed] using hlive)⟩
  · rename_i p' read hpass
    obtain rfl := some.inj hp
    have hcounted := finishRun_counted (parseExtents_counted _ _ h.counted hpass)
    exact ⟨hmove _ hcounted, fun _ hzero => finishRun_released hzero⟩

theorem upload_counts {bufs : List (List Bytes)} {s : Session} (htotal : total < sizeMod)
    (h : upload bufSize sha256 total bufs = some s) :
    s.Counts total := by
  refine Feed.feed_invariant (I := Session.Counts total) (fun _ _ _ => run_counts) bufs _ s ?_ h
  refine ⟨?_, fun _ _ => rfl⟩
  exact (toSize_natCast htotal).symm

/-! ### The round trip -/

/-- **The parser undoes the encoding.**  The frames of any chunks, cut into buffers of at most
`libevent_pool_buffer_size` bytes and the buffers into extents in any way, are parsed to the end: the parser
is at the start of a frame (so it never was in `c_error`, which it does not leave), it has one detail for
each chunk in turn, the buffers it has returned are the data, and the spares are empty. -/
theorem upload_encoded (sha256 : Bytes → Bytes) (hB : bufSize < sizeMod)
    (chunks : List EncodedChunk) (hformed : ∀ c ∈ chunks, c.WellFormed)
    (hsize : (chunks.flatMap EncodedChunk.data).length < 2 ^ 63) (bufs : List (List Bytes))
    (hcut : bufs.flatMap List.flatten = chunks.flatMap EncodedChunk.encode)
    (hlen : ∀ buf ∈ bufs, buf.flatten.length ≤ bufSize) :
    ∃ s, upload bufSize sha256 (chunks.flatMap EncodedChunk.data).length bufs = some s ∧
      s.parser.parserState = .cStart ∧
      List.Forall₂ (ChunkStream.Describes sha256) s.parser.chunkDetails chunks ∧
      s.returned.flatten = chunks.flatMap EncodedChunk.data ∧
      s.parser.spareBuffers.flatten = [] := by
  obtain ⟨s, hs, hR, _⟩ := upload_refines sha256 hB (chunks.flatMap EncodedChunk.data).length bufs
    hlen
  have hcounts := upload_counts (by unfold sizeMod; omega) hs
  have hchunk : ∀ c ∈ chunks, c.WellFormed ∧ c.data.length < 2 ^ 63 := by
    intro c hc
    refine ⟨hformed c hc, Nat.lt_of_le_of_lt ?_ hsize⟩
    rw [length_flatMap]
    exact le_sum_of_mem (mem_map_of_mem hc)
  obtain ⟨ds, hds, hstart, hdata, hdetails⟩ := ChunkStream.read_chunks sha256 chunks
    (toStream [] {}) rfl hchunk
  rw [← hcut, ← hR] at hstart hdata hdetails
  have hparsed : s.data = chunks.flatMap EncodedChunk.data := by
    simpa [toStream, Session.data] using hdata
  have hstate : s.parser.parserState = .cStart := hstart
  have hzero : s.parser.contentLength = 0 := by
    have hcounted := hcounts.counted
    have hlength := congrArg List.length hparsed
    unfold Counted held at hcounted
    unfold Session.data at hlength
    rw [length_append] at hlength
    simp only [flatten_nil, length_nil, Nat.zero_add] at hcounted
    rw [hcounted, hlength, Int.sub_self]
    rfl
  have hspares := hcounts.released (by simp [Session.failed, hstate]) hzero
  refine ⟨s, hs, hstate, ?_, ?_, hspares⟩
  · have hlist : s.parser.chunkDetails = ds := hdetails
    rw [hlist]
    exact hds
  · unfold Session.data at hparsed
    rw [hspares, append_nil] at hparsed
    exact hparsed

/-- Two bytes and the end, a byte at a time. -/
theorem upload_encoded_twoBytes : let chunks : List EncodedChunk :=
      [⟨ascii "2", ascii "ab", ascii "hi"⟩, ⟨ascii "0", ascii "cd", []⟩]
    let bufs := (chunks.flatMap EncodedChunk.encode).map fun b => [[b]]
    ∃ s, upload 64 id 2 bufs = some s ∧
      s.parser.parserState = .cStart ∧
      List.Forall₂ (ChunkStream.Describes id) s.parser.chunkDetails chunks ∧
      s.returned.flatten = ascii "hi" ∧
      s.parser.spareBuffers.flatten = [] := by
  refine upload_encoded id (by decide)
    [⟨ascii "2", ascii "ab", ascii "hi"⟩, ⟨ascii "0", ascii "cd", []⟩] ?_ (by decide) _
    (by decide +kernel) (by decide +kernel)
  intro c hc
  rcases mem_cons.mp hc with rfl | hc
  · exact ⟨⟨by decide +kernel, by decide +kernel, by decide +kernel⟩, by decide +kernel⟩
  · obtain rfl := mem_singleton.mp hc
    exact ⟨⟨by decide +kernel, by decide +kernel, by decide +kernel⟩, by decide +kernel⟩

/-- A buffer that holds more data than two spares take: the parser reads the front of an empty deque. -/
theorem not_encoded_longBuffer :
    ¬ ∀ (bufSize : Nat) (chunks : List EncodedChunk) (bufs : List (List Bytes)),
      bufSize < sizeMod → (∀ c ∈ chunks, c.WellFormed) →
      (chunks.flatMap EncodedChunk.data).length < 2 ^ 63 →
      bufs.flatMap List.flatten = chunks.flatMap EncodedChunk.encode →
      ∃ s, upload bufSize id (chunks.flatMap EncodedChunk.data).length bufs = some s ∧
        s.parser.parserState = .cStart ∧
        List.Forall₂ (ChunkStream.Describes id) s.parser.chunkDetails chunks ∧
        s.returned.flatten = chunks.flatMap EncodedChunk.data ∧
        s.parser.spareBuffers.flatten = [] := by
  intro h
  obtain ⟨chunks, hchunks⟩ : ∃ chunks : List EncodedChunk, chunks =
      [⟨ascii "5", ascii "ab", ascii "hello"⟩, ⟨ascii "0", ascii "cd", []⟩] := ⟨_, rfl⟩
  have hformed : ∀ c ∈ chunks, c.WellFormed := by
    intro c hc
    rw [hchunks] at hc
    rcases mem_cons.mp hc with rfl | hc
    · exact ⟨⟨by decide +kernel, by decide +kernel, by decide +kernel⟩, by decide +kernel⟩
    · obtain rfl := mem_singleton.mp hc
      exact ⟨⟨by decide +kernel, by decide +kernel, by decide +kernel⟩, by decide +kernel⟩
  obtain ⟨s, hs, _⟩ := h 4 chunks [[chunks.flatMap EncodedChunk.encode]] (by decide) hformed
    (by rw [hchunks]; decide) (by simp)
  have hnone : upload 4 id (chunks.flatMap EncodedChunk.data).length
      [[chunks.flatMap EncodedChunk.encode]] = none := by
    rw [hchunks]
    decide
  rw [hnone] at hs
  cases hs

end S3ChunkPayloadParser

end CortxS3
