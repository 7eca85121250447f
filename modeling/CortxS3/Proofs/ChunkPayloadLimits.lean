/-
How much data the chunk parser comes out with.

The parser reads what the frames announce.  It compares that with nothing: the size of a chunk is
what `strtol` makes of the text before the semicolon, and what is left of the announced length of
the whole body is counted down without a look at it.  So it keeps to that length exactly when the
body does (`Announced`).

`FramedChunk` is a frame as the parser takes it apart: the signature is read up to the first CR and
then to the first LF.  Where the parser stands in a frame is `Partway`; a byte takes it on from
there (`partway_read`), or into the error.
-/
import CortxS3.Proofs.ChunkPayloadEncoding

namespace CortxS3

open List

/-! ### Frames -/

/-- A plain hexadecimal number that a `size_t` can hold. -/
structure PlainHex (text : Bytes) : Prop where
  nonempty : text ≠ []
  digits : ∀ c ∈ text, (hexDigit c).isSome
  fits : hexValue text 0 < sizeMod

instance instDecidablePlainHex (text : Bytes) : Decidable (PlainHex text) :=
  decidable_of_iff
    (0 < text.length ∧ text.all (fun c => (hexDigit c).isSome) ∧ hexValue text 0 < sizeMod)
    ⟨fun h => ⟨length_pos_iff.mp h.1, all_eq_true.mp h.2.1, h.2.2⟩,
      fun h => ⟨length_pos_iff.mpr h.nonempty, all_eq_true.mpr h.digits, h.fits⟩⟩

/-- What `strtol` makes of a plain number: the largest `long` stands for what is beyond it. -/
def announcedSize (text : Bytes) : Nat := min (hexValue text 0) (2 ^ 63 - 1)

theorem toSize_strtol16 {text : Bytes} (h : PlainHex text) :
    toSize (strtol16 text) = announcedSize text := by
  have hvalue : strtol16 text = (announcedSize text : Nat) := by
    cases htext : text with
    | nil => exact absurd htext h.nonempty
    | cons c rest =>
      have hc : (hexDigit c).isSome := h.digits c (by rw [htext]; exact mem_cons_self)
      have hdrop : (c :: rest).dropWhile isSpace = c :: rest := by
        rw [dropWhile_cons_of_neg (by simp [isSpace_of_hexDigit hc])]
      obtain ⟨hminus, hplus⟩ := hexDigit_ne_sign hc
      have hmark : dropHexMark (c :: rest) = c :: rest := by
        rw [← htext]
        exact dropHexMark_of_digits h.digits
      unfold strtol16
      rw [hdrop]
      split
      · rename_i heq
        exact absurd (List.cons.inj heq).1 hminus
      · rename_i heq
        exact absurd (List.cons.inj heq).1 hplus
      · rw [hmark]
        unfold announcedSize
        omega
  rw [hvalue]
  refine toSize_natCast ?_
  unfold announcedSize sizeMod
  omega

/-- A frame: its size, the signature up to the first CR, what stands between that and the next LF,
and the data. -/
structure FramedChunk where
  size : Bytes
  signature : Bytes
  lineEnd : Bytes
  data : Bytes

namespace FramedChunk

/-- A frame that is read up to somewhere in its data. -/
structure Begun (c : FramedChunk) : Prop where
  size : PlainHex c.size
  signature : cr ∉ c.signature
  lineEnd : lf ∉ c.lineEnd
  data : c.data.length ≤ announcedSize c.size

structure WellFormed (c : FramedChunk) : Prop extends Begun c where
  complete : c.data.length = announcedSize c.size

/-- What stands before the data. -/
def header (c : FramedChunk) : Bytes :=
  c.size ++ semicolon :: (s3AwsChunkKey ++ equalSign :: (c.signature ++ cr :: (c.lineEnd ++ [lf])))

def encode (c : FramedChunk) : Bytes := c.header ++ c.data ++ [cr, lf]

end FramedChunk

def totalData (chunks : List FramedChunk) : Nat := (chunks.map fun c => c.data.length).sum

/-- The sizes in a body are plain numbers, and the data that it brings are no more than its
announced length. -/
structure Announced (contentLength : Nat) (body : Bytes) : Prop where
  sizes : ∀ (chunks : List FramedChunk) (size rest : Bytes), (∀ c ∈ chunks, c.WellFormed) →
    body = chunks.flatMap FramedChunk.encode ++ size ++ semicolon :: rest →
      semicolon ∉ size → PlainHex size
  data : ∀ (chunks : List FramedChunk) (c : FramedChunk) (rest : Bytes),
    (∀ c ∈ chunks, c.WellFormed) → c.Begun →
      body = chunks.flatMap FramedChunk.encode ++ c.header ++ c.data ++ rest →
        totalData chunks + c.data.length ≤ contentLength

/-! ### Reading a frame -/

namespace ChunkStream

variable {sha256 : Bytes → Bytes} {t : ChunkStream}

theorem foldl_read_text :
    ∀ (text : Bytes) (t : ChunkStream), t.parserState = .cChunkSize → semicolon ∉ text →
      text.foldl (read sha256) t = { t with currentChunkSize := t.currentChunkSize ++ text } := by
  intro text
  induction text with
  | nil => intro t _ _; simp
  | cons c rest ih =>
    intro t hs hfree
    rw [mem_cons, not_or] at hfree
    have hone : t.read sha256 c = { t with currentChunkSize := t.currentChunkSize ++ [c] } := by
      rw [read_of_ne (by rw [hs]; decide)]
      unfold readFrame
      rw [hs]
      simp only [if_neg (Ne.symm hfree.1)]
    rw [foldl_cons, hone,
      ih { t with currentChunkSize := t.currentChunkSize ++ [c] } hs hfree.2]
    simp

theorem foldl_read_lineEnd (sha256 : Bytes → Bytes) :
    ∀ (text : Bytes) (t : ChunkStream), t.parserState = .cCr → lf ∉ text →
      ∃ signature, text.foldl (read sha256) t = { t with currentChunkSignature := signature } := by
  intro text
  induction text with
  | nil => exact fun t _ _ => ⟨t.currentChunkSignature, rfl⟩
  | cons c rest ih =>
    intro t hs hfree
    rw [mem_cons, not_or] at hfree
    have hone : ∃ signature, t.read sha256 c = { t with currentChunkSignature := signature } := by
      rw [read_of_ne (by rw [hs]; decide)]
      unfold readFrame
      rw [hs]
      simp only [if_neg (Ne.symm hfree.1)]
      split
      · exact ⟨_, rfl⟩
      · exact ⟨_, rfl⟩
    obtain ⟨signature, hone⟩ := hone
    obtain ⟨signature', hrest⟩ := ih { t with currentChunkSignature := signature } hs hfree.2
    exact ⟨signature', by rw [foldl_cons, hone, hrest]⟩

theorem leaveStart_eq (hs : t.parserState = .cStart) : t.leaveStart = { t with
    parserState := .cChunkSize
    chunkDataSizeToRead := 0
    currentChunkSize := []
    currentChunkSignature := []
    chunkSigKeyCharState := s3AwsChunkKey
    currentChunkDetail := t.currentChunkDetail.reset.incrChunkNumber } := by
  unfold leaveStart
  rw [if_pos hs]

/-- The size of a chunk is whatever `strtol` makes of the text before the semicolon. -/
theorem foldl_read_size_semicolon (sha256 : Bytes → Bytes) (hs : t.parserState = .cStart)
    {text : Bytes} (hfree : semicolon ∉ text) :
    ∃ u, (text ++ [semicolon]).foldl (read sha256) t = u ∧
      u.parserState = .cChunkSignatureKey ∧ u.chunkSigKeyCharState = s3AwsChunkKey ∧
      u.chunkDataSizeToRead = toSize (strtol16 text) ∧ u.data = t.data := by
  obtain ⟨v, hv⟩ : ∃ v, v = t.leaveStart := ⟨_, rfl⟩
  have hvs : v.parserState = .cChunkSize ∧ v.currentChunkSize = [] ∧ v.data = t.data := by
    rw [hv, leaveStart_eq hs]
    exact ⟨rfl, rfl, rfl⟩
  refine ⟨_, rfl, ?_⟩
  rw [foldl_leaveStart (by simp), ← hv, foldl_append, foldl_read_text text v hvs.1 hfree,
    hvs.2.1, nil_append, foldl_cons, foldl_nil,
    read_semicolon (t := { v with currentChunkSize := text }) hvs.1]
  exact ⟨rfl, rfl, rfl, hvs.2.2⟩

variable {c : FramedChunk}

theorem foldl_read_header (sha256 : Bytes → Bytes) (hs : t.parserState = .cStart) (hc : c.Begun) :
    ∃ u, c.header.foldl (read sha256) t = u ∧ u.parserState = .cChunkData ∧
      u.chunkDataSizeToRead = announcedSize c.size ∧ u.data = t.data := by
  have hfree : semicolon ∉ c.size := fun hin => hexDigit_ne_semicolon (hc.size.digits _ hin) rfl
  obtain ⟨u, hu, hstate, hkey, hsize, hdata⟩ :=
    foldl_read_size_semicolon sha256 hs hfree
  have hsplit : c.header = (c.size ++ [semicolon]) ++
      (s3AwsChunkKey ++ equalSign :: (c.signature ++ cr :: (c.lineEnd ++ [lf]))) := by
    simp [FramedChunk.header]
  have hcr : ∀ v : ChunkStream, v.parserState = .cChunkSignatureValue →
      v.read sha256 cr = { v with parserState := .cCr } := by
    intro v hv
    rw [read_of_ne (by rw [hv]; decide)]
    unfold readFrame
    rw [hv]
    simp only [if_true]
  have hlf : ∀ v : ChunkStream, v.parserState = .cCr →
      v.read sha256 lf = { v with
        parserState := .cChunkData
        currentChunkDetail := v.currentChunkDetail.addSignature v.currentChunkSignature } := by
    intro v hv
    rw [read_of_ne (by rw [hv]; decide)]
    unfold readFrame
    rw [hv]
    simp only [if_true]
  obtain ⟨v, hv⟩ : ∃ v : ChunkStream, v = { u with chunkSigKeyCharState := [] } := ⟨_, rfl⟩
  have hvs : v.parserState = .cChunkSignatureKey ∧ v.chunkSigKeyCharState = [] ∧
      v.chunkDataSizeToRead = announcedSize c.size ∧ v.data = t.data := by
    rw [hv]
    exact ⟨hstate, rfl, hsize.trans (toSize_strtol16 hc.size), hdata⟩
  refine ⟨_, rfl, ?_⟩
  rw [hsplit, foldl_append, hu, foldl_append, foldl_read_key _ _ hstate hkey, ← hv,
    foldl_cons, read_equalSign hvs.1 hvs.2.1, foldl_append,
    foldl_read_signature _ _ rfl hc.signature, foldl_cons, hcr _ rfl, foldl_append]
  obtain ⟨signature, hline⟩ := foldl_read_lineEnd sha256 c.lineEnd
    { v with
      parserState := .cCr
      currentChunkSignature := v.currentChunkSignature ++ c.signature } rfl hc.lineEnd
  rw [hline, foldl_cons, foldl_nil, hlf _ rfl]
  exact ⟨rfl, hvs.2.2.1, hvs.2.2.2⟩

theorem foldl_read_begun (sha256 : Bytes → Bytes) (hs : t.parserState = .cStart) (hc : c.Begun) :
    ((c.header ++ c.data).foldl (read sha256) t).data = t.data ++ c.data := by
  obtain ⟨u, hu, hstate, hsize, hdata⟩ := foldl_read_header sha256 hs hc
  rw [foldl_append, hu, ← hdata]
  by_cases hnil : c.data = []
  · rw [hnil, foldl_nil, append_nil]
  · rw [foldl_read_data _ _ hstate hnil (by rw [hsize]; exact hc.data)]

theorem foldl_read_encode (sha256 : Bytes → Bytes) (hs : t.parserState = .cStart)
    (hc : c.WellFormed) :
    (c.encode.foldl (read sha256) t).parserState = .cStart ∧
      (c.encode.foldl (read sha256) t).data = t.data ++ c.data := by
  obtain ⟨u, hu, hstate, hsize, hdata⟩ := foldl_read_header sha256 hs hc.toBegun
  unfold FramedChunk.encode
  rw [append_assoc, foldl_append, hu, ← hdata,
    foldl_read_body hstate (hsize.trans hc.complete.symm)]
  exact ⟨rfl, rfl⟩

theorem foldl_read_frames (sha256 : Bytes → Bytes) :
    ∀ (chunks : List FramedChunk) (t : ChunkStream), t.parserState = .cStart →
      (∀ c ∈ chunks, c.WellFormed) →
        ((chunks.flatMap FramedChunk.encode).foldl (read sha256) t).parserState = .cStart ∧
        ((chunks.flatMap FramedChunk.encode).foldl (read sha256) t).data.length =
          t.data.length + totalData chunks := by
  intro chunks
  induction chunks with
  | nil => exact fun t hs _ => ⟨hs, rfl⟩
  | cons c rest ih =>
    intro t hs hall
    obtain ⟨hstate, hdata⟩ := foldl_read_encode sha256 hs (hall c mem_cons_self)
    obtain ⟨hstate', hdata'⟩ := ih _ hstate fun d hd => hall d (mem_cons_of_mem _ hd)
    rw [flatMap_cons, foldl_append]
    refine ⟨hstate', ?_⟩
    rw [hdata', hdata, length_append]
    simp only [totalData, map_cons, sum_cons]
    omega

/-! ### Part of a frame -/

/-- Where the parser stands when it has read so much of a frame, after frames with `total` bytes of
data. -/
inductive Partway (total : Nat) : Bytes → ChunkStream → Prop
  | start {t : ChunkStream} (hs : t.parserState = .cStart) (hd : t.data.length = total) :
      Partway total [] t
  | size {t : ChunkStream} (hs : t.parserState = .cChunkSize)
      (hfree : semicolon ∉ t.currentChunkSize) (hd : t.data.length = total) :
      Partway total t.currentChunkSize t
  | key {size key : Bytes} {t : ChunkStream} (hs : t.parserState = .cChunkSignatureKey)
      (hsize : PlainHex size) (hkey : key ++ t.chunkSigKeyCharState = s3AwsChunkKey)
      (hread : t.chunkDataSizeToRead = announcedSize size) (hd : t.data.length = total) :
      Partway total (size ++ semicolon :: key) t
  | value {size signature : Bytes} {t : ChunkStream} (hs : t.parserState = .cChunkSignatureValue)
      (hsize : PlainHex size) (hsig : cr ∉ signature)
      (hread : t.chunkDataSizeToRead = announcedSize size) (hd : t.data.length = total) :
      Partway total (size ++ semicolon :: (s3AwsChunkKey ++ equalSign :: signature)) t
  | lineEnd {size signature lineEnd : Bytes} {t : ChunkStream} (hs : t.parserState = .cCr)
      (hsize : PlainHex size) (hsig : cr ∉ signature) (hline : lf ∉ lineEnd)
      (hread : t.chunkDataSizeToRead = announcedSize size) (hd : t.data.length = total) :
      Partway total
        (size ++ semicolon :: (s3AwsChunkKey ++ equalSign :: (signature ++ cr :: lineEnd))) t
  | data {c : FramedChunk} {t : ChunkStream} (hs : t.parserState = .cChunkData) (hc : c.Begun)
      (hread : t.chunkDataSizeToRead + c.data.length = announcedSize c.size)
      (hd : t.data.length = total + c.data.length) : Partway total (c.header ++ c.data) t
  | endCr {c : FramedChunk} {t : ChunkStream} (hs : t.parserState = .cChunkDataEndCr)
      (hc : c.WellFormed) (hd : t.data.length = total + c.data.length) :
      Partway total (c.header ++ c.data) t
  | endLf {c : FramedChunk} {t : ChunkStream} (hs : t.parserState = .cChunkDataEndLf)
      (hc : c.WellFormed) (hd : t.data.length = total + c.data.length) :
      Partway total (c.header ++ c.data ++ [cr]) t

theorem Partway.length_le {total limit : Nat} {y : Bytes} (h : Partway total y t)
    (htotal : total ≤ limit)
    (hbegun : ∀ (c : FramedChunk) (rest : Bytes), c.Begun → y = c.header ++ c.data ++ rest →
      total + c.data.length ≤ limit) : t.data.length ≤ limit := by
  cases h with
  | start hs hd => exact hd.trans_le htotal
  | size hs hfree hd => exact hd.trans_le htotal
  | key hs hsize hkey hread hd => exact hd.trans_le htotal
  | value hs hsize hsig hread hd => exact hd.trans_le htotal
  | lineEnd hs hsize hsig hline hread hd => exact hd.trans_le htotal
  | @data c _ hs hc hread hd =>
    exact hd.trans_le (hbegun c [] hc (append_nil _).symm)
  | @endCr c _ hs hc hd => exact hd.trans_le (hbegun c [] hc.toBegun (append_nil _).symm)
  | @endLf c _ hs hc hd => exact hd.trans_le (hbegun c [cr] hc.toBegun rfl)

/-- Where a byte brings the parser. -/
inductive Goes (total : Nat) (t : ChunkStream) (y : Bytes) (u : ChunkStream) : Prop
  | on (h : Partway total y u)
  | done (c : FramedChunk) (hc : c.WellFormed) (hy : y = c.encode) (hs : u.parserState = .cStart)
      (hd : u.data.length = total + c.data.length)
  | error (hs : u.parserState = .cError) (hd : u.data = t.data)

section

variable {total : Nat} {ch : UInt8}

theorem goes_size {y : Bytes} (hs : t.parserState = .cChunkSize) (hy : t.currentChunkSize = y)
    (hfree : semicolon ∉ y) (hd : t.data.length = total)
    (hplain : ch = semicolon → PlainHex y) : Goes total t (y ++ [ch]) (t.read sha256 ch) := by
  subst hy
  by_cases hc : ch = semicolon
  · subst hc
    rw [read_semicolon hs]
    exact .on (.key rfl (hplain rfl) (nil_append s3AwsChunkKey) (toSize_strtol16 (hplain rfl)) hd)
  · have hone : t.read sha256 ch =
        { t with currentChunkSize := t.currentChunkSize ++ [ch] } := by
      rw [read_of_ne (by rw [hs]; decide)]
      unfold readFrame
      rw [hs]
      simp only [if_neg hc]
    rw [hone]
    refine .on (.size (t := { t with currentChunkSize := t.currentChunkSize ++ [ch] }) hs ?_ hd)
    rw [mem_append, mem_singleton, not_or]
    exact ⟨hfree, Ne.symm hc⟩

variable {size : Bytes}

theorem goes_key {key : Bytes} (hs : t.parserState = .cChunkSignatureKey) (hsize : PlainHex size)
    (hkey : key ++ t.chunkSigKeyCharState = s3AwsChunkKey)
    (hread : t.chunkDataSizeToRead = announcedSize size) (hd : t.data.length = total) :
    Goes total t (size ++ semicolon :: key ++ [ch]) (t.read sha256 ch) := by
  have hmore : size ++ semicolon :: key ++ [ch] = size ++ semicolon :: (key ++ [ch]) := by
    rw [append_assoc, cons_append]
  rw [read_of_ne (by rw [hs]; decide), hmore]
  unfold readFrame
  rw [hs]
  cases hrest : t.chunkSigKeyCharState with
  | nil =>
    rw [hrest, append_nil] at hkey
    simp only
    by_cases hc : ch = equalSign
    · rw [if_pos hc, hkey, hc]
      exact .on (.value rfl hsize not_mem_nil hread hd)
    · rw [if_neg hc]
      exact .error rfl rfl
  | cons k rest =>
    rw [hrest] at hkey
    simp only
    by_cases hc : ch = k
    · rw [if_pos hc, hc]
      refine .on (.key rfl hsize ?_ hread hd)
      rw [append_assoc]
      exact hkey
    · rw [if_neg hc]
      exact .error rfl rfl

theorem goes_value {signature : Bytes} (hs : t.parserState = .cChunkSignatureValue)
    (hsize : PlainHex size) (hsig : cr ∉ signature)
    (hread : t.chunkDataSizeToRead = announcedSize size) (hd : t.data.length = total) :
    Goes total t (size ++ semicolon :: (s3AwsChunkKey ++ equalSign :: signature) ++ [ch])
      (t.read sha256 ch) := by
  have hmore : size ++ semicolon :: (s3AwsChunkKey ++ equalSign :: signature) ++ [ch] =
      size ++ semicolon :: (s3AwsChunkKey ++ equalSign :: (signature ++ [ch])) := by
    simp
  rw [read_of_ne (by rw [hs]; decide), hmore]
  unfold readFrame
  rw [hs]
  simp only
  by_cases hc : ch = cr
  · rw [if_pos hc, hc]
    exact .on (.lineEnd rfl hsize hsig not_mem_nil hread hd)
  · rw [if_neg hc]
    refine .on (.value rfl hsize ?_ hread hd)
    rw [mem_append, mem_singleton, not_or]
    exact ⟨hsig, Ne.symm hc⟩

theorem goes_lineEnd {signature lineEnd : Bytes} (hs : t.parserState = .cCr) (hsize : PlainHex size)
    (hsig : cr ∉ signature) (hline : lf ∉ lineEnd)
    (hread : t.chunkDataSizeToRead = announcedSize size) (hd : t.data.length = total) :
    Goes total t
      (size ++ semicolon :: (s3AwsChunkKey ++ equalSign :: (signature ++ cr :: lineEnd)) ++ [ch])
      (t.read sha256 ch) := by
  by_cases hc : ch = lf
  · obtain ⟨c, hframe⟩ : ∃ c : FramedChunk, c = ⟨size, signature, lineEnd, []⟩ := ⟨_, rfl⟩
    have hbegun : c.Begun := by
      rw [hframe]
      exact ⟨hsize, hsig, hline, Nat.zero_le _⟩
    have hmore :
        size ++ semicolon :: (s3AwsChunkKey ++ equalSign :: (signature ++ cr :: lineEnd)) ++ [ch] =
          c.header ++ c.data := by
      rw [hframe, hc]
      simp [FramedChunk.header]
    rw [hmore, hc, read_of_ne (by rw [hs]; decide)]
    unfold readFrame
    rw [hs]
    simp only [if_true]
    refine .on (.data rfl hbegun ?_ ?_)
    · rw [hframe]
      exact hread
    · rw [hframe]
      exact hd
  · obtain ⟨signature', hone⟩ := foldl_read_lineEnd sha256 [ch] t hs (by simpa using Ne.symm hc)
    have hmore :
        size ++ semicolon :: (s3AwsChunkKey ++ equalSign :: (signature ++ cr :: lineEnd)) ++ [ch] =
          size ++ semicolon :: (s3AwsChunkKey ++ equalSign :: (signature ++ cr :: (lineEnd ++ [ch]))) := by
      simp
    rw [foldl_cons, foldl_nil] at hone
    rw [hmore, hone]
    refine .on (.lineEnd hs hsize hsig ?_ hread hd)
    rw [mem_append, mem_singleton, not_or]
    exact ⟨hline, Ne.symm hc⟩

variable {c : FramedChunk}

theorem goes_endCr (hc : c.WellFormed) (hd : t.data.length = total + c.data.length) :
    Goes total t (c.header ++ c.data ++ [ch]) (t.readEndCr ch) := by
  unfold readEndCr
  by_cases hch : ch = cr
  · rw [if_pos hch, hch]
    exact .on (.endLf rfl hc hd)
  · rw [if_neg hch]
    exact .error rfl rfl

theorem goes_data (hs : t.parserState = .cChunkData) (hc : c.Begun)
    (hread : t.chunkDataSizeToRead + c.data.length = announcedSize c.size)
    (hd : t.data.length = total + c.data.length) :
    Goes total t (c.header ++ c.data ++ [ch]) (t.read sha256 ch) := by
  rw [read_of_ne (by rw [hs]; decide)]
  unfold readFrame
  rw [hs]
  simp only
  by_cases hpos : 0 < t.chunkDataSizeToRead
  · unfold readData
    rw [if_pos hpos]
    obtain ⟨d, hdef⟩ : ∃ d : FramedChunk, d = { c with data := c.data ++ [ch] } := ⟨_, rfl⟩
    have hlen : d.data.length = c.data.length + 1 := by
      rw [hdef]
      exact length_append
    have hsize : d.size = c.size := by rw [hdef]
    have hbegun : d.Begun := by
      refine ⟨?_, ?_, ?_, ?_⟩
      · rw [hsize]
        exact hc.size
      · rw [hdef]
        exact hc.signature
      · rw [hdef]
        exact hc.lineEnd
      · rw [hlen, hsize]
        omega
    have hmore : c.header ++ c.data ++ [ch] = d.header ++ d.data := by
      rw [hdef, append_assoc]
      rfl
    have hdata : (t.data ++ [ch]).length = total + d.data.length := by
      rw [length_append, hlen, length_singleton]
      omega
    rw [hmore]
    by_cases hone : t.chunkDataSizeToRead = 1
    · -- the last byte of the chunk
      rw [if_pos hone]
      refine .on (.endCr rfl ⟨hbegun, ?_⟩ hdata)
      rw [hlen, hsize]
      omega
    · rw [if_neg hone]
      refine .on (.data rfl hbegun ?_ hdata)
      rw [hlen, hsize]
      show t.chunkDataSizeToRead - 1 + (c.data.length + 1) = announcedSize c.size
      omega
  · have hwhole : c.WellFormed := ⟨hc, by omega⟩
    unfold readData
    rw [if_neg hpos]
    exact goes_endCr hwhole hd

theorem goes_endLf (hs : t.parserState = .cChunkDataEndLf) (hc : c.WellFormed)
    (hd : t.data.length = total + c.data.length) :
    Goes total t (c.header ++ c.data ++ [cr] ++ [ch]) (t.read sha256 ch) := by
  rw [read_of_ne (by rw [hs]; decide)]
  unfold readFrame
  rw [hs]
  simp only
  by_cases hch : ch = lf
  · rw [if_pos hch, hch]
    refine .done c hc ?_ rfl hd
    unfold FramedChunk.encode
    rw [append_assoc]
    rfl
  · rw [if_neg hch]
    exact .error rfl rfl

/-- **A byte takes the parser on, to the end of the frame or into the error.** -/
theorem partway_read (sha256 : Bytes → Bytes) {y : Bytes} (h : Partway total y t)
    (hplain : ch = semicolon → semicolon ∉ y → PlainHex y) :
    Goes total t (y ++ [ch]) (t.read sha256 ch) := by
  cases h with
  | start hs hd =>
    obtain ⟨v, hv⟩ : ∃ v, v = t.leaveStart := ⟨_, rfl⟩
    have hvs : v.parserState = .cChunkSize ∧ v.currentChunkSize = [] ∧ v.data = t.data := by
      rw [hv, leaveStart_eq hs]
      exact ⟨rfl, rfl, rfl⟩
    have hgoes : Goes total v ([] ++ [ch]) (v.read sha256 ch) :=
      goes_size hvs.1 hvs.2.1 not_mem_nil (by rw [hvs.2.2]; exact hd)
        fun hc => hplain hc not_mem_nil
    rw [hv, read_leaveStart, ← hv] at hgoes
    cases hgoes with
    | on h => exact .on h
    | done c hc hy hu hlen => exact .done c hc hy hu hlen
    | error hu hdata => exact .error hu (hdata.trans hvs.2.2)
  | size hs hfree hd => exact goes_size hs rfl hfree hd fun hc => hplain hc hfree
  | key hs hsize hkey hread hd => exact goes_key hs hsize hkey hread hd
  | value hs hsize hsig hread hd => exact goes_value hs hsize hsig hread hd
  | lineEnd hs hsize hsig hline hread hd => exact goes_lineEnd hs hsize hsig hline hread hd
  | data hs hc hread hd => exact goes_data hs hc hread hd
  | endCr hs hc hd =>
    have hone : t.read sha256 ch = t.readEndCr ch := by
      rw [read_of_ne (by rw [hs]; decide)]
      unfold readFrame
      rw [hs]
    rw [hone]
    exact goes_endCr hc hd
  | endLf hs hc hd => exact goes_endLf hs hc hd

end

/-- Where the parser stands when it has read so much of a body. -/
inductive Reached (contentLength : Nat) (x : Bytes) (t : ChunkStream) : Prop
  | partway (chunks : List FramedChunk) (y : Bytes) (hchunks : ∀ c ∈ chunks, c.WellFormed)
      (hx : x = chunks.flatMap FramedChunk.encode ++ y)
      (htotal : totalData chunks ≤ contentLength) (h : Partway (totalData chunks) y t)
  | error (hs : t.parserState = .cError) (hd : t.data.length ≤ contentLength)

variable {contentLength : Nat}

theorem Reached.length_le {x rest : Bytes} (h : Reached contentLength x t)
    (hbody : Announced contentLength (x ++ rest)) : t.data.length ≤ contentLength := by
  cases h with
  | partway chunks y hchunks hx htotal h =>
    refine h.length_le htotal fun c more hc hy => ?_
    refine hbody.data chunks c (more ++ rest) hchunks hc ?_
    rw [hx, hy]
    simp only [append_assoc]
  | error hs hd => exact hd

theorem reached_read {x rest : Bytes} {ch : UInt8} (h : Reached contentLength x t)
    (hbody : Announced contentLength (x ++ ch :: rest)) :
    Reached contentLength (x ++ [ch]) (t.read sha256 ch) := by
  have hle : t.data.length ≤ contentLength := h.length_le hbody
  cases h with
  | error hs hd =>
    rw [stuck_of_cError hs ch]
    exact .error hs hd
  | partway chunks y hchunks hx htotal h =>
    have hplain : ch = semicolon → semicolon ∉ y → PlainHex y := by
      intro hc hfree
      refine hbody.sizes chunks y rest hchunks ?_ hfree
      rw [hx, hc]
    cases partway_read sha256 h hplain with
    | on h' => exact .partway chunks (y ++ [ch]) hchunks (by rw [hx, append_assoc]) htotal h'
    | error hs hd => exact .error hs (by rw [hd]; exact hle)
    | done c hc hy hs hd =>
      have hall : ∀ d ∈ chunks ++ [c], d.WellFormed := by
        intro d hd
        rcases mem_append.mp hd with hin | hin
        · exact hchunks d hin
        · rw [mem_singleton.mp hin]
          exact hc
      have hbytes : x ++ [ch] = (chunks ++ [c]).flatMap FramedChunk.encode := by
        rw [hx, append_assoc, hy, flatMap_append, flatMap_singleton]
      have hsum : totalData (chunks ++ [c]) = totalData chunks + c.data.length := by
        simp [totalData]
      refine .partway (chunks ++ [c]) [] hall ?_ ?_ (.start hs ?_)
      · rw [append_nil]
        exact hbytes
      · rw [hsum]
        refine hbody.data chunks c ([cr, lf] ++ rest) hchunks hc.toBegun ?_
        have hcons : x ++ ch :: rest = x ++ [ch] ++ rest := by simp
        rw [hcons, hbytes, flatMap_append, flatMap_singleton]
        simp [FramedChunk.encode]
      · rw [hd, hsum]

/-- **An announced body keeps the parser within what was announced.** -/
theorem reached_foldl (sha256 : Bytes → Bytes) (hs : t.parserState = .cStart) (hd : t.data = [])
    (x : Bytes) :
    ∀ rest, Announced contentLength (x ++ rest) →
      Reached contentLength x (x.foldl (read sha256) t) := by
  induction x using List.reverseRecOn with
  | nil =>
    intro rest _
    exact .partway [] [] (fun _ h => absurd h not_mem_nil) rfl (Nat.zero_le _)
      (.start hs (by rw [foldl_nil, hd]; rfl))
  | append_singleton x ch ih =>
    intro rest hbody
    rw [append_assoc, singleton_append] at hbody
    rw [foldl_append, foldl_cons, foldl_nil]
    exact reached_read (ih (ch :: rest) hbody) hbody

end ChunkStream

/-! ### The uploads of a body -/

namespace S3ChunkPayloadParser

open ChunkStream

/-- However a body is cut, and however much of it has come in, the parser has come out with no more
data than announced and counts the rest, and it has gone into the error at a size that is no plain
number. -/
structure KeepsToLength (bufSize : Nat) (sha256 : Bytes → Bytes) (contentLength : Nat)
    (body : Bytes) : Prop where
  bounded : ∀ bufs : List (List Bytes), (∀ buf ∈ bufs, buf.flatten.length ≤ bufSize) →
    bufs.flatMap List.flatten <+: body →
      ∃ s, upload bufSize sha256 contentLength bufs = some s ∧ s.data.length ≤ contentLength ∧
        s.parser.contentLength + s.data.length = contentLength
  rejects : ∀ (bufs : List (List Bytes)) (chunks : List FramedChunk) (size : Bytes),
    (∀ buf ∈ bufs, buf.flatten.length ≤ bufSize) → bufs.flatMap List.flatten <+: body →
      (∀ c ∈ chunks, c.WellFormed) →
        bufs.flatMap List.flatten =
          chunks.flatMap FramedChunk.encode ++ size ++ [semicolon] →
          semicolon ∉ size → ¬ PlainHex size →
            ∃ s, upload bufSize sha256 contentLength bufs = some s ∧
              s.parser.parserState = .cError

theorem contentLength_add {contentLength : Nat} {s : Session}
    (hlen : contentLength < sizeMod) (hcounts : s.Counts contentLength)
    (hle : s.data.length ≤ contentLength) :
    s.parser.contentLength + s.data.length = contentLength := by
  have hcounted := hcounts.counted
  unfold Counted held at hcounted
  simp only [flatten_nil, length_nil, Nat.zero_add] at hcounted
  have hdata : s.data.length =
      s.returned.flatten.length + s.parser.spareBuffers.flatten.length := by
    unfold Session.data
    rw [length_append]
  rw [← hdata, ← Int.ofNat_sub hle, toSize_natCast (by omega)] at hcounted
  rw [hcounted]
  omega

/-- A body cut after every byte. -/
def byteByByte (body : Bytes) : List (List Bytes) := body.map fun b => [[b]]

theorem flatMap_byteByByte (body : Bytes) : (byteByByte body).flatMap List.flatten = body := by
  unfold byteByByte
  rw [flatMap_map]
  exact flatMap_singleton' body

theorem length_byteByByte {bufSize : Nat} (hpos : 0 < bufSize) (body : Bytes) :
    ∀ buf ∈ byteByByte body, buf.flatten.length ≤ bufSize := by
  intro buf hbuf
  obtain ⟨b, -, rfl⟩ := mem_map.mp hbuf
  exact hpos

/-- **The parser keeps to the announced length exactly when the body does.** -/
theorem keepsToLength_iff (sha256 : Bytes → Bytes) {bufSize : Nat} (hpos : 0 < bufSize)
    (hB : bufSize < sizeMod) {contentLength : Nat} (hlen : contentLength < sizeMod) (body : Bytes) :
    KeepsToLength bufSize sha256 contentLength body ↔ Announced contentLength body := by
  constructor
  · intro h
    refine ⟨fun chunks size rest hchunks hbody hfree => ?_,
      fun chunks c rest hchunks hc hbody => ?_⟩
    · by_contra hplain
      obtain ⟨x, hx⟩ : ∃ x, x = chunks.flatMap FramedChunk.encode ++ size ++ [semicolon] := ⟨_, rfl⟩
      have hprefix : x <+: body := ⟨rest, by rw [hx, hbody]; simp⟩
      have hbufs := length_byteByByte hpos x
      obtain ⟨s, hs, herror⟩ := h.rejects (byteByByte x) chunks size hbufs
        (by rw [flatMap_byteByByte]; exact hprefix) hchunks (by rw [flatMap_byteByByte, hx]) hfree
        hplain
      obtain ⟨s', hs', hR, -⟩ := upload_refines sha256 hB contentLength _ hbufs
      rw [hs, Option.some.injEq] at hs'
      rw [← hs', flatMap_byteByByte, hx, append_assoc, foldl_append] at hR
      obtain ⟨hstart, -⟩ := foldl_read_frames sha256 chunks (toStream [] {}) rfl hchunks
      obtain ⟨u, hu, hstate, -⟩ := foldl_read_size_semicolon sha256 hstart hfree
      have hsame : s.parser.parserState = .cChunkSignatureKey := by
        rw [hu] at hR
        exact (congrArg ChunkStream.parserState hR).trans hstate
      rw [hsame] at herror
      cases herror
    · obtain ⟨x, hx⟩ : ∃ x, x = chunks.flatMap FramedChunk.encode ++ (c.header ++ c.data) :=
        ⟨_, rfl⟩
      have hprefix : x <+: body := ⟨rest, by rw [hx, hbody]; simp⟩
      have hbufs := length_byteByByte hpos x
      obtain ⟨s, hs, hle, -⟩ := h.bounded (byteByByte x) hbufs
        (by rw [flatMap_byteByByte]; exact hprefix)
      obtain ⟨s', hs', hR, -⟩ := upload_refines sha256 hB contentLength _ hbufs
      rw [hs, Option.some.injEq] at hs'
      rw [← hs', flatMap_byteByByte, hx, foldl_append] at hR
      obtain ⟨hstart, hdata⟩ := foldl_read_frames sha256 chunks (toStream [] {}) rfl hchunks
      have hbegun := foldl_read_begun sha256 hstart hc
      have hgot : s.data.length = totalData chunks + c.data.length := by
        have := congrArg ChunkStream.data hR
        rw [hbegun] at this
        have hlength := congrArg List.length this
        rw [length_append, hdata] at hlength
        simpa [toStream, Session.data] using hlength
      rw [← hgot]
      exact hle
  · intro h
    refine ⟨fun bufs hbufs hprefix => ?_,
      fun bufs chunks size hbufs hprefix hchunks heq hfree hnot => ?_⟩
    · obtain ⟨rest, hrest⟩ := hprefix
      obtain ⟨s, hs, hR, -⟩ := upload_refines sha256 hB contentLength bufs hbufs
      rw [← hrest] at h
      have hle := (reached_foldl (t := toStream [] {}) sha256 rfl rfl _ rest h).length_le h
      rw [← hR] at hle
      have hdata : s.data.length ≤ contentLength := by
        simpa [toStream, Session.data] using hle
      exact ⟨s, hs, hdata, contentLength_add hlen (upload_counts hlen hs) hdata⟩
    · obtain ⟨rest, hrest⟩ := hprefix
      refine absurd (h.sizes chunks size rest hchunks ?_ hfree) hnot
      rw [← hrest, heq]
      simp

/-- One frame of two bytes. -/
def hiBody : Bytes := ascii "2;chunk-signature=ab\r\nhi\r\n"

/-- The only semicolon in it stands behind its first byte. -/
theorem hiBody_size {chunks : List FramedChunk} {size rest : Bytes} (hfree : semicolon ∉ size)
    (h : hiBody = chunks.flatMap FramedChunk.encode ++ size ++ semicolon :: rest) :
    chunks = [] ∧ size = ascii "2" := by
  cases chunks with
  | nil =>
    have htake := congrArg (List.takeWhile (· ≠ semicolon)) h
    have hall : ∀ c ∈ size, decide (c ≠ semicolon) = true := fun c hc =>
      decide_eq_true (ne_of_mem_of_not_mem hc hfree)
    rw [flatMap_nil, nil_append, takeWhile_append_of_pos hall,
      takeWhile_cons_of_neg (by simp), append_nil] at htake
    exact ⟨rfl, htake.symm⟩
  | cons c chunks =>
    have hcount := congrArg (List.count semicolon) h
    have hone : hiBody.count semicolon = 1 := by decide
    simp only [hone, flatMap_cons, FramedChunk.encode, FramedChunk.header, count_append,
      count_cons_self] at hcount
    omega

theorem announced_hiBody : Announced 2 hiBody where
  sizes := by
    intro chunks size rest _ h hfree
    rw [(hiBody_size hfree h).2]
    decide
  data := by
    intro chunks c rest _ hc h
    have hfree : semicolon ∉ c.size := fun hmem => absurd (hc.size.digits _ hmem) (by decide)
    have hframed : hiBody = chunks.flatMap FramedChunk.encode ++ c.size ++ semicolon ::
        (s3AwsChunkKey ++ equalSign :: (c.signature ++ cr :: (c.lineEnd ++ [lf])) ++ c.data ++ rest) := by
      rw [h, FramedChunk.header]
      simp
    obtain ⟨rfl, hsize⟩ := hiBody_size hfree hframed
    have hle := hc.data
    rw [hsize] at hle
    exact (Nat.zero_add _).le.trans (hle.trans (by decide))

theorem keepsToLength_iff_hi : KeepsToLength 64 id 2 hiBody :=
  (keepsToLength_iff id (by decide) (by decide) (by decide) _).mpr announced_hiBody

/-- Five bytes where two were announced; and a size with a sign, which is read as the largest
`size_t`. -/
theorem not_keepsToLength_hello :
    ¬ KeepsToLength 64 id 2 (ascii "5;chunk-signature=ab\r\nhello\r\n") ∧
      ¬ KeepsToLength 64 id 2 (ascii "-1;chunk-signature=ab\r\nhi\r\n") := by
  refine ⟨fun h => ?_, fun h => ?_⟩
  · obtain ⟨s, hs, hle, -⟩ := h.bounded [[ascii "5;chunk-signature=ab\r\nhello\r\n"]]
      (by decide) (by decide)
    have hgot : (upload 64 id 2 [[ascii "5;chunk-signature=ab\r\nhello\r\n"]]).map
        (fun s => s.data.length) = some 5 := by
      decide
    rw [hs] at hgot
    have hfive : s.data.length = 5 := Option.some.inj hgot
    omega
  · obtain ⟨s, hs, herror⟩ := h.rejects [[ascii "-1;"]] [] (ascii "-1") (by decide)
      (by decide) (fun _ h => absurd h not_mem_nil) (by decide)
      (by decide) (by decide)
    have hgot : (upload 64 id 2 [[ascii "-1;"]]).map (fun s => s.parser.parserState) =
        some .cChunkSignatureKey := by
      decide
    rw [hs] at hgot
    have hkey : s.parser.parserState = .cChunkSignatureKey := Option.some.inj hgot
    rw [hkey] at herror
    cases herror

end S3ChunkPayloadParser

end CortxS3
