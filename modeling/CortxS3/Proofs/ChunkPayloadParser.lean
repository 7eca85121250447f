/-
The chunk parser does not see where the network cut the stream.

`ChunkStream` is the reference: the same frames, read one byte at a time, with one string of
data in place of the buffers.  It has no buffers to run out of and no extents to come to the
end of, so what it does is a fold over the bytes (`read`).

The parser reads chunk data by the extent, and between two of its passes it may stand where
the reference never stands (a chunk of size zero, seen but not stepped over).  So the two are
not compared state by state.  What a pass keeps is the state the reference will reach when it
reads what is left of the extent (`dispatch_keeps`), and at the end of the extent nothing is
left.

The buffers need an argument of their own.  `add_to_spare` takes the front of the deque twice,
and nothing in the source says that it is there the second time.  It is: a run reads at most
one buffer's worth, and a spare that is partly filled is never the only one (`Room`).
-/
import CortxS3.Server.ChunkPayloadParser

namespace CortxS3

open List

/-! ### The reference -/

/-- The state of the reference: the frame being read, and all data so far. -/
structure ChunkStream where
  chunkDetails : List S3ChunkDetail
  parserState : ChunkParserState
  currentChunkSize : Bytes
  chunkDataSizeToRead : Nat
  currentChunkSignature : Bytes
  currentChunkDetail : S3ChunkDetail
  chunkSigKeyCharState : Bytes
  data : Bytes

namespace ChunkStream

def fail (t : ChunkStream) : ChunkStream := { t with parserState := .cError }

/-- The first byte of a frame clears what the last frame left. -/
def leaveStart (t : ChunkStream) : ChunkStream :=
  if t.parserState = .cStart then
    { t with
      parserState := .cChunkSize
      chunkDataSizeToRead := 0
      currentChunkSize := []
      currentChunkSignature := []
      chunkSigKeyCharState := s3AwsChunkKey
      currentChunkDetail := t.currentChunkDetail.reset.incrChunkNumber }
  else t

/-- The byte after the data has to be a CR. -/
def readEndCr (t : ChunkStream) (ch : UInt8) : ChunkStream :=
  if ch = cr then { t with parserState := .cChunkDataEndLf } else t.fail

/-- One byte of chunk data; a chunk of size zero has none, and the byte ends it. -/
def readData (t : ChunkStream) (ch : UInt8) : ChunkStream :=
  if 0 < t.chunkDataSizeToRead then
    { t with
      data := t.data ++ [ch]
      currentChunkDetail := t.currentChunkDetail.updateHash [ch]
      chunkDataSizeToRead := t.chunkDataSizeToRead - 1
      parserState := if t.chunkDataSizeToRead = 1 then .cChunkDataEndCr else .cChunkData }
  else t.readEndCr ch

/-- One byte, at a frame that has begun. -/
def readFrame (sha256 : Bytes → Bytes) (t : ChunkStream) (ch : UInt8) : ChunkStream :=
  match t.parserState with
  | .cError => t
  | .cStart | .cChunkSize =>
    if ch = semicolon then
      { t with
        parserState := .cChunkSignatureKey
        chunkSigKeyCharState := s3AwsChunkKey
        chunkDataSizeToRead := toSize (strtol16 t.currentChunkSize)
        currentChunkDetail :=
          t.currentChunkDetail.addSize (toSize (strtol16 t.currentChunkSize)) }
    else { t with currentChunkSize := t.currentChunkSize ++ [ch] }
  | .cChunkSignatureKey =>
    match t.chunkSigKeyCharState with
    | [] => if ch = equalSign then { t with parserState := .cChunkSignatureValue } else t.fail
    | key :: rest => if ch = key then { t with chunkSigKeyCharState := rest } else t.fail
  | .cChunkSignatureValue =>
    if ch = cr then { t with parserState := .cCr }
    else { t with currentChunkSignature := t.currentChunkSignature ++ [ch] }
  | .cCr =>
    if ch = lf then
      { t with
        parserState := .cChunkData
        currentChunkDetail := t.currentChunkDetail.addSignature t.currentChunkSignature }
    else if ch = cr then
      { t with currentChunkSignature := t.currentChunkSignature ++ [cr] }
    else { t with currentChunkSignature := t.currentChunkSignature ++ [cr] ++ [ch] }
  | .cChunkData => t.readData ch
  | .cChunkDataEndCr => t.readEndCr ch
  | .cChunkDataEndLf =>
    if ch = lf then
      { t with
        parserState := .cStart
        currentChunkDetail := t.currentChunkDetail.finiHash sha256
        chunkDetails := t.chunkDetails ++ [t.currentChunkDetail.finiHash sha256] }
    else t.fail

/-- The reference reads one byte. -/
def read (sha256 : Bytes → Bytes) (t : ChunkStream) (ch : UInt8) : ChunkStream :=
  t.leaveStart.readFrame sha256 ch

variable {sha256 : Bytes → Bytes}

variable {t : ChunkStream}

theorem leaveStart_of_ne (h : t.parserState ≠ .cStart) : t.leaveStart = t := by
  unfold leaveStart
  rw [if_neg h]

theorem leaveStart_ne (t : ChunkStream) : t.leaveStart.parserState ≠ .cStart := by
  unfold leaveStart
  by_cases h : t.parserState = .cStart
  · rw [if_pos h]
    simp
  · rw [if_neg h]
    exact h

theorem read_leaveStart (t : ChunkStream) (ch : UInt8) :
    t.leaveStart.read sha256 ch = t.read sha256 ch := by
  unfold read
  rw [leaveStart_of_ne t.leaveStart_ne]

theorem read_of_ne (h : t.parserState ≠ .cStart) (ch : UInt8) :
    t.read sha256 ch = t.readFrame sha256 ch := by
  unfold read
  rw [leaveStart_of_ne h]

theorem stuck_of_cError (h : t.parserState = .cError) :
    Feed.Stuck (read sha256) t := by
  intro ch
  rw [read_of_ne (by rw [h]; decide)]
  unfold readFrame
  rw [h]

/-- **Data are read by the byte as they are read at once.** -/
theorem foldl_read_data :
    ∀ (d : Bytes) (t : ChunkStream), t.parserState = .cChunkData → d ≠ [] →
      d.length ≤ t.chunkDataSizeToRead →
      d.foldl (read sha256) t = { t with
        data := t.data ++ d
        currentChunkDetail := t.currentChunkDetail.updateHash d
        chunkDataSizeToRead := t.chunkDataSizeToRead - d.length
        parserState :=
          if t.chunkDataSizeToRead = d.length then .cChunkDataEndCr else .cChunkData } := by
  intro d
  induction d with
  | nil => intro t _ hd; exact absurd rfl hd
  | cons ch rest ih =>
    intro t hs _ hlen
    rw [length_cons] at hlen
    have hone : t.read sha256 ch = t.readData ch := by
      rw [read_of_ne (by rw [hs]; decide)]
      unfold readFrame
      rw [hs]
    rw [foldl_cons, hone]
    unfold readData
    rw [if_pos (by omega)]
    by_cases hrest : rest = []
    · subst hrest
      simp
    · -- more data follow, so this byte did not end the chunk
      have hpos : 0 < rest.length := length_pos_of_ne_nil hrest
      have hne : t.chunkDataSizeToRead ≠ 1 := by omega
      rw [ih _ (by simp [hne]) hrest (by simp; omega)]
      have hiff : t.chunkDataSizeToRead - 1 = rest.length ↔
          t.chunkDataSizeToRead = rest.length + 1 := by omega
      simp [S3ChunkDetail.updateHash, hiff, Nat.sub_sub, Nat.add_comm]

end ChunkStream

namespace S3ChunkPayloadParser

variable {bufSize : Nat} {sha256 : Bytes → Bytes}

/-! ### The spare buffers -/

/-- There is room in the spares for `n` more bytes: the first one is not overfull, the others
are empty, and either the bytes fit into the first or there is a second. -/
def Room (bufSize : Nat) : List Bytes → Nat → Prop
  | [], _ => False
  | spare :: others, n =>
    spare.length ≤ bufSize ∧ (∀ b ∈ others, b = []) ∧
      (spare.length + n ≤ bufSize ∨ others ≠ [] ∧ n ≤ bufSize)

variable {n : Nat}

theorem Room.mono {spares : List Bytes} {m : Nat} (h : Room bufSize spares n) (hm : m ≤ n) :
    Room bufSize spares m := by
  match spares, h with
  | spare :: others, ⟨hs, ho, hroom⟩ =>
    refine ⟨hs, ho, ?_⟩
    rcases hroom with hfit | ⟨hne, hn⟩
    · exact Or.inl (by omega)
    · exact Or.inr ⟨hne, by omega⟩

theorem flatten_of_forall_nil : ∀ l : List Bytes, (∀ b ∈ l, b = []) → l.flatten = [] := by
  intro l h
  exact flatten_eq_nil_iff.mpr h

variable {p : S3ChunkPayloadParser}

/-- **`add_to_spare` finds a buffer for every byte, and appends the data to what is held.** -/
theorem addToSpare_spec (hB : bufSize < sizeMod) {d : Bytes} (hroom : Room bufSize p.spareBuffers n)
    (hd : d.length ≤ n) :
    ∃ ready spares,
      addToSpare bufSize p d = some { p with readyBuffers := ready, spareBuffers := spares } ∧
      Room bufSize spares (n - d.length) ∧
      ready.flatten ++ spares.flatten =
        p.readyBuffers.flatten ++ p.spareBuffers.flatten ++ d := by
  unfold addToSpare
  match hsp : p.spareBuffers, hroom with
  | spare :: others, ⟨hs, ho, hroom⟩ =>
    have hempty := flatten_of_forall_nil others ho
    have hfree : subSize bufSize spare.length = bufSize - spare.length := subSize_of_le hs hB
    simp only [hfree]
    by_cases hfit : d.length ≤ bufSize - spare.length
    · rw [if_pos hfit]
      refine ⟨p.readyBuffers, (spare ++ d) :: others, rfl, ?_, by simp [hempty]⟩
      refine ⟨by simp; omega, ho, ?_⟩
      rcases hroom with h | ⟨hne, hn⟩
      · exact Or.inl (by simp; omega)
      · exact Or.inr ⟨hne, by omega⟩
    · rw [if_neg hfit]
      -- the data do not fit, so the second disjunct of `Room` is what holds
      obtain ⟨hne, hn⟩ : others ≠ [] ∧ n ≤ bufSize := by
        rcases hroom with h | h
        · exact absurd h (by omega)
        · exact h
      match others, hne, ho, hempty with
      | next :: rest, _, ho, hempty =>
        have hnext : next = [] := ho next (by simp)
        have hrest : ∀ b ∈ rest, b = [] := fun b hb => ho b (by simp [hb])
        subst hnext
        refine ⟨_, _, rfl, ⟨by simp; omega, hrest, Or.inl (by simp; omega)⟩, ?_⟩
        simp [flatten_of_forall_nil rest hrest]

/-! ### One pass of the inner loop -/

/-- What the reference sees of a parser when `before` has been returned by earlier runs. -/
def toStream (before : Bytes) (p : S3ChunkPayloadParser) : ChunkStream where
  chunkDetails := p.chunkDetails
  parserState := p.parserState
  currentChunkSize := p.currentChunkSize
  chunkDataSizeToRead := p.chunkDataSizeToRead
  currentChunkSignature := p.currentChunkSignature
  currentChunkDetail := p.currentChunkDetail
  chunkSigKeyCharState := p.chunkSigKeyCharState
  data := before ++ (p.readyBuffers.flatten ++ p.spareBuffers.flatten)

theorem toStream_leaveStart (before : Bytes) (p : S3ChunkPayloadParser) :
    toStream before p.leaveStart = (toStream before p).leaveStart := by
  unfold leaveStart ChunkStream.leaveStart
  by_cases h : p.parserState = .cStart
  · rw [if_pos h, if_pos (show (toStream before p).parserState = .cStart from h)]
    rfl
  · rw [if_neg h, if_neg (show (toStream before p).parserState ≠ .cStart from h)]

/-- The parser between two passes, with `n` bytes of the run still to be read. -/
structure Ok (bufSize : Nat) (p : S3ChunkPayloadParser) (n : Nat) : Prop where
  room : Room bufSize p.spareBuffers n
  size : p.chunkDataSizeToRead < sizeMod

/-- What a pass over the extent `vec`, with `more` bytes behind it, leaves is as good as what
it found: the reference reaches the same state on what is left. -/
def Keeps (bufSize : Nat) (sha256 : Bytes → Bytes) (before : Bytes) (p : S3ChunkPayloadParser)
    (vec : Bytes) (more : Nat) : Pass → Prop
  | .ret p' =>
    p'.parserState = .cError ∧
      toStream before p' = vec.foldl (ChunkStream.read sha256) (toStream before p)
  | .next p' read =>
    Ok bufSize p' ((vec.drop read).length + more) ∧
      (vec.drop read).foldl (ChunkStream.read sha256) (toStream before p') =
        vec.foldl (ChunkStream.read sha256) (toStream before p) ∧
      (0 < read ∨ p'.parserState = .cChunkDataEndCr ∧ p.parserState ≠ .cChunkDataEndCr)

variable {before rest : Bytes} {ch : UInt8} {more : Nat}

theorem keeps_one {p' : S3ChunkPayloadParser} (hok : Ok bufSize p ((ch :: rest).length + more))
    (hspare : p'.spareBuffers = p.spareBuffers) (hsize : p'.chunkDataSizeToRead < sizeMod)
    (hread : toStream before p' = (toStream before p).read sha256 ch) :
    Keeps bufSize sha256 before p (ch :: rest) more (.next p' 1) := by
  refine ⟨⟨?_, hsize⟩, ?_, Or.inl Nat.one_pos⟩
  · rw [hspare]
    exact hok.room.mono (by simp)
  · simp [hread]

theorem keeps_fail (hread : (toStream before p).read sha256 ch = (toStream before p).fail) :
    Keeps bufSize sha256 before p (ch :: rest) more p.fail := by
  refine ⟨rfl, ?_⟩
  rw [foldl_cons, hread, Feed.foldl_stuck (ChunkStream.stuck_of_cError rfl)]
  rfl

theorem readChunkData_keeps (hB : bufSize < sizeMod) (hs : p.parserState = .cChunkData)
    (hok : Ok bufSize p ((ch :: rest).length + more)) :
    ∃ pass, readChunkData bufSize p (ch :: rest) = some pass ∧
      Keeps bufSize sha256 before p (ch :: rest) more pass := by
  have hread : ∀ c, (toStream before p).read sha256 c = (toStream before p).readData c := by
    intro c
    rw [ChunkStream.read_of_ne (show p.parserState ≠ .cStart by rw [hs]; decide)]
    unfold ChunkStream.readFrame
    rw [show (toStream before p).parserState = .cChunkData from hs]
  unfold readChunkData
  by_cases hpos : 0 < p.chunkDataSizeToRead
  · rw [if_pos hpos]
    set vec := ch :: rest with hvec
    set dataLen := if p.chunkDataSizeToRead ≤ vec.length then p.chunkDataSizeToRead
      else vec.length with hlen
    have hle : dataLen ≤ vec.length := by rw [hlen]; split <;> omega
    have hle' : dataLen ≤ p.chunkDataSizeToRead := by rw [hlen]; split <;> omega
    have hpos' : 0 < dataLen := by
      have : 0 < vec.length := by simp [hvec]
      rw [hlen]; split <;> omega
    have htake : (vec.take dataLen).length = dataLen := by simp [hle]
    obtain ⟨ready, spares, hadd, hroom, hdata⟩ :=
      addToSpare_spec hB (d := vec.take dataLen) hok.room (by rw [htake]; omega)
    rw [htake] at hroom
    have hsub : subSize p.chunkDataSizeToRead dataLen = p.chunkDataSizeToRead - dataLen :=
      subSize_of_le hle' hok.size
    -- the reference reads the same bytes one by one
    have hfold : (vec.take dataLen).foldl (ChunkStream.read sha256) (toStream before p) =
        { toStream before p with
          data := (toStream before p).data ++ vec.take dataLen
          currentChunkDetail := p.currentChunkDetail.updateHash (vec.take dataLen)
          chunkDataSizeToRead := p.chunkDataSizeToRead - dataLen
          parserState :=
            if p.chunkDataSizeToRead = dataLen then .cChunkDataEndCr else .cChunkData } := by
      rw [ChunkStream.foldl_read_data (vec.take dataLen) (toStream before p) hs
        (by intro h; rw [h] at htake; simp at htake; omega)
        (by rw [htake]; exact hle')]
      rw [htake]
      rfl
    have hwhole : ∀ q : S3ChunkPayloadParser,
        toStream before q =
          (vec.take dataLen).foldl (ChunkStream.read sha256) (toStream before p) →
        (vec.drop dataLen).foldl (ChunkStream.read sha256) (toStream before q) =
          vec.foldl (ChunkStream.read sha256) (toStream before p) := by
      intro q hq
      rw [hq, ← foldl_append, take_append_drop]
    have hlast : (vec.drop dataLen).length + more = vec.length + more - dataLen := by
      rw [length_drop]; omega
    have hsmall : p.chunkDataSizeToRead - dataLen < sizeMod :=
      Nat.lt_of_le_of_lt (Nat.sub_le _ _) hok.size
    simp only [hadd, hsub]
    by_cases hend : p.chunkDataSizeToRead - dataLen = 0
    · rw [if_pos hend]
      have heq : p.chunkDataSizeToRead = dataLen := by omega
      refine ⟨_, rfl, ⟨by rw [hlast]; exact hroom, hsmall⟩, hwhole _ ?_, Or.inl hpos'⟩
      rw [hfold, if_pos heq]
      simp only [toStream, hdata, append_assoc]
    · rw [if_neg hend]
      have hne : p.chunkDataSizeToRead ≠ dataLen := by omega
      refine ⟨_, rfl, ⟨by rw [hlast]; exact hroom, hsmall⟩, hwhole _ ?_, Or.inl hpos'⟩
      rw [hfold, if_neg hne]
      simp only [toStream, hdata, append_assoc, hs]
  · rw [if_neg hpos]
    refine ⟨_, rfl, ⟨hok.room, hok.size⟩, ?_, Or.inr ⟨rfl, by rw [hs]; decide⟩⟩
    -- nothing is read: the reference, too, takes the next byte for the CR that ends the chunk
    show (ch :: rest).foldl _ _ = _
    rw [foldl_cons, foldl_cons, hread]
    congr 1
    rw [ChunkStream.read_of_ne (by simp [toStream])]
    unfold ChunkStream.readData
    rw [if_neg (show ¬ 0 < (toStream before p).chunkDataSizeToRead from hpos)]
    simp only [ChunkStream.readFrame, toStream, ChunkStream.readEndCr, ChunkStream.fail,
      S3ChunkDetail.updateHash, append_nil]

variable (sha256)

/-- **One pass of the inner loop keeps up with the reference.** -/
theorem dispatch_keeps (hB : bufSize < sizeMod) (before : Bytes) (hstart : p.parserState ≠ .cStart)
    (hok : Ok bufSize p ((ch :: rest).length + more)) :
    ∃ pass, dispatch bufSize sha256 p ch (ch :: rest) = some pass ∧
      Keeps bufSize sha256 before p (ch :: rest) more pass := by
  have hread : (toStream before p).read sha256 ch = (toStream before p).readFrame sha256 ch :=
    ChunkStream.read_of_ne hstart ch
  have hstate : (toStream before p).parserState = p.parserState := rfl
  unfold dispatch
  cases hs : p.parserState with
  | cStart => exact absurd hs hstart
  | cError =>
    refine ⟨_, rfl, hs, ?_⟩
    rw [Feed.foldl_stuck (ChunkStream.stuck_of_cError (hstate.trans hs))]
  | cChunkData => exact readChunkData_keeps hB hs hok
  | cChunkSize =>
    simp only [ChunkStream.readFrame, hstate, hs] at hread
    by_cases hc : ch = semicolon
    · simp only [if_pos hc] at hread ⊢
      exact ⟨_, rfl, keeps_one hok rfl (toSize_lt _) (by rw [hread]; rfl)⟩
    · simp only [if_neg hc] at hread ⊢
      exact ⟨_, rfl, keeps_one hok rfl hok.size (by rw [hread]; rfl)⟩
  | cChunkSignatureKey =>
    have hkey : (toStream before p).chunkSigKeyCharState = p.chunkSigKeyCharState := rfl
    simp only [ChunkStream.readFrame, hstate, hs, hkey] at hread
    cases hk : p.chunkSigKeyCharState with
    | nil =>
      simp only [hk] at hread
      by_cases hc : ch = equalSign
      · simp only [if_pos hc] at hread ⊢
        exact ⟨_, rfl, keeps_one hok rfl hok.size (by rw [hread]; rfl)⟩
      · simp only [if_neg hc] at hread ⊢
        exact ⟨_, rfl, keeps_fail hread⟩
    | cons key keys =>
      simp only [hk] at hread
      by_cases hc : ch = key
      · simp only [if_pos hc] at hread ⊢
        exact ⟨_, rfl, keeps_one hok rfl hok.size (by rw [hread]; rfl)⟩
      · simp only [if_neg hc] at hread ⊢
        exact ⟨_, rfl, keeps_fail hread⟩
  | cChunkSignatureValue =>
    simp only [ChunkStream.readFrame, hstate, hs] at hread
    by_cases hc : ch = cr
    · simp only [if_pos hc] at hread ⊢
      exact ⟨_, rfl, keeps_one hok rfl hok.size (by rw [hread]; rfl)⟩
    · simp only [if_neg hc] at hread ⊢
      exact ⟨_, rfl, keeps_one hok rfl hok.size (by rw [hread]; rfl)⟩
  | cCr =>
    simp only [ChunkStream.readFrame, hstate, hs] at hread
    by_cases hl : ch = lf
    · simp only [if_pos hl] at hread ⊢
      exact ⟨_, rfl, keeps_one hok rfl hok.size (by rw [hread]; rfl)⟩
    · simp only [if_neg hl] at hread ⊢
      by_cases hc : ch = cr
      · simp only [if_pos hc] at hread ⊢
        exact ⟨_, rfl, keeps_one hok rfl hok.size (by rw [hread]; rfl)⟩
      · simp only [if_neg hc] at hread ⊢
        exact ⟨_, rfl, keeps_one hok rfl hok.size (by rw [hread]; rfl)⟩
  | cChunkDataEndCr =>
    simp only [ChunkStream.readFrame, hstate, hs, ChunkStream.readEndCr] at hread
    by_cases hc : ch = cr
    · simp only [if_pos hc] at hread ⊢
      exact ⟨_, rfl, keeps_one hok rfl hok.size (by rw [hread]; rfl)⟩
    · simp only [if_neg hc] at hread ⊢
      exact ⟨_, rfl, keeps_fail hread⟩
  | cChunkDataEndLf =>
    simp only [ChunkStream.readFrame, hstate, hs] at hread
    by_cases hc : ch = lf
    · simp only [if_pos hc] at hread ⊢
      exact ⟨_, rfl, keeps_one hok rfl hok.size (by rw [hread]; rfl)⟩
    · simp only [if_neg hc] at hread ⊢
      exact ⟨_, rfl, keeps_fail hread⟩

/-! ### The loops -/

/-- What a loop that was to read `vec`, with `more` bytes of the run behind it, leaves. -/
def Reads (bufSize : Nat) (sha256 : Bytes → Bytes) (before : Bytes) (p : S3ChunkPayloadParser)
    (vec : Bytes) (more : Nat) : Pass → Prop
  | .ret p' =>
    p'.parserState = .cError ∧
      toStream before p' = vec.foldl (ChunkStream.read sha256) (toStream before p)
  | .next p' _ =>
    Ok bufSize p' more ∧
      toStream before p' = vec.foldl (ChunkStream.read sha256) (toStream before p)

theorem leaveStart_ne (p : S3ChunkPayloadParser) : p.leaveStart.parserState ≠ .cStart := by
  unfold leaveStart
  by_cases h : p.parserState = .cStart
  · rw [if_pos h]
    simp
  · rw [if_neg h]
    exact h

theorem leaveStart_endCr (h : p.parserState = .cChunkDataEndCr) :
    p.leaveStart.parserState = .cChunkDataEndCr := by
  unfold leaveStart
  rw [if_neg (by rw [h]; decide)]
  exact h

theorem leaveStart_ok (h : Ok bufSize p n) :
    Ok bufSize p.leaveStart n := by
  unfold leaveStart
  by_cases hs : p.parserState = .cStart
  · rw [if_pos hs]
    exact ⟨h.room, (by decide : 0 < sizeMod)⟩
  · rw [if_neg hs]
    exact h

theorem foldl_leaveStart (before : Bytes) (p : S3ChunkPayloadParser) (ch : UInt8) (rest : Bytes) :
    (ch :: rest).foldl (ChunkStream.read sha256) (toStream before p.leaveStart) =
      (ch :: rest).foldl (ChunkStream.read sha256) (toStream before p) := by
  rw [toStream_leaveStart, foldl_cons, foldl_cons, ChunkStream.read_leaveStart]

/-- **The inner loop reads an extent as the reference reads its bytes.**  Two passes for each
byte are enough: a pass that reads nothing is followed by one that reads the CR. -/
theorem parseExtent_spec (hB : bufSize < sizeMod) (before : Bytes) :
    ∀ (fuel : Nat) (p : S3ChunkPayloadParser) (vec : Bytes), Ok bufSize p (vec.length + more) →
      (2 * vec.length ≤ fuel ∨
        p.parserState = .cChunkDataEndCr ∧ 2 * vec.length ≤ fuel + 1) →
      ∃ pass, parseExtent bufSize sha256 fuel p vec = some pass ∧
        Reads bufSize sha256 before p vec more pass := by
  intro fuel
  induction fuel with
  | zero =>
    intro p vec hok hfuel
    match vec, hok, hfuel with
    | [], hok, _ => exact ⟨_, rfl, by simpa using hok, rfl⟩
    | ch :: rest, _, hfuel => rw [length_cons] at hfuel; omega
  | succ k ih =>
    intro p vec hok hfuel
    match vec, hok, hfuel with
    | [], hok, _ => exact ⟨_, rfl, by simpa using hok, rfl⟩
    | ch :: rest, hok, hfuel =>
      obtain ⟨pass, hpass, hkeeps⟩ :=
        dispatch_keeps sha256 hB before p.leaveStart_ne (leaveStart_ok hok)
      simp only [parseExtent, hpass]
      match pass, hkeeps with
      | .ret p', ⟨herr, heq⟩ =>
        exact ⟨_, rfl, herr, heq.trans (foldl_leaveStart sha256 before p ch rest)⟩
      | .next p' read, ⟨hok', heq, hmove⟩ =>
        have hfuel' : 2 * ((ch :: rest).drop read).length ≤ k ∨
            p'.parserState = .cChunkDataEndCr ∧
              2 * ((ch :: rest).drop read).length ≤ k + 1 := by
          rw [length_drop]
          rw [length_cons] at hfuel ⊢
          rcases hmove with hread | ⟨hcr, hne⟩
          · exact Or.inl (by omega)
          · refine Or.inr ⟨hcr, ?_⟩
            rcases hfuel with hf | ⟨hcr', _⟩
            · omega
            · exact absurd (leaveStart_endCr hcr') hne
        obtain ⟨pass', hpass', hreads⟩ := ih p' _ hok' hfuel'
        refine ⟨pass', hpass', ?_⟩
        rw [foldl_leaveStart] at heq
        match pass', hreads with
        | .ret _, ⟨herr, hlast⟩ => exact ⟨herr, hlast.trans heq⟩
        | .next _ _, ⟨hok'', hlast⟩ => exact ⟨hok'', hlast.trans heq⟩

theorem parseExtents_spec (hB : bufSize < sizeMod) (before : Bytes) :
    ∀ (buf : List Bytes) (p : S3ChunkPayloadParser), Ok bufSize p buf.flatten.length →
      ∃ pass, parseExtents bufSize sha256 p buf = some pass ∧
        Reads bufSize sha256 before p buf.flatten 0 pass := by
  intro buf
  induction buf with
  | nil => intro p hok; exact ⟨_, rfl, hok, rfl⟩
  | cons vec rest ih =>
    intro p hok
    rw [flatten_cons, length_append] at hok
    obtain ⟨pass, hpass, hreads⟩ :=
      parseExtent_spec sha256 hB before (2 * vec.length) p vec hok (Or.inl (Nat.le_refl _))
    simp only [parseExtents, hpass, flatten_cons]
    match pass, hreads with
    | .ret p', ⟨herr, heq⟩ =>
      refine ⟨_, rfl, herr, ?_⟩
      rw [foldl_append, ← heq, Feed.foldl_stuck (ChunkStream.stuck_of_cError herr)]
    | .next p' _, ⟨hok', heq⟩ =>
      obtain ⟨pass', hpass', hreads'⟩ := ih p' hok'
      refine ⟨pass', hpass', ?_⟩
      match pass', hreads' with
      | .ret _, ⟨herr, hlast⟩ =>
        exact ⟨herr, by rw [foldl_append, ← heq]; exact hlast⟩
      | .next _ _, ⟨hok'', hlast⟩ =>
        exact ⟨hok'', by rw [foldl_append, ← heq]; exact hlast⟩

/-! ### Runs -/

theorem flatten_filter_pos (l : List Bytes) :
    (l.filter fun b => 0 < b.length).flatten = l.flatten := by
  induction l with
  | nil => rfl
  | cons b rest ih =>
    by_cases hb : 0 < b.length
    · rw [filter_cons_of_pos (by simpa using hb), flatten_cons, flatten_cons, ih]
    · have hnil : b = [] := eq_nil_of_length_eq_zero (by omega)
      subst hnil
      rw [filter_cons_of_neg (by simp), ih, flatten_cons, nil_append]

theorem toStream_finishRun (before : Bytes) (p : S3ChunkPayloadParser) :
    toStream before p.finishRun = toStream before p := by
  unfold finishRun
  by_cases h : p.contentLength = 0
  · simp [h, toStream, flatten_filter_pos]
  · simp [h, toStream]

theorem finishRun_ok (h : Ok bufSize p 0) :
    Ok bufSize p.finishRun bufSize := by
  refine ⟨?_, ?_⟩
  · unfold finishRun
    by_cases hc : p.contentLength = 0
    · simp [hc, Room]
    · simp only [if_neg hc]
      have hroom := h.room
      match p.spareBuffers, hroom with
      | spare :: others, ⟨hs, ho, _⟩ =>
        refine ⟨hs, ?_, Or.inr ⟨by simp, Nat.le_refl _⟩⟩
        intro b hb
        rcases mem_append.mp hb with hb | hb
        · exact ho b hb
        · simpa using hb
  · unfold finishRun
    by_cases hc : p.contentLength = 0
    · simp only [if_pos hc]
      exact h.size
    · simp only [if_neg hc]
      exact h.size

/-- The parser between two runs, and the reference state it stands for. -/
def Session.Refines (bufSize : Nat) (s : Session) (t : ChunkStream) : Prop :=
  toStream s.returned.flatten { s.parser with readyBuffers := [] } = t ∧
    (s.parser.parserState ≠ .cError → Ok bufSize s.parser bufSize)

/-- **A run reads its buffer as the reference reads the bytes in it.** -/
theorem run_spec (hB : bufSize < sizeMod) (s : Session) (t : ChunkStream) (buf : List Bytes)
    (hR : s.Refines bufSize t) (hlive : s.failed = false) (hlen : buf.flatten.length ≤ bufSize) :
    ∃ s', s.run bufSize sha256 buf = some s' ∧
      s'.Refines bufSize (buf.flatten.foldl (ChunkStream.read sha256) t) := by
  obtain ⟨heq, hok⟩ := hR
  have hne : s.parser.parserState ≠ .cError := by
    simpa [Session.failed] using hlive
  have hok' : Ok bufSize { s.parser with readyBuffers := [] } buf.flatten.length :=
    ⟨(hok hne).room.mono hlen, (hok hne).size⟩
  obtain ⟨pass, hpass, hreads⟩ :=
    parseExtents_spec sha256 hB s.returned.flatten buf _ hok'
  -- what a run returns moves from the parser to its caller
  have hmove : ∀ q : S3ChunkPayloadParser,
      toStream (s.returned ++ q.readyBuffers).flatten { q with readyBuffers := [] } =
        toStream s.returned.flatten q := by
    intro q
    simp [toStream]
  unfold Session.run run
  rw [hpass]
  match pass, hreads with
  | .ret p', ⟨herr, hlast⟩ =>
    refine ⟨_, rfl, ?_, fun h => absurd herr h⟩
    rw [hmove, hlast, heq]
  | .next p' _, ⟨hok'', hlast⟩ =>
    refine ⟨_, rfl, ?_, fun _ => finishRun_ok hok''⟩
    rw [hmove, toStream_finishRun, hlast, heq]

theorem fresh_refines (contentLength : Nat) :
    Session.Refines bufSize { parser := setupContentLength {} contentLength }
      (toStream [] {}) := by
  refine ⟨rfl, fun _ => ⟨?_, (by decide : 0 < sizeMod)⟩⟩
  refine ⟨Nat.zero_le _, by simp, Or.inl ?_⟩
  simp

/-- **An upload comes out as the reference does on the bytes of its body.** -/
theorem upload_refines (hB : bufSize < sizeMod) (contentLength : Nat) (bufs : List (List Bytes))
    (hlen : ∀ buf ∈ bufs, buf.flatten.length ≤ bufSize) :
    ∃ s, upload bufSize sha256 contentLength bufs = some s ∧
      s.Refines bufSize
        ((bufs.flatMap List.flatten).foldl (ChunkStream.read sha256) (toStream [] {})) := by
  refine Feed.feed_refines (R := Session.Refines bufSize)
    (P := fun buf => buf.flatten.length ≤ bufSize) ?_ ?_ bufs _ _ (fresh_refines contentLength)
    rfl hlen
  · intro s t hR hfail
    refine ChunkStream.stuck_of_cError ?_
    rw [← hR.1]
    have herr : s.parser.parserState = .cError := by simpa [Session.failed] using hfail
    exact herr
  · intro s t buf hR hlive hbuf
    exact run_spec sha256 hB s t buf hR hlive hbuf

/-- **The parser does not depend on how the stream was cut.**  Two uploads of the same bytes,
cut into buffers and the buffers into extents in any two ways, end in the same state, with the
same completed chunks and the same data. -/
theorem upload_cut_independent (hB : bufSize < sizeMod) (contentLength : Nat)
    (bufs bufs' : List (List Bytes)) (hlen : ∀ buf ∈ bufs, buf.flatten.length ≤ bufSize)
    (hlen' : ∀ buf ∈ bufs', buf.flatten.length ≤ bufSize)
    (hsame : bufs.flatMap List.flatten = bufs'.flatMap List.flatten) :
    ∃ s s', upload bufSize sha256 contentLength bufs = some s ∧
      upload bufSize sha256 contentLength bufs' = some s' ∧
      s.parser.parserState = s'.parser.parserState ∧
      s.parser.chunkDetails = s'.parser.chunkDetails ∧
      s.data = s'.data := by
  obtain ⟨s, hs, hR, _⟩ := upload_refines sha256 hB contentLength bufs hlen
  obtain ⟨s', hs', hR', _⟩ := upload_refines sha256 hB contentLength bufs' hlen'
  have heq : toStream s.returned.flatten { s.parser with readyBuffers := [] } =
      toStream s'.returned.flatten { s'.parser with readyBuffers := [] } := by
    rw [hR, hR', hsame]
  refine ⟨s, s', hs, hs', congrArg ChunkStream.parserState heq,
    congrArg ChunkStream.chunkDetails heq, ?_⟩
  have hdata := congrArg ChunkStream.data heq
  simpa [toStream, Session.data] using hdata

/-- Two frames, cut after every fourth byte and not at all. -/
theorem upload_cut_independent_two_frames :
    let body := ascii "2;chunk-signature=ab\r\nhi\r\n0;chunk-signature=cd\r\n\r\n"
    ∃ s s', upload 64 id 2 [[body]] = some s ∧
      upload 64 id 2 (body.toChunks 4 |>.map fun b => [b]) = some s' ∧
      s.parser.parserState = s'.parser.parserState ∧
      s.parser.chunkDetails = s'.parser.chunkDetails ∧
      s.data = s'.data :=
  upload_cut_independent id (by decide) 2 _ _ (by decide) (by decide) (by decide)

end S3ChunkPayloadParser

end CortxS3
