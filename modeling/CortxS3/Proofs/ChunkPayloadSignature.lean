/-
Which signatures the chunk parser reads.

A signature ends at the first CRLF.  When the parser has seen a CR it waits for the LF, and when
another byte comes instead it puts the CR back into the signature, but does not go back to reading
the signature: it goes on as if there were a CR before each byte.  So a CR in the signature does no
harm as long as only more of them follow (`CrOnlyAtEnd`).  After any other byte the signature becomes
too long (`length_of_strayed`), unless an LF ends it early, and then the rest of it is taken for data
(`Passed`).
-/
import CortxS3.Proofs.ChunkPayloadEncoding

namespace CortxS3

open List

/-- The CRs of a signature all stand at its end. -/
def CrOnlyAtEnd (signature : Bytes) : Prop :=
  ∃ text n, cr ∉ text ∧ signature = text ++ List.replicate n cr

namespace ChunkStream

variable {sha256 : Bytes → Bytes} {t : ChunkStream}

/-- The next byte is the first one of a signature. -/
structure AtSignature (t : ChunkStream) : Prop where
  state : t.parserState = .cChunkSignatureValue
  empty : t.currentChunkSignature = []

/-- The signature has been read, and the data come next. -/
def withSignature (t : ChunkStream) (signature : Bytes) : ChunkStream :=
  { t with
    parserState := .cChunkData
    currentChunkSignature := signature
    currentChunkDetail := t.currentChunkDetail.addSignature signature }

/-! ### After a CR -/

theorem read_cCr (hs : t.parserState = .cCr) {ch : UInt8} (hlf : ch ≠ lf) :
    t.read sha256 ch = { t with
      currentChunkSignature :=
        t.currentChunkSignature ++ if ch = cr then [cr] else [cr, ch] } := by
  rw [read_of_ne (by rw [hs]; decide)]
  unfold readFrame
  rw [hs]
  by_cases hc : ch = cr
  · simp only [hc, if_true, if_neg (show (cr : UInt8) ≠ lf by decide)]
  · simp only [hc, hlf, if_false, append_assoc, singleton_append]

theorem read_cCr_lf (hs : t.parserState = .cCr) :
    t.read sha256 lf = t.withSignature t.currentChunkSignature := by
  rw [read_of_ne (by rw [hs]; decide)]
  unfold readFrame
  rw [hs]
  simp only [if_true]
  rfl

theorem foldl_read_crs (hs : t.parserState = .cCr) (n : Nat) :
    (List.replicate n cr).foldl (read sha256) t =
      { t with currentChunkSignature := t.currentChunkSignature ++ List.replicate n cr } := by
  induction n generalizing t with
  | zero => simp
  | succ n ih =>
    rw [replicate_succ, foldl_cons, read_cCr hs (by decide), if_pos rfl,
      ih (t := { t with currentChunkSignature := t.currentChunkSignature ++ [cr] }) hs]
    simp

theorem foldl_read_toCr (h : AtSignature t) {text : Bytes} (htext : cr ∉ text) (n : Nat) :
    (text ++ List.replicate (n + 1) cr).foldl (read sha256) t =
      { t with
        parserState := .cCr
        currentChunkSignature := text ++ List.replicate n cr } := by
  have hfirst : ({ t with currentChunkSignature := text } : ChunkStream).read sha256 cr =
      { t with parserState := .cCr, currentChunkSignature := text } := by
    rw [read_of_ne (by rw [h.state]; decide)]
    unfold readFrame
    rw [h.state]
    simp only [if_true]
  rw [foldl_append, foldl_read_signature _ _ h.state htext, h.empty, nil_append,
    replicate_succ, foldl_cons, hfirst, foldl_read_crs rfl]

/-- **A signature is read when its CRs stand at its end.** -/
theorem foldl_read_crOnlyAtEnd (h : AtSignature t) {signature : Bytes}
    (hend : CrOnlyAtEnd signature) :
    (signature ++ [cr, lf]).foldl (read sha256) t = t.withSignature signature := by
  obtain ⟨text, n, htext, rfl⟩ := hend
  have hsplit : text ++ List.replicate n cr ++ [cr, lf] =
      (text ++ List.replicate (n + 1) cr) ++ [lf] := by
    rw [replicate_succ']
    simp
  rw [hsplit, foldl_append, foldl_read_toCr h htext, foldl_cons, foldl_nil, read_cCr_lf rfl]
  rfl

/-! ### Behind an early end -/

/-- Since a state in which data came next, at least one byte has been read. -/
def Passed (t u : ChunkStream) : Prop :=
  u.parserState = .cError ∨ u.parserState = .cChunkDataEndCr ∨ u.parserState = .cChunkDataEndLf ∨
    t.data.length < u.data.length ∨ t.chunkDetails.length < u.chunkDetails.length

variable (sha256) in
theorem length_le_read (u : ChunkStream) (ch : UInt8) :
    u.data.length ≤ (u.read sha256 ch).data.length ∧
      u.chunkDetails.length ≤ (u.read sha256 ch).chunkDetails.length := by
  have hframe : ∀ v : ChunkStream, v.data.length ≤ (v.readFrame sha256 ch).data.length ∧
      v.chunkDetails.length ≤ (v.readFrame sha256 ch).chunkDetails.length := by
    intro v
    unfold readFrame readData readEndCr
    split
    · exact ⟨Nat.le_refl _, Nat.le_refl _⟩
    · split <;> exact ⟨Nat.le_refl _, Nat.le_refl _⟩
    · split <;> exact ⟨Nat.le_refl _, Nat.le_refl _⟩
    · split <;> split <;> exact ⟨Nat.le_refl _, Nat.le_refl _⟩
    · split <;> exact ⟨Nat.le_refl _, Nat.le_refl _⟩
    · split
      · exact ⟨Nat.le_refl _, Nat.le_refl _⟩
      · split <;> exact ⟨Nat.le_refl _, Nat.le_refl _⟩
    · split
      · exact ⟨by simp, Nat.le_refl _⟩
      · split <;> exact ⟨Nat.le_refl _, Nat.le_refl _⟩
    · split <;> exact ⟨Nat.le_refl _, Nat.le_refl _⟩
    · split
      · exact ⟨Nat.le_refl _, by simp⟩
      · exact ⟨Nat.le_refl _, Nat.le_refl _⟩
  have hleave : u.leaveStart.data = u.data ∧ u.leaveStart.chunkDetails = u.chunkDetails := by
    unfold leaveStart
    split <;> exact ⟨rfl, rfl⟩
  have h := hframe u.leaveStart
  rwa [hleave.1, hleave.2] at h

theorem passed_read_cChunkData (hs : t.parserState = .cChunkData) (ch : UInt8) :
    Passed t (t.read sha256 ch) := by
  rw [read_of_ne (by rw [hs]; decide)]
  unfold readFrame
  rw [hs]
  simp only
  unfold readData
  split
  · exact Or.inr (Or.inr (Or.inr (Or.inl (by simp))))
  · unfold readEndCr
    split
    · exact Or.inr (Or.inr (Or.inl rfl))
    · exact Or.inl rfl

theorem passed_read {u : ChunkStream} (h : Passed t u)
    (hc : t.chunkDetails.length ≤ u.chunkDetails.length) (ch : UInt8) :
    Passed t (u.read sha256 ch) := by
  obtain ⟨hdata, hdetails⟩ := length_le_read sha256 u ch
  rcases h with h | h | h | h | h
  · rw [stuck_of_cError h ch]
    exact Or.inl h
  · rw [read_of_ne (by rw [h]; decide)]
    unfold readFrame
    rw [h]
    simp only
    unfold readEndCr
    split
    · exact Or.inr (Or.inr (Or.inl rfl))
    · exact Or.inl rfl
  · rw [read_of_ne (by rw [h]; decide)]
    unfold readFrame
    rw [h]
    simp only
    split
    · refine Or.inr (Or.inr (Or.inr (Or.inr ?_)))
      rw [length_append, length_singleton]
      omega
    · exact Or.inl rfl
  · exact Or.inr (Or.inr (Or.inr (Or.inl (by omega))))
  · exact Or.inr (Or.inr (Or.inr (Or.inr (by omega))))

theorem passed_foldl {bytes : Bytes} :
    ∀ {u : ChunkStream}, Passed t u → t.data.length ≤ u.data.length →
      t.chunkDetails.length ≤ u.chunkDetails.length →
      Passed t (bytes.foldl (read sha256) u) := by
  induction bytes with
  | nil => exact fun h _ _ => h
  | cons ch rest ih =>
    intro u h hd hc
    obtain ⟨hdata, hdetails⟩ := length_le_read sha256 u ch
    exact ih (passed_read h hc ch) (by omega) (by omega)

/-- A state in which data come next is not one in which they came next before. -/
theorem Passed.not_same {u : ChunkStream} (h : Passed t u) (hs : u.parserState = .cChunkData)
    (hd : u.data = t.data) : u.chunkDetails ≠ t.chunkDetails := by
  intro hc
  unfold Passed at h
  rw [hs, hd, hc] at h
  simp at h

theorem length_of_strayed (sha256 : Bytes → Bytes) :
    ∀ (rest : Bytes) (u : ChunkStream), u.parserState = .cCr →
      ((rest ++ [cr, lf]).foldl (read sha256) u).parserState = .cChunkData →
      ((rest ++ [cr, lf]).foldl (read sha256) u).data = u.data →
      ((rest ++ [cr, lf]).foldl (read sha256) u).chunkDetails = u.chunkDetails →
      u.currentChunkSignature.length + rest.length <
        ((rest ++ [cr, lf]).foldl (read sha256) u).currentChunkSignature.length := by
  intro rest
  induction rest with
  | nil =>
    intro u hu _ _ _
    obtain ⟨v, hv⟩ : ∃ v : ChunkStream, v = { u with
        currentChunkSignature := u.currentChunkSignature ++ [cr] } := ⟨_, rfl⟩
    have hvs : v.parserState = .cCr := by
      rw [hv]
      exact hu
    rw [nil_append, foldl_cons, foldl_cons, foldl_nil,
      read_cCr hu (by decide), if_pos rfl, ← hv, read_cCr_lf hvs, hv]
    simp [withSignature]
  | cons ch rest ih =>
    intro u hu hs hd hc
    rw [cons_append, foldl_cons] at hs hd hc ⊢
    by_cases hlf : ch = lf
    · subst hlf
      -- the signature ends here, and a CRLF follows at least
      exfalso
      rw [read_cCr_lf hu] at hs hd hc
      obtain ⟨v, hv⟩ : ∃ v, v = u.withSignature u.currentChunkSignature := ⟨_, rfl⟩
      have hvs : v.parserState = .cChunkData := by
        rw [hv]
        rfl
      rw [← hv] at hs hd hc
      have hpassed : Passed v ((rest ++ [cr, lf]).foldl (read sha256) v) := by
        cases hrest : rest ++ [cr, lf] with
        | nil => simp at hrest
        | cons c more =>
          obtain ⟨hdata, hdetails⟩ := length_le_read sha256 v c
          rw [foldl_cons]
          exact passed_foldl (passed_read_cChunkData hvs c) hdata hdetails
      have hsame : v.data = u.data ∧ v.chunkDetails = u.chunkDetails := by
        rw [hv]
        exact ⟨rfl, rfl⟩
      exact hpassed.not_same hs (hd.trans hsame.1.symm) (hc.trans hsame.2.symm)
    · rw [read_cCr hu hlf] at hs hd hc ⊢
      obtain ⟨v, hv⟩ : ∃ v : ChunkStream, v = { u with
          currentChunkSignature :=
            u.currentChunkSignature ++ if ch = cr then [cr] else [cr, ch] } := ⟨_, rfl⟩
      have hsame : v.parserState = .cCr ∧ v.data = u.data ∧ v.chunkDetails = u.chunkDetails := by
        rw [hv]
        exact ⟨hu, rfl, rfl⟩
      rw [← hv] at hs hd hc ⊢
      have hlonger := ih v hsame.1 hs (hd.trans hsame.2.1.symm) (hc.trans hsame.2.2.symm)
      refine Nat.lt_of_le_of_lt ?_ hlonger
      rw [hv]
      simp only [length_append, length_cons]
      split
      · rw [length_singleton]
        omega
      · rw [length_cons, length_singleton]
        omega

theorem exists_stray {signature : Bytes} (h : ¬ CrOnlyAtEnd signature) :
    ∃ text n ch rest, cr ∉ text ∧ ch ≠ cr ∧
      signature = text ++ List.replicate (n + 1) cr ++ ch :: rest := by
  obtain ⟨text, htext⟩ : ∃ text, text = signature.takeWhile (· ≠ cr) := ⟨_, rfl⟩
  obtain ⟨tail, htail⟩ : ∃ tail, tail = signature.dropWhile (· ≠ cr) := ⟨_, rfl⟩
  have hcut : signature = text ++ tail := by
    rw [htext, htail, takeWhile_append_dropWhile]
  have hfree : cr ∉ text := by
    intro hc
    rw [htext] at hc
    simpa using mem_takeWhile_imp hc
  obtain ⟨crs, hcrs⟩ : ∃ crs, crs = tail.takeWhile (· = cr) := ⟨_, rfl⟩
  obtain ⟨end', hend⟩ : ∃ end', end' = tail.dropWhile (· = cr) := ⟨_, rfl⟩
  have hcut' : tail = crs ++ end' := by
    rw [hcrs, hend, takeWhile_append_dropWhile]
  have hall : crs = List.replicate crs.length cr := by
    refine eq_replicate_of_mem fun c hc => ?_
    rw [hcrs] at hc
    simpa using mem_takeWhile_imp hc
  cases hlast : end' with
  | nil =>
    refine absurd ⟨text, crs.length, hfree, ?_⟩ h
    rw [← hall, hcut, hcut', hlast, append_nil]
  | cons ch rest =>
    have hch : ch ≠ cr := by
      have hhead := List.head?_dropWhile_not (· = cr) tail
      rw [← hend, hlast] at hhead
      simpa using hhead
    have hpos : 0 < crs.length := by
      refine length_pos_of_ne_nil fun hnil => ?_
      have hfirst := List.head?_dropWhile_not (· ≠ cr) signature
      rw [← htail, hcut', hnil, hlast] at hfirst
      simp at hfirst
      exact hch hfirst
    refine ⟨text, crs.length - 1, ch, rest, hfree, hch, ?_⟩
    rw [Nat.sub_add_cancel hpos, ← hall, hcut, hcut', hlast, append_assoc]

/-- **A signature without CRLF is read exactly when its CRs stand at its end.** -/
theorem foldl_read_signature_iff (sha256 : Bytes → Bytes) (h : AtSignature t) {signature : Bytes}
    (hfree : ¬ [cr, lf] <:+: signature) :
    (signature ++ [cr, lf]).foldl (read sha256) t = t.withSignature signature ↔
      CrOnlyAtEnd signature := by
  refine ⟨fun heq => ?_, foldl_read_crOnlyAtEnd h⟩
  by_contra hnot
  obtain ⟨text, n, ch, rest, htext, hcr, rfl⟩ := exists_stray hnot
  have hlf : ch ≠ lf := by
    rintro rfl
    refine hfree ⟨text ++ List.replicate n cr, rest, ?_⟩
    rw [replicate_succ']
    simp
  obtain ⟨u, hu⟩ : ∃ u : ChunkStream, u = { t with
      parserState := .cCr
      currentChunkSignature := text ++ List.replicate n cr ++ [cr, ch] } := ⟨_, rfl⟩
  have hfold : (text ++ List.replicate (n + 1) cr ++ ch :: rest ++ [cr, lf]).foldl
      (read sha256) t = (rest ++ [cr, lf]).foldl (read sha256) u := by
    rw [append_assoc, foldl_append, foldl_read_toCr h htext, cons_append,
      foldl_cons, read_cCr rfl hlf, if_neg hcr, hu]
  rw [hfold] at heq
  have hlong := length_of_strayed sha256 rest u (by rw [hu])
    (by rw [heq]; rfl) (by rw [heq, hu]; rfl) (by rw [heq, hu]; rfl)
  rw [heq, hu] at hlong
  simp [withSignature] at hlong
  omega

end ChunkStream

namespace S3ChunkPayloadParser

/-- Behind `head`, and however the stream is cut, the parser takes a signature and goes on with the
data behind the CRLF. -/
def TakesSignature (bufSize : Nat) (sha256 : Bytes → Bytes) (contentLength : Nat)
    (head signature : Bytes) : Prop :=
  ∀ (rest : Bytes) (bufs : List (List Bytes)), (∀ buf ∈ bufs, buf.flatten.length ≤ bufSize) →
    bufs.flatMap List.flatten = head ++ signature ++ [cr, lf] ++ rest →
      ∃ s, upload bufSize sha256 contentLength bufs = some s ∧
        s.Refines bufSize (rest.foldl (ChunkStream.read sha256)
          ((head.foldl (ChunkStream.read sha256) (toStream [] {})).withSignature signature))

/-- **The parser takes a signature exactly when its CRs stand at its end.** -/
theorem takesSignature_iff (sha256 : Bytes → Bytes) {bufSize : Nat} (hpos : 0 < bufSize)
    (hB : bufSize < sizeMod) (contentLength : Nat) {head signature : Bytes}
    (hhead : (head.foldl (ChunkStream.read sha256) (toStream [] {})).AtSignature)
    (hfree : ¬ [cr, lf] <:+: signature) :
    TakesSignature bufSize sha256 contentLength head signature ↔ CrOnlyAtEnd signature := by
  rw [← ChunkStream.foldl_read_signature_iff sha256 hhead hfree]
  constructor
  · intro h
    -- byte by byte, up to the CRLF
    obtain ⟨body, hbody⟩ : ∃ body, body = head ++ signature ++ [cr, lf] := ⟨_, rfl⟩
    have hlen : ∀ buf ∈ body.map (fun b => [[b]]), buf.flatten.length ≤ bufSize := by
      intro buf hbuf
      obtain ⟨b, -, rfl⟩ := mem_map.mp hbuf
      exact hpos
    have hbytes : (body.map fun b => [[b]]).flatMap List.flatten = body := by
      rw [flatMap_map]
      exact flatMap_singleton' body
    obtain ⟨s, hs, hR, -⟩ := h [] (body.map fun b => [[b]]) hlen (by
      rw [hbytes, hbody, append_nil])
    obtain ⟨s', hs', hR', -⟩ := upload_refines sha256 hB contentLength _ hlen
    rw [hs, Option.some.injEq] at hs'
    rw [← hs', hR, hbytes, hbody, append_assoc, foldl_append] at hR'
    exact hR'.symm
  · intro h rest bufs hlen hbytes
    obtain ⟨s, hs, hR⟩ := upload_refines sha256 hB contentLength bufs hlen
    refine ⟨s, hs, ?_⟩
    rw [hbytes, foldl_append, append_assoc, foldl_append, h] at hR
    exact hR

/-- Two CRs at the end of a signature. -/
theorem takesSignature_iff_abc :
    TakesSignature 64 id 5 (ascii "5;chunk-signature=") (ascii "abc\r\r") :=
  (takesSignature_iff id (by decide) (by decide) 5 ⟨by decide, by decide⟩ (by decide)).mpr
    ⟨ascii "abc", 2, by decide, by decide⟩

/-- A CR in the middle of a signature: the signature becomes longer by one CR. -/
theorem not_takesSignature_crInside :
    ¬ [cr, lf] <:+: ascii "a\rb" ∧
      ¬ TakesSignature 64 id 5 (ascii "5;chunk-signature=") (ascii "a\rb") := by
  refine ⟨by decide, fun h => ?_⟩
  obtain ⟨s, hs, hR, -⟩ := h [] [[ascii "5;chunk-signature=a\rb\r\n"]] (by decide)
    (by decide)
  have hgot : (upload 64 id 5 [[ascii "5;chunk-signature=a\rb\r\n"]]).map
      (fun s => s.parser.currentChunkDetail.signature) = some (ascii "a\rb\r") := by
    decide
  rw [hs] at hgot
  have hwant := congrArg (fun t => t.currentChunkDetail.signature) hR
  have hsig := (Option.some.inj hgot).symm.trans hwant
  exact absurd hsig (by decide)

end S3ChunkPayloadParser

end CortxS3
