/-
The buffers of the chunk parser.

A spare is given out only when the data do not fit into it, and then it is filled up first: so what
is given out is full (`addToSpare_tidy`).  When all data are there the spares with data are given out
as they are.  There is one at most, since only the first spare has data.

That a spare is there when one is needed is `parseExtents_spec`.  It is about parsers that go on; one
that has found a malformed frame gives up at the first byte it is shown.
-/
import CortxS3.Proofs.ChunkPayloadEncoding

namespace CortxS3

open Option (some.inj)
open List

namespace S3ChunkPayloadParser

variable {bufSize : Nat} {sha256 : Bytes → Bytes}

/-- Full buffers to give out, and one spare with data in front of empty ones. -/
structure Tidy (bufSize : Nat) (p : S3ChunkPayloadParser) : Prop where
  ready : ∀ b ∈ p.readyBuffers, b.length = bufSize
  spares : ∃ spare others, p.spareBuffers = spare :: others ∧ spare.length ≤ bufSize ∧
    ∀ b ∈ others, b = []

variable {p : S3ChunkPayloadParser}

theorem Tidy.congr {p' : S3ChunkPayloadParser} (h : Tidy bufSize p)
    (hready : p'.readyBuffers = p.readyBuffers) (hspare : p'.spareBuffers = p.spareBuffers) :
    Tidy bufSize p' := by
  refine ⟨?_, ?_⟩
  · rw [hready]
    exact h.ready
  · rw [hspare]
    exact h.spares

theorem Tidy.spare_le (h : Tidy bufSize p) :
    ∀ b ∈ p.spareBuffers, b.length ≤ bufSize := by
  obtain ⟨spare, others, hspares, hlen, hempty⟩ := h.spares
  intro b hb
  rw [hspares] at hb
  rcases mem_cons.mp hb with rfl | hb
  · exact hlen
  · rw [hempty b hb]
    exact Nat.zero_le _

/-! ### One pass -/

theorem addToSpare_tidy (hB : bufSize < sizeMod) {p' : S3ChunkPayloadParser} {d : Bytes}
    (h : Tidy bufSize p) (hd : d.length ≤ bufSize) (hadd : addToSpare bufSize p d = some p') :
    Tidy bufSize p' := by
  obtain ⟨spare, others, hspares, hlen, hempty⟩ := h.spares
  have hfree : subSize bufSize spare.length = bufSize - spare.length := subSize_of_le hlen hB
  unfold addToSpare at hadd
  rw [hspares] at hadd
  simp only [hfree] at hadd
  split at hadd
  · obtain rfl := some.inj hadd
    refine ⟨h.ready, spare ++ d, others, rfl, ?_, hempty⟩
    rw [length_append]
    omega
  · split at hadd
    · cases hadd
    · rename_i hfit _ next rest
      obtain rfl := some.inj hadd
      have hnext : next = [] := hempty next (by simp)
      refine ⟨fun b hb => ?_, next ++ d.drop (bufSize - spare.length), rest, rfl, ?_,
        fun b hb => hempty b (by simp [hb])⟩
      · rcases mem_append.mp hb with hb | hb
        · exact h.ready b hb
        · rw [mem_singleton.mp hb, length_append, length_take]
          omega
      · rw [hnext, nil_append, length_drop]
        omega

/-- The buffers are in order after a pass. -/
def Pass.Tidy (bufSize : Nat) : Pass → Prop
  | .next p _ => S3ChunkPayloadParser.Tidy bufSize p
  | .ret p => S3ChunkPayloadParser.Tidy bufSize p

theorem readChunkData_tidy (hB : bufSize < sizeMod) {vec : Bytes} {pass : Pass} (h : Tidy bufSize p)
    (hvec : vec.length ≤ bufSize) (hpass : readChunkData bufSize p vec = some pass) :
    pass.Tidy bufSize := by
  unfold readChunkData at hpass
  split at hpass
  · simp only at hpass
    obtain ⟨dataLen, hdataLen⟩ : ∃ n, n =
        (if p.chunkDataSizeToRead ≤ vec.length then p.chunkDataSizeToRead else vec.length) :=
      ⟨_, rfl⟩
    rw [← hdataLen] at hpass
    split at hpass
    · cases hpass
    · rename_i p' hadd
      have htake := length_take_le' dataLen vec
      have htidy := addToSpare_tidy hB h (htake.trans hvec) hadd
      split at hpass
      · obtain rfl := some.inj hpass
        exact htidy.congr rfl rfl
      · obtain rfl := some.inj hpass
        exact htidy.congr rfl rfl
  · obtain rfl := some.inj hpass
    exact h.congr rfl rfl

theorem dispatch_tidy (hB : bufSize < sizeMod) {ch : UInt8} {vec : Bytes} {pass : Pass}
    (h : Tidy bufSize p) (hvec : vec.length ≤ bufSize)
    (hpass : dispatch bufSize sha256 p ch vec = some pass) : pass.Tidy bufSize := by
  have hfail : p.fail.Tidy bufSize := h.congr rfl rfl
  unfold dispatch at hpass
  cases hs : p.parserState with
  | cChunkData =>
    rw [hs] at hpass
    exact readChunkData_tidy hB h hvec hpass
  | cChunkSignatureKey =>
    rw [hs] at hpass
    simp only at hpass
    split at hpass <;> split at hpass <;> obtain rfl := some.inj hpass
    · exact h.congr rfl rfl
    · exact hfail
    · exact h.congr rfl rfl
    · exact hfail
  | cCr =>
    rw [hs] at hpass
    simp only at hpass
    split at hpass
    · obtain rfl := some.inj hpass
      exact h.congr rfl rfl
    · split at hpass <;> obtain rfl := some.inj hpass <;> exact h.congr rfl rfl
  | cError =>
    rw [hs] at hpass
    obtain rfl := some.inj hpass
    exact h
  | cStart | cChunkSize | cChunkSignatureValue =>
    rw [hs] at hpass
    simp only at hpass
    split at hpass <;> obtain rfl := some.inj hpass <;> exact h.congr rfl rfl
  | cChunkDataEndCr | cChunkDataEndLf =>
    rw [hs] at hpass
    simp only at hpass
    split at hpass <;> obtain rfl := some.inj hpass
    · exact h.congr rfl rfl
    · exact hfail

theorem leaveStart_tidy (h : Tidy bufSize p) :
    Tidy bufSize p.leaveStart := by
  unfold leaveStart
  split
  · exact h.congr rfl rfl
  · exact h

/-! ### The loops -/

theorem parseExtent_tidy (hB : bufSize < sizeMod) :
    ∀ (fuel : Nat) (p : S3ChunkPayloadParser) (vec : Bytes) {pass : Pass},
      Tidy bufSize p → vec.length ≤ bufSize →
      parseExtent bufSize sha256 fuel p vec = some pass → pass.Tidy bufSize := by
  intro fuel
  induction fuel with
  | zero =>
    intro p vec pass h _ hpass
    cases vec with
    | nil =>
      rw [parseExtent] at hpass
      obtain rfl := some.inj hpass
      exact h
    | cons ch rest =>
      rw [parseExtent] at hpass
      cases hpass
  | succ fuel ih =>
    intro p vec pass h hvec hpass
    cases vec with
    | nil =>
      rw [parseExtent] at hpass
      obtain rfl := some.inj hpass
      exact h
    | cons ch rest =>
      rw [parseExtent] at hpass
      split at hpass
      · cases hpass
      · rename_i p' hdispatch
        obtain rfl := some.inj hpass
        exact dispatch_tidy hB (leaveStart_tidy h) hvec hdispatch
      · rename_i p' read hdispatch
        refine ih p' _ (dispatch_tidy hB (leaveStart_tidy h) hvec hdispatch) ?_ hpass
        rw [length_drop]
        omega

theorem parseExtents_tidy (hB : bufSize < sizeMod) :
    ∀ (buf : List Bytes) (p : S3ChunkPayloadParser) {pass : Pass},
      Tidy bufSize p → buf.flatten.length ≤ bufSize →
      parseExtents bufSize sha256 p buf = some pass → pass.Tidy bufSize := by
  intro buf
  induction buf with
  | nil =>
    intro p pass h _ hpass
    rw [parseExtents] at hpass
    obtain rfl := some.inj hpass
    exact h
  | cons vec rest ih =>
    intro p pass h hlen hpass
    rw [flatten_cons, length_append] at hlen
    rw [parseExtents] at hpass
    split at hpass
    · cases hpass
    · rename_i p' hextent
      obtain rfl := some.inj hpass
      exact parseExtent_tidy hB _ p vec h (by omega) hextent
    · rename_i p' read hextent
      exact ih p' (parseExtent_tidy hB _ p vec h (by omega) hextent) (by omega) hpass

variable (bufSize sha256) in
/-- A parser that has given up reads nothing more, so it needs no buffer. -/
theorem parseExtents_of_cError :
    ∀ (buf : List Bytes) (p : S3ChunkPayloadParser), p.parserState = .cError →
      parseExtents bufSize sha256 p buf = some (.ret p) ∨
        parseExtents bufSize sha256 p buf = some (.next p 0) := by
  intro buf p hp
  have hleave : p.leaveStart = p := by
    unfold leaveStart
    rw [if_neg (by rw [hp]; decide)]
  induction buf with
  | nil => exact Or.inr rfl
  | cons vec rest ih =>
    cases vec with
    | nil =>
      have hextent : parseExtent bufSize sha256 (2 * ([] : Bytes).length) p [] =
          some (.next p 0) := rfl
      rw [parseExtents, hextent]
      exact ih
    | cons ch tail =>
      refine Or.inl ?_
      have hfuel : 2 * (ch :: tail).length = 2 * tail.length + 1 + 1 := by
        rw [length_cons]
        omega
      have hdispatch : dispatch bufSize sha256 p ch (ch :: tail) = some (.ret p) := by
        unfold dispatch
        rw [hp]
      rw [parseExtents, hfuel, parseExtent, hleave, hdispatch]

/-! ### Runs -/

/-- The buffers that a run returns are full, but for a last one when all data have been read. -/
def FullButLast (bufSize : Nat) (p : S3ChunkPayloadParser) : Prop :=
  ∃ full last, p.readyBuffers = full ++ last ∧ (∀ b ∈ full, b.length = bufSize) ∧
    (last = [] ∨ p.contentLength = 0 ∧ ∃ b, last = [b])

theorem fullButLast_of_tidy (h : Tidy bufSize p) :
    FullButLast bufSize p :=
  ⟨p.readyBuffers, [], (append_nil _).symm, h.ready, Or.inl rfl⟩

theorem finishRun_fullButLast (h : Tidy bufSize p) :
    FullButLast bufSize p.finishRun := by
  obtain ⟨spare, others, hspares, -, hempty⟩ := h.spares
  by_cases hc : p.contentLength = 0
  · have hothers : others.filter (fun b => 0 < b.length) = [] := by
      rw [filter_eq_nil_iff]
      intro b hb
      rw [hempty b hb]
      simp
    have hready : p.finishRun.readyBuffers =
        p.readyBuffers ++ p.spareBuffers.filter fun b => 0 < b.length := by
      simp [finishRun, hc]
    have hlast : p.finishRun.contentLength = 0 := by
      simp [finishRun, hc]
    refine ⟨p.readyBuffers, p.spareBuffers.filter fun b => 0 < b.length, hready, h.ready, ?_⟩
    rw [hspares, filter_cons, hothers]
    split
    · exact Or.inr ⟨hlast, spare, rfl⟩
    · exact Or.inl rfl
  · have hsame : p.finishRun.readyBuffers = p.readyBuffers := by
      simp [finishRun, hc]
    exact ⟨p.readyBuffers, [], by rw [hsame, append_nil], h.ready, Or.inl rfl⟩

/-- Between two runs the spares are in order, and unless the parser has given up a whole buffer
fits. -/
structure Session.Orderly (bufSize : Nat) (s : Session) : Prop where
  tidy : Tidy bufSize { s.parser with readyBuffers := [] }
  ok : s.parser.parserState ≠ .cError → Ok bufSize s.parser bufSize

theorem finishRun_spares (h : Tidy bufSize p) :
    Tidy bufSize { p.finishRun with readyBuffers := [] } := by
  refine ⟨nofun, ?_⟩
  obtain ⟨spare, others, hspares, hlen, hempty⟩ := h.spares
  by_cases hc : p.contentLength = 0
  · exact ⟨[], [], by simp [finishRun, hc], Nat.zero_le _, nofun⟩
  · refine ⟨spare, others ++ [[]], by simp [finishRun, hc, hspares], hlen, fun b hb => ?_⟩
    rcases mem_append.mp hb with hb | hb
    · exact hempty b hb
    · exact mem_singleton.mp hb

/-- **A run finds a buffer for all its data, returns full ones, and leaves the spares in order.** -/
theorem run_orderly (sha256 : Bytes → Bytes) (hB : bufSize < sizeMod) {s : Session}
    (buf : List Bytes) (h : s.Orderly bufSize) (hlen : buf.flatten.length ≤ bufSize) :
    ∃ p, s.parser.run bufSize sha256 buf = some p ∧ FullButLast bufSize p ∧
      Session.Orderly bufSize ⟨p, s.returned ++ p.readyBuffers⟩ := by
  obtain ⟨q, hq⟩ : ∃ q, q = { s.parser with readyBuffers := [] } := ⟨_, rfl⟩
  have htidy : Tidy bufSize q := by
    rw [hq]
    exact h.tidy
  have hreturned : ∀ p, Tidy bufSize p → Tidy bufSize { p with readyBuffers := [] } := by
    intro p hp
    exact ⟨nofun, hp.spares⟩
  unfold run
  rw [← hq]
  by_cases herr : s.parser.parserState = .cError
  · have hqerr : q.parserState = .cError := by
      rw [hq]
      exact herr
    rcases parseExtents_of_cError bufSize sha256 buf q hqerr with hp | hp
    · rw [hp]
      exact ⟨q, rfl, fullButLast_of_tidy htidy, hreturned q htidy, fun hne => absurd hqerr hne⟩
    · rw [hp]
      have hend : q.finishRun.parserState = .cError := by
        unfold finishRun
        simp only
        split
        · exact hqerr
        · exact hqerr
      exact ⟨q.finishRun, rfl, finishRun_fullButLast htidy, finishRun_spares htidy,
        fun hne => absurd hend hne⟩
  · have hok : Ok bufSize q buf.flatten.length := by
      rw [hq]
      exact ⟨(h.ok herr).room.mono hlen, (h.ok herr).size⟩
    obtain ⟨pass, hpass, hreads⟩ := parseExtents_spec sha256 hB s.returned.flatten buf q hok
    have hpassTidy := parseExtents_tidy hB buf q htidy hlen hpass
    rw [hpass]
    cases pass with
    | ret p' =>
      obtain ⟨hp', -⟩ := hreads
      exact ⟨p', rfl, fullButLast_of_tidy hpassTidy, hreturned p' hpassTidy,
        fun hne => absurd hp' hne⟩
    | next p' read =>
      obtain ⟨hok', -⟩ := hreads
      exact ⟨p'.finishRun, rfl, finishRun_fullButLast hpassTidy, finishRun_spares hpassTidy,
        fun _ => finishRun_ok hok'⟩

/-- Runs one after another, whatever they return. -/
def Session.runs (bufSize : Nat) (sha256 : Bytes → Bytes) :
    Session → List (List Bytes) → Option Session
  | s, [] => some s
  | s, buf :: rest => (s.run bufSize sha256 buf).bind fun s' => runs bufSize sha256 s' rest

theorem fresh_orderly (contentLength : Nat) :
    Session.Orderly bufSize { parser := setupContentLength {} contentLength } := by
  refine ⟨⟨nofun, [], [], rfl, Nat.zero_le _, nofun⟩, ?_⟩
  exact (fresh_refines contentLength).2

theorem runs_orderly (sha256 : Bytes → Bytes) (hB : bufSize < sizeMod) :
    ∀ (bufs : List (List Bytes)) (s : Session), s.Orderly bufSize →
      (∀ buf ∈ bufs, buf.flatten.length ≤ bufSize) →
      ∃ s', s.runs bufSize sha256 bufs = some s' ∧ s'.Orderly bufSize := by
  intro bufs
  induction bufs with
  | nil =>
    intro s h _
    exact ⟨s, rfl, h⟩
  | cons buf rest ih =>
    intro s h hlen
    obtain ⟨p, hp, -, horderly⟩ := run_orderly sha256 hB buf h (hlen buf mem_cons_self)
    obtain ⟨s', hs', horderly'⟩ := ih _ horderly fun b hb => hlen b (mem_cons_of_mem _ hb)
    refine ⟨s', ?_, horderly'⟩
    rw [Session.runs, Session.run, hp]
    exact hs'

/-- **No run misses a buffer, overfills one, or returns one that is not full before the end of the
data.** -/
theorem runs_keep_buffers (sha256 : Bytes → Bytes) (hB : bufSize < sizeMod) (contentLength : Nat)
    (bufs : List (List Bytes)) (buf : List Bytes)
    (hlen : ∀ b ∈ bufs ++ [buf], b.flatten.length ≤ bufSize) :
    ∃ s p, Session.runs bufSize sha256 { parser := setupContentLength {} contentLength } bufs =
        some s ∧
      s.parser.run bufSize sha256 buf = some p ∧
      (∀ b ∈ p.spareBuffers, b.length ≤ bufSize) ∧ FullButLast bufSize p := by
  obtain ⟨s, hs, horderly⟩ := runs_orderly sha256 hB bufs _
    (fresh_orderly contentLength) fun b hb => hlen b (mem_append_left _ hb)
  obtain ⟨p, hp, hfull, horderly'⟩ := run_orderly sha256 hB buf horderly (hlen buf (by simp))
  exact ⟨s, p, hs, hp, horderly'.tidy.spare_le, hfull⟩

theorem runs_keep_buffers_hello :
    ∃ s p, Session.runs 24 id { parser := setupContentLength {} 5 }
        [[ascii "5;chunk-signature=ab"]] = some s ∧
      s.parser.run 24 id [ascii "\r\nhello"] = some p ∧
      (∀ b ∈ p.spareBuffers, b.length ≤ 24) ∧ FullButLast 24 p :=
  runs_keep_buffers id (by decide) 5 [[ascii "5;chunk-signature=ab"]] [ascii "\r\nhello"]
    (by decide)

end S3ChunkPayloadParser

end CortxS3
