/-
The two sides of an upload in chunks.

While the body is streamed, one side is what is known of the chunks (`AuthSide`): which of them were handed
to the auth client, which wait, and what the auth server said.  The other is what is known of the data
(`Flow`): every byte is written, being written, in the container, or to come.  Both are stated of the
parts of the state they depend on, so that an event that touches one side leaves the other as it is.

The chunks need that no chunk of size zero comes before the last one (`EmptyLast`).  The auth client
reports success when it has nothing more to ask and has seen a chunk of size zero, and the action believes
it for good.
-/
import CortxS3.Server.PutChunkUploadObjectAction
import CortxS3.Proofs.AuthClient
import CortxS3.Proofs.PutObjectAction

namespace CortxS3

open List ChunkAuth RequestBody

/-! ### The auth client -/

namespace ChunkAuth

variable {a : ChunkAuth}

/-- Every chunk that was handed over is answered, asked about, or waits. -/
def Counted (a : ChunkAuth) : Prop :=
  (chunks a.trace).length =
    (answers a.trace).length + (if a.client.state = .started then 1 else 0) +
      a.client.chunkValidationData.length

theorem validateNext_cons {chunk : Bytes × Bytes} {rest : List (Bytes × Bytes)}
    (h : a.client.chunkValidationData = chunk :: rest) :
    ∃ client body, a.validateNext = { a with client := client, trace := a.trace ++ [.sent body] } ∧
      client.state = .started ∧ client.chunkValidationData = rest ∧
      client.lastChunkAdded = a.client.lastChunkAdded ∧
      client.chunkAuthAborted = a.client.chunkAuthAborted := by
  unfold validateNext
  rw [h]
  exact ⟨_, _, rfl, rfl, rfl, rfl, rfl⟩

theorem validateNext_nil (h : a.client.chunkValidationData = []) : a.validateNext = a := by
  unfold validateNext
  rw [h]

theorem addChecksumForChunk_spec (hcounted : a.Counted) (sig hash : Bytes) :
    (a.addChecksumForChunk sig hash).Counted ∧
      chunks (a.addChecksumForChunk sig hash).trace = chunks a.trace ++ [(sig, hash)] ∧
      answers (a.addChecksumForChunk sig hash).trace = answers a.trace ∧
      (a.addChecksumForChunk sig hash).client.lastChunkAdded = a.client.lastChunkAdded ∧
      (a.addChecksumForChunk sig hash).client.chunkAuthAborted = a.client.chunkAuthAborted := by
  have hchunks : chunks [ChunkAct.handed sig hash] = [(sig, hash)] := rfl
  have hanswers : answers [ChunkAct.handed sig hash] = [] := rfl
  have hsent : ∀ body, chunks [ChunkAct.sent body] = [] ∧ answers [ChunkAct.sent body] = [] :=
    fun _ => ⟨rfl, rfl⟩
  unfold Counted at hcounted ⊢
  unfold addChecksumForChunk
  dsimp only
  split
  · next hidle =>
      obtain ⟨chunk, rest, hqueue⟩ :
          ∃ chunk rest, a.client.chunkValidationData ++ [(sig, hash)] = chunk :: rest :=
        exists_cons_of_ne_nil (by simp)
      have hlength := congrArg List.length hqueue
      simp only [length_append, length_cons, length_nil] at hlength
      obtain ⟨client, body, heq, hstate, hrest, hlast, habort⟩ := validateNext_cons (a := { a with
        client := { a.client with
          chunkValidationData := a.client.chunkValidationData ++ [(sig, hash)] }
        trace := a.trace ++ [.handed sig hash] }) hqueue
      rw [heq]
      rw [if_neg hidle] at hcounted
      simp only [chunks_append, answers_append, hchunks, hanswers, hsent, append_nil,
        length_append, length_singleton, hstate, hrest, if_true, hlast, habort, and_self, and_true]
      omega
  · next hstarted =>
      rw [not_ne_iff] at hstarted
      rw [if_pos hstarted] at hcounted
      simp only [chunks_append, answers_append, hchunks, hanswers, append_nil,
        length_append, length_singleton, hstarted, if_true, and_self, and_true]
      omega

theorem addLastChecksumForChunk_spec (hcounted : a.Counted) (sig hash : Bytes) :
    (a.addLastChecksumForChunk sig hash).Counted ∧
      chunks (a.addLastChecksumForChunk sig hash).trace = chunks a.trace ++ [(sig, hash)] ∧
      answers (a.addLastChecksumForChunk sig hash).trace = answers a.trace ∧
      (a.addLastChecksumForChunk sig hash).client.lastChunkAdded = true ∧
      (a.addLastChecksumForChunk sig hash).client.chunkAuthAborted = a.client.chunkAuthAborted :=
  addChecksumForChunk_spec
    (a := { a with client := { a.client with lastChunkAdded := true } }) hcounted sig hash

/-- A positive answer is noted, and then there is a report or the next chunk. -/
theorem chunkAuthSuccessful_eq (response : S3AuthResponseSuccess) :
    ∃ b : ChunkAuth, b.trace = a.trace ++ [.answered true] ∧ b.client.state = .succeded ∧
      b.client.chunkValidationData = a.client.chunkValidationData ∧
      b.client.lastChunkAdded = a.client.lastChunkAdded ∧
      b.client.chunkAuthAborted = a.client.chunkAuthAborted ∧
      a.chunkAuthSuccessful response =
        if b.client.chunkAuthAborted ||
            (b.client.lastChunkAdded && b.client.chunkValidationData.isEmpty) then
          { b with trace := b.trace ++ [.onSuccess] }
        else b.validateNext :=
  ⟨{ client := { a.client with
      state := .succeded
      prevChunkSignatureFromAuth := if response.isOK then response.signatureSha256 else [] }
     request := handleResponse a.request response
     trace := a.trace ++ [.answered true] }, rfl, rfl, rfl, rfl, rfl, rfl⟩

theorem idle_of_reported {response : S3AuthResponseSuccess}
    (hreport : (a.chunkAuthSuccessful response).trace.getLast? = some .onSuccess) :
    (a.chunkAuthSuccessful response).client.state ≠ .started := by
  obtain ⟨b, htrace, hstate, -, -, -, heq⟩ := chunkAuthSuccessful_eq (a := a) response
  rw [heq] at hreport ⊢
  split at hreport
  · next hdone =>
      rw [if_pos hdone]
      simp [hstate]
  · cases hnext : b.client.chunkValidationData with
    | nil =>
      rw [validateNext_nil hnext, htrace] at hreport
      simp at hreport
    | cons chunk rest =>
      obtain ⟨client, body, hval, -⟩ := validateNext_cons hnext
      rw [hval] at hreport
      simp at hreport

/-- A positive answer.  Success is reported when there is nothing more to ask. -/
theorem chunkAuthSuccessful_spec (hcounted : a.Counted) (hstarted : a.client.state = .started)
    (response : S3AuthResponseSuccess) :
    (a.chunkAuthSuccessful response).Counted ∧
      chunks (a.chunkAuthSuccessful response).trace = chunks a.trace ∧
      answers (a.chunkAuthSuccessful response).trace = answers a.trace ++ [true] ∧
      (a.chunkAuthSuccessful response).client.lastChunkAdded = a.client.lastChunkAdded ∧
      (a.chunkAuthSuccessful response).client.chunkAuthAborted = a.client.chunkAuthAborted ∧
      ((a.chunkAuthSuccessful response).trace.getLast? = some .onSuccess →
        a.client.chunkAuthAborted = false → a.client.lastChunkAdded = true ∧
          (a.chunkAuthSuccessful response).client.chunkValidationData = []) := by
  obtain ⟨b, htrace, hstate, hqueue, hlast, habort, heq⟩ := chunkAuthSuccessful_eq (a := a) response
  have hchunks : chunks b.trace = chunks a.trace := by
    rw [htrace]
    exact chunks_append_of_nil rfl
  have hanswers : answers b.trace = answers a.trace ++ [true] := by
    rw [htrace, answers_append]
    rfl
  have hcountedb : (chunks b.trace).length =
      (answers b.trace).length + b.client.chunkValidationData.length := by
    unfold Counted at hcounted
    rw [if_pos hstarted] at hcounted
    rw [hchunks, hanswers, hqueue, length_append, length_singleton]
    exact hcounted
  rw [heq, ← hchunks, ← hanswers, ← hlast, ← habort]
  split
  · next hdone =>
      refine ⟨?_, chunks_append_of_nil rfl, answers_append_of_nil rfl, rfl, rfl, fun _ hnot => ?_⟩
      · unfold Counted
        rw [chunks_append_of_nil rfl, answers_append_of_nil rfl, if_neg (by simp [hstate])]
        exact hcountedb
      · simpa [hnot] using hdone
  · cases hnext : b.client.chunkValidationData with
    | nil =>
      rw [validateNext_nil hnext]
      refine ⟨?_, rfl, rfl, rfl, rfl, fun hreported => ?_⟩
      · unfold Counted
        rw [if_neg (by simp [hstate])]
        exact hcountedb
      · simp [htrace] at hreported
    | cons chunk rest =>
      obtain ⟨client, body, hval, hgo, hrest, hlast', habort'⟩ := validateNext_cons hnext
      rw [hval]
      refine ⟨?_, chunks_append_of_nil rfl, answers_append_of_nil rfl, hlast', habort',
        fun hreported => ?_⟩
      · unfold Counted
        rw [chunks_append_of_nil rfl, answers_append_of_nil rfl, if_pos hgo, hrest, hcountedb, hnext,
          length_cons]
        omega
      · simp at hreported

theorem chunkAuthFailed_spec (hcounted : a.Counted) (hstarted : a.client.state = .started) :
    a.chunkAuthFailed.Counted ∧ chunks a.chunkAuthFailed.trace = chunks a.trace := by
  have hnegative : chunks [ChunkAct.answered false, .onFailed] = [] ∧
      answers [ChunkAct.answered false, .onFailed] = [false] := ⟨rfl, rfl⟩
  unfold Counted at hcounted ⊢
  rw [if_pos hstarted] at hcounted
  simp only [chunkAuthFailed, chunks_append, answers_append, hnegative, append_nil,
    length_append, length_singleton, reduceCtorEq, if_false, and_true]
  omega

end ChunkAuth

namespace S3PutChunkUploadObjectAction

/-! ### What is promised -/

/-- What the auth client is told of a chunk. -/
def credentials (detail : S3ChunkDetail) : Bytes × Bytes := (detail.signature, detail.payloadHash)

/-- All data is written, and the auth server has accepted every chunk, the last of which is empty. -/
structure Verified (c : ChunkUploadConfig) (s : State) : Prop where
  written : s.totalWritten = c.dataLength
  handed : ChunkAuth.chunks s.auth.trace = c.chunks.map credentials
  accepted : ChunkAuth.answers s.auth.trace = List.replicate c.chunks.length true
  lastEmpty : ∃ detail, c.chunks.getLast? = some detail ∧ detail.chunkSize = 0

/-- One response, and no write of nothing. -/
structure Sound (s : State) : Prop where
  once : s.responses ≤ 1
  writesSomething : .write ∈ s.outstanding → s.sizeInCurrentWrite ≠ 0

/-- No chunk before the last is empty. -/
def EmptyLast (c : ChunkUploadConfig) : Prop := ∀ d ∈ c.chunks.dropLast, d.chunkSize ≠ 0

/-- No fragment without data is taken in when somebody listens, all data is written and nothing is being
written. -/
def Expected (s : State) : Event → Prop
  | .data bufs _ memoryAboveThreshold =>
    memoryAboveThreshold = true → s.body.ignoreIncomingData = false → s.body.readError = none →
      s.body.listener.isSome → s.motrWriteInProgress = false → s.body.pendingInFlight = 0 →
      bufs.sum = 0 → s.body.contentLength ≠ 0
  | _ => True

/-! ### The chunks -/

/-- The auth server is not being asked, and there is nothing more to ask. -/
structure AuthOver (c : ChunkUploadConfig) (auth : ChunkAuth) (unsent toCome : List S3ChunkDetail) :
    Prop where
  idle : auth.client.state ≠ .started
  all : c.authDisabled = false → unsent = [] ∧ toCome = [] ∧
    ChunkAuth.chunks auth.trace = c.chunks.map credentials ∧
    (ChunkAuth.answers auth.trace).length = c.chunks.length ∧
    ∃ detail, c.chunks.getLast? = some detail ∧ detail.chunkSize = 0

/-- What is known of the chunks, from the auth client, the details that were not handed over, the frames
to come, and three flags of the action. -/
structure AuthSide (c : ChunkUploadConfig) (auth : ChunkAuth) (unsent toCome : List S3ChunkDetail)
    (inProgress failed completed : Bool) : Prop where
  handed : c.authDisabled = false → ∃ sent, sent ++ (unsent ++ toCome) = c.chunks ∧
    ChunkAuth.chunks auth.trace = sent.map credentials ∧
    (auth.client.lastChunkAdded = true ↔ ∃ d ∈ sent, d.chunkSize = 0)
  disabled : c.authDisabled = true → auth.client.state ≠ .started
  counted : auth.Counted
  positive : failed = false → ∀ answer ∈ ChunkAuth.answers auth.trace, answer = true
  asking : auth.client.state = .started → inProgress = true ∧ failed = false
  finished : completed = true → failed = false → auth.client.chunkAuthAborted = false →
    AuthOver c auth unsent toCome

section Chunks

variable {c : ChunkUploadConfig} {auth : ChunkAuth} {unsent toCome : List S3ChunkDetail}
  {inProgress failed completed : Bool}

theorem nil_of_emptyLast (hlast : EmptyLast c) {sent rest : List S3ChunkDetail}
    (hsplit : sent ++ rest = c.chunks) (hempty : ∃ d ∈ sent, d.chunkSize = 0) :
    rest = [] ∧ ∃ detail, c.chunks.getLast? = some detail ∧ detail.chunkSize = 0 := by
  obtain ⟨d, hmem, hzero⟩ := hempty
  have hd : d ∉ c.chunks.dropLast := fun h => hlast d h hzero
  rw [← hsplit] at hd
  cases rest with
  | cons x rest =>
    refine absurd ?_ hd
    rw [dropLast_append_of_ne_nil (by simp)]
    exact mem_append_left _ hmem
  | nil =>
    rw [append_nil] at hsplit hd
    refine ⟨rfl, d, ?_, hzero⟩
    rw [← hsplit]
    have hne : sent ≠ [] := ne_nil_of_mem hmem
    rw [List.getLast?_eq_getLast_of_ne_nil hne, Option.some.injEq]
    rw [← dropLast_append_getLast hne, mem_append] at hmem
    rcases hmem with h | h
    · exact absurd h hd
    · exact (mem_singleton.mp h).symm

theorem AuthSide.parsed (h : AuthSide c auth unsent toCome inProgress failed completed) (frames : Nat) :
    AuthSide c auth (unsent ++ toCome.take frames) (toCome.drop frames) inProgress failed completed := by
  refine ⟨fun henabled => ?_, h.disabled, h.counted, h.positive, h.asking, fun hc hf ha => ?_⟩
  · obtain ⟨sent, hsplit, hrest⟩ := h.handed henabled
    refine ⟨sent, ?_, hrest⟩
    rw [append_assoc, take_append_drop]
    exact hsplit
  · have hover := h.finished hc hf ha
    refine ⟨hover.idle, fun henabled => ?_⟩
    obtain ⟨rfl, rfl, hall⟩ := hover.all henabled
    exact ⟨by simp, by simp, hall⟩

theorem AuthSide.aborted (h : AuthSide c auth unsent toCome inProgress failed completed) :
    AuthSide c { auth with client := { auth.client with chunkAuthAborted := true } } unsent toCome
      inProgress failed completed :=
  ⟨h.handed, h.disabled, h.counted, h.positive, h.asking, fun _ _ ha => Bool.noConfusion ha⟩

/-- A detail is handed over. -/
theorem AuthSide.sent {d : S3ChunkDetail}
    (h : AuthSide c auth (d :: unsent) toCome inProgress false completed)
    (henabled : c.authDisabled = false) {auth' : ChunkAuth} (hcounted : auth'.Counted)
    (hchunks : chunks auth'.trace = chunks auth.trace ++ [credentials d])
    (hanswers : answers auth'.trace = answers auth.trace)
    (hlast : auth'.client.lastChunkAdded = true ↔
      auth.client.lastChunkAdded = true ∨ d.chunkSize = 0)
    (habort : auth'.client.chunkAuthAborted = auth.client.chunkAuthAborted) :
    AuthSide c auth' unsent toCome true false completed := by
  refine ⟨fun _ => ?_, fun hdisabled => ?_, hcounted, ?_, fun _ => ⟨rfl, rfl⟩, fun hc hf ha => ?_⟩
  · obtain ⟨sent, hsplit, hold, hadded⟩ := h.handed henabled
    refine ⟨sent ++ [d], ?_, ?_, ?_⟩
    · rw [append_assoc, singleton_append]
      exact hsplit
    · rw [hchunks, hold, map_append, map_singleton]
    · rw [hlast, hadded]
      simp only [mem_append, mem_singleton, or_and_right, exists_or, exists_eq_left]
  · rw [henabled] at hdisabled
    cases hdisabled
  · rw [hanswers]
    exact h.positive
  · -- nothing is left to hand over once everything was accepted
    have hnil := ((h.finished hc hf (habort ▸ ha)).all henabled).1
    cases hnil

theorem AuthSide.accepted (h : AuthSide c auth unsent toCome inProgress failed completed)
    (hstarted : auth.client.state = .started) (response : S3AuthResponseSuccess) :
    AuthSide c (auth.chunkAuthSuccessful response) unsent toCome inProgress failed completed := by
  obtain ⟨hcounted, hchunks, hanswers, hlast, habort, -⟩ :=
    chunkAuthSuccessful_spec h.counted hstarted response
  refine ⟨fun henabled => ?_, fun hdisabled => absurd hstarted (h.disabled hdisabled), hcounted,
    fun hfailed => ?_, fun _ => h.asking hstarted, fun hc hf ha => ?_⟩
  · rw [hchunks, hlast]
    exact h.handed henabled
  · rw [hanswers]
    simpa using h.positive hfailed
  · exact absurd hstarted (h.finished hc hf (habort ▸ ha)).idle

theorem AuthSide.reported (hlast : c.authDisabled = false → EmptyLast c)
    (h : AuthSide c auth unsent toCome inProgress failed completed)
    (hstarted : auth.client.state = .started) {response : S3AuthResponseSuccess}
    (hreport : (auth.chunkAuthSuccessful response).trace.getLast? = some .onSuccess) :
    AuthSide c (auth.chunkAuthSuccessful response) unsent toCome false failed true := by
  have haccepted := h.accepted hstarted response
  obtain ⟨hcounted, hchunks, -, hadded, habort, hdone⟩ :=
    chunkAuthSuccessful_spec h.counted hstarted response
  have hidle := idle_of_reported hreport
  refine ⟨haccepted.handed, haccepted.disabled, hcounted, haccepted.positive,
    fun hagain => absurd hagain hidle, fun _ _ ha => ⟨hidle, fun henabled => ?_⟩⟩
  obtain ⟨hseen, hqueue⟩ := hdone hreport (habort ▸ ha)
  obtain ⟨sent, hsplit, hsent, hempty⟩ := h.handed henabled
  obtain ⟨hrest, hdetail⟩ := nil_of_emptyLast (hlast henabled) hsplit (hempty.mp hseen)
  obtain ⟨hunsent, htoCome⟩ := append_eq_nil_iff.mp hrest
  rw [hrest, append_nil] at hsplit
  refine ⟨hunsent, htoCome, by rw [hchunks, hsent, hsplit], ?_, hdetail⟩
  unfold Counted at hcounted
  rw [if_neg hidle, hqueue, hchunks, hsent, hsplit, length_map, length_nil] at hcounted
  omega

theorem AuthSide.rejected (h : AuthSide c auth unsent toCome inProgress failed completed)
    (hstarted : auth.client.state = .started) :
    AuthSide c auth.chunkAuthFailed unsent toCome false true true := by
  obtain ⟨hcounted, hchunks⟩ := chunkAuthFailed_spec h.counted hstarted
  refine ⟨fun henabled => ?_, nofun, hcounted, nofun, nofun, nofun⟩
  rw [hchunks]
  exact h.handed henabled

theorem AuthSide.allAccepted (h : AuthSide c auth unsent toCome inProgress false completed)
    (hover : AuthOver c auth unsent toCome) (henabled : c.authDisabled = false) :
    answers auth.trace = List.replicate c.chunks.length true := by
  obtain ⟨-, -, -, hlength, -⟩ := hover.all henabled
  rw [← hlength]
  exact eq_replicate_of_mem (h.positive rfl)

end Chunks

/-! ### The data -/

/-- The timer runs only for a client that has to send more and may, and a request that was broken off for
want of memory takes no more data. -/
structure BodyOk (b : RequestBody) : Prop where
  timer : b.readTimer = true → b.isFreezed = false ∧ b.isPaused = false ∧ b.readError = none
  unavailable : b.readError = some .serviceUnavailable → b.ignoreIncomingData = true

/-- What is known of the data, from the body, the flags of the write and the counters of the writer.  With
`strict`, nothing empty is written. -/
structure Flow (c : ChunkUploadConfig) (strict : Bool) (b : RequestBody)
    (writing completed failed : Bool) (size total : Nat) : Prop where
  body : BodyOk b
  account : b.readError = none → failed = false →
    total + (if writing then size else 0) + b.contentLength + b.pendingInFlight = c.dataLength ∧
      (b.isFreezed = true ↔ b.pendingInFlight = 0)
  drained : completed = true → b.readError = none → failed = false →
    b.pendingInFlight = 0 ∧ b.contentLength = 0 ∧ (writing = true → size = 0)
  stopped : failed = true →
    writing = false ∧ (b.readError.isSome ∨ (b.isPaused = true ∧ completed = true))
  nonempty : strict = true → writing = true → size ≠ 0 ∧ completed = false

section Data

variable {c : ChunkUploadConfig} {strict writing completed failed : Bool} {b b' : RequestBody}
  {size total : Nat}

theorem BodyOk.stopTimer (h : BodyOk b) : BodyOk { b with readTimer := false } :=
  ⟨nofun, h.unavailable⟩

theorem BodyOk.pause (h : BodyOk b) : BodyOk b.pause := by
  rw [pause_eq]
  refine ⟨fun ht => ?_, h.unavailable⟩
  simp only [Bool.and_eq_true, Bool.or_eq_true] at ht
  obtain ⟨hfr, hpaused, herr⟩ := h.timer ht.1
  simp [hpaused, herr] at ht

theorem BodyOk.resume (h : BodyOk b) (hopen : b.isFreezed = false) : BodyOk b.resume := by
  rw [resume_eq]
  refine ⟨fun ht => ⟨hopen, rfl, ?_⟩, h.unavailable⟩
  dsimp only at ht ⊢
  split at ht
  · simpa using ht
  · exact (h.timer ht).2.2

theorem BodyOk.notified (h : BodyOk b) (herr : b.readError = none) : BodyOk (b.notified c.toBodyConfig) := by
  rw [notified_eq herr]
  refine ⟨fun ht => ?_, h.unavailable⟩
  dsimp only at ht ⊢
  split at ht
  · next hstop =>
      obtain ⟨hfr, hpaused, -⟩ := h.timer ht
      simp [hfr, hpaused] at hstop
  · next hgo =>
      simp only [Bool.or_eq_true, not_or, Bool.not_eq_true] at hgo
      refine ⟨hgo.1, ?_, herr⟩
      rw [hgo.2, Bool.false_or, Option.isNone_eq_false_iff.mpr ht, Bool.false_and]

section

variable (h : Flow c strict b writing completed failed size total)

include h

theorem Flow.with_body (hok : BodyOk b')
    (hlen : b'.contentLength = b.contentLength) (hpending : b'.pendingInFlight = b.pendingInFlight)
    (hfreezed : b'.isFreezed = b.isFreezed) (herr : b'.readError = b.readError)
    (hpaused : failed = true → b.isPaused = true → b'.isPaused = true) :
    Flow c strict b' writing completed failed size total := by
  refine ⟨hok, ?_, ?_, fun hf => ?_, h.nonempty⟩
  · rw [hlen, hpending, hfreezed, herr]
    exact h.account
  · rw [hlen, hpending, herr]
    exact h.drained
  · rw [herr]
    exact ⟨(h.stopped hf).1, (h.stopped hf).2.imp_right fun hp => ⟨hpaused hf hp.1, hp.2⟩⟩

theorem Flow.broken (hok : BodyOk b')
    (herr : b'.readError.isSome) : Flow c strict b' writing completed failed size total := by
  have hnone : b'.readError ≠ none := Option.isSome_iff_ne_none.mp herr
  exact ⟨hok, fun h => absurd h hnone, fun _ h => absurd h hnone,
    fun hf => ⟨(h.stopped hf).1, .inl herr⟩, h.nonempty⟩

theorem Flow.taken (herr : b.readError = none)
    (htimer : b.readTimer = false) {bytes : Nat} {fr : Bool} (hle : bytes ≤ b.pendingInFlight)
    (hfr : fr = true ↔ b.isFreezed = true ∨ b.pendingInFlight = bytes) :
    Flow c strict (b.withBytes bytes fr) writing completed failed size total := by
  refine ⟨⟨fun ht => ?_, h.body.unavailable⟩, fun _ hf => ?_, fun hc _ hf => ?_, h.stopped, h.nonempty⟩
  · exact absurd (htimer.symm.trans ht) Bool.false_ne_true
  · obtain ⟨hsum, hfreezed⟩ := h.account herr hf
    refine ⟨?_, ?_⟩
    · simp only [withBytes]
      omega
    · simp only [withBytes, hfr, hfreezed]
      omega
  · obtain ⟨hpending, hlen, hsize⟩ := h.drained hc herr hf
    refine ⟨?_, ?_, hsize⟩
    · simp only [withBytes]
      omega
    · simp only [withBytes]
      omega

end

theorem Flow.write (h : Flow c strict b false completed failed size total) (hfailed : failed = false)
    (herr : b.readError = none) {n : Nat} (hle : n ≤ b.contentLength)
    (hnew : strict = true → n ≠ 0 ∧ completed = false) :
    Flow c strict (b.getBuffers n) true completed failed n total := by
  refine ⟨⟨h.body.timer, h.body.unavailable⟩, fun _ hf => ?_, fun hc _ hf => ?_, fun hf => ?_,
    fun hs _ => hnew hs⟩
  · obtain ⟨hsum, hfreezed⟩ := h.account herr hf
    refine ⟨?_, hfreezed⟩
    simp only [getBuffers, if_true, Bool.false_eq_true, if_false] at hsum ⊢
    omega
  · obtain ⟨hpending, hlen, -⟩ := h.drained hc herr hf
    simp only [getBuffers]
    omega
  · rw [hfailed] at hf
    cases hf

theorem Flow.written (h : Flow c strict b true completed failed size total) :
    Flow c strict b false completed failed size (total + size) := by
  refine ⟨h.body, fun he hf => ?_, fun hc he hf => ?_, fun hf => ?_, nofun⟩
  · obtain ⟨hsum, hfreezed⟩ := h.account he hf
    refine ⟨?_, hfreezed⟩
    simpa using hsum
  · obtain ⟨hpending, hlen, -⟩ := h.drained hc he hf
    exact ⟨hpending, hlen, nofun⟩
  · cases (h.stopped hf).1

theorem Flow.complete (h : Flow c strict b false completed failed size total)
    (hpending : b.pendingInFlight = 0) (hlen : b.contentLength = 0) :
    Flow c strict b false true failed size total :=
  ⟨h.body, h.account, fun _ _ _ => ⟨hpending, hlen, nofun⟩,
    fun hf => ⟨rfl, (h.stopped hf).2.imp_right fun hp => ⟨hp.1, rfl⟩⟩, nofun⟩

theorem Flow.failedWrite (h : Flow c strict b true completed failed size total) :
    Flow c strict b.pause false (completed || b.readError.isNone) true size total := by
  refine ⟨h.body.pause, nofun, nofun, fun _ => ⟨rfl, ?_⟩, nofun⟩
  rw [pause_eq]
  cases herr : b.readError with
  | some e => exact .inl rfl
  | none => exact .inr ⟨by simp, by simp⟩

end Data

end S3PutChunkUploadObjectAction

end CortxS3
