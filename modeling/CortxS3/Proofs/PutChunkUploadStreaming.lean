/-
Streaming the body of an upload in chunks, whatever the order of events.

Data, timeouts, the answers of Motr and those of the auth server come in any order.  While the body is
streamed (`Streaming`), each of them keeps both sides or ends the streaming, and there are only three ways
to do that (`Outcome`): the metadata is saved, the client is answered, or the cleanup begins without an
answer.

The parameter `strict` says that nothing empty is written.  It holds as long as no fragment without data
arrives when all data is written (`Expected`): then nothing is being written, the container is freezed, and
the fragment starts a write.
-/
import CortxS3.Proofs.PutChunkUploadSides

namespace CortxS3

open List RequestBody

namespace S3PutChunkUploadObjectAction

open S3PutObjectAction (Task CleanupTask Op OpResult maxCollisionRetryCount streamTasks fetchTasks)

/-! ### Streaming, and how it ends -/

structure Streaming (c : ChunkUploadConfig) (strict : Bool) (s : State) : Prop where
  tasks : s.tasks = [.saveMetadata, .sendResponseToS3Client]
  responses : s.responses = 0
  cleanupStarted : s.cleanupStarted = false
  calls : s.outstanding = if s.motrWriteInProgress then [.write] else []
  authSide : AuthSide c s.auth s.chunkDetails s.framesToCome s.authInProgress s.authFailed s.authCompleted
  flow : Flow c strict s.body s.motrWriteInProgress s.motrWriteCompleted s.writeFailed
    s.sizeInCurrentWrite s.totalWritten
  /-- After a rejection nothing new is written. -/
  rejected : s.authFailed = true →
    s.motrWriteInProgress = true ∨ s.body.readError.isSome ∨ s.writeFailed = true
  aborted : s.auth.client.chunkAuthAborted = true → s.body.readError.isSome ∨ s.writeFailed = true

/-- What holds when streaming ends. -/
structure Ending (strict : Bool) (s : State) : Prop where
  responses : s.responses = 0
  calls : s.outstanding = if s.motrWriteInProgress then [.write] else []
  notWriting : strict = true → s.motrWriteInProgress = false

/-- Everything is there for the metadata to be saved. -/
structure Ready (c : ChunkUploadConfig) (strict : Bool) (s : State) : Prop extends Ending strict s where
  cleanupStarted : s.cleanupStarted = false
  idle : s.auth.client.state ≠ .started
  body : BodyOk s.body
  noReadError : s.body.readError = none
  freezed : s.body.isFreezed = true
  pending : s.body.pendingInFlight = 0
  empty : s.body.contentLength = 0
  verified : c.dataLength ≠ 0 → c.authDisabled = false → Verified c s

/-- `save_metadata`. -/
def startSave (s : State) : State := { s with tasks := [.sendResponseToS3Client] }.launch .saveMetadata

/-- The states one event can lead to while the body is streamed. -/
inductive Outcome (c : ChunkUploadConfig) (strict : Bool) : State → Prop
  | streaming {s : State} (h : Streaming c strict s) : Outcome c strict s
  | saving {s : State} (h : Ready c strict s) : Outcome c strict (startSave s)
  | answered {s : State} (h : Ending strict s) (idle : s.auth.client.state ≠ .started) :
      Outcome c strict (respond c s)
  | broken {s : State} (h : Ending strict s) (timer : s.body.readTimer = false)
      (ignored : s.body.ignoreIncomingData = true) : Outcome c strict (startcleanup c s)

/-- What an event does where it can come. -/
inductive Stepped (c : ChunkUploadConfig) (s : State) : Event → State → Prop
  | data {bufs frames memoryAboveThreshold} (hopen : s.body.isPaused = false) :
      Stepped c s (.data bufs frames memoryAboveThreshold) (onData c s bufs frames memoryAboveThreshold)
  | readTimeout (htimer : s.body.readTimer = true) : Stepped c s .readTimeout (onReadTimeout c s)
  | answer {op result failedToLaunch} (hop : op ∈ s.outstanding) :
      Stepped c s (.answer op result failedToLaunch)
        (answered c { s with outstanding := s.outstanding.erase op } op result failedToLaunch)
  | authSuccess {response} (hstarted : s.auth.client.state = .started) :
      Stepped c s (.authSuccess response) (onAuthSuccess c s response)
  | authFailure (hstarted : s.auth.client.state = .started) :
      Stepped c s .authFailure (onAuthFailure c s)

section Upload

variable {c : ChunkUploadConfig} {strict : Bool} {s : State}

theorem authStarted_iff : s.authStarted = true ↔ s.auth.client.state = .started := by
  simp [State.authStarted]

variable {e : Event} {s' : State}

theorem stepped (hstep : step c s e = some s') : Stepped c s e s' := by
  cases e with
  | data bufs frames memoryAboveThreshold =>
    obtain ⟨hopen, rfl⟩ : s.body.isPaused = false ∧ _ = s' := by simpa [step] using hstep
    exact .data hopen
  | readTimeout =>
    obtain ⟨htimer, rfl⟩ : s.body.readTimer = true ∧ _ = s' := by simpa [step] using hstep
    exact .readTimeout htimer
  | answer op result failedToLaunch =>
    obtain ⟨hop, rfl⟩ : op ∈ s.outstanding ∧ _ = s' := by simpa [step] using hstep
    exact .answer hop
  | authSuccess response =>
    obtain ⟨hstarted, rfl⟩ : s.authStarted = true ∧ _ = s' := by simpa [step] using hstep
    exact .authSuccess (authStarted_iff.mp hstarted)
  | authFailure =>
    obtain ⟨hstarted, rfl⟩ : s.authStarted = true ∧ _ = s' := by simpa [step] using hstep
    exact .authFailure (authStarted_iff.mp hstarted)

variable {b : RequestBody}

section

variable (h : Streaming c strict s)

include h

theorem Streaming.with_body (hok : BodyOk b)
    (hlen : b.contentLength = s.body.contentLength)
    (hpending : b.pendingInFlight = s.body.pendingInFlight)
    (hfreezed : b.isFreezed = s.body.isFreezed) (herr : b.readError = s.body.readError)
    (hpaused : s.writeFailed = true → s.body.isPaused = true → b.isPaused = true) :
    Streaming c strict { s with body := b } :=
  ⟨h.tasks, h.responses, h.cleanupStarted, h.calls, h.authSide,
    h.flow.with_body hok hlen hpending hfreezed herr hpaused, by rw [herr]; exact h.rejected,
    by rw [herr]; exact h.aborted⟩

theorem Streaming.broken (hok : BodyOk b) (herr : b.readError.isSome) :
    Streaming c strict { s with body := b } :=
  ⟨h.tasks, h.responses, h.cleanupStarted, h.calls, h.authSide, h.flow.broken hok herr,
    fun _ => .inr (.inl herr), fun _ => .inl herr⟩

theorem Streaming.with_error : Streaming c strict { s with isErrorState := true } :=
  ⟨h.tasks, h.responses, h.cleanupStarted, h.calls, h.authSide, h.flow, h.rejected, h.aborted⟩

theorem Streaming.not_aborted (herr : s.body.readError = none)
    (hfailed : s.writeFailed = false) : s.auth.client.chunkAuthAborted = false := by
  by_contra habort
  have hwhy := h.aborted (by simpa using habort)
  simp [herr, hfailed] at hwhy

theorem Streaming.not_rejected (herr : s.body.readError = none)
    (hfailed : s.writeFailed = false) (hwriting : s.motrWriteInProgress = false) :
    s.authFailed = false := by
  by_contra hrejected
  have hwhy := h.rejected (by simpa using hrejected)
  simp [herr, hfailed, hwriting] at hwhy

end

theorem sendResponse_idle (hidle : s.auth.client.state ≠ .started) :
    sendResponseToS3Client c s = respond c s := by
  rw [sendResponseToS3Client, if_neg (by simp [State.authStarted, hidle])]

/-- A read error ends in an answer, or in a cleanup without one. -/
theorem clientReadError_cases (hok : BodyOk s.body) (herr : s.body.readError.isSome) :
    (s.body.readError = some .requestTimeout ∧
        clientReadError c s = sendResponseToS3Client c { s with isErrorState := true }) ∨
      (clientReadError c s = startcleanup c { s with isErrorState := true } ∧
        s.body.readError = some .serviceUnavailable ∧ s.body.readTimer = false ∧
          s.body.ignoreIncomingData = true) := by
  unfold clientReadError
  dsimp only
  split
  · next htimeout => exact .inl ⟨htimeout, rfl⟩
  · next hother =>
      have hunavailable : s.body.readError = some .serviceUnavailable := by
        obtain ⟨e, he⟩ := Option.isSome_iff_exists.mp herr
        cases e with
        | requestTimeout => exact absurd he hother
        | serviceUnavailable => exact he
      refine .inr ⟨rfl, hunavailable, ?_, hok.unavailable hunavailable⟩
      by_contra htimer
      have hnone := (hok.timer (by simpa using htimer)).2.2
      rw [hnone] at herr
      cases herr

theorem outcome_sendResponse (h : Streaming c strict s)
    (hwriting : strict = true → s.motrWriteInProgress = false)
    (hstop : s.body.readError.isSome ∨ s.writeFailed = true) :
    Outcome c strict (sendResponseToS3Client c s) := by
  unfold sendResponseToS3Client
  split
  · exact .streaming ⟨h.tasks, h.responses, h.cleanupStarted, h.calls, h.authSide.aborted, h.flow,
      h.rejected, fun _ => hstop⟩
  · next hgo =>
      refine .answered ⟨h.responses, h.calls, hwriting⟩ fun hstarted => hgo ?_
      rw [(h.authSide.asking hstarted).1, Bool.true_and]
      exact authStarted_iff.mpr hstarted

theorem outcome_clientReadError (h : Streaming c strict s)
    (hwriting : strict = true → s.motrWriteInProgress = false) (herr : s.body.readError.isSome) :
    Outcome c strict (clientReadError c s) := by
  rcases clientReadError_cases (c := c) h.flow.body herr with ⟨-, heq⟩ | ⟨heq, -, htimer, hignored⟩
  · rw [heq]
    exact outcome_sendResponse h.with_error hwriting (.inl herr)
  · rw [heq]
    exact .broken ⟨h.responses, h.calls, hwriting⟩ htimer hignored

/-! ### The cleanup -/

theorem runCleanup_eq (c : ChunkUploadConfig) (s : State) : ∀ tasks, ∃ left done ops,
    runCleanup c s tasks = { s with
      cleanupTasks := left
      done := done
      outstanding := s.outstanding ++ ops } ∧ ∀ op ∈ ops, ∃ k, op = .cleanup k := by
  intro tasks
  induction tasks with
  | nil => exact ⟨[], true, [], by rw [append_nil]; rfl, nofun⟩
  | cons task rest ih =>
    have hcleanup : ∀ op, task.op c.toUploadConfig = some op → ∃ k, op = .cleanup k := by
      intro op hop
      cases task <;> simp only [CleanupTask.op] at hop <;> grind
    rw [runCleanup]
    split
    · exact ih
    · next op hop => exact ⟨rest, s.done, [op], rfl, by simpa using hcleanup op hop⟩

theorem startcleanup_eq (c : ChunkUploadConfig) (s : State) : ∃ left done ops,
    startcleanup c s = { s with
      tasks := []
      cleanupStarted := true
      cleanupTasks := left
      done := done
      outstanding := s.outstanding ++ ops } ∧ ∀ op ∈ ops, ∃ k, op = .cleanup k := by
  unfold startcleanup
  dsimp only
  split
  · exact ⟨s.cleanupTasks, s.done, [], by rw [append_nil], nofun⟩
  · exact runCleanup_eq c _ _

theorem respond_eq (c : ChunkUploadConfig) (s : State) : ∃ state left done ops,
    respond c s = { s with
      actionState := state
      responses := s.responses + 1
      body := s.body.sendResponse
      tasks := []
      cleanupStarted := true
      cleanupTasks := left
      done := done
      outstanding := s.outstanding ++ ops } ∧ ∀ op ∈ ops, ∃ k, op = .cleanup k := by
  unfold respond
  dsimp only
  split
  · obtain ⟨left, done, ops, heq, hops⟩ := startcleanup_eq c { s with
      responses := s.responses + 1
      body := s.body.sendResponse }
    exact ⟨s.actionState, left, done, ops, heq, hops⟩
  · obtain ⟨left, done, ops, heq, hops⟩ := startcleanup_eq c { s with
      actionState := .completed
      responses := s.responses + 1
      body := s.body.sendResponse }
    exact ⟨.completed, left, done, ops, heq, hops⟩

theorem readError_clientReadError (c : ChunkUploadConfig) (s : State) :
    (clientReadError c s).body.readError = s.body.readError := by
  unfold clientReadError
  dsimp only
  split
  · unfold sendResponseToS3Client
    split
    · rfl
    · obtain ⟨_, _, _, _, heq, -⟩ := respond_eq c { s with isErrorState := true }
      rw [heq, sendResponse_eq]
  · obtain ⟨_, _, _, heq, -⟩ := startcleanup_eq c { s with isErrorState := true }
    rw [heq]

/-! ### Handing chunks over -/

theorem AuthSide.skipped {d : S3ChunkDetail} {auth : ChunkAuth} {unsent toCome : List S3ChunkDetail}
    {inProgress failed completed : Bool}
    (h : AuthSide c auth (d :: unsent) toCome inProgress failed completed)
    (hdisabled : c.authDisabled = true) :
    AuthSide c auth unsent toCome inProgress failed completed := by
  have hnot : ∀ {P : Prop}, c.authDisabled = false → P := fun henabled =>
    absurd (hdisabled.symm.trans henabled) Bool.noConfusion
  exact ⟨hnot, h.disabled, h.counted, h.positive, h.asking,
    fun hc hf ha => ⟨(h.finished hc hf ha).idle, hnot⟩⟩

theorem sendChunkDetails_spec : ∀ (details : List S3ChunkDetail) (s : State),
    s.authFailed = false →
    AuthSide c s.auth details s.framesToCome s.authInProgress s.authFailed s.authCompleted →
    ∃ auth inProgress, details.foldl (sendChunkDetail c) s =
        { s with auth := auth, authInProgress := inProgress } ∧
      AuthSide c auth [] s.framesToCome inProgress s.authFailed s.authCompleted ∧
      auth.client.chunkAuthAborted = s.auth.client.chunkAuthAborted := by
  intro details
  induction details with
  | nil =>
    intro s _ h
    exact ⟨s.auth, s.authInProgress, rfl, h, rfl⟩
  | cons d rest ih =>
    intro s hfailed h
    rw [foldl_cons, sendChunkDetail]
    split
    · next hdisabled => exact ih s hfailed (h.skipped hdisabled)
    · next henabled =>
        have henabled' : c.authDisabled = false := by simpa using henabled
        rw [hfailed] at h
        split
        · next hzero =>
            obtain ⟨hcounted, hchunks, hanswers, hlast, habort⟩ :=
              ChunkAuth.addLastChecksumForChunk_spec h.counted d.signature d.payloadHash
            have hside := h.sent henabled' hcounted hchunks hanswers (by simp [hlast, hzero]) habort
            obtain ⟨auth, inProgress, heq, hspec, hkept⟩ :=
              ih { s with auth := _, authInProgress := true } hfailed (by rw [hfailed]; exact hside)
            exact ⟨auth, inProgress, heq, hspec, hkept.trans habort⟩
        · next hdata =>
            obtain ⟨hcounted, hchunks, hanswers, hlast, habort⟩ :=
              ChunkAuth.addChecksumForChunk_spec h.counted d.signature d.payloadHash
            have hside := h.sent henabled' hcounted hchunks hanswers (by simp [hlast, hdata]) habort
            obtain ⟨auth, inProgress, heq, hspec, hkept⟩ :=
              ih { s with auth := _, authInProgress := true } hfailed (by rw [hfailed]; exact hside)
            exact ⟨auth, inProgress, heq, hspec, hkept.trans habort⟩

theorem sendChunkDetailsIfAny_spec (hfailed : s.authFailed = false)
    (h : AuthSide c s.auth s.chunkDetails s.framesToCome s.authInProgress s.authFailed
      s.authCompleted) :
    ∃ auth inProgress, sendChunkDetailsIfAny c s = { s with
        chunkDetails := []
        auth := auth
        authInProgress := inProgress } ∧
      AuthSide c auth [] s.framesToCome inProgress s.authFailed s.authCompleted ∧
      auth.client.chunkAuthAborted = s.auth.client.chunkAuthAborted :=
  sendChunkDetails_spec s.chunkDetails { s with chunkDetails := [] } hfailed h

theorem streaming_writeObject (h : Streaming c strict s) (hwriting : s.motrWriteInProgress = false)
    (herr : s.body.readError = none) (hfailed : s.writeFailed = false)
    (hnew : strict = true → s.body.contentLength ≠ 0 ∧ s.motrWriteCompleted = false) :
    Streaming c strict (writeObject c s) := by
  obtain ⟨auth, inProgress, heq, hside, habort⟩ :=
    sendChunkDetailsIfAny_spec (h.not_rejected herr hfailed hwriting) h.authSide
  have hflow := h.flow
  rw [hwriting] at hflow
  have hwrite := hflow.write hfailed herr (Nat.min_le_left s.body.contentLength c.motrWritePayloadSize)
    fun hs => by
      have hpos := c.motrWritePayloadSize_pos
      exact ⟨by have := (hnew hs).1; omega, (hnew hs).2⟩
  unfold writeObject
  rw [heq]
  refine ⟨h.tasks, h.responses, h.cleanupStarted, ?_, hside, hwrite, fun _ => .inl rfl, fun ha => ?_⟩
  · simp [State.launch, h.calls, hwriting]
  · exact h.aborted (habort ▸ ha)

/-! ### The answers of Motr -/

theorem next_save (htasks : s.tasks = [.saveMetadata, .sendResponseToS3Client])
    (hclean : s.cleanupStarted = false) (herr : s.body.readError = none) : next c s = startSave s := by
  rw [next, isS3ClientReadError, herr, if_neg (by simp), if_neg (by simp [hclean]), htasks]
  rfl

section

variable (h : Streaming c strict s)

include h

/-- **The metadata is saved when both sides are done.** -/
theorem Streaming.ready (herr : s.body.readError = none)
    (hfailed : s.writeFailed = false) (hrejected : s.authFailed = false)
    (hauth : s.authCompleted = true) (hwrite : s.motrWriteCompleted = true) : Ready c strict s := by
  have hover := h.authSide.finished hauth hrejected (h.not_aborted herr hfailed)
  obtain ⟨hpending, hlen, hsize⟩ := h.flow.drained hwrite herr hfailed
  obtain ⟨hsum, hfreezed⟩ := h.flow.account herr hfailed
  refine ⟨⟨h.responses, h.calls, fun hs => ?_⟩, h.cleanupStarted, hover.idle, h.flow.body, herr,
    hfreezed.mpr hpending, hpending, hlen, fun _ henabled => ?_⟩
  · by_contra hwriting
    have hopen := (h.flow.nonempty hs (by simpa using hwriting)).2
    rw [hwrite] at hopen
    cases hopen
  · obtain ⟨-, -, hhanded, -, hlast⟩ := hover.all henabled
    have hside := h.authSide
    rw [hrejected] at hside
    refine ⟨?_, hhanded, hside.allAccepted hover henabled, hlast⟩
    split at hsum
    · next hwriting =>
        have hzero := hsize hwriting
        omega
    · omega

theorem Streaming.written (hwriting : s.motrWriteInProgress = true)
    (hrejected : s.authFailed = true → s.body.readError.isSome) :
    Streaming c strict { s with
      outstanding := []
      totalWritten := s.totalWritten + s.sizeInCurrentWrite
      motrWriteInProgress := false } := by
  have hflow := h.flow
  rw [hwriting] at hflow
  exact ⟨h.tasks, h.responses, h.cleanupStarted, rfl, h.authSide, hflow.written,
    fun hf => .inr (.inl (hrejected hf)), h.aborted⟩

theorem outcome_allWritten (hwriting : s.motrWriteInProgress = false)
    (herr : s.body.readError = none) (hfailed : s.writeFailed = false)
    (hfreezed : s.body.isFreezed = true) (hlen : s.body.contentLength = 0) :
    Outcome c strict (allWritten c s) ∧ (allWritten c s).body = s.body := by
  have hflow := h.flow
  rw [hwriting] at hflow
  have hpending := (hflow.account herr hfailed).2.mp hfreezed
  have hcomplete : Streaming c strict { s with motrWriteCompleted := true } :=
    ⟨h.tasks, h.responses, h.cleanupStarted, h.calls, h.authSide,
      by rw [hwriting]; exact hflow.complete hpending hlen, h.rejected, h.aborted⟩
  have hrejected := h.not_rejected herr hfailed hwriting
  unfold allWritten
  dsimp only
  split
  · next hauth =>
      rw [next_save (s := { s with motrWriteCompleted := true }) h.tasks h.cleanupStarted herr]
      exact ⟨.saving (hcomplete.ready herr hfailed hrejected hauth rfl), rfl⟩
  · obtain ⟨auth, inProgress, heq, hside, habort⟩ :=
      sendChunkDetailsIfAny_spec (s := { s with motrWriteCompleted := true }) hrejected h.authSide
    rw [heq]
    exact ⟨.streaming ⟨h.tasks, h.responses, h.cleanupStarted, h.calls, hside, hcomplete.flow,
      h.rejected, fun ha => h.aborted (habort ▸ ha)⟩, rfl⟩

theorem streaming_resumed (hfailed : s.writeFailed = false) :
    Streaming c strict (if !s.body.isFreezed then { s with body := s.body.resume } else s) := by
  split
  · next hopen =>
      have hok := h.flow.body.resume (by simpa using hopen)
      rw [resume_eq] at hok ⊢
      refine h.with_body hok rfl rfl rfl rfl fun hf => ?_
      rw [hfailed] at hf
      cases hf
  · exact h

/-- **A write that succeeds.** -/
theorem outcome_writeObjectSuccessful (hwriting : s.motrWriteInProgress = true) :
    Outcome c strict (writeObjectSuccessful c { s with outstanding := [] }) := by
  have hfailed : s.writeFailed = false := by
    by_contra hf
    have hnot := (h.flow.stopped (by simpa using hf)).1
    rw [hwriting] at hnot
    cases hnot
  unfold writeObjectSuccessful
  dsimp only
  split
  · next herr => exact outcome_clientReadError (h.written hwriting fun _ => herr) (fun _ => rfl) herr
  · next hgo =>
      have herr : s.body.readError = none := by simpa [isS3ClientReadError] using hgo
      split
      · next hrejected =>
          have hidle : s.auth.client.state ≠ .started := fun hstarted =>
            absurd ((h.authSide.asking hstarted).2.symm.trans hrejected) Bool.false_ne_true
          rw [sendResponse_idle (by exact hidle)]
          exact .answered ⟨h.responses, rfl, fun _ => rfl⟩ hidle
      · next hrejected =>
          have hwritten := h.written hwriting fun hf => absurd hf hrejected
          split
          · next hmore =>
              refine .streaming (streaming_resumed (streaming_writeObject hwritten rfl herr hfailed
                fun hs => ⟨?_, (h.flow.nonempty hs hwriting).2⟩) ?_)
              · have hpos := c.motrWritePayloadSize_pos
                simp only [Bool.or_eq_true, Bool.and_eq_true, decide_eq_true_eq] at hmore
                dsimp only
                omega
              · obtain ⟨auth, inProgress, heq, -⟩ := sendChunkDetailsIfAny_spec
                  (hwritten.not_rejected herr hfailed rfl) hwritten.authSide
                rw [writeObject, heq]
                exact hfailed
          · split
            · next hall =>
                simp only [Bool.and_eq_true, decide_eq_true_eq] at hall
                obtain ⟨houtcome, hbody⟩ := outcome_allWritten hwritten rfl herr hfailed hall.1 hall.2
                rw [hbody, if_neg (by simp [hall.1])]
                exact houtcome
            · exact .streaming (streaming_resumed hwritten hfailed)

/-- **A write that fails.** -/
theorem outcome_writeObjectFailed (hwriting : s.motrWriteInProgress = true) :
    Outcome c strict (writeObjectFailed c { s with outstanding := [] }) := by
  have hflow := h.flow
  rw [hwriting] at hflow
  have hstopped := hflow.failedWrite
  have hkept : s.body.pause.readError = s.body.readError := by rw [pause_eq]
  unfold writeObjectFailed State.abortChunkAuthOp
  dsimp only
  rw [isS3ClientReadError, hkept]
  cases herr : s.body.readError with
  | some e =>
    rw [herr, Option.isNone_some, Bool.or_false] at hstopped
    rw [Option.isSome_some, if_pos rfl]
    have hsome : s.body.pause.readError.isSome := by rw [hkept, herr]; rfl
    exact outcome_clientReadError ⟨h.tasks, h.responses, h.cleanupStarted, rfl, h.authSide.aborted,
      hstopped, fun _ => .inr (.inr rfl), fun _ => .inr rfl⟩ (fun _ => rfl) hsome
  | none =>
    rw [herr, Option.isNone_none, Bool.or_true] at hstopped
    rw [if_neg (by simp)]
    have hwaiting : Streaming c strict { s with
        outstanding := []
        motrWriteInProgress := false
        writeFailed := true
        actionState := .writeFailed
        body := s.body.pause
        auth := { s.auth with client := { s.auth.client with chunkAuthAborted := true } }
        isErrorState := true
        motrWriteCompleted := true } :=
      ⟨h.tasks, h.responses, h.cleanupStarted, rfl, h.authSide.aborted, hstopped,
        fun _ => .inr (.inr rfl), fun _ => .inr rfl⟩
    split
    · exact outcome_sendResponse hwaiting (fun _ => rfl) (.inr rfl)
    · exact .streaming hwaiting

end

/-! ### The answers of the auth server -/

/-- **A chunk that is accepted.** -/
theorem outcome_onAuthSuccess (hlast : c.authDisabled = false → EmptyLast c)
    (h : Streaming c strict s) (hstarted : s.auth.client.state = .started)
    (response : S3AuthResponseSuccess) : Outcome c strict (onAuthSuccess c s response) := by
  obtain ⟨-, -, -, -, habort, -⟩ :=
    ChunkAuth.chunkAuthSuccessful_spec h.authSide.counted hstarted response
  unfold onAuthSuccess
  dsimp only
  split
  · next hreport =>
      have hreported : Streaming c strict { s with
          auth := s.auth.chunkAuthSuccessful response
          authInProgress := false
          authCompleted := true } :=
        ⟨h.tasks, h.responses, h.cleanupStarted, h.calls, h.authSide.reported hlast hstarted hreport,
          h.flow, h.rejected, fun ha => h.aborted (habort ▸ ha)⟩
      unfold chunkAuthSuccessful
      dsimp only
      split
      · next hcompleted =>
          have hnotWriting : strict = true → s.motrWriteInProgress = false := by
            intro hs
            by_contra hwriting
            have hopen := (h.flow.nonempty hs (by simpa using hwriting)).2
            rw [hcompleted] at hopen
            cases hopen
          split
          · next hfailed => exact outcome_sendResponse hreported hnotWriting (.inr hfailed)
          · next hfailed =>
              have hfailed' : s.writeFailed = false := by simpa using hfailed
              cases herr : s.body.readError with
              | some e =>
                have hsome : s.body.readError.isSome := by rw [herr]; rfl
                rw [next, isS3ClientReadError, if_pos (by simp [hsome, h.cleanupStarted])]
                exact outcome_clientReadError hreported hnotWriting hsome
              | none =>
                rw [next_save (s := { s with
                  auth := s.auth.chunkAuthSuccessful response
                  authInProgress := false
                  authCompleted := true }) h.tasks h.cleanupStarted herr]
                exact .saving (hreported.ready herr hfailed' (h.authSide.asking hstarted).2 rfl
                  hcompleted)
      · exact .streaming hreported
  · exact .streaming ⟨h.tasks, h.responses, h.cleanupStarted, h.calls,
      h.authSide.accepted hstarted response, h.flow, h.rejected, fun ha => h.aborted (habort ▸ ha)⟩

/-- **A chunk that is rejected.** -/
theorem outcome_onAuthFailure (h : Streaming c strict s) (hstarted : s.auth.client.state = .started) :
    Outcome c strict (onAuthFailure c s) := by
  unfold onAuthFailure chunkAuthFailed
  dsimp only
  split
  · next hwriting =>
      exact .streaming ⟨h.tasks, h.responses, h.cleanupStarted, h.calls, h.authSide.rejected hstarted,
        h.flow, fun _ => .inl hwriting, h.aborted⟩
  · next hwriting =>
      rw [sendResponseToS3Client, if_neg (by simp)]
      exact .answered ⟨h.responses, h.calls, fun _ => by simpa using hwriting⟩ nofun

/-! ### Data and timeouts -/

theorem consume_of_readError (herr : s.body.readError.isSome) (hwriting : s.motrWriteInProgress = false) :
    consumeIncomingContent c s = clientReadError c s := by
  rw [consumeIncomingContent, isS3ClientReadError, if_pos herr, if_pos (by simp [hwriting])]

theorem outcome_consume_broken (h : Streaming c strict s) (herr : s.body.readError.isSome) :
    Outcome c strict (consumeIncomingContent c s) ∧
      (consumeIncomingContent c s).body.readError = s.body.readError := by
  cases hwriting : s.motrWriteInProgress with
  | false =>
    rw [consume_of_readError herr hwriting]
    exact ⟨outcome_clientReadError h (fun _ => hwriting) herr, readError_clientReadError c s⟩
  | true =>
    rw [consumeIncomingContent, isS3ClientReadError, if_pos herr,
      if_neg (by simp [hwriting])]
    exact ⟨.streaming h, rfl⟩

theorem streaming_consume (h : Streaming c strict s) (herr : s.body.readError = none)
    (hfailed : s.writeFailed = false)
    (hnew : strict = true → s.motrWriteInProgress = false →
      s.body.isFreezed = true ∨ c.motrWritePayloadSize ≤ s.body.contentLength →
      s.body.contentLength ≠ 0 ∧ s.motrWriteCompleted = false) :
    Streaming c strict (consumeIncomingContent c s) ∧
      (consumeIncomingContent c s).body.readError = none := by
  have hpause : ∀ t : State, Streaming c strict t → t.body.readError = none →
      ∀ full : Bool, Streaming c strict (if full then { t with body := t.body.pause } else t) ∧
        (if full then { t with body := t.body.pause } else t).body.readError = none := by
    intro t ht hnone full
    cases full with
    | false => exact ⟨ht, hnone⟩
    | true =>
      have hok := ht.flow.body.pause
      simp only [if_true]
      rw [pause_eq] at hok ⊢
      exact ⟨ht.with_body hok rfl rfl rfl rfl fun _ hp => by simp [hp], hnone⟩
  rw [consumeIncomingContent, isS3ClientReadError, herr, if_neg (by simp)]
  dsimp only
  split
  · next hwrite =>
      simp only [Bool.and_eq_true, Bool.not_eq_true', Bool.or_eq_true, decide_eq_true_eq] at hwrite
      obtain ⟨auth, inProgress, heq, -⟩ := sendChunkDetailsIfAny_spec
        (h.not_rejected herr hfailed hwrite.1) h.authSide
      refine hpause (writeObject c s) (streaming_writeObject h hwrite.1 herr hfailed fun hs =>
        hnew hs hwrite.1 hwrite.2) ?_ _
      rw [writeObject, heq]
      exact herr
  · exact hpause s h herr _

theorem parse_body (frames : Nat) (memoryAboveThreshold : Bool) :
    (parse s frames memoryAboveThreshold).body = s.body ∧
      (parse s frames memoryAboveThreshold).motrWriteInProgress = s.motrWriteInProgress := by
  unfold parse
  split <;> exact ⟨rfl, rfl⟩

theorem streaming_parse (h : Streaming c strict s) (frames : Nat) (memoryAboveThreshold : Bool) :
    Streaming c strict (parse s frames memoryAboveThreshold) := by
  unfold parse
  split
  · exact ⟨h.tasks, h.responses, h.cleanupStarted, h.calls, h.authSide.parsed frames, h.flow,
      h.rejected, h.aborted⟩
  · exact h

variable {bufs : List Nat} {frames : Nat}

/-- Data that is taken.  A write is not begun for nothing. -/
theorem streaming_taken (h : Streaming c strict s) (herr : s.body.readError = none)
    (htimer : s.body.readTimer = false) (hpaused : s.body.isPaused = false)
    (hignored : s.body.ignoreIncomingData = false)
    (hok : strict = true → Expected s (.data bufs frames true))
    (hle : bufs.sum ≤ s.body.pendingInFlight) {fr callback : Bool}
    (hfr : fr = true ↔ s.body.isFreezed = true ∨ s.body.pendingInFlight = bufs.sum)
    (hcallback : callback = true → s.body.listener.isSome) :
    Streaming c strict
        (if callback then consumeIncomingContent c { s with body := s.body.withBytes bufs.sum fr }
        else { s with body := s.body.withBytes bufs.sum fr }) ∧
      (if callback then consumeIncomingContent c { s with body := s.body.withBytes bufs.sum fr }
        else { s with body := s.body.withBytes bufs.sum fr }).body.readError = none := by
  have htaken : Streaming c strict { s with body := s.body.withBytes bufs.sum fr } :=
    ⟨h.tasks, h.responses, h.cleanupStarted, h.calls, h.authSide, h.flow.taken herr htimer hle hfr,
      h.rejected, h.aborted⟩
  have hfailed : s.writeFailed = false := by
    by_contra hf
    rcases (h.flow.stopped (by simpa using hf)).2 with hsome | hp
    · simp [herr] at hsome
    · simp [hpaused] at hp
  split
  · next hcalled =>
      refine streaming_consume htaken herr hfailed fun hs hwriting henough => ?_
      have hmore : s.body.pendingInFlight = 0 → bufs.sum = 0 → s.body.contentLength ≠ 0 :=
        hok hs rfl hignored herr (hcallback hcalled) hwriting
      refine ⟨fun hzero => ?_, ?_⟩
      · have hnothing : s.body.contentLength = 0 ∧ bufs.sum = 0 := by
          simp only [withBytes] at hzero
          omega
        refine hmore ?_ hnothing.2 hnothing.1
        have hpos := c.motrWritePayloadSize_pos
        rcases henough with hfreezed | hlen
        · have hpending := ((htaken.flow.account herr hfailed).2.mp hfreezed)
          simp only [withBytes] at hpending
          omega
        · omega
      · by_contra hcompleted
        obtain ⟨hpending, hlen, -⟩ := h.flow.drained (by simpa using hcompleted) herr hfailed
        exact hmore hpending (by omega) hlen
  · exact ⟨htaken, herr⟩

/-- **A fragment.** -/
theorem outcome_onData (h : Streaming c strict s) (hpaused : s.body.isPaused = false)
    {memoryAboveThreshold : Bool}
    (hok : strict = true → Expected s (.data bufs frames memoryAboveThreshold)) :
    Outcome c strict (onData c s bufs frames memoryAboveThreshold) := by
  have hstopped : Streaming c strict { s with body := { s.body with readTimer := false } } :=
    h.with_body h.flow.body.stopTimer rfl rfl rfl rfl fun _ => id
  obtain ⟨t, ht⟩ : ∃ t, t = parse { s with body := { s.body with readTimer := false } } frames
      memoryAboveThreshold := ⟨_, rfl⟩
  have hstream : Streaming c strict t := ht ▸ streaming_parse hstopped frames memoryAboveThreshold
  obtain ⟨hbody, hwriting⟩ : t.body = { s.body with readTimer := false } ∧
      t.motrWriteInProgress = s.motrWriteInProgress := ht ▸ parse_body frames memoryAboveThreshold
  unfold onData
  dsimp only
  split
  · exact .streaming hstopped
  · next hnot =>
      rw [← ht]
      have htimer : t.body.readTimer = false := by rw [hbody]
      rcases notifyIncomingData_cases (c := c.toBodyConfig) t.body bufs
        memoryAboveThreshold with ⟨pending, len, fr, heq⟩ | ⟨-, herr, heq⟩ |
          ⟨rfl, herr, hle, fr, callback, heq, hfr, hcallback⟩
      · -- the request is broken off for want of memory
        rw [heq]
        dsimp only
        have hbroken := hstream.broken (b := { t.body with
          pendingInFlight := pending
          contentLength := len
          isFreezed := fr
          ignoreIncomingData := true
          readError := some .serviceUnavailable })
          ⟨fun htm => absurd (htimer.symm.trans htm) Bool.false_ne_true, fun _ => rfl⟩ rfl
        split
        · obtain ⟨houtcome, hkept⟩ := outcome_consume_broken hbroken rfl
          rw [notified_of_readError (by rw [hkept]; rfl)]
          exact houtcome
        · rw [notified_of_readError rfl]
          exact .streaming hbroken
      · rw [heq]
        dsimp only
        rw [if_neg (by simp), notified_of_readError herr]
        exact .streaming hstream
      · rw [heq]
        dsimp only
        have hok' : strict = true → Expected t (.data bufs frames true) := by
          intro hs
          have hexp := hok hs
          simp only [Expected, hbody, hwriting] at hexp ⊢
          exact hexp
        have hignored : t.body.ignoreIncomingData = false := by
          rw [hbody]
          simpa using hnot
        obtain ⟨htaken, hnone⟩ := streaming_taken hstream herr htimer (by rw [hbody]; exact hpaused)
          hignored hok' hle hfr hcallback
        have hnotified := htaken.flow.body.notified (c := c) hnone
        rw [notified_eq hnone] at hnotified ⊢
        exact .streaming (htaken.with_body hnotified rfl rfl rfl rfl fun _ hp => by simp [hp])

/-- **A timeout.** -/
theorem outcome_onReadTimeout (h : Streaming c strict s) : Outcome c strict (onReadTimeout c s) := by
  have hbroken := h.broken (b := { s.body with
    readError := some .requestTimeout
    readTimer := false
    isFreezed := true }) ⟨nofun, nofun⟩ rfl
  unfold onReadTimeout triggerClientReadTimeout
  dsimp only
  split
  · exact (outcome_consume_broken hbroken rfl).1
  · exact .streaming hbroken

/-- **One event while the body is streamed.** -/
theorem outcome_step (hlast : c.authDisabled = false → EmptyLast c) (h : Streaming c strict s)
    (hok : strict = true → Expected s e) (hstep : step c s e = some s') : Outcome c strict s' := by
  cases stepped hstep with
  | data hopen => exact outcome_onData h hopen hok
  | readTimeout => exact outcome_onReadTimeout h
  | @answer op result failedToLaunch hop =>
    rw [h.calls] at hop
    cases hwriting : s.motrWriteInProgress with
    | false => simp [hwriting] at hop
    | true =>
      obtain rfl : op = .write := by simpa [hwriting] using hop
      have herase : s.outstanding.erase .write = [] := by simp [h.calls, hwriting]
      rw [herase]
      cases result with
      | ok => exact outcome_writeObjectSuccessful h hwriting
      | «exists» | failed => exact outcome_writeObjectFailed h hwriting
  | @authSuccess response hstarted => exact outcome_onAuthSuccess hlast h hstarted response
  | authFailure hstarted => exact outcome_onAuthFailure h hstarted

/-! ### Before the body is streamed -/

structure Prepared (c : ChunkUploadConfig) (strict : Bool) (s : State) : Prop where
  responses : s.responses = 0
  cleanupStarted : s.cleanupStarted = false
  listener : s.body.listener = none
  authSide : AuthSide c s.auth s.chunkDetails s.framesToCome s.authInProgress s.authFailed s.authCompleted
  flow : Flow c strict s.body s.motrWriteInProgress s.motrWriteCompleted s.writeFailed
    s.sizeInCurrentWrite s.totalWritten
  idle : s.auth.client.state ≠ .started
  notAborted : s.auth.client.chunkAuthAborted = false
  notRejected : s.authFailed = false
  notWriting : s.motrWriteInProgress = false
  notCompleted : s.motrWriteCompleted = false
  notFailed : s.writeFailed = false
  nothing : s.totalWritten = 0

/-- Which tasks are left while a call is outstanding. -/
def Awaits : Op → List Task → Prop
  | .fetchInfo, tasks => ∃ k, tasks = fetchTasks k
  | .createObject, tasks | .loadExtendedMetadata, tasks | .putProbableRecords, tasks =>
    tasks = streamTasks
  | _, _ => False

structure Preparing (c : ChunkUploadConfig) (strict : Bool) (s : State) : Prop
    extends Prepared c strict s where
  call : ∃ op, s.outstanding = [op] ∧ Awaits op s.tasks

/-- What one event can lead to before. -/
def Begun (c : ChunkUploadConfig) (strict : Bool) (s : State) : Prop :=
  Preparing c strict s ∨ Outcome c strict s

theorem Prepared.with_body (h : Prepared c strict s) (hlistener : b.listener = none)
    (hflow : Flow c strict b s.motrWriteInProgress s.motrWriteCompleted s.writeFailed
      s.sizeInCurrentWrite s.totalWritten) : Prepared c strict { s with body := b } :=
  ⟨h.responses, h.cleanupStarted, hlistener, h.authSide, hflow, h.idle, h.notAborted, h.notRejected,
    h.notWriting, h.notCompleted, h.notFailed, h.nothing⟩

theorem Prepared.with_calls (h : Prepared c strict s) (tasks : List Task) (ops : List Op)
    (state : S3PutChunkUploadObjectActionState) (tried : Nat) :
    Prepared c strict { s with
      tasks := tasks
      outstanding := ops
      actionState := state
      triedCount := tried } :=
  ⟨h.responses, h.cleanupStarted, h.listener, h.authSide, h.flow, h.idle, h.notAborted, h.notRejected,
    h.notWriting, h.notCompleted, h.notFailed, h.nothing⟩

variable {op : Op}

section

variable (h : Prepared c strict s) (hout : s.outstanding = [])

include h hout

theorem begun_launch (hawaits : Awaits op s.tasks) : Begun c strict (s.launch op) :=
  .inl ⟨h.with_calls s.tasks _ s.actionState s.triedCount, op, by simp [State.launch, hout], hawaits⟩

theorem Prepared.ending : Ending strict s :=
  ⟨h.responses, by simp [hout, h.notWriting], fun _ => h.notWriting⟩

theorem begun_fail
    (state : S3PutChunkUploadObjectActionState) : Begun c strict (fail c s state) := by
  rw [fail, sendResponse_idle (by exact h.idle)]
  have hend := h.ending hout
  exact .inr (.answered ⟨hend.responses, hend.calls, hend.notWriting⟩ h.idle)

theorem begun_clientReadError
    (herr : s.body.readError.isSome) : Begun c strict (clientReadError c s) := by
  have hend := h.ending hout
  rcases clientReadError_cases (c := c) h.flow.body herr with ⟨-, heq⟩ | ⟨heq, -, htimer, hignored⟩
  · rw [heq, sendResponse_idle (by exact h.idle)]
    exact .inr (.answered ⟨hend.responses, hend.calls, hend.notWriting⟩ h.idle)
  · rw [heq]
    exact .inr (.broken ⟨hend.responses, hend.calls, hend.notWriting⟩ htimer hignored)

theorem begun_initiate (hdata : c.dataLength ≠ 0) (herr : s.body.readError = none)
    (htasks : s.tasks = [.saveMetadata, .sendResponseToS3Client]) :
    Begun c strict (initiateDataStreaming c s) := by
  have hstream : Streaming c strict s :=
    ⟨htasks, h.responses, h.cleanupStarted, (h.ending hout).calls, h.authSide, h.flow,
      fun hf => absurd (h.notRejected.symm.trans hf) Bool.false_ne_true,
      fun ha => absurd (h.notAborted.symm.trans ha) Bool.false_ne_true⟩
  obtain ⟨hsum, hfreezed⟩ := h.flow.account herr h.notFailed
  rw [h.nothing, h.notWriting, if_neg Bool.false_ne_true] at hsum
  unfold initiateDataStreaming hasAllBodyContent
  split
  · next hall =>
      have hpending : s.body.pendingInFlight = 0 := by simpa using hall
      refine .inr (.streaming (streaming_writeObject hstream h.notWriting herr h.notFailed
        fun _ => ⟨by omega, h.notCompleted⟩))
  · next hmore =>
      have hopen : s.body.isFreezed = false := by
        by_contra hfr
        exact hmore (by simpa using hfreezed.mp (by simpa using hfr))
      have hok := h.flow.body.resume hopen
      rw [resume_eq] at hok
      rw [listenForIncomingData_eq]
      refine .inr (.streaming (hstream.with_body ⟨fun ht => ?_, hok.unavailable⟩ rfl rfl rfl rfl ?_))
      · refine hok.timer ?_
        simpa using ht
      · intro hf
        rw [h.notFailed] at hf
        cases hf

theorem begun_stream
    (herr : s.body.readError = none) : Begun c strict (runTasks c s streamTasks) := by
  obtain ⟨hsum, hfreezed⟩ := h.flow.account herr h.notFailed
  have hend := h.ending hout
  unfold streamTasks runTasks
  split
  · next hzero =>
      have hpending : s.body.pendingInFlight = 0 := by omega
      exact .inr (.saving ⟨hend, h.cleanupStarted, h.idle, h.flow.body, herr, hfreezed.mpr hpending,
        hpending, by omega, fun hdata => absurd hzero hdata⟩)
  · next hdata => exact begun_initiate (h.with_calls _ _ s.actionState s.triedCount) hout hdata herr rfl

theorem begun_fetch (k : Nat) :
    Begun c strict (runTasks c s (fetchTasks k)) := by
  unfold fetchTasks
  cases k with
  | zero =>
    simp only [replicate_zero, nil_append, runTasks]
    split
    · exact begun_launch (h.with_calls streamTasks _ s.actionState s.triedCount) hout rfl
    · exact begun_fail
        (h.with_calls (.createObject :: streamTasks) s.outstanding s.actionState s.triedCount) hout _
  | succ k =>
    simp only [replicate_succ, cons_append, runTasks]
    exact begun_launch (h.with_calls (fetchTasks k) _ s.actionState s.triedCount) hout ⟨k, rfl⟩

/-- A call is answered, and the next task is begun unless there was a read error. -/
theorem begun_next (hgo : s.body.readError = none → Begun c strict (runTasks c s s.tasks)) :
    Begun c strict (next c s) := by
  rw [next, isS3ClientReadError, h.cleanupStarted]
  cases herr : s.body.readError with
  | some e =>
    rw [if_pos (by simp)]
    exact begun_clientReadError h hout (by simp [herr])
  | none =>
    rw [if_neg (by simp), if_neg (by simp)]
    exact hgo herr

/-- **An answer of Motr.** -/
theorem begun_answered (hawaits : Awaits op s.tasks) (result : OpResult) (failedToLaunch : Bool) :
    Begun c strict (answered c s op result failedToLaunch) := by
  cases op with
  | fetchInfo =>
    obtain ⟨k, htasks⟩ := hawaits
    have hnext : Begun c strict (next c s) :=
      begun_next h hout fun _ => by rw [htasks]; exact begun_fetch h hout k
    cases result with
    | ok => exact hnext
    | «exists» | failed => exact begun_fail h hout _
  | createObject =>
    rw [answered]
    cases result with
    | ok =>
      have hcreated := h.with_calls s.tasks s.outstanding .newObjOidCreated s.triedCount
      have hload : Awaits .loadExtendedMetadata s.tasks := hawaits
      have hput : Awaits .putProbableRecords s.tasks := hawaits
      simp only [createObjectAnswered]
      split
      · exact begun_launch hcreated hout hload
      · exact begun_launch hcreated hout hput
    | «exists» =>
      simp only [createObjectAnswered]
      split
      · exact begun_launch
          (h.with_calls s.tasks s.outstanding s.actionState (s.triedCount + 1)) hout hawaits
      · exact begun_fail h hout _
    | failed => exact begun_fail h hout _
  | loadExtendedMetadata =>
    cases result with
    | ok => exact begun_launch h hout hawaits
    | «exists» | failed => exact begun_fail h hout _
  | putProbableRecords =>
    have htasks : s.tasks = streamTasks := hawaits
    have hnext : Begun c strict (next c s) :=
      begun_next h hout fun herr => by rw [htasks]; exact begun_stream h hout herr
    cases result with
    | ok => exact hnext
    | «exists» | failed => exact begun_fail h hout _
  | write | saveMetadata | cleanup k => exact hawaits.elim

end

/-- **A fragment, of which nobody is told.** -/
theorem preparing_onData (h : Preparing c strict s) (bufs : List Nat) (frames : Nat)
    (memoryAboveThreshold : Bool) :
    Preparing c strict (onData c s bufs frames memoryAboveThreshold) := by
  have hstopped : Prepared c strict { s with body := { s.body with readTimer := false } } :=
    h.toPrepared.with_body h.listener
      (h.flow.with_body h.flow.body.stopTimer rfl rfl rfl rfl fun _ => id)
  obtain ⟨t, ht⟩ : ∃ t, t = parse { s with body := { s.body with readTimer := false } } frames
      memoryAboveThreshold := ⟨_, rfl⟩
  have hprep : Prepared c strict t := by
    rw [ht, parse]
    split
    · exact ⟨hstopped.responses, hstopped.cleanupStarted, hstopped.listener,
        hstopped.authSide.parsed frames, hstopped.flow, hstopped.idle, hstopped.notAborted,
        hstopped.notRejected, hstopped.notWriting, hstopped.notCompleted, hstopped.notFailed,
        hstopped.nothing⟩
    · exact hstopped
  have hcall : ∃ op, t.outstanding = [op] ∧ Awaits op t.tasks := by
    rw [ht, parse]
    split <;> exact h.call
  have hbody : t.body = { s.body with readTimer := false } := by
    rw [ht]
    exact (parse_body frames memoryAboveThreshold).1
  have htimer : t.body.readTimer = false := by rw [hbody]
  unfold onData
  dsimp only
  split
  · exact ⟨hstopped, h.call⟩
  · rw [← ht]
    rcases notifyIncomingData_cases (c := c.toBodyConfig) t.body bufs
      memoryAboveThreshold with ⟨pending, len, fr, heq⟩ | ⟨-, herr, heq⟩ |
        ⟨rfl, herr, hle, fr, callback, heq, hfr, hcallback⟩
    · rw [heq]
      dsimp only
      rw [if_neg (by simp [hprep.listener]), notified_of_readError rfl]
      exact ⟨hprep.with_body hprep.listener (hprep.flow.broken
        ⟨fun htm => absurd (htimer.symm.trans htm) Bool.false_ne_true, fun _ => rfl⟩ rfl), hcall⟩
    · rw [heq]
      dsimp only
      rw [if_neg (by simp), notified_of_readError herr]
      exact ⟨hprep, hcall⟩
    · rw [heq]
      dsimp only
      have hnot : callback ≠ true := fun hc => by
        have hsome := hcallback hc
        simp [hprep.listener] at hsome
      rw [if_neg hnot]
      have htaken := hprep.flow.taken herr htimer hle hfr
      have hnone : (t.body.withBytes bufs.sum fr).readError = none := herr
      have hnotified := htaken.body.notified (c := c) hnone
      rw [notified_eq hnone] at hnotified ⊢
      exact ⟨hprep.with_body hprep.listener
        (htaken.with_body hnotified rfl rfl rfl rfl fun _ hp => by simp [hp]), hcall⟩

/-- **One event before the body is streamed.** -/
theorem begun_step (h : Preparing c strict s) (hstep : step c s e = some s') :
    Begun c strict s' := by
  cases stepped hstep with
  | @data bufs frames memoryAboveThreshold =>
    exact .inl (preparing_onData h bufs frames memoryAboveThreshold)
  | readTimeout =>
    unfold onReadTimeout triggerClientReadTimeout
    dsimp only
    rw [if_neg (by simp [h.listener])]
    exact .inl ⟨h.toPrepared.with_body h.listener (h.flow.broken ⟨nofun, nofun⟩ rfl), h.call⟩
  | @answer op result failedToLaunch hop =>
    obtain ⟨awaited, hout, hawaits⟩ := h.call
    obtain rfl : op = awaited := by simpa [hout] using hop
    have herase : s.outstanding.erase op = [] := by simp [hout]
    exact begun_answered
      (h.toPrepared.with_calls s.tasks (s.outstanding.erase op) s.actionState s.triedCount) herase
      hawaits result failedToLaunch
  | authSuccess hstarted | authFailure hstarted => exact absurd hstarted h.idle

theorem chunkAuth_start (r : RequestObject) :
    (ChunkAuth.start {} r).client.chunkValidationData = [] ∧
      (ChunkAuth.start {} r).client.chunkAuthAborted = false ∧
      (ChunkAuth.start {} r).client.lastChunkAdded = false := by
  obtain ⟨hqueue, habort⟩ := ChunkAuth.start_rest (c := {}) ⟨rfl, rfl, rfl⟩ r
  refine ⟨hqueue, habort, ?_⟩
  show (S3AuthClient.checkComboAuth {} r).lastChunkAdded = false
  unfold S3AuthClient.checkComboAuth
  dsimp only
  split
  · split <;> rfl
  · rfl

theorem begun_start (c : ChunkUploadConfig) (strict : Bool) : Begun c strict (start c) := by
  obtain ⟨hqueue, habort, hlast⟩ := chunkAuth_start c.request
  have hidle : (ChunkAuth.start {} c.request).client.state ≠ .started := nofun
  have hprep : Prepared c strict
      { body := .initialise c.toBodyConfig
        framesToCome := c.chunks
        auth := .start {} c.request
        tasks := []
        authCompleted := c.authDisabled } := by
    refine ⟨rfl, rfl, rfl, ⟨fun _ => ?_, fun _ => hidle, ?_, fun _ => nofun,
      fun h => absurd h hidle, fun hc _ _ => ⟨hidle, fun henabled => ?_⟩⟩,
      ⟨⟨?_, nofun⟩, fun _ _ => ?_, nofun, nofun, nofun⟩, hidle, habort, rfl, rfl, rfl, rfl, rfl⟩
    · exact ⟨[], rfl, rfl, by simp [hlast]⟩
    · unfold ChunkAuth.Counted
      rw [if_neg hidle, hqueue]
      rfl
    · exact absurd (hc.symm.trans henabled) Bool.noConfusion
    · simp [initialise]
    · simp [initialise]
  exact begun_fetch hprep rfl c.fetches

end Upload

end S3PutChunkUploadObjectAction

end CortxS3
