/-
An upload in chunks is answered at most once.

When the streaming ends, the metadata is being saved (`Saving`), the client was answered (`Settled`), or the
cleanup goes on without an answer (`Closing`).  In the last case a save or the auth server may still have
to answer, and whichever does makes the action answer the client, though not both: the auth server is not
being asked while the metadata is saved.
-/
import CortxS3.Proofs.PutChunkUploadObjectAction

namespace CortxS3

open List

namespace S3PutChunkUploadObjectAction

open S3PutObjectAction (Task CleanupTask Op OpResult maxCollisionRetryCount streamTasks fetchTasks)

section Upload

variable {c : ChunkUploadConfig} {s : State}

/-! ### The client is answered once -/

structure Saving (s : State) : Prop where
  tasks : s.tasks = [.sendResponseToS3Client]
  responses : s.responses = 0
  cleanupStarted : s.cleanupStarted = false
  calls : s.outstanding = [.saveMetadata]
  notWriting : s.motrWriteInProgress = false
  idle : s.auth.client.state ≠ .started
  body : BodyOk s.body
  drained : s.body.readError = none →
    s.body.isFreezed = true ∧ s.body.pendingInFlight = 0 ∧ s.body.contentLength = 0

/-- The cleanup goes on, and the client was not answered.  The answer to a save or that of the auth server
may do it yet, but not both. -/
structure Closing (s : State) : Prop where
  responses : s.responses = 0
  cleanupStarted : s.cleanupStarted = true
  calls : ∀ op ∈ s.outstanding, op = .saveMetadata ∨ ∃ k, op = .cleanup k
  oneSave : s.outstanding.count .saveMetadata ≤ 1
  notWriting : s.motrWriteInProgress = false
  idle : .saveMetadata ∈ s.outstanding → s.auth.client.state ≠ .started
  timer : s.body.readTimer = false
  ignored : s.body.ignoreIncomingData = true

/-- The client was answered. -/
structure Settled (s : State) : Prop where
  responses : s.responses = 1
  cleanupStarted : s.cleanupStarted = true
  calls : ∀ op ∈ s.outstanding, ∃ k, op = .cleanup k
  idle : s.auth.client.state ≠ .started
  timer : s.body.readTimer = false
  ignored : s.body.ignoreIncomingData = true

theorem settled_respond (hresponses : s.responses = 0) (hcalls : ∀ op ∈ s.outstanding, ∃ k, op = .cleanup k)
    (hidle : s.auth.client.state ≠ .started) : Settled (respond c s) := by
  obtain ⟨_, _, _, ops, heq, hops⟩ := respond_eq c s
  rw [heq, RequestBody.sendResponse_eq]
  refine ⟨by simp [hresponses], rfl, fun op hop => ?_, hidle, rfl, rfl⟩
  rcases mem_append.mp hop with hold | hnew
  · exact hcalls op hold
  · exact hops op hnew

variable {ops : List Op}

theorem count_saveMetadata (hops : ∀ op ∈ ops, ∃ k, op = .cleanup k) :
    ops.count .saveMetadata = 0 := by
  refine count_eq_zero.mpr fun hmem => ?_
  obtain ⟨k, hk⟩ := hops _ hmem
  cases hk

theorem Closing.with_cleanup (h : Closing s) (hops : ∀ op ∈ ops, ∃ k, op = .cleanup k)
    (left : List CleanupTask) (done : Bool) :
    Closing { s with
      cleanupTasks := left
      done := done
      outstanding := s.outstanding ++ ops } := by
  refine ⟨h.responses, h.cleanupStarted, fun op hop => ?_, ?_, h.notWriting, fun hsave => ?_, h.timer,
    h.ignored⟩
  · rcases mem_append.mp hop with hold | hnew
    · exact h.calls op hold
    · exact .inr (hops op hnew)
  · simp only [count_append, count_saveMetadata hops]
    exact h.oneSave
  · rcases mem_append.mp hsave with hold | hnew
    · exact h.idle hold
    · obtain ⟨k, hk⟩ := hops _ hnew
      cases hk

theorem closing_next (h : Closing s) : Closing (next c s) := by
  rw [next, if_neg (by simp [h.cleanupStarted]), if_pos h.cleanupStarted]
  obtain ⟨left, done, ops, heq, hops⟩ := runCleanup_eq c s s.cleanupTasks
  rw [heq]
  exact h.with_cleanup hops left done

theorem closing_startcleanup (hresponses : s.responses = 0)
    (hcalls : ∀ op ∈ s.outstanding, op = .saveMetadata)
    (honce : s.outstanding.count .saveMetadata ≤ 1) (hwriting : s.motrWriteInProgress = false)
    (hidle : .saveMetadata ∈ s.outstanding → s.auth.client.state ≠ .started)
    (htimer : s.body.readTimer = false) (hignored : s.body.ignoreIncomingData = true) :
    Closing (startcleanup c s) := by
  have hclosing : Closing { s with tasks := [], cleanupStarted := true } :=
    ⟨hresponses, rfl, fun op hop => .inl (hcalls op hop), honce, hwriting, hidle, htimer, hignored⟩
  obtain ⟨left, done, ops, heq, hops⟩ := startcleanup_eq c s
  rw [heq]
  exact hclosing.with_cleanup hops left done

/-- Nobody is answered any more, or whoever is was not answered before. -/
def Answered (s : State) : Prop := Saving s ∨ Closing s ∨ Settled s

theorem Outcome.streaming_or_answered (h : Outcome c true s) : Streaming c true s ∨ Answered s := by
  cases h with
  | streaming h => exact .inl h
  | saving h =>
    have hwriting := h.notWriting rfl
    refine .inr (.inl ⟨rfl, h.responses, h.cleanupStarted, ?_, hwriting, h.idle, h.body,
      fun _ => ⟨h.freezed, h.pending, h.empty⟩⟩)
    simp [startSave, State.launch, h.calls, hwriting]
  | @answered t h idle =>
    have hout : t.outstanding = [] := by simp [h.calls, h.notWriting rfl]
    exact .inr (.inr (.inr (settled_respond h.responses (by simp [hout]) idle)))
  | @broken t h timer ignored =>
    have hout : t.outstanding = [] := by simp [h.calls, h.notWriting rfl]
    exact .inr (.inr (.inl (closing_startcleanup h.responses (by simp [hout]) (by simp [hout])
      (h.notWriting rfl) (by simp [hout]) timer ignored)))

/-! #### After the response -/

theorem answered_cleanup (hclean : s.cleanupStarted = true) (k : Nat) (result : OpResult)
    (failedToLaunch : Bool) : ∃ left done ops,
    answered c s (.cleanup k) result failedToLaunch = { s with
      cleanupTasks := left
      done := done
      outstanding := s.outstanding ++ ops } ∧ ∀ op ∈ ops, ∃ k, op = .cleanup k := by
  have hnext : ∃ left done ops, next c s = { s with
      cleanupTasks := left
      done := done
      outstanding := s.outstanding ++ ops } ∧ ∀ op ∈ ops, ∃ k, op = .cleanup k := by
    rw [next, if_neg (by simp [hclean]), if_pos hclean]
    exact runCleanup_eq c s s.cleanupTasks
  cases k with
  | zero => cases result <;> exact hnext
  | succ k =>
    cases result with
    | ok => exact ⟨s.cleanupTasks, s.done, [.cleanup k], rfl, by simp⟩
    | «exists» | failed => exact hnext

variable {e : Event} {s' : State}

theorem settled_step (h : Settled s) (hstep : step c s e = some s') : Settled s' := by
  cases stepped hstep with
  | data =>
    rw [onData]
    dsimp only
    rw [if_pos h.ignored]
    exact ⟨h.responses, h.cleanupStarted, h.calls, h.idle, rfl, h.ignored⟩
  | readTimeout htimer => exact absurd (h.timer.symm.trans htimer) Bool.false_ne_true
  | @answer op result failedToLaunch hop =>
    obtain ⟨k, rfl⟩ := h.calls op hop
    obtain ⟨left, done, ops, heq, hops⟩ := answered_cleanup (c := c)
      (s := { s with outstanding := s.outstanding.erase (.cleanup k) }) h.cleanupStarted k result
      failedToLaunch
    rw [heq]
    refine ⟨h.responses, h.cleanupStarted, fun op hop => ?_, h.idle, h.timer, h.ignored⟩
    rcases mem_append.mp hop with hold | hnew
    · exact h.calls op (mem_of_mem_erase hold)
    · exact hops op hnew
  | authSuccess hstarted | authFailure hstarted => exact absurd hstarted h.idle

/-! #### In a cleanup without a response -/

section

variable (h : Closing s)

include h

theorem Closing.only_cleanup (hsub : ∀ op ∈ ops, op ∈ s.outstanding)
    (hnone : .saveMetadata ∉ ops) : ∀ op ∈ ops, ∃ k, op = .cleanup k := by
  intro op hop
  rcases h.calls op (hsub op hop) with rfl | hcleanup
  · exact absurd hop hnone
  · exact hcleanup

theorem Closing.erase (op : Op) :
    Closing { s with outstanding := s.outstanding.erase op } :=
  ⟨h.responses, h.cleanupStarted, fun op hop => h.calls op (mem_of_mem_erase hop),
    (erase_sublist.count_le _).trans h.oneSave, h.notWriting,
    fun hsave => h.idle (mem_of_mem_erase hsave), h.timer, h.ignored⟩

theorem closing_answered {op : Op} (hop : op ∈ s.outstanding) (result : OpResult)
    (failedToLaunch : Bool) :
    Answered (answered c { s with outstanding := s.outstanding.erase op } op result failedToLaunch) := by
  have herase := h.erase op
  rcases h.calls op hop with rfl | ⟨k, rfl⟩
  · have hidle := h.idle hop
    have hnone : .saveMetadata ∉ s.outstanding.erase .saveMetadata := by
      have hone := h.oneSave
      rw [← count_eq_zero, count_erase_self]
      omega
    have hfailed : Answered (saveObjectMetadataFailed c
        { s with outstanding := s.outstanding.erase .saveMetadata } failedToLaunch) := by
      rw [saveObjectMetadataFailed, sendResponse_idle (by exact hidle)]
      exact .inr (.inr (settled_respond h.responses
        (h.only_cleanup (fun op hop => mem_of_mem_erase hop) hnone) hidle))
    cases result with
    | ok =>
      exact .inr (.inl (closing_next ⟨herase.responses, herase.cleanupStarted, herase.calls,
        herase.oneSave, herase.notWriting, herase.idle, herase.timer, herase.ignored⟩))
    | «exists» | failed => exact hfailed
  · obtain ⟨left, done, ops, heq, hops⟩ := answered_cleanup (c := c)
      (s := { s with outstanding := s.outstanding.erase (.cleanup k) }) h.cleanupStarted k result
      failedToLaunch
    rw [heq]
    exact .inr (.inl (herase.with_cleanup hops left done))

theorem closing_onAuthSuccess (hstarted : s.auth.client.state = .started)
    (response : S3AuthResponseSuccess) : Answered (onAuthSuccess c s response) := by
  have hnone : .saveMetadata ∉ s.outstanding := fun hsave => h.idle hsave hstarted
  unfold onAuthSuccess chunkAuthSuccessful
  dsimp only
  split
  · next hreport =>
      have hidle := ChunkAuth.idle_of_reported hreport
      have hclosing : Closing { s with
          auth := s.auth.chunkAuthSuccessful response
          authInProgress := false
          authCompleted := true } :=
        ⟨h.responses, h.cleanupStarted, h.calls, h.oneSave, h.notWriting,
          fun hsave => absurd hsave hnone, h.timer, h.ignored⟩
      split
      · split
        · rw [sendResponse_idle (by exact hidle)]
          exact .inr (.inr (settled_respond h.responses (h.only_cleanup (fun _ => id) hnone) hidle))
        · exact .inr (.inl (closing_next hclosing))
      · exact .inr (.inl hclosing)
  · exact .inr (.inl ⟨h.responses, h.cleanupStarted, h.calls, h.oneSave, h.notWriting,
      fun hsave => absurd hsave hnone, h.timer, h.ignored⟩)

theorem closing_onAuthFailure (hstarted : s.auth.client.state = .started) :
    Answered (onAuthFailure c s) := by
  have hnone : .saveMetadata ∉ s.outstanding := fun hsave => h.idle hsave hstarted
  unfold onAuthFailure chunkAuthFailed
  dsimp only
  rw [if_neg (by simp [h.notWriting]), sendResponseToS3Client, if_neg (by simp)]
  exact .inr (.inr (settled_respond h.responses (h.only_cleanup (fun _ => id) hnone)
    (by simp [ChunkAuth.chunkAuthFailed])))

theorem closing_step (hstep : step c s e = some s') : Answered s' := by
  cases stepped hstep with
  | data =>
    rw [onData]
    dsimp only
    rw [if_pos h.ignored]
    exact .inr (.inl ⟨h.responses, h.cleanupStarted, h.calls, h.oneSave, h.notWriting, h.idle, rfl,
      h.ignored⟩)
  | readTimeout htimer => exact absurd (h.timer.symm.trans htimer) Bool.false_ne_true
  | @answer op result failedToLaunch hop => exact closing_answered h hop result failedToLaunch
  | @authSuccess response hstarted => exact closing_onAuthSuccess h hstarted response
  | authFailure hstarted => exact closing_onAuthFailure h hstarted

end

/-! #### While the metadata is saved -/

variable {t : State}

theorem Saving.settled (h : Saving s) (hresponses : t.responses = s.responses)
    (hout : t.outstanding = []) (hauth : t.auth = s.auth) : Answered (respond c t) :=
  .inr (.inr (settled_respond (hresponses.trans h.responses) (by simp [hout]) (hauth ▸ h.idle)))

theorem saving_sendResponse (h : Saving s) (hresponses : t.responses = s.responses)
    (hout : t.outstanding = []) (hauth : t.auth = s.auth) :
    Answered (sendResponseToS3Client c t) := by
  rw [sendResponse_idle (hauth ▸ h.idle)]
  exact h.settled hresponses hout hauth

theorem saving_clientReadError (h : Saving s) (hresponses : t.responses = s.responses)
    (hout : t.outstanding = [] ∨ (t.outstanding = [.saveMetadata] ∧
      t.body.readError = some .serviceUnavailable))
    (hauth : t.auth = s.auth) (hwriting : t.motrWriteInProgress = s.motrWriteInProgress)
    (hok : BodyOk t.body) (herr : t.body.readError.isSome) : Answered (clientReadError c t) := by
  rcases clientReadError_cases (c := c) hok herr with ⟨htimeout, heq⟩ | ⟨heq, -, htimer, hignored⟩
  · rw [heq]
    refine saving_sendResponse h hresponses (hout.resolve_right fun hsave => ?_) hauth
    rw [htimeout] at hsave
    cases hsave.2
  · rw [heq]
    have hcalls : t.outstanding = [] ∨ t.outstanding = [.saveMetadata] := hout.imp_right And.left
    refine .inr (.inl (closing_startcleanup (hresponses.trans h.responses) ?_ ?_
      (hwriting.trans h.notWriting) (fun _ => hauth ▸ h.idle) htimer hignored))
    · rcases hcalls with heq | heq <;> simp [heq]
    · rcases hcalls with heq | heq <;> simp [heq]

theorem Saving.with_body (h : Saving s) {b : RequestBody} (hok : BodyOk b)
    (hdrained : b.readError = none →
      b.isFreezed = true ∧ b.pendingInFlight = 0 ∧ b.contentLength = 0) : Saving { s with body := b } :=
  ⟨h.tasks, h.responses, h.cleanupStarted, h.calls, h.notWriting, h.idle, hok, hdrained⟩

theorem saving_onData (h : Saving s) {bufs : List Nat} {frames : Nat} {memoryAboveThreshold : Bool}
    (hexpected : Expected s (.data bufs frames memoryAboveThreshold)) :
    Answered (onData c s bufs frames memoryAboveThreshold) := by
  have hstopped : Saving { s with body := { s.body with readTimer := false } } :=
    h.with_body h.body.stopTimer h.drained
  obtain ⟨t, ht⟩ : ∃ t, t = parse { s with body := { s.body with readTimer := false } } frames
      memoryAboveThreshold := ⟨_, rfl⟩
  have hsaving : Saving t := by
    rw [ht, parse]
    split
    · exact ⟨hstopped.tasks, hstopped.responses, hstopped.cleanupStarted, hstopped.calls,
        hstopped.notWriting, hstopped.idle, hstopped.body, hstopped.drained⟩
    · exact hstopped
  have hbody : t.body = { s.body with readTimer := false } := by
    rw [ht]
    exact (parse_body frames memoryAboveThreshold).1
  have htimer : t.body.readTimer = false := by rw [hbody]
  unfold onData
  dsimp only
  split
  · exact .inl hstopped
  · next hnot =>
      rw [← ht]
      rcases RequestBody.notifyIncomingData_cases (c := c.toBodyConfig) t.body bufs
        memoryAboveThreshold with ⟨pending, len, fr, heq⟩ | ⟨-, herr, heq⟩ |
          ⟨rfl, herr, hle, fr, callback, heq, hfr, hcallback⟩
      · rw [heq]
        dsimp only
        obtain ⟨b, hb⟩ : ∃ b : RequestBody, b = { t.body with
            pendingInFlight := pending
            contentLength := len
            isFreezed := fr
            ignoreIncomingData := true
            readError := some .serviceUnavailable } := ⟨_, rfl⟩
        have herr : b.readError = some .serviceUnavailable := by rw [hb]
        have hok : BodyOk b := by
          rw [hb]
          exact ⟨fun htm => absurd (htimer.symm.trans htm) Bool.false_ne_true, fun _ => rfl⟩
        have hsome : b.readError.isSome := by rw [herr]; rfl
        rw [← hb]
        split
        · rw [consume_of_readError (s := { t with body := b }) hsome hsaving.notWriting,
            RequestBody.notified_of_readError (by rw [readError_clientReadError]; exact hsome)]
          exact saving_clientReadError hsaving rfl (.inr ⟨hsaving.calls, herr⟩) rfl rfl hok hsome
        · rw [RequestBody.notified_of_readError hsome]
          exact .inl (hsaving.with_body hok (by rw [herr]; simp))
      · rw [heq]
        dsimp only
        rw [if_neg (by simp), RequestBody.notified_of_readError herr]
        exact .inl hsaving
      · -- everything is written, so this is a fragment without data, and nobody listens
        rw [heq]
        dsimp only
        obtain ⟨hfreezed, hpending, hlen⟩ := hsaving.drained herr
        have hsum : bufs.sum = 0 := by omega
        have hnot : callback ≠ true := by
          intro hcalled
          simp only [hbody] at herr hpending hlen
          have hlistener : s.body.listener.isSome := by
            have hsome := hcallback hcalled
            rw [hbody] at hsome
            exact hsome
          exact hexpected rfl (by simpa using hnot) herr hlistener h.notWriting hpending hsum hlen
        rw [if_neg hnot]
        have hfr' : fr = true := hfr.mpr (.inl hfreezed)
        have hok : BodyOk (t.body.withBytes bufs.sum fr) :=
          ⟨fun htm => absurd (htimer.symm.trans htm) Bool.false_ne_true, hsaving.body.unavailable⟩
        have hnone : (t.body.withBytes bufs.sum fr).readError = none := herr
        have hnotified := hok.notified (c := c) hnone
        rw [RequestBody.notified_eq hnone] at hnotified ⊢
        refine .inl (hsaving.with_body hnotified fun _ => ⟨hfr', ?_, ?_⟩)
        · simp only [RequestBody.withBytes]
          omega
        · simp only [RequestBody.withBytes]
          omega

theorem saving_step (h : Saving s) (hexpected : Expected s e) (hstep : step c s e = some s') :
    Answered s' := by
  cases stepped hstep with
  | data => exact saving_onData h hexpected
  | readTimeout htimer =>
    obtain ⟨hopen, -, herr⟩ := h.body.timer htimer
    rw [(h.drained herr).1] at hopen
    cases hopen
  | @answer op result failedToLaunch hop =>
    obtain rfl : op = .saveMetadata := by simpa [h.calls] using hop
    have herase : s.outstanding.erase .saveMetadata = [] := by simp [h.calls]
    rw [herase]
    have hfailed : Answered (saveObjectMetadataFailed c { s with outstanding := [] }
        failedToLaunch) := saving_sendResponse h rfl rfl rfl
    cases result with
    | ok =>
      rw [answered, next, RequestBody.isS3ClientReadError, h.cleanupStarted]
      cases herr : s.body.readError with
      | some e =>
        rw [if_pos (by simp)]
        exact saving_clientReadError h rfl (.inl rfl) rfl rfl h.body (by simp [herr])
      | none =>
        rw [if_neg (by simp), if_neg (by simp), h.tasks]
        exact saving_sendResponse h rfl rfl rfl
    | «exists» | failed => exact hfailed
  | authSuccess hstarted | authFailure hstarted => exact absurd hstarted h.idle

/-! #### Runs -/

def StrictPhase (c : ChunkUploadConfig) (s : State) : Prop :=
  Preparing c true s ∨ Streaming c true s ∨ Answered s

theorem strictPhase_of_begun (h : Begun c true s) : StrictPhase c s := by
  rcases h with h | h
  · exact .inl h
  · exact .inr h.streaming_or_answered

theorem strictPhase_step (hlast : c.authDisabled = false → EmptyLast c) (s : State) (e : Event)
    (s' : State) (h : StrictPhase c s) (hexpected : Expected s e) (hstep : step c s e = some s') :
    StrictPhase c s' := by
  rcases h with h | h | h | h | h
  · exact strictPhase_of_begun (begun_step h hstep)
  · exact .inr (outcome_step hlast h (fun _ => hexpected) hstep).streaming_or_answered
  · exact .inr (.inr (saving_step h hexpected hstep))
  · exact .inr (.inr (closing_step h hstep))
  · exact .inr (.inr (.inr (.inr (settled_step h hstep))))

theorem StrictPhase.sound (h : StrictPhase c s) : Sound s := by
  rcases h with h | h | h | h | h
  · refine ⟨by simp [h.responses], fun hwrite => ?_⟩
    obtain ⟨op, hcall, hawaits⟩ := h.call
    obtain rfl : .write = op := by simpa [hcall] using hwrite
    exact hawaits.elim
  · refine ⟨by simp [h.responses], fun hwrite => ?_⟩
    rw [h.calls] at hwrite
    split at hwrite
    · next hwriting => exact (h.flow.nonempty rfl hwriting).1
    · cases hwrite
  · refine ⟨by simp [h.responses], fun hwrite => ?_⟩
    simp [h.calls] at hwrite
  · refine ⟨by simp [h.responses], fun hwrite => ?_⟩
    rcases h.calls _ hwrite with heq | ⟨k, heq⟩ <;> cases heq
  · refine ⟨by simp [h.responses], fun hwrite => ?_⟩
    obtain ⟨k, heq⟩ := h.calls _ hwrite
    cases heq

/-- **The client is answered at most once and nothing empty is written, if no chunk of size zero comes
before the last and no fragment comes when all data is written.** -/
theorem responds_once (hlast : c.authDisabled = false → EmptyLast c)
    (h : Runs.Reachable (step c) Expected (start c) s) : Sound s := by
  have hphase : StrictPhase c s :=
    h.invariant (strictPhase_of_begun (begun_start c true)) (strictPhase_step hlast)
  exact hphase.sound

end Upload

/-- The empty chunk arrives while the data is written, and everything succeeds. -/
theorem responds_once_oneChunk :
    (oneChunk.authDisabled = false → EmptyLast oneChunk) ∧
      ∃ s, Runs.Reachable (step oneChunk) Expected (start oneChunk) s ∧ s.responses = 1 ∧ Sound s := by
  have hlast : EmptyLast oneChunk := by
    intro d hd
    obtain rfl : d = signedChunk 4096 := by simpa [oneChunk, sampleUpload] using hd
    decide
  have h₀ : Runs.Reachable (step oneChunk) Expected (start oneChunk) (start oneChunk) := .start
  have h₁ := h₀.step (.answer .fetchInfo .ok false) trivial rfl
  have h₂ := h₁.step (.answer .createObject .ok false) trivial rfl
  have h₃ := h₂.step (.answer .putProbableRecords .ok false) trivial rfl
  have h₄ := h₃.step (.data [4096] 1 true) (fun _ _ _ _ _ hnone => absurd hnone (by decide)) rfl
  have h₅ := h₄.step (.data [] 1 true) (fun _ _ _ _ hidle => absurd hidle (by decide)) rfl
  have hrun : (Runs.run (step oneChunk) (start oneChunk)
      (prepared ++ [.data [4096] 1 true, .data [] 1 true])).any (fun s =>
        (Runs.run (step oneChunk) s [accepted, .answer .write .ok false, accepted,
          .answer .saveMetadata .ok false]).any fun s => s.responses = 1) = true := by decide
  obtain ⟨s₅, hs₅, hrest⟩ := (Option.any_eq_true _ _).mp hrun
  obtain ⟨s, hs, hone⟩ := (Option.any_eq_true _ _).mp hrest
  obtain rfl : _ = s₅ := Option.some.inj hs₅
  have h := Runs.reachable_of_run _ h₅ (by simp [Runs.AllOk, Expected, accepted]) hs
  exact ⟨fun _ => hlast, s, h, by simpa using hone, responds_once (fun _ => hlast) h⟩

/-- The empty chunk arrives when the data is written: nothing is written, and when the metadata cannot be
saved after that the client is answered twice. -/
theorem not_sound_lateEmptyChunk :
    (∃ s, Runs.Reachable (step oneChunk) (fun _ _ => True) (start oneChunk) s ∧
        .write ∈ s.outstanding ∧ s.sizeInCurrentWrite = 0 ∧ ¬ Sound s) ∧
      ∃ s, Runs.Reachable (step oneChunk) (fun _ _ => True) (start oneChunk) s ∧
        s.responses = 2 ∧ ¬ Sound s := by
  have hrun : (Runs.run (step oneChunk) (start oneChunk)
      (prepared ++ [.data [4096] 1 true, .answer .write .ok false, .data [] 1 true])).any (fun s =>
        s.outstanding.elem .write && s.sizeInCurrentWrite = 0 &&
          (Runs.run (step oneChunk) s [accepted, accepted, .answer .write .ok false,
            .answer .saveMetadata .failed true]).any fun s => s.responses = 2) = true := by
    decide
  obtain ⟨s, hs, hcheck⟩ := (Option.any_eq_true _ _).mp hrun
  simp only [Bool.and_eq_true, elem_eq_mem, decide_eq_true_eq] at hcheck
  obtain ⟨⟨hwrite, hzero⟩, hrest⟩ := hcheck
  obtain ⟨s', hs', htwo⟩ := (Option.any_eq_true _ _).mp hrest
  have h : Runs.Reachable (step oneChunk) (fun _ _ => True) (start oneChunk) s :=
    Runs.reachable_of_run _ .start (by simp [prepared, Runs.AllOk]) hs
  have htwo' : s'.responses = 2 := by simpa using htwo
  refine ⟨⟨s, h, hwrite, hzero, fun hsound => hsound.writesSomething hwrite hzero⟩, s',
    Runs.reachable_of_run _ h (by simp [Runs.AllOk]) hs', htwo', fun hsound => ?_⟩
  have honce := hsound.once
  omega

end S3PutChunkUploadObjectAction

end CortxS3
