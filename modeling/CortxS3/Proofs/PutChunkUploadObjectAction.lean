/-
An upload in chunks is committed only when it is complete and verified.

`save_metadata` is the task after the streaming, and it is begun once.  Before the streaming ends the tasks
say so, and an event that ends it by saving finds both sides done (`Outcome.verified`).  After it the task
is gone, and no event brings it back (`left_step`).
-/
import CortxS3.Proofs.PutChunkUploadStreaming

namespace CortxS3

open List

namespace S3PutChunkUploadObjectAction

open S3PutObjectAction (Task CleanupTask Op OpResult maxCollisionRetryCount streamTasks fetchTasks)

section Upload

variable {c : ChunkUploadConfig} {strict : Bool} {s : State}

/-! ### The metadata is saved once -/

/-- Streaming is over, and no more than what `saving` says is being saved. -/
structure Left (saving : Prop) (s : State) : Prop where
  tasks : s.tasks = [.sendResponseToS3Client] ∨ s.tasks = []
  saves : .saveMetadata ∈ s.outstanding → saving

variable {P : Prop}

section

variable (h : Left P s)

include h

theorem Left.with_cleanup {ops : List Op} {s' : State}
    (hops : ∀ op ∈ ops, ∃ k, op = .cleanup k) (htasks : s'.tasks = [] ∨ s'.tasks = s.tasks)
    (hout : s'.outstanding = s.outstanding ++ ops) : Left P s' := by
  refine ⟨?_, fun hsave => h.saves ?_⟩
  · rcases htasks with hnil | hsame
    · exact .inr hnil
    · rw [hsame]
      exact h.tasks
  · rw [hout, mem_append] at hsave
    rcases hsave with hold | hnew
    · exact hold
    · obtain ⟨k, hk⟩ := hops _ hnew
      cases hk

theorem Left.launch {s' : State} (htasks : s'.tasks = s.tasks) {op : Op}
    (hout : s'.outstanding = s.outstanding ++ [op]) (hop : op ≠ .saveMetadata) : Left P s' := by
  refine ⟨htasks ▸ h.tasks, fun hsave => h.saves ?_⟩
  rw [hout, mem_append, mem_singleton] at hsave
  exact hsave.resolve_right fun h => hop h.symm

theorem left_startcleanup : Left P (startcleanup c s) := by
  obtain ⟨_, _, ops, heq, hops⟩ := startcleanup_eq c s
  rw [heq]
  exact h.with_cleanup hops (.inl rfl) rfl

theorem left_sendResponse : Left P (sendResponseToS3Client c s) := by
  unfold sendResponseToS3Client
  split
  · exact ⟨h.tasks, h.saves⟩
  · obtain ⟨_, _, _, ops, heq, hops⟩ := respond_eq c s
    rw [heq]
    exact h.with_cleanup hops (.inl rfl) rfl

theorem left_fail (state : S3PutChunkUploadObjectActionState) :
    Left P (fail c s state) :=
  left_sendResponse ⟨h.tasks, h.saves⟩

theorem left_clientReadError : Left P (clientReadError c s) := by
  have herror : Left P { s with isErrorState := true } := ⟨h.tasks, h.saves⟩
  unfold clientReadError
  dsimp only
  split
  · exact left_sendResponse herror
  · exact left_startcleanup herror

theorem left_next : Left P (next c s) := by
  unfold next
  split
  · exact left_clientReadError h
  · split
    · obtain ⟨_, _, ops, heq, hops⟩ := runCleanup_eq c s s.cleanupTasks
      rw [heq]
      exact h.with_cleanup hops (.inr rfl) rfl
    · rcases h.tasks with htasks | htasks
      · rw [htasks, runTasks]
        exact left_sendResponse ⟨.inr rfl, h.saves⟩
      · rw [htasks]
        exact ⟨.inr rfl, h.saves⟩

theorem left_sendChunkDetails : Left P (sendChunkDetailsIfAny c s) := by
  have hone : ∀ (t : State) (d : S3ChunkDetail), Left P t → Left P (sendChunkDetail c t d) := by
    intro t d ht
    unfold sendChunkDetail
    split
    · exact ht
    · exact ⟨ht.tasks, ht.saves⟩
  have hall : ∀ (details : List S3ChunkDetail) (t : State), Left P t →
      Left P (details.foldl (sendChunkDetail c) t) := by
    intro details
    induction details with
    | nil => exact fun _ => id
    | cons d rest ih => exact fun t ht => ih _ (hone t d ht)
  exact hall _ _ ⟨h.tasks, h.saves⟩

theorem left_writeObject : Left P (writeObject c s) := by
  have hsent := left_sendChunkDetails (c := c) h
  exact hsent.launch rfl rfl (by simp)

theorem left_consume : Left P (consumeIncomingContent c s) := by
  have hpause : ∀ t : State, Left P t → ∀ full : Bool,
      Left P (if full then { t with body := t.body.pause } else t) := by
    intro t ht full
    cases full with
    | false => exact ht
    | true => exact ⟨ht.tasks, ht.saves⟩
  unfold consumeIncomingContent
  split
  · split
    · exact left_clientReadError h
    · exact h
  · dsimp only
    split
    · exact hpause _ (left_writeObject h) _
    · exact hpause _ h _

theorem left_writeObjectSuccessful : Left P (writeObjectSuccessful c s) := by
  have hresume : ∀ t : State, Left P t →
      Left P (if !t.body.isFreezed then { t with body := t.body.resume } else t) := by
    intro t ht
    split
    · exact ⟨ht.tasks, ht.saves⟩
    · exact ht
  have hwritten : Left P { s with
      totalWritten := s.totalWritten + s.sizeInCurrentWrite
      motrWriteInProgress := false } := ⟨h.tasks, h.saves⟩
  unfold writeObjectSuccessful
  dsimp only
  split
  · exact left_clientReadError hwritten
  · split
    · exact left_sendResponse hwritten
    · refine hresume _ ?_
      split
      · exact left_writeObject hwritten
      · split
        · unfold allWritten
          dsimp only
          split
          · exact left_next ⟨h.tasks, h.saves⟩
          · exact left_sendChunkDetails ⟨h.tasks, h.saves⟩
        · exact hwritten

theorem left_writeObjectFailed : Left P (writeObjectFailed c s) := by
  unfold writeObjectFailed
  dsimp only
  split
  · exact left_clientReadError ⟨h.tasks, h.saves⟩
  · split
    · exact left_sendResponse ⟨h.tasks, h.saves⟩
    · exact ⟨h.tasks, h.saves⟩

theorem left_createObjectAnswered (result : OpResult) :
    Left P (createObjectAnswered c s result) := by
  cases result with
  | ok =>
    simp only [createObjectAnswered]
    split
    · exact h.launch rfl rfl (by simp)
    · exact h.launch rfl rfl (by simp)
  | «exists» =>
    simp only [createObjectAnswered]
    split
    · exact h.launch rfl rfl (by simp)
    · exact left_fail h _
  | failed => exact left_fail h _

theorem left_answered (op : Op) (result : OpResult) (failedToLaunch : Bool) :
    Left P (answered c s op result failedToLaunch) := by
  unfold answered
  split
  · exact left_next h
  · exact left_fail h _
  · exact left_createObjectAnswered h _
  · exact h.launch rfl rfl (by simp)
  · exact left_fail h _
  · exact left_next h
  · exact left_fail h _
  · exact left_writeObjectSuccessful h
  · exact left_writeObjectFailed h
  · exact left_next ⟨h.tasks, h.saves⟩
  · exact left_sendResponse ⟨h.tasks, h.saves⟩
  · exact h.launch rfl rfl (by simp)
  · exact left_next h

theorem left_onAuthSuccess (response : S3AuthResponseSuccess) :
    Left P (onAuthSuccess c s response) := by
  unfold onAuthSuccess chunkAuthSuccessful
  dsimp only
  split
  · split
    · split
      · exact left_sendResponse ⟨h.tasks, h.saves⟩
      · exact left_next ⟨h.tasks, h.saves⟩
    · exact ⟨h.tasks, h.saves⟩
  · exact ⟨h.tasks, h.saves⟩

theorem left_onAuthFailure : Left P (onAuthFailure c s) := by
  unfold onAuthFailure chunkAuthFailed
  dsimp only
  split
  · exact ⟨h.tasks, h.saves⟩
  · exact left_sendResponse ⟨h.tasks, h.saves⟩

theorem left_onData (bufs : List Nat) (frames : Nat) (memoryAboveThreshold : Bool) :
    Left P (onData c s bufs frames memoryAboveThreshold) := by
  have hparse : Left P (parse { s with body := { s.body with readTimer := false } } frames
      memoryAboveThreshold) := by
    unfold parse
    split <;> exact ⟨h.tasks, h.saves⟩
  unfold onData
  dsimp only
  split
  · exact ⟨h.tasks, h.saves⟩
  · split
    · have hconsumed : ∀ b, Left P (consumeIncomingContent c { parse { s with body := { s.body with
          readTimer := false } } frames memoryAboveThreshold with body := b }) :=
        fun b => left_consume ⟨hparse.tasks, hparse.saves⟩
      exact ⟨(hconsumed _).tasks, (hconsumed _).saves⟩
    · exact ⟨hparse.tasks, hparse.saves⟩

theorem left_onReadTimeout : Left P (onReadTimeout c s) := by
  unfold onReadTimeout
  dsimp only
  split
  · exact left_consume ⟨h.tasks, h.saves⟩
  · exact ⟨h.tasks, h.saves⟩

/-- **Once streaming is over, nothing more is saved.** -/
theorem left_step {e : Event} {s' : State} (hstep : step c s e = some s') :
    Left P s' := by
  cases stepped hstep with
  | @data bufs frames memoryAboveThreshold => exact left_onData h bufs frames memoryAboveThreshold
  | readTimeout => exact left_onReadTimeout h
  | @answer op result failedToLaunch =>
    have hrest : Left P { s with outstanding := s.outstanding.erase op } :=
      ⟨h.tasks, fun hsave => h.saves (mem_of_mem_erase hsave)⟩
    exact left_answered hrest op result failedToLaunch
  | @authSuccess response => exact left_onAuthSuccess h response
  | authFailure => exact left_onAuthFailure h

end

/-! ### What is saved is verified -/

theorem Outcome.verified (h : Outcome c strict s) (hauth : c.authDisabled = false)
    (hdata : c.dataLength ≠ 0) (hsave : .saveMetadata ∈ s.outstanding) : Verified c s := by
  have hcalls : ∀ t : State, (t.outstanding = if t.motrWriteInProgress then [.write] else []) →
      .saveMetadata ∉ t.outstanding := by
    intro t ht hmem
    rw [ht] at hmem
    split at hmem <;> simp at hmem
  cases h with
  | streaming h => exact absurd hsave (hcalls s h.calls)
  | saving h =>
    have hverified := h.verified hdata hauth
    exact ⟨hverified.written, hverified.handed, hverified.accepted, hverified.lastEmpty⟩
  | answered h idle =>
    obtain ⟨_, _, _, ops, heq, hops⟩ := respond_eq c _
    rw [heq, mem_append] at hsave
    rcases hsave with hold | hnew
    · exact absurd hold (hcalls _ h.calls)
    · obtain ⟨k, hk⟩ := hops _ hnew
      cases hk
  | broken h timer ignored =>
    obtain ⟨_, _, ops, heq, hops⟩ := startcleanup_eq c _
    rw [heq, mem_append] at hsave
    rcases hsave with hold | hnew
    · exact absurd hold (hcalls _ h.calls)
    · obtain ⟨k, hk⟩ := hops _ hnew
      cases hk

theorem Outcome.streaming_or_left (h : Outcome c strict s) : Streaming c strict s ∨ Left True s := by
  cases h with
  | streaming h => exact .inl h
  | saving h => exact .inr ⟨.inl rfl, fun _ => trivial⟩
  | answered h idle =>
    obtain ⟨_, _, _, _, heq, -⟩ := respond_eq c _
    rw [heq]
    exact .inr ⟨.inr rfl, fun _ => trivial⟩
  | broken h timer ignored =>
    obtain ⟨_, _, _, heq, -⟩ := startcleanup_eq c _
    rw [heq]
    exact .inr ⟨.inr rfl, fun _ => trivial⟩

/-- Preparing, streaming, or done with it. -/
def Phase (c : ChunkUploadConfig) (s : State) : Prop :=
  Preparing c false s ∨ Streaming c false s ∨ Left True s

theorem phase_of_begun (h : Begun c false s) : Phase c s := by
  rcases h with h | h
  · exact .inl h
  · exact .inr h.streaming_or_left

theorem phase_step (hlast : c.authDisabled = false → EmptyLast c) (s : State) (e : Event) (s' : State)
    (h : Phase c s) (hstep : step c s e = some s') : Phase c s' := by
  rcases h with h | h | h
  · exact phase_of_begun (begun_step h hstep)
  · exact .inr (outcome_step hlast h (by simp) hstep).streaming_or_left
  · exact .inr (.inr (left_step h hstep))

/-- **An upload is committed only when it is complete and verified, if no chunk of size zero comes before
the last.** -/
theorem saves_verified (hauth : c.authDisabled = false) (hdata : 0 < c.dataLength) (hlast : EmptyLast c)
    (h : Runs.Reachable (step c) (fun _ _ => True) (start c) s) {e : Event} {s' : State}
    (hstep : step c s e = some s') (hnew : .saveMetadata ∉ s.outstanding)
    (hsave : .saveMetadata ∈ s'.outstanding) : Verified c s' := by
  have hphase : Phase c s :=
    h.invariant (phase_of_begun (begun_start c false))
      fun s e s' hs _ hstep => phase_step (fun _ => hlast) s e s' hs hstep
  have hne : c.dataLength ≠ 0 := Nat.pos_iff_ne_zero.mp hdata
  rcases hphase with hprep | hstream | hleft
  · rcases begun_step hprep hstep with hnext | hout
    · obtain ⟨op, hcall, hawaits⟩ := hnext.call
      obtain rfl : .saveMetadata = op := by simpa [hcall] using hsave
      exact hawaits.elim
    · exact hout.verified hauth hne hsave
  · exact (outcome_step (fun _ => hlast) hstream (by simp) hstep).verified hauth hne hsave
  · have hnone : Left False s := ⟨hleft.tasks, fun hmem => hnew hmem⟩
    exact ((left_step hnone hstep).saves hsave).elim

end Upload

/-! ### Runs of one upload -/

/-- A chunk of this size, signed. -/
def signedChunk (size : Nat) : S3ChunkDetail where
  chunkSize := size
  signature := ascii "51"
  payloadHash := ascii "a1"
  ready := true

theorem payloadSize_pos : 0 < 4096 := by decide

/-- An upload of one or two buffers, one in each write. -/
def sampleUpload (dataLength : Nat) (chunks : List S3ChunkDetail) : ChunkUploadConfig where
  dataLength := dataLength
  sizeOfEachEvbuf := 4096
  readAheadMultiple := 1
  readAheadMultiple_pos := Nat.one_pos
  motrWritePayloadSize := 4096
  motrWritePayloadSize_pos := payloadSize_pos
  fetches := 1
  requestValid := true
  md5Matches := true
  oldObjectExtended := false
  hasOldObject := false
  hasOldRecords := false
  oldObjects := 0
  delayedDelete := false
  authDisabled := false
  chunks := chunks
  request := ChunkAuth.chunkedPut

/-- One chunk and the empty one. -/
def oneChunk : ChunkUploadConfig := sampleUpload 4096 [signedChunk 4096, signedChunk 0]

def accepted : Event := .authSuccess { signatureSha256 := ascii "51" }

/-- This event makes the action save the metadata. -/
def savesAt (c : ChunkUploadConfig) (s : State) (e : Event) : Bool :=
  !s.outstanding.elem .saveMetadata && (step c s e).any fun s' => s'.outstanding.elem .saveMetadata

theorem savesAt_spec {c : ChunkUploadConfig} {s : State} {e : Event} (h : savesAt c s e = true) :
    ∃ s', step c s e = some s' ∧ .saveMetadata ∉ s.outstanding ∧ .saveMetadata ∈ s'.outstanding := by
  simp only [savesAt, Bool.and_eq_true, Option.any_eq_true] at h
  obtain ⟨hnot, s', hstep, hsave⟩ := h
  exact ⟨s', hstep, by simpa using hnot, by simpa using hsave⟩

/-- Up to where the body is streamed. -/
def prepared : List Event :=
  [.answer .fetchInfo .ok false, .answer .createObject .ok false, .answer .putProbableRecords .ok false]

/-- Both chunks arrive at once and are accepted while the data is written. -/
theorem saves_verified_oneChunk :
    oneChunk.authDisabled = false ∧ 0 < oneChunk.dataLength ∧ EmptyLast oneChunk ∧
      ∃ s s', Runs.Reachable (step oneChunk) (fun _ _ => True) (start oneChunk) s ∧
        step oneChunk s (.answer .write .ok false) = some s' ∧ .saveMetadata ∉ s.outstanding ∧
        .saveMetadata ∈ s'.outstanding ∧ Verified oneChunk s' := by
  have hlast : EmptyLast oneChunk := by
    intro d hd
    obtain rfl : d = signedChunk 4096 := by simpa [oneChunk, sampleUpload] using hd
    decide
  have hrun : (Runs.run (step oneChunk) (start oneChunk)
      (prepared ++ [.data [4096] 2 true, accepted, accepted])).any
      (fun s => savesAt oneChunk s (.answer .write .ok false)) = true := by decide
  obtain ⟨s, hs, hsaves⟩ := (Option.any_eq_true _ _).mp hrun
  obtain ⟨s', hstep, hnot, hsave⟩ := savesAt_spec hsaves
  have h : Runs.Reachable (step oneChunk) (fun _ _ => True) (start oneChunk) s :=
    Runs.reachable_of_run _ .start (by simp [prepared, Runs.AllOk]) hs
  exact ⟨rfl, by decide, hlast, s, s', h, hstep, hnot, hsave,
    saves_verified rfl (by decide) hlast h hstep hnot hsave⟩

/-- A chunk of size zero comes first, and is accepted before the others arrive. -/
def emptyFirst : ChunkUploadConfig :=
  sampleUpload 8192 [signedChunk 0, signedChunk 8192, signedChunk 0]

/-- The metadata is saved when one chunk of three was accepted. -/
theorem not_verified_emptyFirst :
    emptyFirst.authDisabled = false ∧ 0 < emptyFirst.dataLength ∧
      ∃ s e s', Runs.Reachable (step emptyFirst) (fun _ _ => True) (start emptyFirst) s ∧
        step emptyFirst s e = some s' ∧ .saveMetadata ∉ s.outstanding ∧
        .saveMetadata ∈ s'.outstanding ∧ ¬ Verified emptyFirst s' := by
  have hrun : (Runs.run (step emptyFirst) (start emptyFirst)
      (prepared ++ [.data [4096] 1 true, accepted, .data [4096] 2 true, .answer .write .ok false])).any
      (fun s => savesAt emptyFirst s (.answer .write .ok false) &&
        (step emptyFirst s (.answer .write .ok false)).all fun s' =>
          ChunkAuth.answers s'.auth.trace = [true]) = true := by decide
  obtain ⟨s, hs, hcheck⟩ := (Option.any_eq_true _ _).mp hrun
  rw [Bool.and_eq_true] at hcheck
  obtain ⟨s', hstep, hnot, hsave⟩ := savesAt_spec hcheck.1
  have hanswers : ChunkAuth.answers s'.auth.trace = [true] := by simpa [hstep] using hcheck.2
  have h : Runs.Reachable (step emptyFirst) (fun _ _ => True) (start emptyFirst) s :=
    Runs.reachable_of_run _ .start (by simp [prepared, Runs.AllOk]) hs
  refine ⟨rfl, by decide, s, _, s', h, hstep, hnot, hsave, fun hverified => ?_⟩
  have haccepted := hverified.accepted
  rw [hanswers] at haccepted
  cases haccepted

end S3PutChunkUploadObjectAction

end CortxS3
