/-
An upload is answered once and does not hang.

Data, timeouts and the answers of Motr come in any order.  What keeps `S3PutObjectAction` in order is
that up to the response at most one call is outstanding, and that nothing is outstanding only while the
client still has data to send and may send it.  After the response the request takes no more data, and
one call of the cleanup follows the other until the end.

The invariant (`Orderly`) says this for each call that may be outstanding.  It needs the conditions of
`Expected`, which leave out the answers and the moments the action is not prepared for:

- a read error for want of memory, after which nobody answers the client;
- a timeout during a write, which is answered at once and again when the write is;
- a timeout or a failure before there is a new object, after which there is nothing to clean up and
  nobody calls `done`;
- a write that is answered while the request is paused and too little is buffered for the next one,
  when nobody resumes it.
-/
import CortxS3.Server.PutObjectAction
import CortxS3.Proofs.RequestBody

namespace CortxS3

open List RequestBody

namespace S3PutObjectAction

/-! ### What is promised -/

/-- One response, one write at a time, and no end of the calls without a response. -/
structure Answers (s : State) : Prop where
  once : s.responses ≤ 1
  oneWrite : s.outstanding.count .write ≤ 1
  neverStalls : s.outstanding = [] →
    s.body.pendingInFlight = 0 ∨ s.body.readError.isSome ∨ s.body.isPaused = true →
    s.responses = 1 ∧ s.done = true

/-- What the action is prepared for. -/
def Expected (c : UploadConfig) (s : State) : Event → Prop
  | .data len memoryAboveThreshold =>
    s.body.ignoreIncomingData = true ∨
      (memoryAboveThreshold = true ∧ (s.body.readError.isSome ∨ s.body.Fits c.toBodyConfig len))
  | .readTimeout => s.writeInProgress = false ∧ Op.fetchInfo ∉ s.outstanding
  | .answer .fetchInfo result _ => result = .ok
  | .answer .createObject result _ =>
    result = .ok ∨ (result = .exists ∧ s.triedCount < maxCollisionRetryCount)
  | .answer .putProbableRecords result _ => result = .ok
  | .answer .write .ok true =>
    s.body.isPaused = true → s.body.isFreezed = false →
      c.motrWritePayloadSize ≤ s.body.contentLength
  | _ => True

section Upload

variable {c : UploadConfig} {s : State}

/-! ### The invariant -/

structure Before (s : State) : Prop where
  body : s.body.Regular
  responses : s.responses = 0
  cleanupStarted : s.cleanupStarted = false
  notDone : s.done = false
  notIgnored : s.body.ignoreIncomingData = false
  noError : s.isErrorState = false

structure After (s : State) : Prop where
  responses : s.responses = 1
  cleanupStarted : s.cleanupStarted = true
  ignored : s.body.ignoreIncomingData = true
  timer : s.body.readTimer = false
  notPaused : s.body.isPaused = false
  notWriting : s.writeInProgress = false

/-- The client is to send more. -/
structure Waiting (c : UploadConfig) (s : State) : Prop extends Before s where
  notWriting : s.writeInProgress = false
  noReadError : s.body.readError = none
  pending : s.body.pendingInFlight ≠ 0
  notPaused : s.body.isPaused = false
  listener : s.body.listener = some c.motrWritePayloadSize
  tasks : s.tasks = [.saveMetadata, .sendResponseToS3Client]
  created : s.actionState = .newObjOidCreated

def streamTasks : List Task := [.initiateDataStreaming, .saveMetadata, .sendResponseToS3Client]

def fetchTasks (k : Nat) : List Task :=
  List.replicate k .fetchInfo ++ .validatePutRequest :: .createObject :: streamTasks

/-- Before the body is listened to. -/
structure Preparing (c : UploadConfig) (s : State) : Prop extends Before s where
  notWriting : s.writeInProgress = false
  listener : s.body.listener = none
  pending : s.body.pendingInFlight ≤ c.dataLength

structure Writing (c : UploadConfig) (s : State) : Prop extends Before s where
  writing : s.writeInProgress = true
  noReadError : s.body.readError = none
  listener : s.body.pendingInFlight ≠ 0 → s.body.listener = some c.motrWritePayloadSize
  tasks : s.tasks = [.saveMetadata, .sendResponseToS3Client]
  created : s.actionState = .newObjOidCreated

structure Saving (s : State) : Prop extends Before s where
  notWriting : s.writeInProgress = false
  noReadError : s.body.readError = none
  pending : s.body.pendingInFlight = 0
  tasks : s.tasks = [.sendResponseToS3Client]

/-- What holds while a call is outstanding. -/
def AtCall (c : UploadConfig) (s : State) : Op → Prop
  | .fetchInfo => Preparing c s ∧ s.body.readError = none ∧ ∃ k, s.tasks = fetchTasks k
  | .createObject => Preparing c s ∧ s.tasks = streamTasks
  | .loadExtendedMetadata =>
    Preparing c s ∧ s.tasks = streamTasks ∧ s.actionState = .newObjOidCreated
  | .putProbableRecords =>
    Preparing c s ∧ s.tasks = streamTasks ∧ s.actionState = .newObjOidCreated
  | .write => Writing c s
  | .saveMetadata => Saving s
  | .cleanup _ => After s ∧ s.done = false

/-- What holds, by the calls that are outstanding. -/
def Orderly (c : UploadConfig) (s : State) : Prop :=
  match s.outstanding with
  | [] => Waiting c s ∨ (After s ∧ s.done = true)
  | [op] => AtCall c s op
  | _ => False

/-! What such a condition does not speak of may change. -/

theorem Before.with_body (h : Before s) {b : RequestBody} (hb : b.Regular)
    (hignored : b.ignoreIncomingData = false) {tasks : List Task} {state : S3PutObjectActionState}
    {tried : Nat} {writing : Bool} {ops : List Op} :
    Before { s with
      body := b
      tasks := tasks
      actionState := state
      triedCount := tried
      writeInProgress := writing
      outstanding := ops } :=
  ⟨hb, h.responses, h.cleanupStarted, h.notDone, hignored, h.noError⟩

theorem Before.moved (h : Before s) {tasks : List Task} {state : S3PutObjectActionState} {tried : Nat}
    {writing : Bool} {ops : List Op} :
    Before { s with
      tasks := tasks
      actionState := state
      triedCount := tried
      writeInProgress := writing
      outstanding := ops } :=
  h.with_body h.body h.notIgnored

theorem Preparing.moved (h : Preparing c s) {tasks : List Task} {state : S3PutObjectActionState}
    {tried : Nat} {ops : List Op} :
    Preparing c { s with tasks := tasks, actionState := state, triedCount := tried, outstanding := ops } :=
  ⟨h.toBefore.moved, h.notWriting, h.listener, h.pending⟩

theorem After.moved (h : After s) {left : List CleanupTask} {ops : List Op} {done : Bool} :
    After { s with cleanupTasks := left, outstanding := ops, done := done } :=
  ⟨h.responses, h.cleanupStarted, h.ignored, h.timer, h.notPaused, h.notWriting⟩

theorem orderly_nil (hout : s.outstanding = []) :
    Orderly c s ↔ Waiting c s ∨ (After s ∧ s.done = true) := by
  rw [Orderly, hout]

variable {op : Op}

theorem orderly_singleton (hout : s.outstanding = [op]) : Orderly c s ↔ AtCall c s op := by
  rw [Orderly, hout]

theorem Orderly.of_nil (hout : s.outstanding = []) (h : Waiting c s ∨ (After s ∧ s.done = true)) :
    Orderly c s :=
  (orderly_nil hout).mpr h

theorem Orderly.of_call (hout : s.outstanding = [op]) (h : AtCall c s op) : Orderly c s :=
  (orderly_singleton hout).mpr h

theorem orderly_launch (hout : s.outstanding = []) (h : AtCall c (s.launch op) op) :
    Orderly c (s.launch op) :=
  .of_call (by simp [State.launch, hout]) h

theorem Orderly.answers (h : Orderly c s) : Answers s := by
  have hstall : s.outstanding = [] →
      s.body.pendingInFlight = 0 ∨ s.body.readError.isSome ∨ s.body.isPaused = true →
      s.responses = 1 ∧ s.done = true := by
    intro hout hstop
    rw [Orderly, hout] at h
    rcases h with hw | ⟨ha, hdone⟩
    · rcases hstop with hp | he | hpaused
      · exact absurd hp hw.pending
      · rw [hw.noReadError] at he
        cases he
      · rw [hw.notPaused] at hpaused
        cases hpaused
    · exact ⟨ha.responses, hdone⟩
  refine ⟨?_, ?_, hstall⟩
  · unfold Orderly at h
    split at h
    · rcases h with hw | ⟨ha, -⟩
      · exact hw.responses.le.trans zero_le_one
      · exact ha.responses.le
    · next op _ =>
        cases op with
        | write | saveMetadata => exact h.responses.le.trans zero_le_one
        | cleanup k => exact h.1.responses.le
        | _ => exact h.1.responses.le.trans zero_le_one
    · exact h.elim
  · unfold Orderly at h
    split at h
    · next hout => simp [hout]
    · next op hout =>
        rw [hout]
        exact (count_le_length).trans le_rfl
    · exact h.elim

/-! ### The cleanup -/

theorem orderly_runCleanup (h : After s) (hdone : s.done = false) (hout : s.outstanding = []) :
    ∀ tasks, Orderly c (runCleanup c s tasks) := by
  intro tasks
  induction tasks with
  | nil =>
    rw [runCleanup, Orderly]
    dsimp only
    rw [hout]
    exact .inr ⟨h.moved, rfl⟩
  | cons task rest ih =>
    have hcleanup : ∀ op, task.op c = some op → ∃ k, op = .cleanup k := by
      intro op hop
      cases task <;> simp only [CleanupTask.op] at hop <;> grind
    rw [runCleanup]
    split
    · exact ih
    · next op hop =>
        obtain ⟨k, rfl⟩ := hcleanup op hop
        exact orderly_launch (s := { s with cleanupTasks := rest }) hout ⟨h.moved, hdone⟩

theorem orderly_sendResponse (hres : s.responses = 0) (hdone : s.done = false)
    (hwriting : s.writeInProgress = false) (hout : s.outstanding = [])
    (hclean : s.isErrorState = true → cleanupTasksOf c s.actionState ≠ []) :
    Orderly c (sendResponseToS3Client c s) := by
  have hcleanup : ∀ state : S3PutObjectActionState, cleanupTasksOf c state ≠ [] →
      Orderly c (startcleanup c { s with
        actionState := state
        responses := s.responses + 1
        body := s.body.sendResponse }) := by
    intro state hne
    have hafter : After { s with
        tasks := []
        cleanupStarted := true
        actionState := state
        responses := s.responses + 1
        body := s.body.sendResponse } := by
      rw [sendResponse_eq]
      exact ⟨by simp [hres], rfl, rfl, rfl, rfl, hwriting⟩
    unfold startcleanup
    dsimp only
    split
    · next hnil => exact absurd hnil hne
    · exact orderly_runCleanup hafter hdone hout _
  unfold sendResponseToS3Client
  split
  · next herr => exact hcleanup s.actionState (hclean herr)
  · exact hcleanup .completed (by simp [cleanupTasksOf])

/-- The new object is there and has to go. -/
def NeedsRollback (state : S3PutObjectActionState) : Prop :=
  state = .newObjOidCreated ∨ state = .writeFailed ∨ state = .md5ValidationFailed ∨
    state = .metadataSaveFailed

theorem NeedsRollback.cleanupTasks_ne_nil {state : S3PutObjectActionState}
    (h : NeedsRollback state) : cleanupTasksOf c state ≠ [] := by
  rcases h with rfl | rfl | rfl | rfl <;> simp [cleanupTasksOf]

theorem orderly_fail (h : Before s) (hwriting : s.writeInProgress = false)
    (hout : s.outstanding = []) {state : S3PutObjectActionState} (hstate : NeedsRollback state) :
    Orderly c (fail c s state) :=
  orderly_sendResponse h.responses h.notDone hwriting hout fun _ => hstate.cleanupTasks_ne_nil

theorem orderly_timedOut (h : Before s) (hwriting : s.writeInProgress = false)
    (hout : s.outstanding = []) (hstate : s.actionState = .newObjOidCreated) :
    Orderly c (sendResponseToS3Client c { s with isErrorState := true }) :=
  orderly_sendResponse h.responses h.notDone hwriting hout fun _ =>
    NeedsRollback.cleanupTasks_ne_nil (.inl hstate)

theorem orderly_clientReadError (h : Before s) (herr : s.body.readError.isSome)
    (hwriting : s.writeInProgress = false) (hout : s.outstanding = [])
    (hstate : s.actionState = .newObjOidCreated) : Orderly c (clientReadError c s) := by
  have htimeout : s.body.readError = some .requestTimeout := by
    have hne := h.body.readError
    cases hre : s.body.readError with
    | none =>
      rw [hre] at herr
      cases herr
    | some e =>
      cases e with
      | requestTimeout => rfl
      | serviceUnavailable => exact absurd hre hne
  unfold clientReadError
  dsimp only
  rw [if_pos htimeout]
  exact orderly_timedOut h hwriting hout hstate

/-! ### Streaming -/

theorem orderly_writeObject (h : Before s) (hout : s.outstanding = [])
    (herr : s.body.readError = none)
    (hlistener : s.body.pendingInFlight ≠ 0 → s.body.listener = some c.motrWritePayloadSize)
    (htasks : s.tasks = [.saveMetadata, .sendResponseToS3Client])
    (hstate : s.actionState = .newObjOidCreated) : Orderly c (writeObject c s) := by
  rw [Orderly]
  simp only [writeObject, State.launch, hout, nil_append]
  exact ⟨⟨h.body.getBuffers _, h.responses, h.cleanupStarted, h.notDone, h.notIgnored, h.noError⟩, rfl,
    herr, hlistener, htasks, hstate⟩

theorem orderly_initiateDataStreaming (h : Preparing c s) (hout : s.outstanding = [])
    (herr : s.body.readError = none)
    (htasks : s.tasks = [.saveMetadata, .sendResponseToS3Client])
    (hstate : s.actionState = .newObjOidCreated) : Orderly c (initiateDataStreaming c s) := by
  unfold initiateDataStreaming hasAllBodyContent isS3ClientReadError
  split
  · next hall =>
      exact orderly_writeObject h.toBefore hout herr
        (fun hne => absurd (by simpa using hall) hne) htasks hstate
  · next hmore =>
      rw [if_neg (by simp [herr]), Orderly]
      dsimp only
      rw [hout]
      have hpending : s.body.pendingInFlight ≠ 0 := by simpa using hmore
      have hregular := h.body.listenForIncomingData hpending c.motrWritePayloadSize
      rw [listenForIncomingData_eq] at hregular ⊢
      exact .inl ⟨⟨hregular, h.responses, h.cleanupStarted, h.notDone, h.notIgnored, h.noError⟩,
        h.notWriting, herr, hpending, rfl, rfl, htasks, hstate⟩

/-! ### The tasks -/

theorem orderly_save (h : Before s) (hwriting : s.writeInProgress = false)
    (hout : s.outstanding = []) (herr : s.body.readError = none)
    (hpending : s.body.pendingInFlight = 0) :
    Orderly c (runTasks c s [.saveMetadata, .sendResponseToS3Client]) := by
  unfold runTasks
  split
  · exact orderly_launch (s := { s with tasks := _ }) hout ⟨h.moved, hwriting, herr, hpending, rfl⟩
  · exact orderly_fail h.moved hwriting hout (.inr (.inr (.inl rfl)))

theorem orderly_stream (h : Preparing c s) (hout : s.outstanding = [])
    (herr : s.body.readError = none) (hstate : s.actionState = .newObjOidCreated) :
    Orderly c (runTasks c s streamTasks) := by
  unfold streamTasks runTasks
  split
  · next hzero =>
      have hpending := h.pending
      exact orderly_save h.toBefore h.notWriting hout herr (by omega)
  · exact orderly_initiateDataStreaming h.moved hout herr rfl hstate

theorem orderly_fetch (hvalid : c.requestValid = true) (h : Preparing c s)
    (hout : s.outstanding = []) (herr : s.body.readError = none) (k : Nat) :
    Orderly c (runTasks c s (fetchTasks k)) := by
  unfold fetchTasks
  cases k with
  | zero =>
    simp only [replicate_zero, nil_append, runTasks, hvalid, if_true]
    exact orderly_launch (s := { s with tasks := _ }) hout ⟨h.moved, rfl⟩
  | succ k =>
    simp only [replicate_succ, cons_append, runTasks]
    exact orderly_launch (s := { s with tasks := _ }) hout ⟨h.moved, herr, k, rfl⟩

theorem orderly_start (hvalid : c.requestValid = true) : Orderly c (start c) := by
  have hprep : Preparing c
      { body := .initialise c.toBodyConfig, tasks := [] } :=
    ⟨⟨regular_initialise _, rfl, rfl, rfl, rfl, rfl⟩, rfl, rfl, le_rfl⟩
  exact orderly_fetch hvalid hprep rfl rfl c.fetches

/-! ### The answers of Motr -/

theorem next_before (h : Before s) (herr : s.body.readError = none) :
    next c s = runTasks c s s.tasks := by
  simp [next, isS3ClientReadError, herr, h.cleanupStarted]

theorem orderly_noted (h : Preparing c s) (hout : s.outstanding = []) (htasks : s.tasks = streamTasks)
    (hstate : s.actionState = .newObjOidCreated) : Orderly c (next c s) := by
  cases herr : s.body.readError with
  | none =>
    rw [next_before h.toBefore herr, htasks]
    exact orderly_stream h hout herr hstate
  | some e =>
    have hsome : s.body.readError.isSome := by rw [herr]; rfl
    simp only [next, isS3ClientReadError, hsome, h.cleanupStarted, Bool.not_false,
      Bool.and_self, if_true]
    exact orderly_clientReadError h.toBefore hsome h.notWriting hout hstate

variable {result : OpResult}

theorem orderly_createObjectAnswered (h : Preparing c s) (hout : s.outstanding = [])
    (htasks : s.tasks = streamTasks)
    (hok : result = .ok ∨ (result = .exists ∧ s.triedCount < maxCollisionRetryCount)) :
    Orderly c (createObjectAnswered c s result) := by
  rcases hok with rfl | ⟨rfl, htried⟩
  · unfold createObjectAnswered
    dsimp only
    split
    all_goals exact orderly_launch (s := { s with actionState := _ }) hout ⟨h.moved, htasks, rfl⟩
  · simp only [createObjectAnswered, htried, if_true]
    exact orderly_launch (s := { s with triedCount := _ }) hout ⟨h.moved, htasks⟩

theorem Writing.with_body (h : Writing c s) {b : RequestBody} (hb : b.Regular)
    (herr : b.readError = s.body.readError) (hignored : b.ignoreIncomingData = s.body.ignoreIncomingData)
    (hlistener : b.listener = s.body.listener)
    (hpending : s.body.pendingInFlight = 0 → b.pendingInFlight = 0) :
    Writing c { s with body := b } :=
  ⟨h.toBefore.with_body hb (hignored.trans h.notIgnored), h.writing, herr.trans h.noReadError,
    fun hne => hlistener.trans (h.listener fun hzero => hne (hpending hzero)), h.tasks, h.created⟩

theorem orderly_writeAgain (h : Before s) (hout : s.outstanding = [])
    (herr : s.body.readError = none)
    (hlistener : s.body.pendingInFlight ≠ 0 → s.body.listener = some c.motrWritePayloadSize)
    (htasks : s.tasks = [.saveMetadata, .sendResponseToS3Client])
    (hstate : s.actionState = .newObjOidCreated) (isMemoryEnough : Bool) :
    Orderly c
      (if !isMemoryEnough then { writeObject c s with body := (writeObject c s).body.pause }
      else if !(writeObject c s).body.isFreezed then
        { writeObject c s with body := (writeObject c s).body.resume }
      else writeObject c s) := by
  have hcalls : ∀ b : RequestBody,
      ({ writeObject c s with body := b } : State).outstanding = [.write] := by
    intro b
    simp [writeObject, State.launch, hout]
  have hwrite := orderly_writeObject (c := c) h hout herr hlistener htasks hstate
  rw [Orderly, hcalls (writeObject c s).body] at hwrite
  dsimp only at hwrite
  split
  · rw [Orderly, hcalls]
    have hregular := hwrite.body.pause
    rw [pause_eq] at hregular ⊢
    exact hwrite.with_body hregular rfl rfl rfl id
  · split
    · next hopen =>
        have hpending : (writeObject c s).body.pendingInFlight ≠ 0 := by
          intro hzero
          have hfr := (hwrite.body.freezed_iff hwrite.noReadError).mpr hzero
          simp [hfr] at hopen
        rw [Orderly, hcalls]
        have hregular := hwrite.body.resume hpending
        rw [resume_eq] at hregular ⊢
        exact hwrite.with_body hregular rfl rfl rfl id
    · exact orderly_writeObject h hout herr hlistener htasks hstate

variable {isMemoryEnough : Bool}

theorem orderly_writeObjectSuccessful (h : Writing c s) (hout : s.outstanding = [])
    (hresumed : isMemoryEnough = true → s.body.isPaused = true → s.body.isFreezed = false →
      c.motrWritePayloadSize ≤ s.body.contentLength) :
    Orderly c (writeObjectSuccessful c s isMemoryEnough) := by
  obtain ⟨hbefore, hwriting, herr, hlistener, htasks, hstate⟩ := h
  unfold writeObjectSuccessful
  dsimp only
  rw [if_neg (by simp [isS3ClientReadError, herr])]
  split
  · exact orderly_writeAgain hbefore.moved hout herr hlistener htasks hstate isMemoryEnough
  · next hless =>
      split
      · next hall =>
          -- everything is written
          have hfr : s.body.isFreezed = true := by
            simp only [Bool.and_eq_true] at hall
            exact hall.1
          have hpending := (hbefore.body.freezed_iff herr).mp hfr
          have hnext := next_before (c := c)
            (s := { s with writeInProgress := false, actionState := .writeComplete }) hbefore.moved herr
          rw [hnext]
          dsimp only
          rw [htasks]
          exact orderly_save hbefore.moved rfl hout herr hpending
      · next hmore =>
          split
          · exact orderly_fail hbefore.moved rfl hout (.inr (.inl rfl))
          · next hmem =>
              -- more has to come, and can
              have hopen : s.body.isFreezed = false := by
                by_contra hfr
                have hfr' : s.body.isFreezed = true := by simpa using hfr
                simp only [hfr', Bool.true_and, Bool.or_eq_true, decide_eq_true_eq] at hless hmore
                omega
              have hpending : s.body.pendingInFlight ≠ 0 := by
                intro hzero
                have hfr := (hbefore.body.freezed_iff herr).mpr hzero
                rw [hopen] at hfr
                cases hfr
              have hrunning : s.body.isPaused = false := by
                by_contra hp
                have hle := hresumed (by simpa using hmem) (by simpa using hp) hopen
                simp [hle] at hless
              rw [Orderly]
              dsimp only
              rw [hout]
              exact .inl ⟨hbefore.moved, rfl, herr, hpending, hrunning, hlistener hpending, htasks, hstate⟩

theorem Orderly.call (h : Orderly c s) (hop : op ∈ s.outstanding) : s.outstanding = [op] := by
  unfold Orderly at h
  split at h <;> first
    | exact h.elim
    | simp_all

theorem AtCall.with_calls (h : AtCall c s op) (ops : List Op) :
    AtCall c { s with outstanding := ops } op := by
  cases op with
  | fetchInfo | createObject | loadExtendedMetadata | putProbableRecords => exact ⟨h.1.moved, h.2⟩
  | write => exact ⟨h.toBefore.moved, h.writing, h.noReadError, h.listener, h.tasks, h.created⟩
  | saveMetadata => exact ⟨h.toBefore.moved, h.notWriting, h.noReadError, h.pending, h.tasks⟩
  | cleanup k => exact ⟨h.1.moved, h.2⟩

theorem orderly_answered_write (h : Writing c s) (hout : s.outstanding = [])
    (hok : Expected c s (.answer .write result isMemoryEnough)) :
    Orderly c (answered c s .write result isMemoryEnough) := by
  have hfailed : Orderly c (writeObjectFailed c s) := by
    simp only [writeObjectFailed, isS3ClientReadError, h.noReadError, Option.isSome_none,
      Bool.false_eq_true, if_false]
    exact orderly_fail (s := { s with writeInProgress := false, actionState := .writeFailed })
      h.toBefore.moved rfl hout (.inr (.inl rfl))
  cases result with
  | ok =>
    refine orderly_writeObjectSuccessful h hout ?_
    rintro rfl
    exact hok
  | «exists» | failed => exact hfailed

theorem orderly_answered_save (h : Saving s) (hout : s.outstanding = []) :
    Orderly c (answered c s .saveMetadata result isMemoryEnough) := by
  have hfailed : Orderly c (fail c s .metadataSaveFailed) :=
    orderly_fail h.toBefore h.notWriting hout (.inr (.inr (.inr rfl)))
  cases result with
  | ok =>
    have hnext := next_before (c := c) (s := { s with actionState := .metadataSaved })
      h.toBefore.moved h.noReadError
    rw [answered, hnext]
    dsimp only
    rw [h.tasks]
    exact orderly_sendResponse h.responses h.notDone h.notWriting hout (by simp [h.noError])
  | «exists» | failed => exact hfailed

theorem orderly_answered_cleanup (h : After s) (hdone : s.done = false) (hout : s.outstanding = [])
    {followUps : Nat} : Orderly c (answered c s (.cleanup followUps) result isMemoryEnough) := by
  have hnext : Orderly c (next c s) := by
    simp only [next, h.cleanupStarted, Bool.not_true, Bool.and_false, Bool.false_eq_true, if_false,
      if_true]
    exact orderly_runCleanup h hdone hout _
  cases followUps with
  | zero => cases result <;> exact hnext
  | succ k =>
    cases result with
    | ok =>
      exact orderly_launch hout ⟨h.moved, hdone⟩
    | «exists» | failed => exact hnext

/-- **Every answer of Motr the action is prepared for keeps the order.** -/
theorem orderly_answered (hvalid : c.requestValid = true) (h : AtCall c s op)
    (hout : s.outstanding = []) (hok : Expected c s (.answer op result isMemoryEnough)) :
    Orderly c (answered c s op result isMemoryEnough) := by
  cases op with
  | fetchInfo =>
    obtain ⟨hprep, herr, k, htasks⟩ := h
    obtain rfl : result = .ok := hok
    rw [answered, next_before hprep.toBefore herr, htasks]
    exact orderly_fetch hvalid hprep hout herr k
  | createObject => exact orderly_createObjectAnswered h.1 hout h.2 hok
  | loadExtendedMetadata =>
    obtain ⟨hprep, htasks, hstate⟩ := h
    have hfailed : Orderly c (fail c s .writeFailed) :=
      orderly_fail hprep.toBefore hprep.notWriting hout (.inr (.inl rfl))
    cases result with
    | ok =>
      exact orderly_launch hout ⟨hprep.moved, htasks, hstate⟩
    | «exists» | failed => exact hfailed
  | putProbableRecords =>
    obtain ⟨hprep, htasks, hstate⟩ := h
    obtain rfl : result = .ok := hok
    exact orderly_noted hprep hout htasks hstate
  | write => exact orderly_answered_write h hout hok
  | saveMetadata => exact orderly_answered_save h hout
  | cleanup k => exact orderly_answered_cleanup h.1 h.2 hout

/-! ### Data -/

theorem AtCall.with_body (h : AtCall c s op) (hop : ∀ k, op ≠ .cleanup k) {b : RequestBody}
    (hb : b.Regular) (herr : b.readError = s.body.readError)
    (hignored : b.ignoreIncomingData = s.body.ignoreIncomingData)
    (hlistener : b.listener = s.body.listener)
    (hpending : b.pendingInFlight ≤ s.body.pendingInFlight) : AtCall c { s with body := b } op := by
  have hbefore : Before s → Before { s with body := b } := fun h =>
    h.with_body hb (hignored.trans h.notIgnored)
  have hprep : Preparing c s → Preparing c { s with body := b } := fun h =>
    ⟨hbefore h.toBefore, h.notWriting, hlistener.trans h.listener, hpending.trans h.pending⟩
  cases op with
  | fetchInfo => exact ⟨hprep h.1, herr.trans h.2.1, h.2.2⟩
  | createObject | loadExtendedMetadata | putProbableRecords => exact ⟨hprep h.1, h.2⟩
  | write => exact Writing.with_body h hb herr hignored hlistener fun hzero => by omega
  | saveMetadata =>
    have hzero := h.pending
    exact ⟨hbefore h.toBefore, h.notWriting, herr.trans h.noReadError, by dsimp only; omega, h.tasks⟩
  | cleanup k => exact absurd rfl (hop k)

theorem consume_eq (herr : s.body.readError = none) :
    consumeIncomingContent c s =
      if !s.writeInProgress && (s.body.isFreezed || c.motrWritePayloadSize ≤ s.body.contentLength) then
        if !(writeObject c s).body.isFreezed &&
            c.motrWritePayloadSize * c.readAheadMultiple ≤ (writeObject c s).body.contentLength then
          { writeObject c s with body := (writeObject c s).body.pause }
        else writeObject c s
      else if !s.body.isFreezed &&
          c.motrWritePayloadSize * c.readAheadMultiple ≤ s.body.contentLength then
        { s with body := s.body.pause }
      else s := by
  rw [consumeIncomingContent, if_neg (by simp [isS3ClientReadError, herr])]
  dsimp only
  split <;> rfl

theorem consume_frame (herr : s.body.readError = none) :
    (consumeIncomingContent c s).responses = s.responses ∧
      (consumeIncomingContent c s).body.readError = none := by
  rw [consume_eq herr]
  split
  · split
    · exact ⟨rfl, by rw [pause_eq]; exact herr⟩
    · exact ⟨rfl, herr⟩
  · split
    · exact ⟨rfl, by rw [pause_eq]; exact herr⟩
    · exact ⟨rfl, herr⟩

theorem orderly_consume_writing (h : Writing c s) (hout : s.outstanding = [.write]) :
    Orderly c (consumeIncomingContent c s) := by
  rw [consume_eq h.noReadError, if_neg (by simp [h.writing])]
  split
  · rw [orderly_singleton (s := { s with body := s.body.pause }) hout]
    have hregular := h.body.pause
    rw [pause_eq] at hregular ⊢
    exact h.with_body hregular rfl rfl rfl id
  · rw [orderly_singleton hout]
    exact h

theorem orderly_consume_waiting (h : Before s) (hwriting : s.writeInProgress = false)
    (herr : s.body.readError = none) (hpaused : s.body.isPaused = false)
    (hlistener : s.body.listener = some c.motrWritePayloadSize)
    (htasks : s.tasks = [.saveMetadata, .sendResponseToS3Client])
    (hstate : s.actionState = .newObjOidCreated) (hout : s.outstanding = []) :
    Orderly c (consumeIncomingContent c s) := by
  rw [consume_eq herr]
  split
  · have hwrite := orderly_writeObject (c := c) h hout herr (fun _ => hlistener) htasks hstate
    have hcalls : (writeObject c s).outstanding = [.write] := by
      simp [writeObject, State.launch, hout]
    split
    · rw [orderly_singleton (s := { writeObject c s with body := (writeObject c s).body.pause })
        hcalls]
      rw [orderly_singleton hcalls] at hwrite
      have hregular := Before.body hwrite.toBefore |>.pause
      rw [pause_eq] at hregular ⊢
      exact Writing.with_body hwrite hregular rfl rfl rfl id
    · exact hwrite
  · next hless =>
      simp only [hwriting, Bool.not_false, Bool.true_and, Bool.or_eq_true, decide_eq_true_eq,
        not_or] at hless
      have hpending : s.body.pendingInFlight ≠ 0 := fun hzero =>
        hless.1 ((h.body.freezed_iff herr).mpr hzero)
      have hsmall : ¬ c.motrWritePayloadSize * c.readAheadMultiple ≤ s.body.contentLength := by
        have hmul := Nat.le_mul_of_pos_right c.motrWritePayloadSize c.readAheadMultiple_pos
        omega
      rw [if_neg (by simp [hsmall]), Orderly, hout]
      exact .inl ⟨h, hwriting, herr, hpending, hpaused, hlistener, htasks, hstate⟩

section

variable (h : Orderly c s)

include h

theorem Orderly.waiting (hbefore : Before s) (hout : s.outstanding = []) :
    Waiting c s := by
  rcases (orderly_nil hout).mp h with hw | ⟨ha, -⟩
  · exact hw
  · exact absurd ha.responses (by simp [hbefore.responses])

theorem Orderly.not_cleanup (hbefore : Before s) (hop : op ∈ s.outstanding) (k : Nat) :
    op ≠ .cleanup k := by
  rintro rfl
  have hat := (orderly_singleton (h.call hop)).mp h
  exact absurd hat.1.responses (by simp [hbefore.responses])

/-- The rest of the notification changes nothing but the timer and, before anybody listens, the pause. -/
theorem orderly_notified (hbefore : Before s) (herr : s.body.readError = none) :
    Orderly c { s with body := s.body.notified c.toBodyConfig } := by
  have hregular := hbefore.body.notified (c := c.toBodyConfig)
  rw [notified_eq herr] at hregular ⊢
  by_cases hout : s.outstanding = []
  · have hw := h.waiting hbefore hout
    refine .of_nil hout (.inl ⟨hbefore.with_body hregular hw.notIgnored, hw.notWriting, herr, hw.pending,
      ?_, hw.listener, hw.tasks, hw.created⟩)
    simp [hw.notPaused, hw.listener]
  · obtain ⟨op, hop⟩ := exists_mem_of_ne_nil _ hout
    have hcalls := h.call hop
    have hat := (orderly_singleton hcalls).mp h
    have hnot := h.not_cleanup hbefore hop
    exact .of_call hcalls (hat.with_body hnot hregular rfl rfl rfl le_rfl)

theorem before_or_after : Before s ∨ After s := by
  by_cases hout : s.outstanding = []
  · rcases (orderly_nil hout).mp h with hw | ⟨ha, -⟩
    · exact .inl hw.toBefore
    · exact .inr ha
  · obtain ⟨op, hop⟩ := exists_mem_of_ne_nil _ hout
    have hat := (orderly_singleton (h.call hop)).mp h
    cases op with
    | write | saveMetadata => exact .inl hat.toBefore
    | cleanup k => exact .inr hat.1
    | _ => exact .inl hat.1.toBefore

theorem orderly_stopTimer : Orderly c { s with body := { s.body with readTimer := false } } := by
  have hafter : After s → After { s with body := { s.body with readTimer := false } } := fun ha =>
    ⟨ha.responses, ha.cleanupStarted, ha.ignored, rfl, ha.notPaused, ha.notWriting⟩
  by_cases hout : s.outstanding = []
  · refine .of_nil hout ?_
    rcases (orderly_nil hout).mp h with hw | ⟨ha, hdone⟩
    · exact .inl ⟨hw.toBefore.with_body hw.body.stopTimer hw.notIgnored, hw.notWriting, hw.noReadError,
        hw.pending, hw.notPaused, hw.listener, hw.tasks, hw.created⟩
    · exact .inr ⟨hafter ha, hdone⟩
  · obtain ⟨op, hop⟩ := exists_mem_of_ne_nil _ hout
    have hat := (orderly_singleton (h.call hop)).mp h
    refine .of_call (h.call hop) ?_
    rcases before_or_after h with hb | ha
    · exact hat.with_body (h.not_cleanup hb hop) hb.body.stopTimer rfl rfl rfl le_rfl
    · cases op with
      | cleanup k => exact ⟨hafter ha, hat.2⟩
      | write | saveMetadata => exact absurd ha.responses (by simp [hat.responses])
      | _ => exact absurd ha.responses (by simp [hat.1.responses])

theorem orderly_arrived (hbefore : Before s) (herr : s.body.readError = none)
    (htimer : s.body.readTimer = false) (hpaused : s.body.isPaused = false)
    (hmore : s.body.pendingInFlight ≠ 0) {len : Nat} (hfits : s.body.Fits c.toBodyConfig len) :
    Orderly c
      (if s.body.listener.any fun watermark =>
          watermark ≤ s.body.contentLength + len || s.body.pendingInFlight - len = 0 then
        consumeIncomingContent c { s with body := s.body.withBuffer len }
      else { s with body := s.body.withBuffer len }) := by
  have hregular := hbefore.body.withBuffer herr htimer hfits.1
  have hpending : (s.body.withBuffer len).pendingInFlight ≤ s.body.pendingInFlight := Nat.sub_le _ _
  by_cases hout : s.outstanding = []
  · have hw := h.waiting hbefore hout
    have hnext : Before { s with body := s.body.withBuffer len } :=
      hbefore.with_body hregular hw.notIgnored
    split
    · exact orderly_consume_waiting hnext hw.notWriting herr hpaused hw.listener hw.tasks hw.created hout
    · next hless =>
        refine .of_nil hout (.inl ⟨hnext, hw.notWriting, herr, fun hzero => hless ?_, hpaused, hw.listener,
          hw.tasks, hw.created⟩)
        simp [hw.listener, show s.body.pendingInFlight - len = 0 from hzero]
  · obtain ⟨op, hop⟩ := exists_mem_of_ne_nil _ hout
    have hcall := h.call hop
    have hat := (orderly_singleton hcall).mp h
    have hnot := h.not_cleanup hbefore hop
    have hat' := hat.with_body hnot hregular rfl rfl rfl hpending
    split
    · next hcalled =>
        cases op with
        | write => exact orderly_consume_writing hat' hcall
        | saveMetadata => exact absurd hat.pending hmore
        | cleanup k => exact absurd rfl (hnot k)
        | _ => simp [hat.1.listener] at hcalled
    · exact .of_call hcall hat'

/-- **Data that fits keeps the order.** -/
theorem orderly_onData {len : Nat} {memoryAboveThreshold : Bool}
    (hpaused : s.body.isPaused = false) (hpending : s.body.pendingInFlight ≠ 0)
    (hok : Expected c s (.data len memoryAboveThreshold)) :
    Orderly c (onData c s len memoryAboveThreshold) := by
  obtain ⟨t, ht⟩ : ∃ t, t = { s with body := { s.body with readTimer := false } } := ⟨_, rfl⟩
  have hstopped : Orderly c t := ht ▸ orderly_stopTimer h
  have hok' : Expected c t (.data len memoryAboveThreshold) := by
    rw [ht]
    exact hok
  have htimer : t.body.readTimer = false := by rw [ht]
  have hpaused' : t.body.isPaused = false := by rw [ht]; exact hpaused
  have hpending' : t.body.pendingInFlight ≠ 0 := by rw [ht]; exact hpending
  unfold onData
  rw [← ht]
  dsimp only
  rcases before_or_after hstopped with hbefore | ha
  · rw [if_neg (by simp [hbefore.notIgnored])]
    obtain ⟨hmem, hfits⟩ : memoryAboveThreshold = true ∧
        (t.body.readError.isSome ∨ t.body.Fits c.toBodyConfig len) := by
      rcases hok' with hignored | hok'
      · rw [hbefore.notIgnored] at hignored
        cases hignored
      · exact hok'
    subst hmem
    cases herr : t.body.readError with
    | some e =>
      -- the client is not read any more
      have hsome : t.body.readError.isSome := by simp [herr]
      rw [notifyIncomingData_dropped hsome]
      dsimp only
      rw [if_neg (by simp), notified_of_readError hsome]
      exact hstopped
    | none =>
      have hfit := hfits.resolve_left (by simp [herr])
      rw [notifyIncomingData_fits herr hfit]
      dsimp only
      have harrived := orderly_arrived hstopped hbefore herr htimer hpaused' hpending' hfit
      have hframe : (if t.body.listener.any fun watermark =>
            watermark ≤ t.body.contentLength + len || t.body.pendingInFlight - len = 0 then
          consumeIncomingContent c { t with body := t.body.withBuffer len }
        else { t with body := t.body.withBuffer len }).responses = 0 ∧
          (if t.body.listener.any fun watermark =>
            watermark ≤ t.body.contentLength + len || t.body.pendingInFlight - len = 0 then
          consumeIncomingContent c { t with body := t.body.withBuffer len }
        else { t with body := t.body.withBuffer len }).body.readError = none := by
        split
        · have hconsume := consume_frame (c := c) (s := { t with body := t.body.withBuffer len }) herr
          exact ⟨hconsume.1.trans hbefore.responses, hconsume.2⟩
        · exact ⟨hbefore.responses, herr⟩
      refine orderly_notified harrived ?_ hframe.2
      rcases before_or_after harrived with hb | ha
      · exact hb
      · exact absurd (ha.responses.symm.trans hframe.1) one_ne_zero
  · rw [if_pos ha.ignored]
    exact hstopped

end

/-! ### Timeouts -/

/-- **A timeout the action is prepared for keeps the order.** -/
theorem orderly_onReadTimeout (h : Orderly c s) (htimer : s.body.readTimer = true)
    (hok : Expected c s .readTimeout) : Orderly c (onReadTimeout c s) := by
  obtain ⟨hwriting, hfetch⟩ := hok
  have hbefore : Before s := by
    rcases before_or_after h with hb | ha
    · exact hb
    · rw [ha.timer] at htimer
      cases htimer
  have hpending := (hbefore.body.timer htimer).1
  have hregular : Regular { s.body with
      readError := some .requestTimeout
      readTimer := false
      isFreezed := true } := ⟨nofun, by simp, nofun⟩
  unfold onReadTimeout triggerClientReadTimeout
  dsimp only
  by_cases hout : s.outstanding = []
  · have hw := h.waiting hbefore hout
    rw [if_pos (by simp [hw.listener]), consumeIncomingContent,
      if_pos (by simp [isS3ClientReadError])]
    dsimp only
    rw [if_pos rfl]
    exact orderly_timedOut (s := { s with body := _ }) (hbefore.with_body hregular hw.notIgnored)
      hwriting hout hw.created
  · obtain ⟨op, hop⟩ := exists_mem_of_ne_nil _ hout
    have hcall := h.call hop
    have hat := (orderly_singleton hcall).mp h
    -- nobody listens yet, and the error is found when the call is answered
    have hprep : Preparing c s → Preparing c { s with body := { s.body with
        readError := some .requestTimeout
        readTimer := false
        isFreezed := true } } := fun h =>
      ⟨h.toBefore.with_body hregular h.notIgnored, h.notWriting, h.listener, h.pending⟩
    cases op with
    | fetchInfo => exact absurd hop hfetch
    | write => exact absurd hwriting (by simp [hat.writing])
    | saveMetadata => exact absurd hat.pending hpending
    | cleanup k => exact absurd hat.1.responses (by simp [hbefore.responses])
    | createObject | loadExtendedMetadata | putProbableRecords =>
      rw [if_neg (by simp [hat.1.listener])]
      exact .of_call hcall ⟨hprep hat.1, hat.2⟩

/-! ### Runs -/

/-- **Every event the action is prepared for keeps the order.** -/
theorem orderly_step (hvalid : c.requestValid = true) (s : State) (e : Event) (s' : State)
    (h : Orderly c s) (hok : Expected c s e) (hstep : step c s e = some s') : Orderly c s' := by
  cases e with
  | data len memoryAboveThreshold =>
    simp only [step] at hstep
    split at hstep
    · cases hstep
    · next hgo =>
        simp only [Bool.or_eq_true, not_or, decide_eq_true_eq] at hgo
        cases hstep
        exact orderly_onData h (by simpa using hgo.1) hgo.2 hok
  | readTimeout =>
    simp only [step] at hstep
    split at hstep
    · next htimer =>
        cases hstep
        exact orderly_onReadTimeout h htimer hok
    · cases hstep
  | answer op result isMemoryEnough =>
    simp only [step] at hstep
    split at hstep
    · next hmem =>
        have hop : op ∈ s.outstanding := by simpa using hmem
        have hcall := h.call hop
        have hat := (orderly_singleton hcall).mp h
        cases hstep
        have herase : s.outstanding.erase op = [] := by simp [hcall]
        refine orderly_answered hvalid (hat.with_calls _) herase ?_
        cases op <;> cases result <;> cases isMemoryEnough <;> exact hok
    · cases hstep

/-- **An upload is answered once and never stalls, as long as the action meets only what it is prepared
for.** -/
theorem answers_once (hvalid : c.requestValid = true)
    (h : Runs.Reachable (step c) (Expected c) (start c) s) : Answers s := by
  have horderly : Orderly c s :=
    Runs.Reachable.invariant (orderly_start hvalid) (orderly_step hvalid) h
  exact horderly.answers

end Upload

/-- An upload of two buffers, one in each write. -/
def sampleUpload : UploadConfig where
  dataLength := 8192
  sizeOfEachEvbuf := 4096
  readAheadMultiple := 1
  readAheadMultiple_pos := Nat.one_pos
  motrWritePayloadSize := 4096
  motrWritePayloadSize_pos := by decide
  fetches := 1
  requestValid := true
  md5Matches := true
  oldObjectExtended := false
  hasOldObject := false
  hasOldRecords := false
  oldObjects := 0
  delayedDelete := false

/-- The second buffer arrives while the first is being written, and everything succeeds. -/
theorem answers_once_twoBuffers :
    sampleUpload.requestValid = true ∧
      ∃ s, Runs.Reachable (step sampleUpload) (Expected sampleUpload) (start sampleUpload) s ∧
        s.responses = 1 ∧ s.done = true ∧ Answers s := by
  have h₀ : Runs.Reachable (step sampleUpload) (Expected sampleUpload) (start sampleUpload)
      (start sampleUpload) := .start
  have h₁ := h₀.step (.answer .fetchInfo .ok true) rfl rfl
  have h₂ := h₁.step (.answer .createObject .ok true) (.inl rfl) rfl
  have h₃ := h₂.step (.answer .putProbableRecords .ok true) rfl rfl
  have h₄ := h₃.step (.data 4096 true) (.inr ⟨rfl, .inr ⟨by decide, .inr rfl⟩⟩) rfl
  have h₅ := h₄.step (.data 4096 true) (.inr ⟨rfl, .inr ⟨by decide, .inr rfl⟩⟩) rfl
  have h₆ := h₅.step (.answer .write .ok true) (fun h => Bool.noConfusion h) rfl
  have h₇ := h₆.step (.answer .write .ok true) (fun h => Bool.noConfusion h) rfl
  have h₈ := h₇.step (.answer .saveMetadata .ok true) trivial rfl
  have h₉ := h₈.step (.answer (.cleanup 0) .ok true) trivial rfl
  have h₁₀ := h₉.step (.answer (.cleanup 0) .ok true) trivial rfl
  exact ⟨rfl, _, h₁₀, rfl, rfl, answers_once rfl h₁₀⟩

/-- The client is too slow while the first buffer is being written: it is answered, and once more when
the write is. -/
theorem not_answers_timeoutDuringWrite :
    ∃ s, Runs.Reachable (step sampleUpload) (fun _ _ => True) (start sampleUpload) s ∧
      s.responses = 2 ∧ ¬ Answers s := by
  have h₀ : Runs.Reachable (step sampleUpload) (fun _ _ => True) (start sampleUpload)
      (start sampleUpload) := .start
  have h := Runs.reachable_of_run
    [.answer .fetchInfo .ok true, .answer .createObject .ok true,
      .answer .putProbableRecords .ok true, .data 4096 true, .readTimeout, .answer .write .ok true]
    h₀ (by simp [Runs.AllOk]) rfl
  exact ⟨_, h, rfl, fun ha => absurd ha.once (by decide)⟩

end S3PutObjectAction

end CortxS3
