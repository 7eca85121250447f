/-
What the initiation of a multipart upload leaves and answers.

`Sound` says what is asked of a state of a run.  The invariant behind it (`Stage`) says, for each
call the action may be waiting for, what has been made so far and which tasks are left.  Each task
is looked at once, from the last one to the first (`comes_send`, …), and the handlers of the calls
lead back to the tasks.

Three events spoil a run, and at once (`spoilt_step`).  A part index that could not be created is
answered by no one unless the call had not been launched.  A shutdown that is seen when the metadata
of the upload has just been saved runs into the assertion of the cleanup.  And where the metadata of
the bucket names no index of the objects, there is no metadata of the object to look at.
-/
import CortxS3.Server.PostMultipartObjectAction
import CortxS3.Lib.Runs

namespace CortxS3

open Option (some.injEq)
open List

namespace S3PostMultipartObjectAction

variable {r : Request} {e : Event} {s s' : State}

/-! ### What is asked of a run -/

/-- No fault, `done()` called once at the end and not before, one response by then if the client has
stayed, an upload id only for what is there, and nothing half-made. -/
structure Sound (s : State) : Prop where
  alive : s.fault = none
  atEnd : s.phase = .idle → s.doneCalls = 1
  before : s.phase ≠ .idle → s.doneCalls = 0
  once : s.responses.length ≤ 1
  answered : s.phase = .idle → s.clientConnected = true → s.responses.length = 1
  uploadId : Response.uploadId ∈ s.responses → s.metadata = true ∧ s.partIndex = true
  removed : s.phase = .idle → s.metadata = false → s.removalFailed = false → s.partIndex = false

/-- The tasks go on to where the metadata of the object is looked at. -/
def GoesOn (r : Request) (s : State) (e : Event) : Prop :=
  s.clientConnected = true ∧ e.clientConnected = true ∧ e.shuttingDown = false ∧
    (r.xAmzTagging = [] ∨ r.validTags r.xAmzTagging = true)
deriving Decidable

/-- The metadata of the bucket names the index of the uploads, but not those of the objects. -/
def Corrupt (r : Request) : Prop := r.bucket.NoLists ∧ r.bucket.multipartIndexOid ≠ {}
deriving Decidable

/-- The events that do not spoil a run. -/
def Spares (r : Request) (s : State) (e : Event) : Prop :=
  match s.phase with
  | .loadBucketMetadata => e.result = .success → r.authDisabled = true → GoesOn r s e → ¬ Corrupt r
  | .checkAuthorization => e.result = .success → GoesOn r s e → ¬ Corrupt r
  -- the index is there in the end, or its creation has not been launched
  | .createPartIndex => s.clientConnected = true → e.clientConnected = true →
      e.result = .success ∨ e.result = .failedToLaunch ∨
        e.result = .exists ∧ s.collisionAttemptCount < maxCollisionRetryCount
  | .saveMetadata => e.result = .success → e.shuttingDown = false
  | _ => True

instance instDecidableSpares (r : Request) (s : State) (e : Event) : Decidable (Spares r s e) := by
  unfold Spares
  cases s.phase <;> infer_instance

/-! ### What has been made so far -/

/-- Nothing has gone wrong, and nothing has been answered. -/
structure Running (s : State) : Prop where
  responses : s.responses = []
  doneCalls : s.doneCalls = 0
  fault : s.fault = none
  error : s.error = none
  scheduled : s.isResponseScheduled = false
  rollback : s.rollbackStarted = false
  removal : s.removalFailed = false
  listed : s.rollbackListed = s.partIndex

/-- Nothing has been made. -/
structure Unmade (s : State) : Prop extends Running s where
  partIndex : s.partIndex = false
  metadata : s.metadata = false
  unsaved : s.objectMultipartMetadata ≠ some .saved

/-- What `Running` is said of. -/
def State.course (s : State) :=
  (s.responses, s.doneCalls, s.fault, s.error, s.isResponseScheduled, s.rollbackStarted,
    s.removalFailed, s.rollbackListed, s.partIndex)

theorem Running.of_eq {t : State} (hs : Running s) (h : t.course = s.course) : Running t := by
  simp only [State.course, Prod.mk.injEq] at h
  obtain ⟨hresponses, hdone, hfault, herror, hscheduled, hroll, hremoval, hlisted, hindex⟩ := h
  exact ⟨hresponses.trans hs.responses, hdone.trans hs.doneCalls, hfault.trans hs.fault,
    herror.trans hs.error, hscheduled.trans hs.scheduled, hroll.trans hs.rollback,
    hremoval.trans hs.removal, hlisted.trans (hs.listed.trans hindex.symm)⟩

theorem Unmade.of_eq {t : State} (hs : Unmade s) (h : t.course = s.course)
    (hmeta : t.metadata = s.metadata) (hunsaved : t.objectMultipartMetadata ≠ some .saved) :
    Unmade t := by
  refine ⟨hs.toRunning.of_eq h, ?_, hmeta.trans hs.metadata, hunsaved⟩
  simp only [State.course, Prod.mk.injEq] at h
  exact h.2.2.2.2.2.2.2.2.trans hs.partIndex

/-- What there is to say about the answer when the rollback begins. -/
structure Answered (s : State) : Prop where
  doneCalls : s.doneCalls = 0
  fault : s.fault = none
  removal : s.removalFailed = false
  once : s.responses.length ≤ 1
  answered : s.clientConnected = true → s.responses.length = 1
  noUploadId : Response.uploadId ∉ s.responses

/-- The tasks from the look at the state of the bucket on. -/
def tasksFromState : List Task :=
  [.checkBucketObjectState, .createPartMetaIndex, .saveUploadMetadata, .sendResponseToS3Client]

def tasksFromTags (r : Request) : List Task :=
  (if r.xAmzTagging = [] then [] else [.validateXAmzTaggingIfPresent]) ++ tasksFromState

def tasksFromAuthorization (r : Request) : List Task :=
  (if r.authDisabled then [] else [.setAuthorizationMeta, .checkAuthorization]) ++ tasksFromTags r

theorem setupSteps_eq (r : Request) : setupSteps r = .loadMetadata :: tasksFromAuthorization r := by
  unfold setupSteps tasksFromAuthorization tasksFromTags tasksFromState
  simp

/-- The metadata of the bucket has been loaded, and that of the object if there is an index. -/
structure Loaded (r : Request) (s : State) : Prop extends Unmade s where
  bucket : s.bucketMetadata = .present
  object : s.objectMetadata = none ↔ r.bucket.NoLists

/-- What holds while the action waits. -/
def Stage (r : Request) (s : State) : Prop :=
  match s.phase with
  | .start => Unmade s ∧ s.taskList = setupSteps r ∧ s.objectMetadata = none
  | .loadBucketMetadata =>
    Unmade s ∧ s.taskList = tasksFromAuthorization r ∧ s.objectMetadata = none
  | .loadObjectMetadata =>
    Unmade s ∧ s.taskList = tasksFromAuthorization r ∧ s.bucketMetadata = .present ∧
      ¬ r.bucket.NoLists
  | .loadExtendedMetadata => Loaded r s ∧ s.taskList = tasksFromAuthorization r ∧
      ¬ r.bucket.NoLists
  | .checkAuthorization => Loaded r s ∧ s.taskList = tasksFromTags r
  | .createPartIndex => Unmade s ∧ s.taskList = [.saveUploadMetadata, .sendResponseToS3Client]
  | .saveMetadata => Running s ∧ s.taskList = [.sendResponseToS3Client] ∧
      s.partIndex = true ∧ s.partMetadata = some .storeCreated ∧ s.metadata = false ∧
        s.objectMultipartMetadata ≠ some .saved
  | .removePartIndex => Answered s
  | .idle => Sound s

/-- How many calls are left at most. -/
def callsLeft (s : State) : Nat :=
  match s.phase with
  | .start => maxCollisionRetryCount + 8
  | .loadBucketMetadata => maxCollisionRetryCount + 7
  | .loadObjectMetadata => maxCollisionRetryCount + 6
  | .loadExtendedMetadata => maxCollisionRetryCount + 5
  | .checkAuthorization => maxCollisionRetryCount + 4
  | .createPartIndex => maxCollisionRetryCount - s.collisionAttemptCount + 3
  | .saveMetadata => 2
  | .removePartIndex => 1
  | .idle => 0

theorem callsLeft_pos (h : s.phase ≠ .idle) : 0 < callsLeft s := by
  unfold callsLeft
  cases hphase : s.phase with
  | idle => exact absurd hphase h
  | _ => exact Nat.succ_pos _

/-- A state the action may come to with at most so many calls left. -/
structure Comes (r : Request) (n : Nat) (s : State) : Prop where
  stage : Stage r s
  left : callsLeft s ≤ n

theorem Comes.mono {n n' : Nat} (h : Comes r n s) (hle : n ≤ n') : Comes r n' s :=
  ⟨h.stage, h.left.trans hle⟩

theorem Stage.sound (h : Stage r s) : Sound s := by
  unfold Stage at h
  have hrunning : Running s → s.phase ≠ .idle → Sound s := by
    intro hs hphase
    refine ⟨hs.fault, fun hidle => absurd hidle hphase, fun _ => hs.doneCalls, ?_,
      fun hidle => absurd hidle hphase, ?_, fun hidle => absurd hidle hphase⟩
    · rw [hs.responses]
      exact Nat.zero_le 1
    · rw [hs.responses]
      intro hmem
      cases hmem
  split at h
  case h_1 hphase | h_2 hphase | h_3 hphase | h_4 hphase | h_5 hphase | h_6 hphase =>
    exact hrunning h.1.toRunning (by rw [hphase]; decide)
  case h_7 hphase => exact hrunning h.1 (by rw [hphase]; decide)
  case h_8 hphase =>
    have hne : s.phase ≠ .idle := by rw [hphase]; decide
    exact ⟨h.fault, fun hidle => absurd hidle hne, fun _ => h.doneCalls, h.once,
      fun hidle => absurd hidle hne, fun hmem => absurd hmem h.noUploadId,
      fun hidle => absurd hidle hne⟩
  case h_9 => exact h

/-! ### The end -/

theorem sound_done (hs : Answered s) (hremoved : s.partIndex = false) : Sound (done s) := by
  refine ⟨hs.fault, fun _ => ?_, fun hne => absurd rfl hne, hs.once, fun _ => hs.answered,
    fun hmem => absurd hmem hs.noUploadId, fun _ _ _ => hremoved⟩
  show s.doneCalls + 1 = 1
  rw [hs.doneCalls]

theorem comes_rollbackStart (hs : Answered s) (hroll : s.rollbackStarted = false)
    (hlisted : s.rollbackListed = s.partIndex) : Comes r 1 (rollbackStart s) := by
  unfold rollbackStart
  rw [hroll, if_neg (by simp)]
  by_cases hp : s.rollbackListed = true
  · rw [if_pos hp]
    exact ⟨⟨hs.doneCalls, hs.fault, hs.removal, hs.once, hs.answered, hs.noUploadId⟩, Nat.le_refl 1⟩
  · rw [if_neg hp]
    have hremoved : s.partIndex = false := by
      rw [← hlisted]
      simpa using hp
    refine ⟨sound_done (s := { s with rollbackStarted := true }) ?_ hremoved, Nat.zero_le 1⟩
    exact ⟨hs.doneCalls, hs.fault, hs.removal, hs.once, hs.answered, hs.noUploadId⟩

/-- **An error is answered, and what has been made is rolled back.** -/
theorem comes_sendResponse_error (hs : Running s)
    (hunsaved : s.objectMultipartMetadata ≠ some .saved)
    (scheduled : Bool) (code : String) :
    Comes r 1 (sendResponseToS3Client { s with
      isResponseScheduled := scheduled
      error := some code }) := by
  unfold sendResponseToS3Client
  rw [if_pos (Or.inr (by simp))]
  obtain ⟨t, ht⟩ : ∃ t : State, t = { s with
    isResponseScheduled := scheduled
    error := some code } := ⟨_, rfl⟩
  have hconnected : t.clientConnected = s.clientConnected := by rw [ht]
  have hresponses : ((respond t (.error (t.error.getD ""))).responses) =
      if t.clientConnected then [.error (t.error.getD "")] else [] := by
    unfold respond
    by_cases hc : t.clientConnected = true
    · rw [if_pos hc, if_pos hc]
      simp [ht, hs.responses]
    · rw [if_neg hc, if_neg hc]
      simp [ht, hs.responses]
  have hfields : ∀ response,
      (respond t response).objectMultipartMetadata = s.objectMultipartMetadata ∧
      (respond t response).rollbackStarted = false ∧
      (respond t response).rollbackListed = (respond t response).partIndex ∧
      (respond t response).doneCalls = 0 ∧ (respond t response).fault = none ∧
      (respond t response).removalFailed = false ∧
      (respond t response).clientConnected = t.clientConnected := by
    intro response
    unfold respond
    split <;> simp [ht, hs.rollback, hs.listed, hs.doneCalls, hs.fault, hs.removal]
  obtain ⟨hmeta, hroll, hlisted, hdone, hfault, hremoval, hc⟩ := hfields (.error (t.error.getD ""))
  rw [← ht]
  unfold startcleanup
  rw [if_neg (by rw [hmeta]; exact hunsaved)]
  refine comes_rollbackStart ⟨hdone, hfault, hremoval, ?_, ?_, ?_⟩ hroll hlisted
  · rw [hresponses]
    split <;> simp
  · intro hconn
    rw [hresponses, if_pos (hc ▸ hconn)]
    rfl
  · rw [hresponses]
    split <;> simp

theorem comes_respondError (hs : Running s) (hunsaved : s.objectMultipartMetadata ≠ some .saved)
    (code : String) : Comes r 1 (respondError s code) :=
  comes_sendResponse_error hs hunsaved s.isResponseScheduled code

theorem comes_rollbackForShutdown (hs : Running s)
    (hunsaved : s.objectMultipartMetadata ≠ some .saved) : Comes r 1 (rollbackForShutdown s) := by
  unfold rollbackForShutdown
  rw [hs.scheduled, if_neg (by simp)]
  exact comes_sendResponse_error hs hunsaved true _

theorem Running.answered_of_gone (hs : Running s) (hgone : s.clientConnected ≠ true) :
    Answered s := by
  refine ⟨hs.doneCalls, hs.fault, hs.removal, ?_, fun hc => absurd hc hgone, ?_⟩
  · rw [hs.responses]
    exact Nat.zero_le 1
  · rw [hs.responses]
    exact not_mem_nil

theorem comes_rollback_of_gone (hs : Running s) (hgone : s.clientConnected ≠ true) :
    Comes r 1 (rollbackStart s) :=
  comes_rollbackStart (hs.answered_of_gone hgone) hs.rollback hs.listed

/-! ### The tasks, from the last one to the first -/

theorem comes_next {task : Task} {rest : List Task} {n : Nat} (hs : Running s)
    (hunsaved : s.objectMultipartMetadata ≠ some .saved) (hn : 1 ≤ n)
    (htask : e.shuttingDown = false → s.clientConnected = true →
      Comes r n (next r e (task :: rest) s)) : Comes r n (next r e (task :: rest) s) := by
  by_cases hshut : e.shuttingDown = true
  · unfold next
    rw [if_pos hshut]
    exact (comes_rollbackForShutdown hs hunsaved).mono hn
  by_cases hc : s.clientConnected = true
  · exact htask (by simpa using hshut) hc
  · unfold next
    rw [if_neg hshut, if_neg hc]
    exact (comes_rollback_of_gone hs hc).mono hn

/-- The metadata of the upload is saved. -/
structure Saved (s : State) : Prop extends Running s where
  partIndex : s.partIndex = true
  created : s.partMetadata = some .storeCreated
  metadata : s.metadata = true
  saved : s.objectMultipartMetadata = some .saved

theorem comes_send (hs : Saved s) (hshut : e.shuttingDown = false) :
    Comes r 1 (next r e [.sendResponseToS3Client] s) := by
  by_cases hc : s.clientConnected = true
  · have hnext : next r e [.sendResponseToS3Client] s =
        sendResponseToS3Client { s with taskList := [] } := by
      unfold next
      rw [if_neg (by simp [hshut]), if_pos hc]
    have hsend : sendResponseToS3Client { s with taskList := [] } =
        startcleanup { s with
          taskList := []
          responses := [.uploadId] } := by
      unfold sendResponseToS3Client respond
      simp [hs.scheduled, hs.error, hs.saved, hs.created, hc, hs.responses]
    rw [hnext, hsend]
    unfold startcleanup
    rw [if_pos hs.saved, if_pos hs.error]
    refine ⟨⟨hs.fault, fun _ => ?_, fun hne => absurd rfl hne, Nat.le_refl 1, fun _ _ => rfl,
      fun _ => ⟨hs.metadata, hs.partIndex⟩, fun _ hmeta => ?_⟩, Nat.zero_le 1⟩
    · show s.doneCalls + 1 = 1
      rw [hs.doneCalls]
    · exact absurd (hs.metadata.symm.trans hmeta) (by decide)
  · unfold next
    rw [if_neg (by simp [hshut]), if_neg hc]
    exact comes_rollback_of_gone hs.toRunning hc

theorem comes_save (hs : Running s) (hindex : s.partIndex = true)
    (hcreated : s.partMetadata = some .storeCreated) (hmeta : s.metadata = false)
    (hunsaved : s.objectMultipartMetadata ≠ some .saved) :
    Comes r 2 (next r e [.saveUploadMetadata, .sendResponseToS3Client] s) := by
  refine comes_next hs hunsaved (by decide) fun hshut hc => ?_
  unfold next
  rw [if_neg (by simp [hshut]), if_pos hc]
  exact ⟨⟨hs.of_eq rfl, rfl, hindex, hcreated, hmeta, hunsaved⟩, Nat.le_refl 2⟩

theorem comes_create (hs : Unmade s) :
    Comes r (maxCollisionRetryCount + 3)
      (next r e [.createPartMetaIndex, .saveUploadMetadata, .sendResponseToS3Client] s) := by
  refine comes_next hs.toRunning hs.unsaved (by decide) fun hshut hc => ?_
  unfold next
  rw [if_neg (by simp [hshut]), if_pos hc]
  refine ⟨⟨hs.of_eq rfl rfl hs.unsaved, rfl⟩, ?_⟩
  show maxCollisionRetryCount - s.collisionAttemptCount + 3 ≤ _
  omega

theorem comes_state (hs : Loaded r s)
    (hsafe : s.clientConnected = true → e.shuttingDown = false → ¬ Corrupt r) :
    Comes r (maxCollisionRetryCount + 3) (next r e tasksFromState s) := by
  refine comes_next hs.toRunning hs.unsaved (by decide) fun hshut hc => ?_
  unfold next
  rw [if_neg (by simp [hshut]), if_pos hc]
  simp only
  obtain ⟨t, ht⟩ : ∃ t : State, t = { s with
    taskList := [.createPartMetaIndex, .saveUploadMetadata, .sendResponseToS3Client]
    bucketMetadata := .present
    objectMultipartMetadata := some .empty } := ⟨_, rfl⟩
  have hunmade : Unmade t := by
    rw [ht]
    exact hs.toUnmade.of_eq rfl rfl (by simp)
  have herror : ∀ code, Comes r (maxCollisionRetryCount + 3) (respondError t code) := fun code =>
    (comes_respondError hunmade.toRunning hunmade.unsaved code).mono (by decide)
  unfold checkBucketObjectState
  simp only [hs.bucket]
  rw [← ht]
  by_cases hmulti : r.bucket.multipartIndexOid = {}
  · rw [if_pos hmulti]
    exact herror _
  · rw [if_neg hmulti]
    have hsome : s.objectMetadata ≠ none := fun hnone =>
      hsafe hc hshut ⟨hs.object.mp hnone, hmulti⟩
    cases hobj : s.objectMetadata with
    | none => exact absurd hobj hsome
    | some state =>
      cases state with
      | present | missing => exact comes_create hunmade
      | empty | saved | invalid | failedToLaunch | failed => exact herror _

theorem Loaded.of_eq {t : State} (hs : Loaded r s) (h : t.course = s.course)
    (h' : (t.metadata, t.objectMultipartMetadata, t.bucketMetadata, t.objectMetadata) =
      (s.metadata, s.objectMultipartMetadata, s.bucketMetadata, s.objectMetadata)) :
    Loaded r t := by
  simp only [Prod.mk.injEq] at h'
  obtain ⟨hmeta, hmulti, hbucket, hobject⟩ := h'
  exact ⟨hs.toUnmade.of_eq h hmeta (hmulti ▸ hs.unsaved), hbucket.trans hs.bucket,
    hobject ▸ hs.object⟩

theorem comes_tags (hs : Loaded r s)
    (hsafe : s.clientConnected = true → e.shuttingDown = false →
      (r.xAmzTagging = [] ∨ r.validTags r.xAmzTagging = true) → ¬ Corrupt r) :
    Comes r (maxCollisionRetryCount + 3) (next r e (tasksFromTags r) s) := by
  unfold tasksFromTags
  by_cases hnone : r.xAmzTagging = []
  · rw [if_pos hnone, nil_append]
    exact comes_state hs fun hc hshut => hsafe hc hshut (Or.inl hnone)
  rw [if_neg hnone, singleton_append]
  refine comes_next hs.toRunning hs.unsaved (by decide) fun hshut hc => ?_
  unfold next
  rw [if_neg (by simp [hshut]), if_pos hc]
  simp only
  by_cases hvalid : r.validTags r.xAmzTagging = true
  · rw [if_pos hvalid]
    exact comes_state (hs.of_eq rfl rfl) fun hc hshut => hsafe hc hshut (Or.inr hvalid)
  · rw [if_neg hvalid]
    have htasks : Running { s with taskList := tasksFromState } := hs.toRunning.of_eq rfl
    exact (comes_respondError htasks hs.unsaved _).mono (Nat.succ_le_succ (Nat.zero_le _))

theorem comes_authorization (hs : Loaded r s)
    (hsafe : r.authDisabled = true → s.clientConnected = true → e.shuttingDown = false →
      (r.xAmzTagging = [] ∨ r.validTags r.xAmzTagging = true) → ¬ Corrupt r) :
    Comes r (maxCollisionRetryCount + 4) (next r e (tasksFromAuthorization r) s) := by
  unfold tasksFromAuthorization
  by_cases hauth : r.authDisabled = true
  · rw [if_pos hauth, nil_append]
    exact (comes_tags hs (hsafe hauth)).mono (Nat.le_succ _)
  rw [if_neg hauth]
  show Comes r _ (next r e (.setAuthorizationMeta :: .checkAuthorization :: tasksFromTags r) s)
  refine comes_next hs.toRunning hs.unsaved (by decide) fun hshut hc => ?_
  have hnext : next r e (.setAuthorizationMeta :: .checkAuthorization :: tasksFromTags r) s =
      { s with
        phase := .checkAuthorization
        taskList := tasksFromTags r } := by
    simp [next, hshut, hc]
  rw [hnext]
  exact ⟨⟨hs.of_eq rfl rfl, rfl⟩, Nat.le_refl _⟩

/-! ### What a call comes to -/

theorem comes_start (hs : Unmade s) (htasks : s.taskList = setupSteps r)
    (hobject : s.objectMetadata = none) : Comes r (maxCollisionRetryCount + 7) (start e s) := by
  unfold start
  by_cases hshut : e.shuttingDown = true
  · rw [if_pos hshut]
    exact (comes_rollbackForShutdown hs.toRunning hs.unsaved).mono (by decide)
  · rw [if_neg hshut]
    refine ⟨⟨hs.of_eq rfl rfl hs.unsaved, ?_, hobject⟩, Nat.le_refl _⟩
    show s.taskList.tail = _
    rw [htasks, setupSteps_eq]
    rfl

theorem comes_bucketMetadataLoaded (hs : Unmade s) (htasks : s.taskList = tasksFromAuthorization r)
    (hobject : s.objectMetadata = none)
    (hsafe : e.result = .success → r.authDisabled = true → s.clientConnected = true →
      e.shuttingDown = false → (r.xAmzTagging = [] ∨ r.validTags r.xAmzTagging = true) →
        ¬ Corrupt r) : Comes r (maxCollisionRetryCount + 6) (bucketMetadataLoaded r e s) := by
  have herror : ∀ state code, Comes r (maxCollisionRetryCount + 6)
      (respondError { s with bucketMetadata := state } code) := by
    intro state code
    have hstate : Running { s with bucketMetadata := state } := hs.toRunning.of_eq rfl
    exact (comes_respondError hstate hs.unsaved code).mono (by decide)
  unfold bucketMetadataLoaded
  cases hresult : e.result with
  | success =>
    simp only [OpResult.toMetadataState]
    by_cases hlists : r.bucket.NoLists
    · rw [if_pos hlists]
      have hloaded : Loaded r { s with bucketMetadata := .present } :=
        ⟨hs.of_eq rfl rfl hs.unsaved, rfl, iff_of_true hobject hlists⟩
      have hcomes := comes_authorization hloaded (hsafe hresult)
      rw [← htasks] at hcomes
      exact hcomes.mono (by decide)
    · rw [if_neg hlists]
      exact ⟨⟨hs.of_eq rfl rfl hs.unsaved, htasks, rfl, hlists⟩, Nat.le_refl _⟩
  | missing | «exists» | invalid | failedToLaunch | failed => exact herror _ _

theorem comes_objectMetadataLoaded (hs : Unmade s) (htasks : s.taskList = tasksFromAuthorization r)
    (hbucket : s.bucketMetadata = .present) (hlists : ¬ r.bucket.NoLists) :
    Comes r (maxCollisionRetryCount + 5) (objectMetadataLoaded r e s) := by
  have hloaded : Loaded r { s with objectMetadata := some e.result.toMetadataState } :=
    ⟨hs.of_eq rfl rfl hs.unsaved, hbucket, iff_of_false (by simp) hlists⟩
  unfold objectMetadataLoaded
  by_cases hext : e.result = .success ∧ r.objectExtended
  · rw [if_pos hext]
    exact ⟨⟨hloaded.of_eq rfl rfl, htasks, hlists⟩, Nat.le_refl _⟩
  · rw [if_neg hext]
    have hcomes := comes_authorization (e := e) hloaded
      fun _ _ _ _ hcorrupt => hlists hcorrupt.1
    rw [← htasks] at hcomes
    exact hcomes.mono (by decide)

theorem comes_authorizationChecked (hs : Loaded r s) (htasks : s.taskList = tasksFromTags r)
    (hsafe : e.result = .success → s.clientConnected = true → e.shuttingDown = false →
      (r.xAmzTagging = [] ∨ r.validTags r.xAmzTagging = true) → ¬ Corrupt r) :
    Comes r (maxCollisionRetryCount + 3) (authorizationChecked r e s) := by
  unfold authorizationChecked
  by_cases hresult : e.result = .success
  · rw [if_pos hresult, htasks]
    exact comes_tags hs (hsafe hresult)
  · rw [if_neg hresult]
    refine ⟨sound_done ?_ ?_, Nat.zero_le _⟩
    · unfold respond
      by_cases hc : s.clientConnected = true
      · rw [if_pos hc]
        exact ⟨hs.doneCalls, hs.fault, hs.removal, by simp [hs.responses],
          fun _ => by simp [hs.responses], by simp [hs.responses]⟩
      · rw [if_neg hc]
        exact hs.toRunning.answered_of_gone hc
    · unfold respond
      split <;> exact hs.partIndex

/-- A part index that is not created is answered if the call was not launched, or if nobody waits
for an answer. -/
theorem comes_createPartMetaIndexFailed (hs : Unmade s)
    (hsafe : s.clientConnected = true → s.partMetadata = some .failedToLaunch) :
    Comes r 1 (createPartMetaIndexFailed s) := by
  unfold createPartMetaIndexFailed
  by_cases hlaunch : s.partMetadata = some .failedToLaunch
  · rw [if_pos hlaunch]
    exact comes_respondError hs.toRunning hs.unsaved _
  · rw [if_neg hlaunch]
    have hgone : s.clientConnected ≠ true := fun hc => hlaunch (hsafe hc)
    have hsend : sendResponseToS3Client s = rollbackStart s := by
      unfold sendResponseToS3Client startcleanup
      simp [hs.scheduled, hs.error, hs.unsaved]
    rw [hsend]
    exact comes_rollback_of_gone hs.toRunning hgone

theorem comes_partIndexCreated (hs : Unmade s) (hphase : s.phase = .createPartIndex)
    (htasks : s.taskList = [.saveUploadMetadata, .sendResponseToS3Client])
    (hsafe : s.clientConnected = true → e.result = .success ∨ e.result = .failedToLaunch ∨
      e.result = .exists ∧ s.collisionAttemptCount < maxCollisionRetryCount) :
    Comes r (maxCollisionRetryCount - s.collisionAttemptCount + 2) (partIndexCreated r e s) := by
  have hfailed : (s.clientConnected = true → False) →
      Comes r (maxCollisionRetryCount - s.collisionAttemptCount + 2)
        (createPartMetaIndexFailed { s with partMetadata := some .failed }) := by
    intro hgone
    have hunmade : Unmade { s with partMetadata := some .failed } := hs.of_eq rfl rfl hs.unsaved
    exact (comes_createPartMetaIndexFailed hunmade fun hc => (hgone hc).elim).mono (by omega)
  unfold partIndexCreated
  cases hresult : e.result with
  | success =>
    have hcreated : Running { s with
        partMetadata := some .storeCreated
        rollbackListed := true
        partIndex := true } :=
      ⟨hs.responses, hs.doneCalls, hs.fault, hs.error, hs.scheduled, hs.rollback, hs.removal, rfl⟩
    have hcomes := comes_save (r := r) (e := e) hcreated rfl rfl hs.metadata hs.unsaved
    rw [← htasks] at hcomes
    exact hcomes.mono (by omega)
  | «exists» =>
    show Comes r _ (handleCollision s)
    unfold handleCollision
    by_cases hlt : s.collisionAttemptCount < maxCollisionRetryCount
    · rw [if_pos hlt]
      refine ⟨?_, ?_⟩
      · show Stage r _
        unfold Stage
        simp only [hphase]
        exact ⟨hs.of_eq rfl rfl hs.unsaved, htasks⟩
      · unfold callsLeft
        simp only [hphase]
        omega
    · rw [if_neg hlt]
      refine hfailed fun hc => ?_
      have h := hsafe hc
      rw [hresult] at h
      simp [hlt] at h
  | failedToLaunch =>
    have hunmade : Unmade { s with partMetadata := some .failedToLaunch } :=
      hs.of_eq rfl rfl hs.unsaved
    have hcomes := comes_createPartMetaIndexFailed (r := r) hunmade fun _ => rfl
    exact hcomes.mono (by omega)
  | missing | invalid | failed => exact hfailed fun hc => by simpa [hresult] using hsafe hc

theorem comes_metadataSaved (hs : Running s) (htasks : s.taskList = [.sendResponseToS3Client])
    (hindex : s.partIndex = true) (hcreated : s.partMetadata = some .storeCreated)
    (hsafe : e.result = .success → e.shuttingDown = false) : Comes r 1 (metadataSaved r e s) := by
  have herror : ∀ state code, state ≠ .saved → Comes r 1
      (respondError { s with objectMultipartMetadata := some state } code) := by
    intro state code hstate
    have hfailed : Running { s with objectMultipartMetadata := some state } := hs.of_eq rfl
    exact comes_respondError hfailed (by simpa using hstate) code
  unfold metadataSaved
  cases hresult : e.result with
  | success =>
    have hsaved : Saved { s with
        objectMultipartMetadata := some .saved
        metadata := true } := ⟨hs.of_eq rfl, hindex, hcreated, rfl, rfl⟩
    have hcomes := comes_send (r := r) hsaved (hsafe hresult)
    rw [← htasks] at hcomes
    exact hcomes
  | missing | «exists» | invalid | failedToLaunch | failed => exact herror _ _ (by decide)

theorem comes_partIndexRemoved (hs : Answered s) : Comes r 0 (partIndexRemoved e s) := by
  unfold partIndexRemoved
  split
  · refine ⟨sound_done (s := { s with
      partMetadata := some .indexDeleted
      partIndex := false }) ?_ rfl, Nat.le_refl 0⟩
    exact ⟨hs.doneCalls, hs.fault, hs.removal, hs.once, hs.answered, hs.noUploadId⟩
  · refine ⟨⟨hs.fault, fun _ => ?_, fun hne => absurd rfl hne, hs.once, fun _ => hs.answered,
      fun hmem => absurd hmem hs.noUploadId, fun _ _ hremoval => ?_⟩, Nat.le_refl 0⟩
    · show s.doneCalls + 1 = 1
      rw [hs.doneCalls]
    · cases hremoval

/-! ### Runs -/

theorem sees_connected : (s.sees e).clientConnected = true ↔
    s.clientConnected = true ∧ e.clientConnected = true := by
  show (s.clientConnected && e.clientConnected) = true ↔ _
  rw [Bool.and_eq_true]

theorem Unmade.sees (hs : Unmade s) (e : Event) : Unmade (s.sees e) := hs.of_eq rfl rfl hs.unsaved

theorem Loaded.sees (hs : Loaded r s) (e : Event) : Loaded r (s.sees e) := hs.of_eq rfl rfl

/-- **An event that does not spoil the run leads on, and nearer to the end.** -/
theorem comes_step (hs : Stage r s) (hok : Spares r s e) (hstep : step r s e = some s') :
    Comes r (callsLeft s - 1) s' ∧ callsLeft s ≠ 0 := by
  have hgoes : ∀ {p : Prop}, (GoesOn r s e → p) → (s.sees e).clientConnected = true →
      e.shuttingDown = false → (r.xAmzTagging = [] ∨ r.validTags r.xAmzTagging = true) → p := by
    intro p h hc hshut htags
    exact h ⟨(sees_connected.mp hc).1, (sees_connected.mp hc).2, hshut, htags⟩
  unfold Stage at hs
  unfold Spares at hok
  unfold step at hstep
  cases hphase : s.phase with
  | start =>
    simp only [hphase, some.injEq] at hs hstep
    simp only [callsLeft, hphase]
    exact ⟨hstep ▸ comes_start (e := e) (hs.1.sees e) hs.2.1 hs.2.2, by simp⟩
  | loadBucketMetadata =>
    simp only [hphase, some.injEq] at hs hstep hok
    simp only [callsLeft, hphase]
    refine ⟨hstep ▸ comes_bucketMetadataLoaded (e := e) (hs.1.sees e) hs.2.1 hs.2.2 ?_, by simp⟩
    intro hresult hauth
    exact hgoes (hok hresult hauth)
  | loadObjectMetadata =>
    simp only [hphase, some.injEq] at hs hstep
    simp only [callsLeft, hphase]
    exact ⟨hstep ▸ comes_objectMetadataLoaded (e := e) (hs.1.sees e) hs.2.1 hs.2.2.1 hs.2.2.2, by simp⟩
  | loadExtendedMetadata =>
    simp only [hphase, some.injEq] at hs hstep
    simp only [callsLeft, hphase]
    have hcomes := comes_authorization (e := e) (hs.1.sees e)
      fun _ _ _ _ hcorrupt => hs.2.2 hcorrupt.1
    rw [← hs.2.1] at hcomes
    exact ⟨hstep ▸ hcomes, by simp⟩
  | checkAuthorization =>
    simp only [hphase, some.injEq] at hs hstep hok
    simp only [callsLeft, hphase]
    refine ⟨hstep ▸ comes_authorizationChecked (e := e) (hs.1.sees e) hs.2 ?_, by simp⟩
    intro hresult
    exact hgoes (hok hresult)
  | createPartIndex =>
    simp only [hphase, some.injEq] at hs hstep hok
    simp only [callsLeft, hphase]
    refine ⟨hstep ▸ comes_partIndexCreated (e := e) (hs.1.sees e) hphase hs.2 ?_, by simp⟩
    intro hc
    exact hok (sees_connected.mp hc).1 (sees_connected.mp hc).2
  | saveMetadata =>
    simp only [hphase, some.injEq] at hs hstep hok
    have hrunning : Running (s.sees e) := hs.1.of_eq rfl
    simp only [callsLeft, hphase]
    exact ⟨hstep ▸ comes_metadataSaved (e := e) hrunning hs.2.1 hs.2.2.1 hs.2.2.2.1 hok, by simp⟩
  | removePartIndex =>
    simp only [hphase, some.injEq] at hs hstep
    have hanswered : Answered (s.sees e) :=
      ⟨hs.doneCalls, hs.fault, hs.removal, hs.once,
        fun hc => hs.answered (sees_connected.mp hc).1, hs.noUploadId⟩
    simp only [callsLeft, hphase]
    exact ⟨hstep ▸ comes_partIndexRemoved (e := e) hanswered, by simp⟩
  | idle =>
    simp only [hphase] at hstep
    cases hstep

/-- How a run is spoilt, for good. -/
structure Spoilt (s : State) : Prop where
  idle : s.phase = .idle
  unsound : ¬ Sound s

theorem spoilt_of_fault {fault : Fault} (hidle : s.phase = .idle) (hfault : s.fault = some fault) :
    Spoilt s := by
  refine ⟨hidle, fun hsound => ?_⟩
  rw [hsound.alive] at hfault
  cases hfault

theorem spoilt_tags (hs : Loaded r s) (hcorrupt : Corrupt r) (hc : s.clientConnected = true)
    (hshut : e.shuttingDown = false)
    (htags : r.xAmzTagging = [] ∨ r.validTags r.xAmzTagging = true) :
    Spoilt (next r e (tasksFromTags r) s) := by
  have hnone : s.objectMetadata = none := hs.object.mpr hcorrupt.1
  have hstate : ∀ t : State, t.clientConnected = true → t.bucketMetadata = .present →
      t.objectMetadata = none → Spoilt (next r e tasksFromState t) := by
    intro t hc hbucket hobject
    have hfault : (next r e tasksFromState t).phase = .idle ∧
        (next r e tasksFromState t).fault = some .nullObjectMetadata := by
      unfold tasksFromState
      simp only [next, hshut, hc, checkBucketObjectState, hbucket, hobject, Bool.false_eq_true,
        if_false, if_true]
      rw [if_neg hcorrupt.2]
      exact ⟨rfl, rfl⟩
    exact spoilt_of_fault hfault.1 hfault.2
  unfold tasksFromTags
  by_cases hheader : r.xAmzTagging = []
  · rw [if_pos hheader, nil_append]
    exact hstate s hc hs.bucket hnone
  · have hnext : next r e (.validateXAmzTaggingIfPresent :: tasksFromState) s =
        next r e tasksFromState { s with taskList := tasksFromState } := by
      rw [next]
      simp [hshut, hc, htags.resolve_left hheader]
    rw [if_neg hheader, singleton_append, hnext]
    exact hstate _ hc hs.bucket hnone

theorem spoilt_createPartMetaIndexFailed (hs : Unmade s) (hc : s.clientConnected = true)
    (hlaunched : s.partMetadata ≠ some .failedToLaunch) : Spoilt (createPartMetaIndexFailed s) := by
  have hfailed : createPartMetaIndexFailed s = done { s with rollbackStarted := true } := by
    unfold createPartMetaIndexFailed sendResponseToS3Client startcleanup rollbackStart
    simp [hlaunched, hs.scheduled, hs.error, hs.unsaved, hs.rollback, hs.listed, hs.partIndex]
  rw [hfailed]
  refine ⟨rfl, fun hsound => ?_⟩
  have hone : s.responses.length = 1 := hsound.answered rfl hc
  rw [hs.responses] at hone
  cases hone

theorem spoilt_rollbackForShutdown (hs : Saved s) : Spoilt (rollbackForShutdown s) := by
  have hfault : (rollbackForShutdown s).phase = .idle ∧
      (rollbackForShutdown s).fault = some .assertion := by
    unfold rollbackForShutdown sendResponseToS3Client startcleanup respond
    by_cases hc : s.clientConnected = true
    · simp [hs.scheduled, hs.saved, hs.error, hc, fail]
    · simp [hs.scheduled, hs.saved, hs.error, hc, fail]
  exact spoilt_of_fault hfault.1 hfault.2

/-- **The other events spoil the run.** -/
theorem spoilt_step (hs : Stage r s) (hbad : ¬ Spares r s e) (hstep : step r s e = some s') :
    Spoilt s' := by
  unfold Stage at hs
  unfold Spares at hbad
  unfold step at hstep
  cases hphase : s.phase with
  | loadBucketMetadata =>
    simp only [hphase, some.injEq] at hs hstep hbad
    simp only [Classical.not_imp, not_not] at hbad
    obtain ⟨hresult, hauth, ⟨hc, hc', hshut, htags⟩, hcorrupt⟩ := hbad
    have hloaded : Loaded r { s.sees e with bucketMetadata := .present } :=
      ⟨hs.1.of_eq rfl rfl hs.1.unsaved, rfl, iff_of_true hs.2.2 hcorrupt.1⟩
    have hspoilt := spoilt_tags hloaded hcorrupt (sees_connected.mpr ⟨hc, hc'⟩) hshut htags
    have htasks : s.taskList = tasksFromTags r := by
      rw [hs.2.1]
      unfold tasksFromAuthorization
      rw [if_pos hauth, nil_append]
    rw [← htasks] at hspoilt
    have hloads : bucketMetadataLoaded r e (s.sees e) =
        next r e s.taskList { s.sees e with bucketMetadata := .present } := by
      unfold bucketMetadataLoaded
      simp only [hresult, OpResult.toMetadataState]
      rw [if_pos hcorrupt.1]
      rfl
    rw [← hstep]
    exact hloads ▸ hspoilt
  | checkAuthorization =>
    simp only [hphase, some.injEq] at hs hstep hbad
    simp only [Classical.not_imp, not_not] at hbad
    obtain ⟨hresult, ⟨hc, hc', hshut, htags⟩, hcorrupt⟩ := hbad
    have hspoilt := spoilt_tags (hs.1.sees e) hcorrupt (sees_connected.mpr ⟨hc, hc'⟩) hshut htags
    rw [← hs.2] at hspoilt
    have hchecks : authorizationChecked r e (s.sees e) = next r e s.taskList (s.sees e) := by
      unfold authorizationChecked
      rw [if_pos hresult]
      rfl
    rw [← hstep]
    exact hchecks ▸ hspoilt
  | createPartIndex =>
    simp only [hphase, some.injEq] at hs hstep hbad
    simp only [Classical.not_imp, not_or, not_and] at hbad
    obtain ⟨hc, hc', hsuccess, hlaunched, hcollision⟩ := hbad
    have hspoilt : Spoilt
        (createPartMetaIndexFailed { s.sees e with partMetadata := some .failed }) := by
      have hunmade : Unmade { s.sees e with partMetadata := some .failed } :=
        hs.1.of_eq rfl rfl hs.1.unsaved
      exact spoilt_createPartMetaIndexFailed hunmade (sees_connected.mpr ⟨hc, hc'⟩)
        (by simp)
    rw [← hstep]
    show Spoilt (partIndexCreated r e (s.sees e))
    unfold partIndexCreated
    cases hresult : e.result with
    | success => exact absurd hresult hsuccess
    | failedToLaunch => exact absurd hresult hlaunched
    | «exists» =>
      show Spoilt (handleCollision (s.sees e))
      have hnomore : ¬ (s.sees e).collisionAttemptCount < maxCollisionRetryCount :=
        hcollision hresult
      unfold handleCollision
      rw [if_neg hnomore]
      exact hspoilt
    | missing | invalid | failed => exact hspoilt
  | saveMetadata =>
    simp only [hphase, some.injEq] at hs hstep hbad
    simp only [Classical.not_imp, Bool.not_eq_false] at hbad
    have hsaved : Saved { s.sees e with
        objectMultipartMetadata := some .saved
        metadata := true } := ⟨hs.1.of_eq rfl, hs.2.2.1, hs.2.2.2.1, rfl, rfl⟩
    have hsaves : metadataSaved r e (s.sees e) = rollbackForShutdown { s.sees e with
        objectMultipartMetadata := some .saved
        metadata := true } := by
      have htasks : (s.sees e).taskList = [.sendResponseToS3Client] := hs.2.1
      unfold metadataSaved
      simp only [hbad.1, htasks]
      rw [next, if_pos hbad.2]
    rw [← hstep]
    exact hsaves ▸ spoilt_rollbackForShutdown hsaved
  | start | loadObjectMetadata | loadExtendedMetadata | removePartIndex =>
    exact absurd trivial (by simpa only [hphase] using hbad)
  | idle =>
    simp only [hphase] at hstep
    cases hstep

theorem stage_initial (r : Request) : Stage r (initial r) :=
  ⟨⟨⟨rfl, rfl, rfl, rfl, rfl, rfl, rfl, rfl⟩, rfl, rfl, by simp [initial]⟩, rfl, rfl⟩

theorem stage_of_reachable (h : Runs.Reachable (step r) (Spares r) (initial r) s) : Stage r s :=
  h.invariant (P := Stage r) (stage_initial r)
    fun _ _ _ hs hok hstep => (comes_step hs hok hstep).1.stage

theorem length_le_of_run {es : List Event} (h : Runs.run (step r) (initial r) es = some s) :
    es.length ≤ maxCollisionRetryCount + 8 := by
  refine Runs.length_le_of_run (P := fun s => Stage r s ∨ s.phase = .idle) (m := callsLeft)
    ?_ es (Or.inl (stage_initial r)) h
  rintro s e s' (hs | hidle) hstep
  · by_cases hok : Spares r s e
    · obtain ⟨hcomes, hleft⟩ := comes_step hs hok hstep
      have hle := hcomes.left
      exact ⟨Or.inl hcomes.stage, by omega⟩
    · have hidle := (spoilt_step hs hok hstep).idle
      have hphase : s.phase ≠ .idle := by
        intro hphase
        unfold step at hstep
        rw [hphase] at hstep
        cases hstep
      refine ⟨Or.inr hidle, ?_⟩
      have hzero : callsLeft s' = 0 := by
        unfold callsLeft
        rw [hidle]
      rw [hzero]
      exact callsLeft_pos hphase
  · unfold step at hstep
    simp only [hidle] at hstep
    cases hstep

/-- **A run that meets no event that spoils it does and answers what it should**, and an event that
spoils it leaves something undone or unanswered at once.  Every run ends. -/
theorem sound_of_reachable (r : Request) (s : State)
    (h : Runs.Reachable (step r) (Spares r) (initial r) s) :
    (Sound s ∧ ∀ e s', ¬ Spares r s e → step r s e = some s' → ¬ Sound s') ∧
      ∀ es s', Runs.run (step r) (initial r) es = some s' →
        es.length ≤ maxCollisionRetryCount + 8 := by
  have hs := stage_of_reachable h
  refine ⟨⟨hs.sound, ?_⟩, fun es s' hrun => length_le_of_run hrun⟩
  intro e s' hbad hstep
  exact (spoilt_step hs hbad hstep).unsound

theorem length_uploadIndexOid (b : UInt8) : (List.replicate 7 0 ++ [b]).length = 8 := by simp

def uploadIndexOid (b : UInt8) : M0Uint128 where
  uLo := ⟨List.replicate 7 0 ++ [b], length_uploadIndexOid b⟩

/-- A request for a new object, in a bucket in good order. -/
def newUpload : Request where
  authDisabled := false
  bucket :=
    { objectListIndexOid := uploadIndexOid 1
      objectsVersionListIndexOid := uploadIndexOid 2
      multipartIndexOid := uploadIndexOid 3 }
  objectExtended := false
  xAmzTagging := []
  validTags := fun _ => true

/-- The first name of the part index is taken, and the upload is initiated. -/
theorem sound_of_reachable_collision :
    ∃ s, Runs.Reachable (step newUpload) (Spares newUpload) (initial newUpload) s ∧
      s.responses = [.uploadId] ∧ s.doneCalls = 1 ∧ Sound s := by
  obtain ⟨s, hs, hfields⟩ := Option.map_eq_some_iff.mp
    (show (Runs.run (step newUpload) (initial newUpload)
      [{}, {}, { result := .missing }, {}, { result := .exists }, {}, {}]).map
        (fun s => (s.responses, s.doneCalls)) = some ([.uploadId], 1) by decide)
  rw [Prod.mk.injEq] at hfields
  have hreach : Runs.Reachable (step newUpload) (Spares newUpload) (initial newUpload) s := by
    refine Runs.reachable_of_run _ .start ?_ hs
    decide
  exact ⟨s, hreach, hfields.1, hfields.2, (sound_of_reachable newUpload s hreach).1.1⟩

/-- The part index cannot be created, and the client is left without an answer. -/
theorem not_sound_newUpload :
    ¬ ∀ (r : Request) (s : State),
      Runs.Reachable (step r) (fun _ _ => True) (initial r) s → Sound s := by
  intro hall
  obtain ⟨s, hs, hfields⟩ := Option.map_eq_some_iff.mp
    (show (Runs.run (step newUpload) (initial newUpload)
      [{}, {}, { result := .missing }, {}, { result := .failed }]).map
        (fun s => (s.phase, s.clientConnected, s.responses)) = some (.idle, true, []) by
      decide)
  rw [Prod.mk.injEq, Prod.mk.injEq] at hfields
  have hreach : Runs.Reachable (step newUpload) (fun _ _ => True) (initial newUpload) s :=
    Runs.reachable_of_run _ .start (by decide) hs
  have hone := (hall newUpload s hreach).answered hfields.1 hfields.2.1
  rw [hfields.2.2] at hone
  cases hone

end S3PostMultipartObjectAction

end CortxS3
