/-
Whether `S3PostCompleteAction` comes to its end.

The tasks that are left stand for how far the action has come, and every step on the way launches the
next call, or answers and starts the cleanup (`Stage`).  The cleanup calls `done()` as long as nothing
has been saved.  From then on its last task is the removal of the records of the new parts, of which
there are none, and that task neither goes on nor calls `done()`: the action hangs.

A client that has gone while the parts are still being read leaves the action hanging too.
-/
import CortxS3.Server.PostCompleteTasks
import CortxS3.Proofs.PostCompleteParts
import CortxS3.Proofs.ProbableDeleteRecord

namespace CortxS3

open Option (some.injEq some_ne_none)
open List

namespace S3PostCompleteAction

variable {r : Request} {s s' : State} {e : Event}

/-! ### The end, and no end -/

/-- When nothing is awaited, `done()` has been called, and it is called once. -/
structure Finishes (s : State) : Prop where
  atEnd : s.phase = .idle → s.doneCalls = 1
  before : s.phase ≠ .idle → s.doneCalls = 0

/-- Nothing is awaited, and `done()` has not been called. -/
structure Hangs (s : State) : Prop where
  idle : s.phase = .idle
  notDone : s.doneCalls = 0

structure Done (s : State) : Prop where
  idle : s.phase = .idle
  once : s.doneCalls = 1

theorem Hangs.not_finishes (h : Hangs s) : ¬ Finishes s := by
  intro hf
  have hdone := hf.atEnd h.idle
  rw [h.notDone] at hdone
  exact absurd hdone (by decide)

/-- What holds of the action until it is done. -/
structure Fresh (s : State) : Prop where
  doneCalls : s.doneCalls = 0
  newRecords : s.newPartsProbableDelRecList = []

theorem done_done (h : s.doneCalls = 0) : Done (done s) :=
  ⟨rfl, by show s.doneCalls + 1 = 1; omega⟩

/-- Nothing has been written that the cleanup would look after. -/
def Untouched (st : S3PostCompleteActionState) : Prop :=
  st = .empty ∨ st = .validationFailed ∨ st = .probableEntryRecordFailed

theorem startcleanup_done (h : s.doneCalls = 0) (hst : Untouched s.actionState) :
    Done (startcleanup r s) := by
  unfold startcleanup
  rcases hst with hst | hst | hst <;> rw [hst] <;> exact done_done h

/-- Something has been written, and the answer was no success. -/
def Touched (st : S3PostCompleteActionState) : Prop :=
  st = .probableEntryRecordSaved ∨ st = .metadataSaved ∨ st = .metadataSaveFailed

/-- **The removal of the new records neither goes on nor calls `done()`.** -/
theorem removeNewOidProbableRecord_hangs (h : Fresh s) (rest : List CleanupTask) :
    Hangs (nextInCleanup r (.removeNewOidProbableRecord :: rest) s) := by
  unfold nextInCleanup
  rw [if_pos h.newRecords]
  exact ⟨rfl, h.doneCalls⟩

theorem startcleanup_hangs (h : Fresh s) (hst : Touched s.actionState) :
    Hangs (startcleanup r s) := by
  unfold startcleanup startTasks
  rcases hst with hst | hst | hst <;> rw [hst]
  all_goals
    refine removeNewOidProbableRecord_hangs (r := r) ?_ []
    exact ⟨h.doneCalls, h.newRecords⟩

theorem sendResponseToS3Client_eq (h : s.error ≠ none ∨ s.objMetadataUpdated = false) :
    ∃ response, sendResponseToS3Client r s = startcleanup r { s with response := response } := by
  unfold sendResponseToS3Client
  cases herror : s.error with
  | some code => exact ⟨_, rfl⟩
  | none =>
    rcases h with h | h
    · exact absurd herror h
    · simp only [h]
      exact ⟨_, rfl⟩

theorem sendResponseToS3Client_done (h : s.error ≠ none ∨ s.objMetadataUpdated = false)
    (hcalls : s.doneCalls = 0) (hst : Untouched s.actionState) : Done (sendResponseToS3Client r s) := by
  obtain ⟨response, heq⟩ := sendResponseToS3Client_eq (r := r) h
  rw [heq]
  exact startcleanup_done hcalls hst

theorem respondError_done (hcalls : s.doneCalls = 0) (hst : Untouched s.actionState) (code : String) :
    Done (respondError r s code) :=
  sendResponseToS3Client_done (Or.inl (some_ne_none code)) hcalls hst

theorem respondFailure_done (hcalls : s.doneCalls = 0) (hst : Untouched s.actionState)
    (result : OpResult) : Done (respondFailure r s result) :=
  respondError_done hcalls hst _

theorem clientReadError_eq (code : String) :
    ∃ response, clientReadError r s code =
      startcleanup r { s with
        error := some code
        response := response } := by
  unfold clientReadError
  by_cases h : code = "RequestTimeout"
  · rw [if_pos h]
    exact sendResponseToS3Client_eq (Or.inl (some_ne_none code))
  · rw [if_neg h]
    exact ⟨s.response, rfl⟩

/-! ### The client -/

/-- The client is there, and its request could be read. -/
structure ClientThere (e : Event) : Prop where
  connected : e.clientConnected = true
  readable : e.clientReadError = none

theorem next_of_gone (h : ¬ ClientThere e) (task : Task) (rest : List Task) :
    ∃ error response, next r e (task :: rest) s = some (startcleanup r { s with
      error := error
      response := response }) := by
  unfold next
  cases hread : e.clientReadError with
  | some code =>
    obtain ⟨response, heq⟩ := clientReadError_eq (r := r) (s := s) code
    exact ⟨some code, response, by rw [← heq]⟩
  | none =>
    have hgone : e.clientConnected = false := by
      by_contra hc
      exact h ⟨by simpa using hc, hread⟩
    simp only [hgone]
    exact ⟨s.error, s.response, rfl⟩

theorem next_of_gone_done (h : ¬ ClientThere e) {tasks : List Task} (hne : tasks ≠ [])
    (hcalls : s.doneCalls = 0) (hst : Untouched s.actionState) (hnext : next r e tasks s = some s') :
    Done s' := by
  obtain ⟨task, rest, rfl⟩ := exists_cons_of_ne_nil hne
  obtain ⟨error, response, heq⟩ := next_of_gone (r := r) (s := s) h task rest
  rw [heq, some.injEq] at hnext
  rw [← hnext]
  exact startcleanup_done hcalls hst

theorem next_of_gone_hangs (h : ¬ ClientThere e) {tasks : List Task} (hne : tasks ≠ [])
    (hfresh : Fresh s) (hst : Touched s.actionState) (hnext : next r e tasks s = some s') :
    Hangs s' := by
  obtain ⟨task, rest, rfl⟩ := exists_cons_of_ne_nil hne
  obtain ⟨error, response, heq⟩ := next_of_gone (r := r) (s := s) h task rest
  rw [heq, some.injEq] at hnext
  rw [← hnext]
  exact startcleanup_hangs ⟨hfresh.doneCalls, hfresh.newRecords⟩ hst

/-! ### How far the action has come -/

/-- The tasks from the removal of the upload on. -/
def tasksFromRemoval : List Task :=
  [.deleteMultipartMetadata, .deletePartListIndex, .sendResponseToS3Client]

/-- The tasks behind the reading of the parts. -/
def tasksFromRecords : List Task :=
  [.addObjectOidToProbableDeadOidList, .saveMetadata] ++ tasksFromRemoval

/-- The tasks behind the authorization. -/
def tasksFromRequest : List Task :=
  [.loadAndValidateRequest, .fetchMultipartInfo, .getNextPartsInfo] ++ tasksFromRecords

/-- Nothing has been written yet. -/
structure Early (s : State) : Prop extends Fresh s where
  error : s.error = none
  notScheduled : s.isResponseScheduled = false
  empty : s.actionState = .empty
  notUpdated : s.objMetadataUpdated = false

/-- The records have been put, if there are any, and the new object has not been saved. -/
structure Unsaved (s : State) : Prop extends Fresh s where
  error : s.error = none
  notUpdated : s.objMetadataUpdated = false

/-- The new object has been saved and the client has not been answered. -/
structure Saved (s : State) : Prop extends Fresh s where
  error : s.error = none
  saved : s.actionState = .metadataSaved
  updated : s.objMetadataUpdated = true

/-- **What a state is like while the action waits for a call.** -/
def Stage (r : Request) (s : State) : Prop :=
  match s.phase with
  | .loadBucketMetadata => Early s ∧ s.taskList = (setupSteps r).tail
  | .loadObjectMetadata => Early s ∧ s.taskList = (setupSteps r).tail
  | .loadExtendedMetadata => Early s ∧ s.taskList = (setupSteps r).tail
  | .checkAuthorization => Early s ∧ s.taskList = tasksFromRequest
  | .listenForIncomingData => Early s ∧ s.taskList = tasksFromRequest.tail
  | .loadMultipartMetadata => Early s ∧ s.taskList = tasksFromRequest.tail.tail
  | .nextKeyval => Early s ∧ s.taskList = tasksFromRecords
  | .putProbableRecords => Early s ∧ s.taskList = tasksFromRecords.tail
  | .putPartialKeyval _ => Early s ∧ s.taskList = tasksFromRecords.tail
  | .saveObjectMetadata => Unsaved s ∧ s.taskList = tasksFromRemoval
  | .removeMultipartMetadata => Saved s ∧ s.taskList = tasksFromRemoval.tail
  | .removePartIndex => Saved s ∧ s.taskList = tasksFromRemoval.tail.tail
  | .putOldRecords =>
    Fresh s ∧ s.cleanupTaskList =
      [.deleteOldObject, .addOidForParallelLeakCheck, .removeNewOidProbableRecord]
  | .putLeakCheckRecord => Fresh s ∧ s.cleanupTaskList = [.removeNewOidProbableRecord]
  | .deleteNewRecords => False
  | .idle => s.doneCalls = 1
  | _ =>
    Fresh s ∧ s.cleanupTaskList = [.addOidForParallelLeakCheck, .removeNewOidProbableRecord]

theorem Done.stage (h : Done s) : Stage r s := by
  unfold Stage
  rw [h.idle]
  exact h.once

theorem Stage.finishes (h : Stage r s) : Finishes s := by
  unfold Stage at h
  constructor
  · intro hidle
    rw [hidle] at h
    exact h
  · intro hne
    cases hphase : s.phase <;> rw [hphase] at h <;> first
      | exact absurd hphase hne
      | exact h.elim
      | exact h.1.doneCalls

/-! ### The next task -/

section Next

variable (h : ClientThere e) (rest : List Task)
include h

theorem next_fetchMultipartInfo : next r e (.fetchMultipartInfo :: rest) s = some { s with
    taskList := rest
    phase := .loadMultipartMetadata } := by
  rw [next, h.readable]
  simp only [h.connected, if_pos]

theorem next_getNextPartsInfo : next r e (.getNextPartsInfo :: rest) s =
    some (getNextPartsInfoTask r e { s with taskList := rest }) := by
  rw [next, h.readable]
  simp only [h.connected, if_pos]

theorem next_saveMetadata : next r e (.saveMetadata :: rest) s = some { s with
    taskList := rest
    phase := .saveObjectMetadata } := by
  rw [next, h.readable]
  simp only [h.connected, if_pos]

theorem next_deleteMultipartMetadata : next r e (.deleteMultipartMetadata :: rest) s = some { s with
    taskList := rest
    phase := .removeMultipartMetadata } := by
  rw [next, h.readable]
  simp only [h.connected, if_pos]

theorem next_deletePartListIndex : next r e (.deletePartListIndex :: rest) s = some { s with
    taskList := rest
    phase := .removePartIndex } := by
  rw [next, h.readable]
  simp only [h.connected, if_pos]

theorem next_sendResponseToS3Client : next r e (.sendResponseToS3Client :: rest) s =
    some (sendResponseToS3Client r { s with taskList := rest }) := by
  rw [next, h.readable]
  simp only [h.connected, if_pos]

end Next

/-- What `Early` is said of. -/
def State.course (s : State) :=
  (s.doneCalls, s.newPartsProbableDelRecList, s.error, s.isResponseScheduled, s.actionState,
    s.objMetadataUpdated)

theorem Early.of_eq {t : State} (hs : Early s) (h : t.course = s.course) : Early t := by
  simp only [State.course, Prod.mk.injEq] at h
  obtain ⟨hcalls, hnew, herror, hscheduled, hst, hupdated⟩ := h
  exact ⟨⟨hcalls.trans hs.doneCalls, hnew.trans hs.newRecords⟩, herror.trans hs.error,
    hscheduled.trans hs.notScheduled, hst.trans hs.empty, hupdated.trans hs.notUpdated⟩

theorem addPartObjectToProbableDeadOidList_frame (h : addPartObjectToProbableDeadOidList r s = some s')
    (hs : Early s) : Early s' ∧ s'.taskList = s.taskList := by
  unfold addPartObjectToProbableDeadOidList at h
  dsimp only at h
  split at h
  · obtain ⟨parts, -, rfl⟩ := Option.map_eq_some_iff.mp h
    exact ⟨hs.of_eq rfl, rfl⟩
  · rw [some.injEq] at h
    rw [← h]
    exact ⟨hs.of_eq rfl, rfl⟩

theorem Early.untouched (h : Early s) : Untouched s.actionState := Or.inl h.empty

theorem stage_next_records (hs : Early s) (hnext : next r e tasksFromRecords s = some s') :
    Stage r s' := by
  by_cases hthere : ClientThere e
  · have hsave : ∀ {t : State}, Early t → ∀ {t' : State},
        next r e (.saveMetadata :: tasksFromRemoval) t = some t' → Stage r t' := by
      intro t ht t' h
      rw [next_saveMetadata hthere, some.injEq] at h
      rw [← h]
      exact ⟨⟨⟨ht.doneCalls, ht.newRecords⟩, ht.error, ht.notUpdated⟩, rfl⟩
    unfold tasksFromRecords at hnext
    rw [cons_append, next, hthere.readable] at hnext
    simp only [hthere.connected, if_pos] at hnext
    by_cases hold : s.oldObjectOid = {}
    · rw [if_pos hold] at hnext
      refine hsave ?_ hnext
      exact hs.of_eq rfl
    · rw [if_neg hold] at hnext
      split at hnext
      · cases hnext
      · rename_i t hadd
        obtain ⟨ht, htasks⟩ := addPartObjectToProbableDeadOidList_frame hadd (hs.of_eq (by rfl))
        split at hnext
        · refine hsave ?_ hnext
          exact ht.of_eq rfl
        · split at hnext
          · rw [some.injEq] at hnext
            rw [← hnext]
            exact ⟨ht.of_eq rfl, htasks⟩
          · rw [some.injEq] at hnext
            rw [← hnext]
            exact ⟨ht.of_eq rfl, htasks⟩
  · exact (next_of_gone_done hthere (cons_ne_nil _ _) hs.doneCalls hs.untouched hnext).stage

/-- The next batch of parts is asked for, unless the client has gone. -/
theorem stage_getNextPartsInfoTask (hs : Early s) (htasks : s.taskList = tasksFromRecords)
    (hthere : s.responseStarted = true → e.clientConnected = true ∨ e.shuttingDown = true) :
    Stage r (getNextPartsInfoTask r e s) := by
  have hlaunch : Stage r { s with phase := .nextKeyval } :=
    ⟨hs.of_eq rfl, htasks⟩
  unfold getNextPartsInfoTask
  by_cases hstarted : s.responseStarted = true
  · rw [if_pos hstarted]
    unfold mpCompletionSendSpaceChkShutdown checkShutdownAndRollback
    by_cases hdown : e.shuttingDown = true
    · simp only [hdown, if_pos, hs.notScheduled, Bool.false_eq_true, if_false, Bool.true_or]
      refine (sendResponseToS3Client_done ?_ ?_ ?_).stage
      · exact Or.inl (some_ne_none _)
      · exact hs.doneCalls
      · exact hs.untouched
    · have hconnected := (hthere hstarted).resolve_right hdown
      simp only [Bool.not_eq_true] at hdown
      simp only [hdown, hconnected, Bool.false_eq_true, if_false, Bool.not_true, Bool.or_self]
      exact hlaunch
  · rw [if_neg hstarted]
    exact hlaunch

theorem stage_next_parts (hs : Early s)
    (hnext : next r e (.getNextPartsInfo :: tasksFromRecords) s = some s') : Stage r s' := by
  by_cases hthere : ClientThere e
  · rw [next_getNextPartsInfo hthere, some.injEq] at hnext
    rw [← hnext]
    refine stage_getNextPartsInfoTask ?_ rfl fun _ => Or.inl hthere.connected
    exact hs.of_eq rfl
  · exact (next_of_gone_done hthere (cons_ne_nil _ _) hs.doneCalls hs.untouched hnext).stage

theorem stage_next_multipart (hs : Early s) (hnext : next r e tasksFromRequest.tail s = some s') :
    Stage r s' := by
  by_cases hthere : ClientThere e
  · rw [tasksFromRequest, cons_append, tail_cons, cons_append,
      next_fetchMultipartInfo hthere, some.injEq] at hnext
    rw [← hnext]
    exact ⟨hs.of_eq rfl, rfl⟩
  · exact (next_of_gone_done hthere (cons_ne_nil _ _) hs.doneCalls hs.untouched hnext).stage

theorem respondInvalidRequest_done (h : s.doneCalls = 0) (code : String) :
    Done (respondInvalidRequest r s code) := by
  refine respondError_done ?_ ?_ code
  · exact h
  · exact Or.inr (Or.inl rfl)

theorem stage_next_request (hs : Early s) (hnext : next r e tasksFromRequest s = some s') :
    Stage r s' := by
  by_cases hthere : ClientThere e
  · unfold tasksFromRequest at hnext
    rw [cons_append, next, hthere.readable] at hnext
    simp only [hthere.connected, if_pos] at hnext
    split at hnext
    · rw [some.injEq] at hnext
      rw [← hnext]
      refine (respondInvalidRequest_done ?_ _).stage
      exact hs.doneCalls
    · split at hnext
      · split at hnext
        · refine stage_next_multipart ?_ hnext
          exact hs.of_eq rfl
        · rw [some.injEq] at hnext
          rw [← hnext]
          refine (respondInvalidRequest_done ?_ _).stage
          exact hs.doneCalls
        · rw [some.injEq] at hnext
          rw [← hnext]
          refine (respondInvalidRequest_done ?_ _).stage
          exact hs.doneCalls
        · cases hnext
      · rw [some.injEq] at hnext
        rw [← hnext]
        exact ⟨hs.of_eq rfl, rfl⟩
  · exact (next_of_gone_done hthere (cons_ne_nil _ _) hs.doneCalls hs.untouched hnext).stage

theorem stage_next_authorization (hs : Early s)
    (hnext : next r e (setupSteps r).tail s = some s') : Stage r s' := by
  have htail : (setupSteps r).tail =
      (if r.authDisabled then [] else [.setAuthorizationMeta, .checkAuthorization]) ++
        tasksFromRequest := rfl
  rw [htail] at hnext
  by_cases hauth : r.authDisabled = true
  · rw [if_pos hauth, nil_append] at hnext
    exact stage_next_request hs hnext
  · rw [if_neg hauth] at hnext
    by_cases hthere : ClientThere e
    · rw [cons_append, cons_append, next, hthere.readable] at hnext
      simp only [hthere.connected, if_pos] at hnext
      rw [next, hthere.readable] at hnext
      simp only [hthere.connected, if_pos, some.injEq] at hnext
      rw [← hnext]
      exact ⟨hs.of_eq rfl, rfl⟩
    · exact (next_of_gone_done hthere (cons_ne_nil _ _) hs.doneCalls hs.untouched hnext).stage

/-! ### The cleanup of an object that was saved -/

/-- The put for the leak check is launched, whatever is found of the old object before it. -/
theorem stage_leakCheck (hs : Fresh s) :
    Stage r (nextInCleanup r [.addOidForParallelLeakCheck, .removeNewOidProbableRecord] s) := by
  unfold nextInCleanup
  exact ⟨⟨hs.doneCalls, hs.newRecords⟩, rfl⟩

theorem stage_deleteOldObject (hs : Fresh s) :
    Stage r (nextInCleanup r
      [.deleteOldObject, .addOidForParallelLeakCheck, .removeNewOidProbableRecord] s) := by
  rw [nextInCleanup]
  split
  · exact stage_leakCheck hs
  · split
    · exact ⟨⟨hs.doneCalls, hs.newRecords⟩, rfl⟩
    · exact stage_leakCheck hs

theorem stage_markOldOidForDeletion (hs : Fresh s) :
    Stage r (nextInCleanup r [.markOldOidForDeletion, .deleteOldObject, .addOidForParallelLeakCheck,
      .removeNewOidProbableRecord] s) := by
  rw [nextInCleanup]
  split
  · exact stage_deleteOldObject hs
  · exact ⟨⟨hs.doneCalls, hs.newRecords⟩, rfl⟩

theorem stage_sendResponse (hs : Saved s) : Stage r (sendResponseToS3Client r s) := by
  unfold sendResponseToS3Client
  rw [hs.error]
  simp only [hs.updated, if_pos]
  unfold startcleanup startTasks
  dsimp only
  by_cases hold : s.oldObjectOid ≠ {}
  · simp only [if_pos hold, cons_append, nil_append, cons_ne_nil, if_false]
    refine stage_markOldOidForDeletion ?_
    exact ⟨hs.doneCalls, hs.newRecords⟩
  · simp only [if_neg hold, nil_append, cons_ne_nil, if_false]
    refine stage_leakCheck ?_
    exact ⟨hs.doneCalls, hs.newRecords⟩

theorem stage_removeOldOidProbableRecord (hs : Fresh s) (htasks : s.cleanupTaskList =
    [.addOidForParallelLeakCheck, .removeNewOidProbableRecord]) :
    Stage r (removeOldOidProbableRecord r s) := by
  unfold removeOldOidProbableRecord
  split
  · rw [htasks]
    exact stage_leakCheck hs
  · exact ⟨⟨hs.doneCalls, hs.newRecords⟩, htasks⟩

theorem stage_removeOldFragments (hs : Fresh s) (htasks : s.cleanupTaskList =
    [.addOidForParallelLeakCheck, .removeNewOidProbableRecord]) :
    Stage r (removeOldFragments r s) := by
  unfold removeOldFragments
  split
  · exact ⟨⟨hs.doneCalls, hs.newRecords⟩, htasks⟩
  · exact stage_removeOldOidProbableRecord hs htasks

theorem stage_deleteOldObjectSuccess (hs : Fresh s) (htasks : s.cleanupTaskList =
    [.addOidForParallelLeakCheck, .removeNewOidProbableRecord]) :
    Stage r (deleteOldObjectSuccess r s) := by
  unfold deleteOldObjectSuccess
  dsimp only
  split
  · rw [htasks]
    refine stage_deleteOldObject ?_
    exact ⟨hs.doneCalls, hs.newRecords⟩
  · exact ⟨⟨hs.doneCalls, hs.newRecords⟩, htasks⟩

/-! ### The steps that leave the action hanging -/

/-- The answers that the action survives in a state. -/
def Spares (r : Request) (s : State) (e : Event) : Prop :=
  match s.phase with
  -- a full batch that is valid is followed by another one
  | .nextKeyval =>
    e.result = .success → maxMultipartExtendedEntries ≤ e.keyValues.length →
      (validateParts r.upload e.keyValues s.action).isOk → e.clientConnected ∨ e.shuttingDown
  -- once the records have been put, or the object saved, the client has to stay
  | .putProbableRecords => e.result = .success → ClientThere e
  | .putPartialKeyval howMany =>
    e.result = .success → s.kvList.length ≤ (s.totalProcessedCount + howMany) % 2 ^ 32 →
      ClientThere e
  | .saveObjectMetadata => e.result = .success ∧ ClientThere e
  | .removeMultipartMetadata => ClientThere e
  | .removePartIndex => ClientThere e
  -- the last call before the removal of the new records
  | .putLeakCheckRecord => False
  | _ => True

theorem stage_addObjectOidSuccess (hs : Early s) (htasks : s.taskList = tasksFromRecords.tail)
    (hthere : ClientThere e) (hnext : addObjectOidSuccess r e s = some s') : Stage r s' := by
  unfold addObjectOidSuccess at hnext
  rw [htasks, tasksFromRecords, cons_append, tail_cons, cons_append,
    next_saveMetadata hthere, some.injEq] at hnext
  rw [← hnext]
  exact ⟨⟨⟨hs.doneCalls, hs.newRecords⟩, hs.error, hs.notUpdated⟩, rfl⟩

theorem addObjectOidSuccess_hangs (hs : Early s) (htasks : s.taskList = tasksFromRecords.tail)
    (hgone : ¬ ClientThere e) (hnext : addObjectOidSuccess r e s = some s') : Hangs s' := by
  unfold addObjectOidSuccess at hnext
  rw [htasks] at hnext
  refine next_of_gone_hangs hgone (cons_ne_nil _ _) ?_ ?_ hnext
  · exact ⟨hs.doneCalls, hs.newRecords⟩
  · exact Or.inl rfl

theorem addObjectOidFailed_done (hs : Early s) (result : OpResult) :
    Done (addObjectOidFailed r s result) := by
  refine respondFailure_done ?_ ?_ result
  · exact hs.doneCalls
  · exact Or.inr (Or.inr rfl)

theorem stage_afterBatch (hs : Early s) (htasks : s.taskList = tasksFromRecords)
    {result : Except Failure S3PostCompleteAction}
    (hnext : afterBatch r e s (.ofResult result) = some s') : Stage r s' := by
  cases result with
  | ok a =>
    have hnext' : next r e s.taskList { s with action := a } = some s' := hnext
    rw [htasks] at hnext'
    refine stage_next_records ?_ hnext'
    exact hs.of_eq rfl
  | error f =>
    cases f with
    | exception => cases hnext
    | s3Error code =>
      cases hnext
      exact (respondInvalidRequest_done hs.doneCalls code).stage

theorem getNextPartsInfoSuccessful_cases (u : Upload) (md5String : Bytes → Bytes) (count : Nat)
    (keyValues : List (Bytes × Option StoredPart)) (a : S3PostCompleteAction) :
    (∃ result, getNextPartsInfoSuccessful u md5String count keyValues a = .ofResult result ∧
        ¬ (count ≤ keyValues.length ∧ (validateParts u keyValues a).isOk)) ∨
      (∃ a', getNextPartsInfoSuccessful u md5String count keyValues a = .continueFetching a' ∧
        count ≤ keyValues.length ∧ (validateParts u keyValues a).isOk) := by
  unfold getNextPartsInfoSuccessful
  cases validateParts u keyValues a with
  | error f =>
    refine Or.inl ⟨.error f, rfl, ?_⟩
    rintro ⟨-, hok⟩
    cases hok
  | ok a' =>
    dsimp only
    by_cases hshort : keyValues.length < count
    · rw [if_pos hshort]
      exact Or.inl ⟨_, rfl, fun h => absurd h.1 (not_le_of_gt hshort)⟩
    · rw [if_neg hshort]
      exact Or.inr ⟨_, rfl, not_lt.mp hshort, rfl⟩

theorem stage_nextKeyvalAnswered (hs : Early s) (htasks : s.taskList = tasksFromRecords)
    (hphase : s.phase = .nextKeyval) (hok : Spares r s e)
    (hnext : nextKeyvalAnswered r e s = some s') : Stage r s' := by
  unfold Spares at hok
  rw [hphase] at hok
  unfold nextKeyvalAnswered at hnext
  cases hresult : e.result with
  | success =>
    rw [hresult] at hnext
    rcases getNextPartsInfoSuccessful_cases r.upload r.md5String maxMultipartExtendedEntries
      e.keyValues s.action with ⟨result, heq, -⟩ | ⟨a', heq, hfull, hvalid⟩
    · rw [heq] at hnext
      exact stage_afterBatch hs htasks hnext
    · rw [heq] at hnext
      cases hnext
      refine stage_getNextPartsInfoTask ?_ htasks fun _ => hok hresult hfull hvalid
      exact hs.of_eq rfl
  | missing =>
    rw [hresult] at hnext
    exact stage_afterBatch hs htasks hnext
  | failedToLaunch =>
    rw [hresult] at hnext
    cases hnext
    refine (respondFailure_done ?_ ?_ _).stage
    · exact hs.doneCalls
    · exact Or.inr (Or.inl rfl)
  | failed =>
    rw [hresult] at hnext
    cases hnext
    refine (respondFailure_done ?_ ?_ _).stage
    · exact hs.doneCalls
    · exact Or.inr (Or.inl rfl)

theorem nextKeyvalAnswered_hangs (hs : Early s) (hphase : s.phase = .nextKeyval)
    (hbad : ¬ Spares r s e) (hnext : nextKeyvalAnswered r e s = some s') : Hangs s' := by
  unfold Spares at hbad
  rw [hphase] at hbad
  push Not at hbad
  obtain ⟨hresult, hfull, hvalid, hgone⟩ := hbad
  unfold nextKeyvalAnswered at hnext
  rw [hresult] at hnext
  rcases getNextPartsInfoSuccessful_cases r.upload r.md5String maxMultipartExtendedEntries
    e.keyValues s.action with ⟨result, heq, hnot⟩ | ⟨a', heq, -, -⟩
  · exact absurd ⟨hfull, hvalid⟩ hnot
  · rw [heq] at hnext
    cases hnext
    have hconnected : e.clientConnected = false := by simpa using hgone.1
    have hdown : e.shuttingDown = false := by simpa using hgone.2
    unfold getNextPartsInfoTask mpCompletionSendSpaceChkShutdown checkShutdownAndRollback
    simp only [hdown, hconnected, if_pos, Bool.false_eq_true, if_false, Bool.not_false, Bool.or_true]
    exact ⟨rfl, hs.doneCalls⟩

theorem saveObjectMetadataFailed_hangs (hs : Unsaved s) (result : OpResult) :
    Hangs (saveObjectMetadataFailed r s result) := by
  have hanswer : ∃ error response, saveObjectMetadataFailed r s result = startcleanup r { s with
      actionState := .metadataSaveFailed
      error := error
      response := response } := by
    unfold saveObjectMetadataFailed
    dsimp only
    split
    · obtain ⟨response, heq⟩ := sendResponseToS3Client_eq (r := r)
        (s := { s with
          actionState := .metadataSaveFailed
          error := some "ServiceUnavailable" }) (Or.inl (some_ne_none _))
      exact ⟨_, response, heq⟩
    · obtain ⟨response, heq⟩ := sendResponseToS3Client_eq (r := r)
        (s := { s with actionState := .metadataSaveFailed }) (Or.inr hs.notUpdated)
      exact ⟨s.error, response, heq⟩
  obtain ⟨error, response, heq⟩ := hanswer
  rw [heq]
  refine startcleanup_hangs ?_ ?_
  · exact ⟨hs.doneCalls, hs.newRecords⟩
  · exact Or.inr (Or.inr rfl)

/-! ### One step -/

theorem respondFailure_stage (hs : Early s) (result : OpResult) :
    Stage r (respondFailure r s result) :=
  (respondFailure_done hs.doneCalls hs.untouched result).stage

theorem stage_consumeIncomingContent (hs : Early s) (htasks : s.taskList = tasksFromRequest.tail)
    (hphase : s.phase = .listenForIncomingData) (hnext : consumeIncomingContent r e s = some s') :
    Stage r s' := by
  unfold consumeIncomingContent at hnext
  split at hnext
  · rename_i code _
    cases hnext
    obtain ⟨response, heq⟩ := clientReadError_eq (r := r)
      (s := { s with actionState := .validationFailed }) code
    rw [heq]
    refine (startcleanup_done ?_ ?_).stage
    · exact hs.doneCalls
    · exact Or.inr (Or.inl rfl)
  · split at hnext
    · split at hnext
      · refine stage_next_multipart ?_ (htasks ▸ hnext)
        exact hs.of_eq rfl
      · cases hnext
      · cases hnext
        exact (respondInvalidRequest_done hs.doneCalls _).stage
    · cases hnext
      unfold Stage
      rw [hphase]
      exact ⟨hs, htasks⟩

/-- **Each answer that is survived leads to the next call, or to the end.** -/
theorem stage_step (hs : Stage r s) (hok : Spares r s e) (hstep : step r s e = some s') :
    Stage r s' := by
  have hspares := hok
  unfold Stage at hs
  unfold step at hstep
  unfold Spares at hok
  cases hphase : s.phase <;> rw [hphase] at hs hstep hok
  case loadBucketMetadata =>
    obtain ⟨hs, htasks⟩ := hs
    dsimp only at hstep
    split at hstep
    · cases hstep
      exact ⟨hs.of_eq rfl, htasks⟩
    · cases hstep
      unfold fetchBucketInfoFailed
      dsimp only
      split
      · refine (respondError_done ?_ ?_ _).stage
        · exact hs.doneCalls
        · exact Or.inr (Or.inl rfl)
      · refine (respondFailure_done ?_ ?_ _).stage
        · exact hs.doneCalls
        · exact Or.inr (Or.inl rfl)
  case loadObjectMetadata =>
    obtain ⟨hs, htasks⟩ := hs
    dsimp only at hstep
    split at hstep
    · unfold fetchObjectInfoSuccess at hstep
      dsimp only at hstep
      split at hstep
      · cases hstep
        exact ⟨hs.of_eq rfl, htasks⟩
      · rw [htasks] at hstep
        refine stage_next_authorization ?_ hstep
        exact hs.of_eq rfl
    · unfold fetchObjectInfoFailed at hstep
      split at hstep
      · rw [htasks] at hstep
        exact stage_next_authorization hs hstep
      · cases hstep
        exact respondFailure_stage hs _
  case loadExtendedMetadata =>
    obtain ⟨hs, htasks⟩ := hs
    dsimp only at hstep
    split at hstep
    · unfold fetchExtObjectInfoSuccess at hstep
      rw [htasks] at hstep
      refine stage_next_authorization ?_ hstep
      exact hs.of_eq rfl
    · cases hstep
      exact (respondError_done hs.doneCalls hs.untouched _).stage
  case checkAuthorization =>
    obtain ⟨hs, htasks⟩ := hs
    dsimp only at hstep
    split at hstep
    · rw [htasks] at hstep
      exact stage_next_request hs hstep
    · cases hstep
      exact (done_done hs.doneCalls).stage
  case listenForIncomingData =>
    exact stage_consumeIncomingContent hs.1 hs.2 hphase hstep
  case loadMultipartMetadata =>
    obtain ⟨hs, htasks⟩ := hs
    dsimp only at hstep
    split at hstep
    · unfold fetchMultipartInfoSuccess at hstep
      dsimp only at hstep
      rw [htasks] at hstep
      refine stage_next_parts ?_ hstep
      exact hs.of_eq rfl
    · cases hstep
      unfold fetchMultipartInfoFailed
      dsimp only
      split
      · refine (respondError_done ?_ ?_ _).stage
        · exact hs.doneCalls
        · exact Or.inr (Or.inl rfl)
      · refine (respondFailure_done ?_ ?_ _).stage
        · exact hs.doneCalls
        · exact Or.inr (Or.inl rfl)
  case nextKeyval => exact stage_nextKeyvalAnswered hs.1 hs.2 hphase hspares hstep
  case putProbableRecords =>
    obtain ⟨hs, htasks⟩ := hs
    dsimp only at hstep
    split at hstep
    · rename_i hresult
      exact stage_addObjectOidSuccess hs htasks (hok hresult) hstep
    · cases hstep
      exact (addObjectOidFailed_done hs _).stage
  case putPartialKeyval howMany =>
    obtain ⟨hs, htasks⟩ := hs
    dsimp only at hstep
    split at hstep
    · rename_i hresult
      unfold savePartialSuccessful at hstep
      dsimp only at hstep
      split at hstep
      · cases hstep
        exact ⟨hs.of_eq rfl, htasks⟩
      · rename_i hlast
        refine stage_addObjectOidSuccess ?_ ?_ (hok hresult (not_lt.mp hlast)) hstep
        · exact hs.of_eq rfl
        · exact htasks
    · cases hstep
      exact (addObjectOidFailed_done hs _).stage
  case saveObjectMetadata =>
    obtain ⟨hs, htasks⟩ := hs
    dsimp only at hstep
    rw [if_pos hok.1, htasks, tasksFromRemoval, next_deleteMultipartMetadata hok.2,
      some.injEq] at hstep
    rw [← hstep]
    exact ⟨⟨⟨hs.doneCalls, hs.newRecords⟩, hs.error, rfl, rfl⟩, rfl⟩
  case removeMultipartMetadata =>
    obtain ⟨hs, htasks⟩ := hs
    dsimp only at hstep
    rw [htasks, tasksFromRemoval, tail_cons, next_deletePartListIndex hok, some.injEq] at hstep
    rw [← hstep]
    exact ⟨⟨⟨hs.doneCalls, hs.newRecords⟩, hs.error, hs.saved, hs.updated⟩, rfl⟩
  case removePartIndex =>
    obtain ⟨hs, htasks⟩ := hs
    dsimp only at hstep
    rw [htasks, tasksFromRemoval, tail_cons, tail_cons, next_sendResponseToS3Client hok,
      some.injEq] at hstep
    rw [← hstep]
    refine stage_sendResponse ?_
    exact ⟨⟨hs.doneCalls, hs.newRecords⟩, hs.error, hs.saved, hs.updated⟩
  case putOldRecords =>
    obtain ⟨hs, htasks⟩ := hs
    cases hstep
    rw [htasks]
    exact stage_deleteOldObject hs
  case deleteObject =>
    obtain ⟨hs, htasks⟩ := hs
    dsimp only at hstep
    split at hstep
    · cases hstep
      exact stage_deleteOldObjectSuccess hs htasks
    · cases hstep
      rw [htasks]
      exact stage_leakCheck hs
  case removeVersionMetadata =>
    cases hstep
    exact stage_removeOldFragments hs.1 hs.2
  case removeExtendedMetadata =>
    cases hstep
    exact stage_removeOldOidProbableRecord hs.1 hs.2
  case deleteOldRecords =>
    obtain ⟨hs, htasks⟩ := hs
    cases hstep
    rw [htasks]
    exact stage_leakCheck hs
  case putLeakCheckRecord => exact hok.elim
  case deleteNewRecords => exact hs.elim
  case idle => cases hstep

/-- **Every other answer leaves the action hanging.** -/
theorem hangs_step (hs : Stage r s) (hbad : ¬ Spares r s e) (hstep : step r s e = some s') :
    Hangs s' := by
  have hspares := hbad
  unfold Stage at hs
  unfold step at hstep
  unfold Spares at hbad
  cases hphase : s.phase <;> rw [hphase] at hs hstep hbad
  case nextKeyval => exact nextKeyvalAnswered_hangs hs.1 hphase hspares hstep
  case putProbableRecords =>
    obtain ⟨hs, htasks⟩ := hs
    rw [Classical.not_imp] at hbad
    dsimp only at hstep
    rw [if_pos hbad.1] at hstep
    exact addObjectOidSuccess_hangs hs htasks hbad.2 hstep
  case putPartialKeyval howMany =>
    obtain ⟨hs, htasks⟩ := hs
    rw [Classical.not_imp, Classical.not_imp] at hbad
    obtain ⟨hresult, hlast, hgone⟩ := hbad
    unfold savePartialSuccessful at hstep
    dsimp only at hstep
    rw [if_pos hresult, if_neg (not_lt_of_ge hlast)] at hstep
    refine addObjectOidSuccess_hangs ?_ ?_ hgone hstep
    · exact hs.of_eq rfl
    · exact htasks
  case saveObjectMetadata =>
    obtain ⟨hs, htasks⟩ := hs
    dsimp only at hstep
    by_cases hresult : e.result = .success
    · rw [if_pos hresult, htasks] at hstep
      refine next_of_gone_hangs (fun hthere => hbad ⟨hresult, hthere⟩) (cons_ne_nil _ _) ?_ ?_
        hstep
      · exact ⟨hs.doneCalls, hs.newRecords⟩
      · exact Or.inr (Or.inl rfl)
    · rw [if_neg hresult, some.injEq] at hstep
      rw [← hstep]
      exact saveObjectMetadataFailed_hangs hs e.result
  case removeMultipartMetadata =>
    obtain ⟨hs, htasks⟩ := hs
    dsimp only at hstep
    rw [htasks] at hstep
    exact next_of_gone_hangs hbad (cons_ne_nil _ _) hs.toFresh (Or.inr (Or.inl hs.saved)) hstep
  case removePartIndex =>
    obtain ⟨hs, htasks⟩ := hs
    dsimp only at hstep
    rw [htasks] at hstep
    exact next_of_gone_hangs hbad (cons_ne_nil _ _) hs.toFresh (Or.inr (Or.inl hs.saved)) hstep
  case putLeakCheckRecord =>
    obtain ⟨hs, htasks⟩ := hs
    cases hstep
    rw [htasks]
    exact removeNewOidProbableRecord_hangs hs []
  all_goals exact absurd trivial hbad

/-! ### Whole runs -/

theorem stage_initial (r : Request) : Stage r (initial r) :=
  ⟨⟨⟨rfl, rfl⟩, rfl, rfl, rfl, rfl⟩, rfl⟩

theorem stage_of_reachable (h : Runs.Reachable (step r) (Spares r) (initial r) s) : Stage r s :=
  h.invariant (stage_initial r) fun _ _ _ hs hok hstep => stage_step hs hok hstep

/-- An upload whose object is new. -/
def newObject : Request where
  authDisabled := true
  dataLength := 1
  hasAllBodyContent := true
  document := some (sampleRequest [1])
  bucket :=
    { objectListIndexOid := {}
      objectsVersionListIndexOid := {}
      extendedMetadataIndexOid := {} }
  objectMetadata :=
    { objectName := ascii "film"
      oid := {}
      layoutId := 0
      pvidStr := []
      contentLength := 0
      versionKeyInIndex := []
      objVersionKey := [] }
  multipartMetadata :=
    { oldOid := {}
      oldLayoutId := 0
      partIndexOid := {} }
  upload := sampleUpload
  md5String := fun s => s
  delayedDelEnabled := false

/-- An upload whose object is replaced. -/
def replacedObject : Request :=
  { newObject with
    objectMetadata := { newObject.objectMetadata with oid := sampleOid 7 } }

/-- **The action comes to its end, by `done()` and once, as long as every answer is one that it
survives**, and an answer that is not leaves it hanging. -/
theorem finishes_of_reachable (r : Request) (s : State)
    (h : Runs.Reachable (step r) (Spares r) (initial r) s) :
    Finishes s ∧ ∀ e s', ¬ Spares r s e → step r s e = some s' → Hangs s' ∧ ¬ Finishes s' := by
  have hs := stage_of_reachable h
  refine ⟨hs.finishes, ?_⟩
  intro e s' hbad hstep
  have hhangs := hangs_step hs hbad hstep
  exact ⟨hhangs, hhangs.not_finishes⟩

/-- One part is read, and the records of the object it replaces cannot be put. -/
theorem finishes_of_reachable_putFailed :
    ∃ s, Runs.Reachable (step replacedObject) (Spares replacedObject) (initial replacedObject) s ∧
      s.phase = .idle ∧ s.response = some (.error "InternalError") ∧ s.doneCalls = 1 := by
  have h₁ : Runs.Reachable (step replacedObject) (Spares replacedObject) (initial replacedObject)
    (initial replacedObject) := .start
  have h₂ := h₁.step {} trivial rfl
  have h₃ := h₂.step {} trivial rfl
  have h₄ := h₃.step {} trivial rfl
  have h₅ := h₄.step { keyValues := [(decimal 1, some (samplePart 1))] }
    (fun _ hfull => absurd hfull (by decide)) rfl
  have h₆ := h₅.step { result := .failed } nofun rfl
  exact ⟨_, h₆, rfl, rfl, (finishes_of_reachable replacedObject _ h₆).1.atEnd rfl⟩

/-- Every call succeeds, and `done()` is not called. -/
theorem not_finishes_newObject :
    ¬ ∀ (r : Request) (s : State),
      Runs.Reachable (step r) (fun _ _ => True) (initial r) s → Finishes s := by
  intro hall
  have hrun : ((Runs.run (step newObject) (initial newObject)
      [{}, { result := .missing }, {}, { keyValues := [(decimal 1, some (samplePart 1))] },
        {}, {}, {}, {}]).map fun s => (s.phase, s.response, s.doneCalls)) =
      some (.idle, some .success, 0) := by decide
  obtain ⟨s, hs, hfields⟩ := Option.map_eq_some_iff.mp hrun
  have hreach : Runs.Reachable (step newObject) (fun _ _ => True) (initial newObject) s :=
    Runs.reachable_of_run _ .start (by decide) hs
  rw [Prod.mk.injEq, Prod.mk.injEq] at hfields
  have hdone := (hall newObject s hreach).atEnd hfields.1
  rw [hfields.2.2] at hdone
  exact absurd hdone (by decide)

end S3PostCompleteAction

end CortxS3
