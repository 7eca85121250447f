/-
The calls that delete parts, and the pool versions they pass.

The metadata of a part says which layout and pool version its Motr object was created with.  When
an upload is given up, and when the upload of a part replaces or undoes one, the object is deleted
with its own layout and with the pool version in the metadata of the upload.  So the calls are
right exactly when the parts that are deleted have that pool version.

Giving up an upload deletes only parts it has read, and when nothing fails it deletes all of them:
the run comes to its end, and what is noted as deleted there was called for on the way.
-/
import CortxS3.Proofs.AbortMultipartAction
import CortxS3.Proofs.PutCleanup

namespace CortxS3

open Option (mem_def some.inj)
open List S3M0Uint128Helper

open PutCleanup (DeleteCall abortedPartCall)

/-! ### What a step does to the parts -/

namespace S3AbortMultipartAction

open S3DeleteMultipleObjectsAction (putPairs)

section Deletes

variable {r : Request}

/-- Nothing is said of a part, nor of an answer. -/
structure SameParts (s s' : State) : Prop where
  multipartParts : s'.multipartParts = s.multipartParts
  deleted : s'.deleted = s.deleted
  uploadDeleted : s'.uploadDeleted = s.uploadDeleted
  laterFailed : s'.laterFailed = s.laterFailed

theorem sameParts_removeProbableRecords (s : State) : SameParts s (removeProbableRecords s) := by
  unfold removeProbableRecords
  dsimp only
  split <;> exact ⟨rfl, rfl, rfl, rfl⟩

theorem sameParts_deletePart (s : State) : SameParts s (deletePart s) := by
  unfold deletePart
  split <;> exact ⟨rfl, rfl, rfl, rfl⟩

theorem sameParts_markOidsForDeletion (s : State) : SameParts s (markOidsForDeletion s) := by
  unfold markOidsForDeletion
  dsimp only
  split
  · obtain ⟨hparts, hdeleted, hup, hlater⟩ := sameParts_deletePart (s.assert (s.oidStr ≠ []))
    exact ⟨hparts, hdeleted, hup, hlater⟩
  · exact ⟨rfl, rfl, rfl, rfl⟩

theorem sameParts_startcleanup (s : State) : SameParts s (startcleanup s) := by
  unfold startcleanup
  split
  · exact ⟨rfl, rfl, rfl, rfl⟩
  · exact ⟨rfl, rfl, rfl, rfl⟩
  · exact ⟨rfl, rfl, rfl, rfl⟩
  · exact sameParts_removeProbableRecords s
  · exact sameParts_markOidsForDeletion s

theorem sameParts_sendResponse (s : State) (response : Response) :
    SameParts s (sendResponseToS3Client s response) := by
  cases response with
  | error =>
    obtain ⟨hparts, hdeleted, hup, hlater⟩ :=
      sameParts_startcleanup { s with response := some .error }
    exact ⟨hparts, hdeleted, hup, hlater⟩
  | success =>
    obtain ⟨hparts, hdeleted, hup, hlater⟩ := sameParts_startcleanup
      { s with response := some .success, actionState := .completed }
    exact ⟨hparts, hdeleted, hup, hlater⟩

/-- While the upload is not deleted, one of the first calls is waited for. -/
def Phase.Early : Phase → Prop
  | .getMultipartMetadata | .getNextParts | .addPartsOidsToProbableDeadOidList
  | .saveMetadataInStages _ | .deleteMultipartMetadata => True
  | _ => False

theorem sameParts_addPartsOids (s : State) :
    SameParts s (addPartsOidsToProbableDeadOidList r s) ∧
      (addPartsOidsToProbableDeadOidList r s).phase.Early := by
  unfold addPartsOidsToProbableDeadOidList
  split
  · exact ⟨⟨rfl, rfl, rfl, rfl⟩, trivial⟩
  · dsimp only
    split <;> exact ⟨⟨rfl, rfl, rfl, rfl⟩, trivial⟩

theorem getNextPartsSuccessful_parts (s : State) :
    (∃ batch, (∀ p ∈ batch, p ∈ r.parts.parts) ∧
      (getNextPartsSuccessful r s).multipartParts = s.multipartParts ++ batch) ∧
    (getNextPartsSuccessful r s).deleted = s.deleted ∧
    (getNextPartsSuccessful r s).uploadDeleted = s.uploadDeleted ∧
    (getNextPartsSuccessful r s).laterFailed = s.laterFailed ∧
    (getNextPartsSuccessful r s).phase.Early := by
  have hbatch : ∀ p ∈ (OrderedIndex.next r.parts.entries s.lastKey r.fetchCount false).filterMap (·.2),
      p ∈ r.parts.parts := by
    intro p hp
    obtain ⟨kv, hkv, hsome⟩ := mem_filterMap.mp hp
    have hmem : kv ∈ r.parts.entries :=
      (filter_sublist.subset (mem_of_mem_take hkv))
    exact mem_filterMap.mpr ⟨kv, hmem, hsome⟩
  unfold getNextPartsSuccessful
  dsimp only
  split
  · obtain ⟨⟨hparts, hdeleted, hup, hlater⟩, hearly⟩ := sameParts_addPartsOids (r := r) s
    exact ⟨⟨[], by simp, by rw [hparts, append_nil]⟩, hdeleted, hup, hlater, hearly⟩
  · next kv _ =>
      split
      · obtain ⟨⟨hparts, hdeleted, hup, hlater⟩, hearly⟩ := sameParts_addPartsOids (r := r)
          { s with
            multipartParts := s.multipartParts ++
              (OrderedIndex.next r.parts.entries s.lastKey r.fetchCount false).filterMap (·.2)
            lastKey := kv.1 }
        exact ⟨⟨_, hbatch, hparts⟩, hdeleted, hup, hlater, hearly⟩
      · exact ⟨⟨_, hbatch, rfl⟩, rfl, rfl, rfl, trivial⟩

theorem deletePartsSuccessful_parts (s : State) :
    (deletePartsSuccessful s).multipartParts = s.multipartParts.dropLast ∧
      (deletePartsSuccessful s).deleted = s.deleted ++ s.multipartParts.getLast?.toList.map (·.oid) ∧
      (deletePartsSuccessful s).uploadDeleted = s.uploadDeleted ∧
      (deletePartsSuccessful s).laterFailed = s.laterFailed := by
  unfold deletePartsSuccessful
  cases hlast : s.multipartParts.getLast? with
  | none =>
    rw [List.getLast?_eq_none_iff.mp hlast]
    simp
  | some p =>
    dsimp only
    split
    · obtain ⟨hparts, hdeleted, hup, hlater⟩ := sameParts_deletePart
        { s with deleted := s.deleted ++ [p.oid], multipartParts := s.multipartParts.dropLast }
      exact ⟨hparts, hdeleted, hup, hlater⟩
    · obtain ⟨hparts, hdeleted, hup, hlater⟩ := sameParts_removeProbableRecords
        { s with deleted := s.deleted ++ [p.oid], multipartParts := s.multipartParts.dropLast }
      exact ⟨hparts, hdeleted, hup, hlater⟩

/-- What a step leaves of the parts, and what it notes as deleted. -/
structure PartsStep (r : Request) (s s' : State) : Prop where
  multipartParts : ∀ p ∈ s'.multipartParts, p ∈ s.multipartParts ∨ p ∈ r.parts.parts
  deleted : ∀ oid ∈ s'.deleted, oid ∈ s.deleted ∨
    (s.phase = .deletePart ∧ ∃ p, s.multipartParts.getLast? = some p ∧ p.oid = oid)

variable {s s' : State}

theorem SameParts.partsStep (h : SameParts s s') : PartsStep r s s' where
  multipartParts _ hp := .inl (h.multipartParts ▸ hp)
  deleted _ hoid := .inl (h.deleted ▸ hoid)

theorem sameParts_onSaveMetadataInStages (s : State) (howMany : Nat) (e : Answer) :
    SameParts s (onSaveMetadataInStages s howMany e) ∧
      (e = .ok → (onSaveMetadataInStages s howMany e).phase.Early) := by
  cases e with
  | ok =>
    simp only [onSaveMetadataInStages, Answer.isOk, if_true]
    split <;> exact ⟨⟨rfl, rfl, rfl, rfl⟩, fun _ => trivial⟩
  | failed stored =>
    obtain ⟨hparts, hdeleted, hup, hlater⟩ := sameParts_sendResponse
      { s with
        probableDeleteIndex := putPairs
          ((s.probableOidList.drop s.totalProcessedCount).take howMany) stored
          s.probableDeleteIndex
        actionState := .probableEntryRecordFailed } .error
    exact ⟨⟨hparts, hdeleted, hup, hlater⟩, fun h => absurd h (by simp)⟩

/-- **Only parts of the upload come in, and a part is noted as deleted by the call for it.** -/
theorem partsStep_of_step {e : Answer} (hstep : step r s e = some s') : PartsStep r s s' := by
  unfold step at hstep
  split at hstep
  case h_1 =>
    split at hstep <;> obtain rfl := some.inj hstep
    · exact SameParts.partsStep ⟨rfl, rfl, rfl, rfl⟩
    · obtain ⟨hparts, hdeleted, hup, hlater⟩ := sameParts_sendResponse
        { s with actionState := .validationFailed } .error
      exact SameParts.partsStep ⟨hparts, hdeleted, hup, hlater⟩
  case h_2 =>
    split at hstep <;> obtain rfl := some.inj hstep
    · obtain ⟨⟨batch, hbatch, hparts⟩, hdeleted, -⟩ := getNextPartsSuccessful_parts (r := r) s
      refine ⟨fun p hp => ?_, fun oid hoid => .inl (hdeleted ▸ hoid)⟩
      rw [hparts, mem_append] at hp
      exact hp.imp_right (hbatch p)
    · exact (sameParts_sendResponse s .error).partsStep
  case h_3 =>
    split at hstep <;> obtain rfl := some.inj hstep
    · exact SameParts.partsStep ⟨rfl, rfl, rfl, rfl⟩
    · obtain ⟨hparts, hdeleted, hup, hlater⟩ := sameParts_sendResponse
        { s with
          probableDeleteIndex := putPairs s.probableOidList e.done s.probableDeleteIndex
          actionState := .probableEntryRecordFailed } .error
      exact SameParts.partsStep ⟨hparts, hdeleted, hup, hlater⟩
  case h_4 =>
    obtain rfl := some.inj hstep
    exact (sameParts_onSaveMetadataInStages s _ e).1.partsStep
  case h_5 =>
    split at hstep <;> obtain rfl := some.inj hstep
    · unfold deletePartIndexWithParts
      split
      · obtain ⟨hparts, hdeleted, -⟩ := sameParts_sendResponse
          { s with uploadDeleted := some e.isOk, actionState := .uploadMetadataDeleted } .success
        exact ⟨fun p hp => .inl (hparts ▸ hp), fun oid hoid => .inl (hdeleted ▸ hoid)⟩
      · exact ⟨fun p hp => .inl hp, fun oid hoid => .inl hoid⟩
    · obtain ⟨hparts, hdeleted, -⟩ := sameParts_sendResponse
        { s with uploadDeleted := some e.isOk, actionState := .uploadMetadataDeleteFailed } .error
      exact ⟨fun p hp => .inl (hparts ▸ hp), fun oid hoid => .inl (hdeleted ▸ hoid)⟩
  case h_6 =>
    obtain rfl := some.inj hstep
    obtain ⟨hparts, hdeleted, -⟩ := sameParts_sendResponse
      { s.noted e with
        actionState := if e.isOk then .partsListIndexDeleted else .partsListIndexDeleteFailed }
      .success
    exact ⟨fun p hp => .inl (hparts ▸ hp), fun oid hoid => .inl (hdeleted ▸ hoid)⟩
  case h_7 =>
    obtain rfl := some.inj hstep
    obtain ⟨hparts, hdeleted, -⟩ := sameParts_deletePart
      { s.noted e with
        probableDeleteIndex := putPairs (SortedMap.ofWrites (ownKeys s.probableDelRecList)) e.done
          s.probableDeleteIndex }
    exact ⟨fun p hp => .inl (hparts ▸ hp), fun oid hoid => .inl (hdeleted ▸ hoid)⟩
  case h_8 hphase =>
    split at hstep <;> obtain rfl := some.inj hstep
    · obtain ⟨hparts, hdeleted, -⟩ := deletePartsSuccessful_parts s
      refine ⟨fun p hp => ?_, fun oid hoid => ?_⟩
      · rw [hparts] at hp
        exact .inl (mem_of_mem_dropLast hp)
      · rw [hdeleted, mem_append, mem_map] at hoid
        refine hoid.imp_right fun hlast => ⟨hphase, ?_⟩
        obtain ⟨p, hp, hpoid⟩ := hlast
        exact ⟨p, Option.mem_toList.mp hp, hpoid⟩
    · exact ⟨fun p hp => .inl hp, fun oid hoid => .inl hoid⟩
  case h_9 =>
    obtain rfl := some.inj hstep
    exact ⟨fun p hp => .inl hp, fun oid hoid => .inl hoid⟩
  case h_10 => cases hstep

/-- What holds in a run in which nothing fails. -/
structure Smooth (s : State) : Prop where
  laterFailed : s.laterFailed = false
  uploadDeleted : s.uploadDeleted = some true ∨ s.uploadDeleted = none ∧ s.phase.Early

theorem Smooth.of_sameParts (h : Smooth s) (hlate : ¬ s.phase.Early) (hsame : SameParts s s') :
    Smooth s' where
  laterFailed := hsame.laterFailed.trans h.laterFailed
  uploadDeleted := .inl (by
    rw [hsame.uploadDeleted]
    exact h.uploadDeleted.resolve_right fun hearly => hlate hearly.2)

theorem smooth_of_early (h : Smooth s) (hsame : SameParts s s') (hearly : s'.phase.Early) :
    Smooth s' where
  laterFailed := hsame.laterFailed.trans h.laterFailed
  uploadDeleted := by
    rw [hsame.uploadDeleted]
    exact h.uploadDeleted.imp_right fun hnone => ⟨hnone.1, hearly⟩

theorem smooth_step (h : Smooth s) (hstep : step r s .ok = some s') : Smooth s' := by
  unfold step at hstep
  split at hstep
  case h_1 =>
    obtain rfl := some.inj hstep
    exact smooth_of_early h ⟨rfl, rfl, rfl, rfl⟩ trivial
  case h_2 =>
    obtain rfl := some.inj hstep
    obtain ⟨-, -, hup, hlater, hearly⟩ := getNextPartsSuccessful_parts (r := r) s
    refine ⟨hlater.trans h.laterFailed, ?_⟩
    rw [hup]
    exact h.uploadDeleted.imp_right fun hnone => ⟨hnone.1, hearly⟩
  case h_3 =>
    obtain rfl := some.inj hstep
    exact smooth_of_early h ⟨rfl, rfl, rfl, rfl⟩ trivial
  case h_4 howMany _ =>
    obtain rfl := some.inj hstep
    obtain ⟨hsame, hearly⟩ := sameParts_onSaveMetadataInStages s howMany .ok
    exact smooth_of_early h hsame (hearly rfl)
  case h_5 =>
    obtain rfl := some.inj hstep
    unfold deletePartIndexWithParts
    split
    · obtain ⟨-, -, hup, hlater⟩ := sameParts_sendResponse
        { s with uploadDeleted := some true, actionState := .uploadMetadataDeleted } .success
      exact ⟨hlater.trans h.laterFailed, .inl hup⟩
    · exact ⟨h.laterFailed, .inl rfl⟩
  case h_6 hphase =>
    obtain rfl := some.inj hstep
    obtain ⟨hparts, hdeleted, hup, hlater⟩ := sameParts_sendResponse
      { s.noted .ok with actionState := .partsListIndexDeleted } .success
    refine h.of_sameParts (by rw [hphase]; exact id) ⟨hparts, hdeleted, hup, hlater.trans ?_⟩
    simp [State.noted, Answer.isOk]
  case h_7 hphase =>
    obtain rfl := some.inj hstep
    obtain ⟨hparts, hdeleted, hup, hlater⟩ := sameParts_deletePart
      { s.noted .ok with
        probableDeleteIndex := putPairs (SortedMap.ofWrites (ownKeys s.probableDelRecList))
          (fun _ => true) s.probableDeleteIndex }
    refine h.of_sameParts (by rw [hphase]; exact id) ⟨hparts, hdeleted, hup, hlater.trans ?_⟩
    simp [State.noted, Answer.isOk]
  case h_8 hphase =>
    obtain rfl := some.inj hstep
    obtain ⟨-, -, hup, hlater⟩ := deletePartsSuccessful_parts s
    refine ⟨hlater.trans h.laterFailed, .inl (hup.trans ?_)⟩
    refine h.uploadDeleted.resolve_right fun hearly => ?_
    rw [hphase] at hearly
    exact hearly.2
  case h_9 hphase =>
    obtain rfl := some.inj hstep
    refine ⟨by simp [State.noted, Answer.isOk, h.laterFailed], .inl ?_⟩
    refine h.uploadDeleted.resolve_right fun hearly => ?_
    rw [hphase] at hearly
    exact hearly.2
  case h_10 => cases hstep

/-! ### The calls of a run -/

variable {index : Bytes → Option S3ProbableDeleteRecord}

theorem mem_parts_of_reachable (h : Runs.Reachable (step r) (fun _ _ => True) (start index) s) :
    ∀ p ∈ s.multipartParts, p ∈ r.parts.parts := by
  refine Runs.Reachable.invariant (P := fun s => ∀ p ∈ s.multipartParts, p ∈ r.parts.parts) ?_ ?_ h
  · intro p hp
    cases hp
  · intro s e s' hs _ hstep p hp
    exact ((partsStep_of_step hstep).multipartParts p hp).elim (hs p) id

/-- **What is noted as deleted was called for on the way.** -/
theorem call_of_deleted {t : State} (h : Runs.Reachable (step r) (fun _ _ => True) (start index) t) :
    ∀ oid ∈ t.deleted, ∃ s, Runs.Reachable (step r) (fun _ _ => True) (start index) s ∧
      s.phase = .deletePart ∧ ∃ p, s.multipartParts.getLast? = some p ∧ p.oid = oid := by
  induction h with
  | start =>
    intro oid hoid
    cases hoid
  | step hs e _ hstep ih =>
    intro oid hoid
    rcases (partsStep_of_step hstep).deleted oid hoid with hold | ⟨hphase, p, hp, hpoid⟩
    · exact ih oid hold
    · exact ⟨_, hs, hphase, p, hp, hpoid⟩

theorem exists_done (hfetch : 1 ≤ r.fetchCount) (index : Bytes → Option S3ProbableDeleteRecord) :
    ∀ (n : Nat) (s : State), remaining r s ≤ n → AtPhase r s → Smooth s →
      Runs.Reachable (step r) (fun _ _ => True) (start index) s →
      ∃ t, Runs.Reachable (step r) (fun _ _ => True) (start index) t ∧ t.phase = .done ∧
        AtPhase r t ∧ Smooth t := by
  intro n
  induction n with
  | zero =>
    intro s hn hat hsmooth hs
    by_cases hdone : s.phase = .done
    · exact ⟨s, hs, hdone, hat, hsmooth⟩
    · obtain ⟨s', hstep⟩ := Option.isSome_iff_exists.mp (isSome_step (r := r) hdone .ok)
      have hlt := (goes_step hfetch s .ok s' hat hstep).2
      omega
  | succ n ih =>
    intro s hn hat hsmooth hs
    by_cases hdone : s.phase = .done
    · exact ⟨s, hs, hdone, hat, hsmooth⟩
    · obtain ⟨s', hstep⟩ := Option.isSome_iff_exists.mp (isSome_step (r := r) hdone .ok)
      obtain ⟨hat', hlt⟩ := goes_step hfetch s .ok s' hat hstep
      exact ih s' (by omega) hat' (smooth_step hsmooth hstep) (.step hs .ok trivial hstep)

/-- **There is a call for every part.** -/
theorem exists_call (hfetch : 1 ≤ r.fetchCount) (index : Bytes → Option S3ProbableDeleteRecord)
    {p : S3PartMetadata} (hp : p ∈ r.parts.parts) :
    ∃ s, Runs.Reachable (step r) (fun _ _ => True) (start index) s ∧ s.phase = .deletePart ∧
      s.multipartParts.getLast? = some p := by
  obtain ⟨t, ht, hdone, hat, hsmooth⟩ := exists_done hfetch index _ (start index) le_rfl
    (atPhase_start index) ⟨rfl, .inr ⟨rfl, trivial⟩⟩ .start
  rw [AtPhase, hdone] at hat
  have hdeleted : p.oid ∈ t.deleted := by
    rcases hat with ⟨hup, -⟩ | ⟨-, -, -, hdeleted⟩ | ⟨hup, -⟩
    · rcases hsmooth.uploadDeleted with htrue | ⟨-, hearly⟩
      · rw [htrue] at hup
        cases hup
      · rw [hdone] at hearly
        exact hearly.elim
    · exact hdeleted hsmooth.laterFailed p hp
    · rcases hsmooth.uploadDeleted with htrue | ⟨hnone, -⟩
      · rw [htrue] at hup
        cases hup
      · rw [hnone] at hup
        cases hup
  obtain ⟨s, hs, hphase, q, hq, hqoid⟩ := call_of_deleted ht p.oid hdeleted
  have hqmem : q ∈ r.parts.parts := mem_parts_of_reachable hs q (mem_of_getLast? hq)
  have hqp : q = p := inj_on_of_nodup_map r.parts.distinct hqmem hp hqoid
  rw [hqp] at hq
  exact ⟨s, hs, hphase, hq⟩

end Deletes

end S3AbortMultipartAction

namespace PutCleanup

open S3AbortMultipartAction (Request step exists_call mem_parts_of_reachable)

/-! ### The calls of `S3AbortMultipartAction` -/

variable {created : M0Uint128 → Option (Int × M0Fid)}

theorem asCreated_aborted_iff {r : Request} (hfetch : 1 ≤ r.fetchCount)
    (hrecorded : ∀ p ∈ r.parts.parts, created p.oid = some (p.layoutId, toM0Fid p.pvidStr))
    (uploadPvid : M0Fid) (index : Bytes → Option S3ProbableDeleteRecord) :
    (∀ s, Runs.Reachable (step r) (fun _ _ => True) (S3AbortMultipartAction.start index) s →
        ∀ call ∈ abortedPartCall uploadPvid s, call.AsCreated created) ↔
      ∀ p ∈ r.parts.parts, toM0Fid p.pvidStr = uploadPvid := by
  constructor
  · intro h p hp
    obtain ⟨s, hs, hphase, hlast⟩ := exists_call hfetch index hp
    have hcall : abortedPartCall uploadPvid s = some ⟨p.oid, p.layoutId, uploadPvid⟩ := by
      rw [abortedPartCall, if_pos hphase, hlast]
      rfl
    have hright := h s hs _ (mem_def.mpr hcall)
    rw [DeleteCall.AsCreated, hrecorded p hp] at hright
    exact (Prod.mk.inj (some.inj hright)).2
  · intro h s hs call hcall
    unfold abortedPartCall at hcall
    split at hcall
    · obtain ⟨p, hlast, rfl⟩ := Option.map_eq_some_iff.mp (mem_def.mp hcall)
      have hp := mem_parts_of_reachable hs p (mem_of_getLast? hlast)
      rw [DeleteCall.AsCreated, hrecorded p hp, h p hp]
    · cases hcall

/-! ### The calls of `S3PutMultiObjectAction` -/

/-- A task without a delete makes no call. -/
def NoDelete (task : Task) : Prop := ∀ op ∈ task, ∀ call, op ≠ .deleteObject call

theorem deleteCalls_perform {w : World} {a : Answer} {op : Op}
    (h : ∀ call, op ≠ .deleteObject call) : (w.perform a op).deleteCalls = w.deleteCalls := by
  cases op with
  | deleteObject call => exact absurd rfl (h call)
  | putKeyval pairs | deleteKeyval keys | removeVersionMetadata => rfl

variable {task : Task}

theorem deleteCalls_runTask (answers : Nat → Answer) (h : NoDelete task) (w : World) :
    (runTask answers task w).deleteCalls = w.deleteCalls := by
  induction task generalizing w with
  | nil => rfl
  | cons op rest ih =>
    have hop := deleteCalls_perform (w := w) (a := answers w.launched)
      (h op mem_cons_self)
    unfold runTask
    dsimp only
    split
    · rw [ih fun op' hop' => h op' (mem_cons_of_mem _ hop'), hop]
    · exact hop

/-- A task that begins with a delete makes that call, whatever is answered. -/
theorem deleteCalls_runTask_deleteObject {answers : Nat → Answer} {call : DeleteCall}
    (h : NoDelete task) (w : World) :
    (runTask answers (.deleteObject call :: task) w).deleteCalls = w.deleteCalls ++ [call] := by
  unfold runTask
  dsimp only
  split
  · rw [deleteCalls_runTask _ h]
    rfl
  · rfl

/-- The tasks that are not for a delete make no call. -/
structure Quiet (c : Cleanup) : Prop where
  markOld : NoDelete c.markOldOidForDeletion
  leakCheck : NoDelete c.addOidForParallelLeakCheck
  removeNew : NoDelete c.removeNewOidProbableRecord
  markNew : NoDelete c.markNewOidForDeletion
  removeOld : NoDelete c.removeOldOidProbableRecord

variable {c : Cleanup}

theorem start_rollback (h : Quiet c) (answers : Nat → Answer) (w : World) :
    ∃ w', w'.deleteCalls = w.deleteCalls ∧
      start answers (c.tasks .rollback) w = runTask answers c.deleteNewObject w' := by
  have hmark := deleteCalls_runTask answers h.markNew w
  by_cases hold : c.oldObjectOid ≠ {}
  · simp only [Cleanup.tasks, if_pos hold]
    exact ⟨_, (deleteCalls_runTask _ h.removeOld _).trans hmark, rfl⟩
  · simp only [Cleanup.tasks, if_neg hold]
    exact ⟨_, hmark, rfl⟩

theorem start_stored (h : Quiet c) (answers : Nat → Answer) (w : World) :
    ∃ w', w'.deleteCalls = w.deleteCalls ∧
      start answers (c.tasks .stored) w =
        if c.oldObjectOid ≠ {} then runTask answers c.deleteOldObject w' else w' := by
  have hquiet : ∀ w, (runTask answers c.removeNewOidProbableRecord
      (runTask answers c.addOidForParallelLeakCheck w)).deleteCalls = w.deleteCalls := by
    intro w
    rw [deleteCalls_runTask _ h.removeNew, deleteCalls_runTask _ h.leakCheck]
  by_cases hold : c.oldObjectOid ≠ {}
  · simp only [Cleanup.tasks, if_pos hold]
    exact ⟨_, (hquiet _).trans (deleteCalls_runTask _ h.markOld w), rfl⟩
  · simp only [Cleanup.tasks, if_neg hold]
    exact ⟨_, hquiet w, rfl⟩

/-- The calls of the cleanup of a part. -/
def partCalls (c : PartContext) (uploadPvid : M0Fid) (delayedDelete : Bool) :
    Outcome → List DeleteCall
  | .stored =>
    match c.oldPart with
    | none => []
    | some (oid, layoutId, _, _) =>
      if oid ≠ {} ∧ delayedDelete = false then [⟨oid, layoutId, uploadPvid⟩] else []
  | .rollback => [⟨c.newObjectOid, c.layoutId, uploadPvid⟩]
  | .nothingToUndo => []

theorem noDelete_put (pairs : Puts) : NoDelete [.putKeyval pairs] := by
  intro op hop call
  rw [mem_singleton.mp hop]
  exact fun h => nomatch h

theorem noDelete_deleteKeyval (keys : List Bytes) : NoDelete [.deleteKeyval keys] := by
  intro op hop call
  rw [mem_singleton.mp hop]
  exact fun h => nomatch h

theorem noDelete_removeOldOid (c : PartContext) :
    NoDelete (S3PutMultiObjectAction.removeOldOidProbableRecord c) := by
  unfold S3PutMultiObjectAction.removeOldOidProbableRecord
  split
  · intro op hop
    cases hop
  · exact noDelete_deleteKeyval _

theorem deleteCalls_deleteOldObject (c : PartContext) (uploadPvid : M0Fid) (delayedDelete : Bool)
    (answers : Nat → Answer) (w : World)
    (hold : CortxS3.S3PutMultiObjectAction.oldObjectOid c ≠ {}) :
    (runTask answers (S3PutMultiObjectAction.deleteOldObject c uploadPvid delayedDelete)
      w).deleteCalls = w.deleteCalls ++ partCalls c uploadPvid delayedDelete .stored := by
  unfold S3PutMultiObjectAction.deleteOldObject partCalls
  unfold CortxS3.S3PutMultiObjectAction.oldObjectOid at hold
  cases hpart : c.oldPart with
  | none =>
    rw [hpart] at hold
    exact absurd rfl hold
  | some old =>
    obtain ⟨oid, layoutId, pvidStr, size⟩ := old
    have hoid : oid ≠ {} := by
      rw [hpart] at hold
      exact hold
    cases delayedDelete with
    | true => simp [runTask]
    | false =>
      simp only [Bool.false_eq_true, if_false, hoid, ne_eq, not_false_eq_true, true_and, if_true]
      exact deleteCalls_runTask_deleteObject (noDelete_removeOldOid c) w

theorem quiet_part (c : PartContext) (uploadPvid : M0Fid) (delayedDelete : Bool) :
    Quiet (S3PutMultiObjectAction.cleanup c uploadPvid delayedDelete) where
  markOld := noDelete_put _
  leakCheck := noDelete_put _
  removeNew := noDelete_deleteKeyval _
  markNew := noDelete_put _
  removeOld := noDelete_removeOldOid c

theorem partCalls_stored_of_none {c : PartContext}
    (hold : ¬ CortxS3.S3PutMultiObjectAction.oldObjectOid c ≠ {}) (uploadPvid : M0Fid)
    (delayedDelete : Bool) : partCalls c uploadPvid delayedDelete .stored = [] := by
  unfold CortxS3.S3PutMultiObjectAction.oldObjectOid at hold
  unfold partCalls
  cases hpart : c.oldPart with
  | none => rfl
  | some old =>
    obtain ⟨oid, layoutId, pvidStr, size⟩ := old
    rw [hpart] at hold
    exact if_neg fun h => hold h.1

/-- **Whatever is answered, the cleanup of a part makes these calls.** -/
theorem deleteCalls_start (c : PartContext) (uploadPvid : M0Fid) (delayedDelete : Bool)
    (outcome : Outcome) (answers : Nat → Answer) (w : World) :
    (start answers ((S3PutMultiObjectAction.cleanup c uploadPvid delayedDelete).tasks outcome)
      w).deleteCalls = w.deleteCalls ++ partCalls c uploadPvid delayedDelete outcome := by
  have hquiet := quiet_part c uploadPvid delayedDelete
  cases outcome with
  | nothingToUndo => exact (append_nil _).symm
  | rollback =>
    obtain ⟨w', hw', hrun⟩ := start_rollback hquiet answers w
    rw [hrun, ← hw']
    exact deleteCalls_runTask_deleteObject (noDelete_deleteKeyval _) w'
  | stored =>
    obtain ⟨w', hw', hrun⟩ := start_stored hquiet answers w
    rw [hrun, ← hw']
    by_cases hold : CortxS3.S3PutMultiObjectAction.oldObjectOid c ≠ {}
    · exact (congrArg World.deleteCalls (if_pos hold)).trans
        (deleteCalls_deleteOldObject c uploadPvid delayedDelete answers w' hold)
    · rw [partCalls_stored_of_none hold, append_nil]
      exact congrArg World.deleteCalls (if_neg hold)

/-- The pool version of the upload is that of the part which is deleted. -/
def PoolVersionsAgree (c : PartContext) (uploadPvid : M0Fid) (delayedDelete : Bool) :
    Outcome → Prop
  | .stored => ∀ oid layoutId pvidStr size, c.oldPart = some (oid, layoutId, pvidStr, size) →
      oid ≠ {} → delayedDelete = false → S3M0Uint128Helper.toM0Fid pvidStr = uploadPvid
  | .rollback => S3M0Uint128Helper.toM0Fid c.pvidStr = uploadPvid
  | .nothingToUndo => True

theorem asCreated_part_iff {c : PartContext}
    (hnew : created c.newObjectOid = some (c.layoutId, toM0Fid c.pvidStr))
    (hold : ∀ oid layoutId pvidStr size, c.oldPart = some (oid, layoutId, pvidStr, size) →
      oid ≠ {} → created oid = some (layoutId, toM0Fid pvidStr))
    (uploadPvid : M0Fid) (delayedDelete : Bool) (outcome : Outcome) :
    (∀ call ∈ partCalls c uploadPvid delayedDelete outcome, call.AsCreated created) ↔
      PoolVersionsAgree c uploadPvid delayedDelete outcome := by
  cases outcome with
  | nothingToUndo => simp [partCalls, PoolVersionsAgree]
  | rollback => simp [partCalls, PoolVersionsAgree, DeleteCall.AsCreated, hnew]
  | stored =>
    unfold partCalls PoolVersionsAgree
    cases hpart : c.oldPart with
    | none => simp
    | some old =>
      obtain ⟨oid, layoutId, pvidStr, size⟩ := old
      constructor
      · intro h oid' layoutId' pvidStr' size' heq hoid hdelayed
        simp only [Option.some.injEq, Prod.mk.injEq] at heq
        obtain ⟨rfl, rfl, rfl, rfl⟩ := heq
        dsimp only at h
        rw [if_pos ⟨hoid, hdelayed⟩] at h
        have hright := h _ mem_cons_self
        rw [DeleteCall.AsCreated, hold oid layoutId pvidStr size hpart hoid] at hright
        exact (Prod.mk.inj (some.inj hright)).2
      · intro h call hcall
        dsimp only at hcall
        split at hcall
        · next hdel =>
            rw [mem_singleton.mp hcall, DeleteCall.AsCreated,
              hold oid layoutId pvidStr size hpart hdel.1,
              h oid layoutId pvidStr size rfl hdel.1 hdel.2]
        · cases hcall

/-! ### The result -/

/-- **Parts are deleted as they were created exactly when they have the pool version that the
metadata of the upload has**: every part of an upload that is given up, the part that is replaced,
and the part that is undone. -/
theorem deletesAsCreated_iff (created : M0Uint128 → Option (Int × M0Fid)) (uploadPvidStr : Bytes)
    (index : Bytes → Option S3ProbableDeleteRecord) :
    (∀ r : Request, 1 ≤ r.fetchCount →
      (∀ p ∈ r.parts.parts,
        created p.oid = some (p.layoutId, S3M0Uint128Helper.toM0Fid p.pvidStr)) →
      ((∀ s, Runs.Reachable (step r) (fun _ _ => True) (S3AbortMultipartAction.start index) s →
          ∀ call ∈ abortedPartCall (S3M0Uint128Helper.toM0Fid uploadPvidStr) s,
            call.AsCreated created) ↔
        ∀ p ∈ r.parts.parts,
          S3M0Uint128Helper.toM0Fid p.pvidStr = S3M0Uint128Helper.toM0Fid uploadPvidStr)) ∧
    ∀ (c : PartContext) (delayedDelete : Bool) (state : S3PutPartActionState)
      (answers : Nat → Answer),
      created c.newObjectOid = some (c.layoutId, S3M0Uint128Helper.toM0Fid c.pvidStr) →
      (∀ oid layoutId pvidStr size, c.oldPart = some (oid, layoutId, pvidStr, size) →
        oid ≠ {} → created oid = some (layoutId, S3M0Uint128Helper.toM0Fid pvidStr)) →
      ((∀ call ∈ (start answers
          ((S3PutMultiObjectAction.cleanup c (S3M0Uint128Helper.toM0Fid uploadPvidStr)
            delayedDelete).tasks (S3PutMultiObjectAction.outcome state))
          { index := index }).deleteCalls, call.AsCreated created) ↔
        PoolVersionsAgree c (S3M0Uint128Helper.toM0Fid uploadPvidStr) delayedDelete
          (S3PutMultiObjectAction.outcome state)) := by
  constructor
  · intro r hfetch hrecorded
    exact asCreated_aborted_iff hfetch hrecorded _ index
  · intro c delayedDelete state answers hnew hold
    rw [deleteCalls_start, nil_append]
    exact asCreated_part_iff hnew hold _ delayedDelete _

/-- A pool version that Motr has given out. -/
def samplePvid : M0Fid := ⟨List.replicate 15 1 ++ [7], rfl⟩

/-- An upload of one part with that pool version. -/
def sampleAborted : Request where
  parts :=
    { entries := [(ascii "1", some {
        partNumber := 1
        oid := sampleOid 7
        layoutId := 9
        pvidStr := S3M0Uint128Helper.fidToString samplePvid
        contentLength := 4096 })]
      sorted := pairwise_singleton _ _
      named := by simp [ascii]
      bounded := by simp [S3AbortMultipartAction.maximumPartNumber]
      distinct := nodup_singleton _ }
  partIndexOid := sampleOid 2
  uploadOid := sampleOid 3
  fetchCount := 30

/-- The one object there is. -/
def sampleCreated (oid : M0Uint128) : Option (Int × M0Fid) :=
  if oid = sampleOid 7 then some (9, samplePvid) else none

/-- Such a part that is uploaded for the first time. -/
def samplePart : PartContext where
  bucket := sampleBucket
  objectName := ascii "film"
  oldPart := none
  newObjectOid := sampleOid 7
  layoutId := 9
  pvidStr := S3M0Uint128Helper.fidToString samplePvid
  partIndexOid := sampleOid 2
  partNumber := 1
  contentLength := 4096

theorem sampleCreated_recorded :
    sampleCreated (sampleOid 7) =
      some (9, toM0Fid (fidToString samplePvid)) := by
  decide

/-- The upload is given the pool version of its part. -/
theorem deletesAsCreated_iff_onePart :
    (∀ s, Runs.Reachable (step sampleAborted) (fun _ _ => True)
        (S3AbortMultipartAction.start fun _ => none) s →
      ∀ call ∈ abortedPartCall samplePvid s, call.AsCreated sampleCreated) ∧
    (start (fun _ => .ok)
        ((S3PutMultiObjectAction.cleanup samplePart samplePvid false).tasks
          (S3PutMultiObjectAction.outcome .writeFailed))
        { index := fun _ => none }).deleteCalls = [⟨sampleOid 7, 9, samplePvid⟩] ∧
    ∀ call ∈ (start (fun _ => .ok)
        ((S3PutMultiObjectAction.cleanup samplePart samplePvid false).tasks
          (S3PutMultiObjectAction.outcome .writeFailed))
        { index := fun _ => none }).deleteCalls, call.AsCreated sampleCreated := by
  have hpvid : samplePvid = S3M0Uint128Helper.toM0Fid (fidToString samplePvid) := by decide
  refine ⟨?_, by decide, ?_⟩ <;> rw [hpvid]
  · refine ((deletesAsCreated_iff sampleCreated _ fun _ => none).1 sampleAborted (by decide)
      ?_).mpr ?_ <;> intro p hp <;> obtain rfl := mem_singleton.mp hp
    · exact sampleCreated_recorded
    · rfl
  · exact ((deletesAsCreated_iff sampleCreated _ fun _ => none).2 samplePart false .writeFailed
      (fun _ => .ok) sampleCreated_recorded nofun).mpr rfl

/-- The metadata of an upload has no pool version, and the part is deleted with none. -/
theorem not_deletesAsCreated_onePart :
    ¬ ∀ s, Runs.Reachable (step sampleAborted) (fun _ _ => True)
        (S3AbortMultipartAction.start fun _ => none) s →
        ∀ call ∈ abortedPartCall (S3M0Uint128Helper.toM0Fid []) s,
          call.AsCreated sampleCreated := by
  intro h
  have h₆ : Runs.Reachable (step sampleAborted) (fun _ _ => True)
      (S3AbortMultipartAction.start fun _ => none) _ :=
    Runs.reachable_of_run [.ok, .ok, .ok, .ok, .ok, .ok] .start (by simp [Runs.AllOk]) rfl
  have hcall := h _ h₆ _ (mem_def.mpr rfl)
  have hpvid : (S3M0Uint128Helper.toM0Fid []) ≠ samplePvid := by decide
  exact hpvid (Prod.mk.inj (some.inj hcall)).2.symm

end PutCleanup

end CortxS3
