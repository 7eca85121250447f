/-
No Motr object is forgotten by the delete of several objects.

Once the metadata of an object is gone, nothing leads to its Motr objects but the records in the
probable-delete index.  So as long as these objects are not deleted the records have to stay.

The invariant goes through the phases of a batch.  The Motr objects of everything removed so far have
records, and they are on the list of what will be deleted (`Safe`).  For the batch at hand the records
are first in the list to be put, then in the index, and the identifiers move to the list only when
the extended metadata is deleted.  At the end they have been deleted or the records are still there.

The conditions (`RemembersWhen`) say of each answer of Motr that it is not one of those the action
mishandles.
-/
import CortxS3.Proofs.DeleteMultipleObjectsAction

namespace CortxS3

open List

namespace S3DeleteMultipleObjectsAction

open S3M0Uint128Helper

/-! ### Records -/

/-- There is a record for a Motr object. -/
def HasRecord (w : World) (oid : M0Uint128) : Prop :=
  ∃ key record, w.probableDeleteIndex key = some record ∧ record.currentObjectOid = oid

/-- There is one under a key with a size prefix. -/
def Recorded (w : World) (oid : M0Uint128) : Prop :=
  ∃ size record, w.probableDeleteIndex (sizeBasedBucketingOfObjects (toString oid) size) =
    some record ∧ record.currentObjectOid = oid

variable {w : World}

variable {oid : M0Uint128}

theorem Recorded.hasRecord (h : Recorded w oid) : HasRecord w oid := by
  obtain ⟨size, record, hrecord, hoid⟩ := h
  exact ⟨_, record, hrecord, hoid⟩

/-- The key of a record has the prefix and the identifier of its object. -/
def Keyed (record : S3ProbableDeleteRecord) : Prop :=
  ∃ size, record.recordKey = sizeBasedBucketingOfObjects (toString record.currentObjectOid) size

theorem toString_injective : Function.Injective toString := by
  intro a b h
  rw [← toM0Uint128_toString a, ← toM0Uint128_toString b, h]

theorem sizeBasedBucketing_injective {a b : M0Uint128} {n n' : Nat}
    (h : sizeBasedBucketingOfObjects (toString a) n = sizeBasedBucketingOfObjects (toString b) n') :
    a = b :=
  toString_injective (List.cons.inj h).2

variable {records : List S3ProbableDeleteRecord}

variable {bucket : BucketIndexes} {m : S3ObjectMetadata}

theorem objectRecords_parts {ext : S3ObjectExtendedMetadata} (hm : m.numberOfFragments ≠ 0)
    (hext : m.extended = some ext) (h : objectRecords bucket m = some records) :
    List.Forall₂ (fun i record => ∃ frag, S3DeleteObjectAction.fragmentAt m (i + 1) = some frag ∧
      record = partRecord bucket m frag) (List.range (totalObjects m)) records := by
  unfold objectRecords at h
  rw [if_neg hm, if_neg (by rw [hext]; exact nofun)] at h
  refine (forall₂_of_mapM h).imp ?_
  intro i record hrecord
  obtain ⟨frag, hfrag, hpart⟩ := Option.map_eq_some_iff.mp hrecord
  exact ⟨frag, hfrag, hpart.symm⟩

theorem keyed_objectRecords (h : objectRecords bucket m = some records) :
    ∀ record ∈ records, Keyed record := by
  intro record hrecord
  by_cases hm : m.numberOfFragments = 0
  · unfold objectRecords at h
    rw [if_pos hm] at h
    cases h
    rw [mem_singleton.mp hrecord]
    exact ⟨_, rfl⟩
  · cases hext : m.extended with
    | none =>
      unfold objectRecords at h
      rw [if_neg hm, if_pos hext] at h
      cases h
      cases hrecord
    | some ext =>
      obtain ⟨i, _, frag, _, rfl⟩ :=
        exists_left_of_forall₂ (objectRecords_parts hm hext h) record hrecord
      exact ⟨_, rfl⟩

/-! ### Putting records -/

variable {stored : Bytes → Bool}

variable {deleteList : List (Bytes × S3ProbableDeleteRecord)} {w' : World}

theorem recorded_putPairs (hsorted : OrderedIndex.Sorted deleteList)
    (hkeyed : ∀ p ∈ deleteList, p.1 = p.2.recordKey ∧ Keyed p.2)
    (hput : w'.probableDeleteIndex = putPairs deleteList stored w.probableDeleteIndex)
    (h : Recorded w oid) : Recorded w' oid := by
  obtain ⟨size, record, hrecord, hoid⟩ := h
  refine ⟨size, ?_⟩
  rw [hput]
  unfold putPairs
  split
  · cases hget : SortedMap.get (sizeBasedBucketingOfObjects (toString oid) size) deleteList with
    | none => exact ⟨record, by rw [Option.none_or]; exact hrecord, hoid⟩
    | some record' =>
      have hmem := (SortedMap.get_eq_some_iff hsorted).mp hget
      obtain ⟨hkey, size', hsize'⟩ := hkeyed _ hmem
      refine ⟨record', rfl, ?_⟩
      rw [hsize'] at hkey
      exact (sizeBasedBucketing_injective hkey).symm
  · exact ⟨record, hrecord, hoid⟩

theorem putPairs_eq_some {α : Type} {pairs : List (Bytes × α)} {index : Bytes → Option α}
    {k : Bytes} {v : α} (hsorted : OrderedIndex.Sorted pairs)
    (h : putPairs pairs stored index k = some v) : k ∈ pairs.map (·.1) ∨ index k = some v := by
  unfold putPairs at h
  split at h
  · cases hget : SortedMap.get k pairs with
    | none =>
      rw [hget, Option.none_or] at h
      exact .inr h
    | some v' =>
      exact .inl (mem_map.mpr ⟨(k, v'), (SortedMap.get_eq_some_iff hsorted).mp hget, rfl⟩)
  · exact .inr h

theorem recorded_of_stored (hsorted : OrderedIndex.Sorted deleteList)
    (hkeyed : ∀ p ∈ deleteList, p.1 = p.2.recordKey ∧ Keyed p.2)
    (hput : w'.probableDeleteIndex = putPairs deleteList stored w.probableDeleteIndex)
    {p : Bytes × S3ProbableDeleteRecord} (hp : p ∈ deleteList) (hstored : stored p.1 = true) :
    Recorded w' p.2.currentObjectOid := by
  obtain ⟨hkey, size, hsize⟩ := hkeyed p hp
  refine ⟨size, p.2, ?_, rfl⟩
  rw [hput, ← hsize, ← hkey]
  unfold putPairs
  rw [if_pos hstored, (SortedMap.get_eq_some_iff hsorted).mpr hp, Option.some_or]

theorem exists_mem_ofWrites (hkeyed : ∀ record ∈ records, Keyed record)
    {record : S3ProbableDeleteRecord} (h : record ∈ records) :
    ∃ p ∈ SortedMap.ofWrites (ownKeys records), p.2.currentObjectOid = record.currentObjectOid := by
  cases hlast : SortedMap.lastWrite record.recordKey (ownKeys records) with
  | none =>
    exact absurd rfl ((SortedMap.lastWrite_eq_none_iff _ _).mp hlast (record.recordKey, record)
      (mem_map.mpr ⟨record, h, rfl⟩))
  | some record' =>
    refine ⟨(record.recordKey, record'), SortedMap.mem_ofWrites.mpr hlast, ?_⟩
    obtain ⟨r, hr, heq⟩ := mem_map.mp (SortedMap.mem_of_lastWrite hlast)
    obtain ⟨hkey, rfl⟩ := Prod.mk.inj heq
    obtain ⟨size, hsize⟩ := hkeyed _ hr
    obtain ⟨size', hsize'⟩ := hkeyed _ h
    rw [hsize, hsize'] at hkey
    exact sizeBasedBucketing_injective hkey

theorem keyed_ofWrites (hkeyed : ∀ record ∈ records, Keyed record) :
    ∀ p ∈ SortedMap.ofWrites (ownKeys records), p.1 = p.2.recordKey ∧ Keyed p.2 := by
  intro p hp
  obtain ⟨record, hrecord, rfl⟩ := mem_map.mp (SortedMap.mem_of_mem_ofWrites hp)
  exact ⟨rfl, hkeyed record hrecord⟩

/-! ### The invariant -/

/-- A Motr object of an object whose metadata was removed. -/
def Owed (w₀ w : World) (oid : M0Uint128) : Prop :=
  ∃ k m, w₀.objectList k = some (.object m) ∧ w.objectList k = none ∧ oid ∈ motrObjects w₀ m

/-- What a batch will add to the list of objects to delete. -/
def pendingOids (s : State) : List M0Uint128 :=
  s.objectsMetadata.flatMap fun m => m.oid :: s.extendedOidsToDelete

/-- The extended metadata of an object in parts is loaded. -/
def Loaded (w₀ : World) (m : S3ObjectMetadata) : Prop :=
  m.numberOfFragments ≠ 0 → ∃ ext, m.extended = some ext ∧ ∀ i < m.numberOfFragments, ∃ frag,
    S3DeleteObjectAction.fragmentAt m (i + 1) = some frag ∧
      w₀.extendedIndex (partKey m (i + 1)) = some frag.motrOID

/-- Between batches: everything removed is recorded and will be deleted. -/
def Safe (w₀ : World) (s : State) : Prop :=
  ∀ oid, Owed w₀ s.world oid → Recorded s.world oid ∧ oid ∈ s.oidsToDelete

/-- The Motr objects of the batch are in a list of records and will be deleted. -/
def BatchListed (w₀ : World) (s : State) (deleteList : List (Bytes × S3ProbableDeleteRecord)) :
    Prop :=
  ∀ m ∈ s.objectsMetadata, ∀ oid ∈ motrObjects w₀ m,
    (∃ p ∈ deleteList, p.2.currentObjectOid = oid) ∧ oid ∈ pendingOids s

/-- The Motr objects of the batch are recorded and will be deleted. -/
def BatchRecorded (w₀ : World) (s : State) : Prop :=
  ∀ m ∈ s.objectsMetadata, ∀ oid ∈ motrObjects w₀ m, Recorded s.world oid ∧ oid ∈ pendingOids s

/-- **No Motr object is forgotten**, phase by phase. -/
def Remembers (w₀ : World) (s : State) : Prop :=
  match s.phase with
  | .fetchObjectsExtendedInfo before _ _ => Safe w₀ s ∧ ∀ m ∈ before, Loaded w₀ m
  | .putProbableDelete deleteList =>
    Safe w₀ s ∧ OrderedIndex.Sorted deleteList ∧
      (∀ p ∈ deleteList, p.1 = p.2.recordKey ∧ Keyed p.2) ∧ BatchListed w₀ s deleteList
  | .deleteObjectsMetadata => Safe w₀ s ∧ BatchRecorded w₀ s
  | .deleteExtendedMetadata =>
    ∀ oid, Owed w₀ s.world oid →
      Recorded s.world oid ∧ (oid ∈ s.oidsToDelete ∨ oid ∈ pendingOids s)
  | .deleteProbable => ∀ oid, Owed w₀ s.world oid → oid ∈ s.world.deleted
  | .done => ∀ oid, Owed w₀ s.world oid → oid ∈ s.world.deleted ∨ HasRecord s.world oid
  | _ => Safe w₀ s

/-- The answers of Motr that the action handles: extended metadata is loaded, and it is that of the
object; a put that succeeds has stored every record; a delete of metadata that fails has removed
nothing; and a delete of objects that is launched deletes them all. -/
def RemembersWhen (s : State) (e : Event) : Prop :=
  match s.phase, e with
  | .fetchObjectsExtendedInfo _ m _, .extendedLoaded ext =>
    ∃ own, ext = some own ∧ LoadsOwn s.world m own
  | .putProbableDelete deleteList, .probablePut .success stored =>
    ∀ p ∈ deleteList, stored p.1 = true
  | .deleteObjectsMetadata, .metadataDeleted .failed left =>
    ∀ m ∈ s.objectsMetadata, left m.objectName = true
  | .deleteObjects, .objectsDeleted failed _ => ∀ oid ∈ s.oidsToDelete, failed oid = false
  | _, _ => True

section Steps

variable {r : Request} {w₀ : World} {s t : State}

theorem Tail.remembers (h : Tail r s t) (hsafe : Safe w₀ s) : Remembers w₀ t := by
  have hsafe' : Safe w₀ t := by
    unfold Safe
    rw [h.world, h.oidsToDelete]
    exact hsafe
  unfold Remembers
  rcases h.phase with hp | hp | ⟨hp, _⟩ | ⟨hp, hnil⟩ | ⟨hp, _⟩ <;> rw [hp]
  · exact hsafe'
  · exact hsafe'
  · intro oid howed
    exact .inr (hsafe' oid howed).1.hasRecord
  · intro oid howed
    have hmem := (hsafe' oid howed).2
    rw [h.oidsToDelete, hnil] at hmem
    cases hmem
  · exact hsafe'

theorem remembers_addObjectOid (hown : OwnName w₀) (hsafe : Safe w₀ s)
    (hstored : ∀ m ∈ s.objectsMetadata, Stored w₀ m)
    (hloaded : ∀ m ∈ s.objectsMetadata, Loaded w₀ m) :
    Remembers w₀ (addObjectOidToProbableDeadOidList r s) := by
  rcases addObjectOid_cases (r := r) s with h | ⟨records, hrecords, h⟩ <;> rw [h]
  · exact hsafe
  have hkeyed : ∀ record ∈ records.flatten, Keyed record := by
    intro record hrecord
    obtain ⟨rs, hrs, hrecord⟩ := mem_flatten.mp hrecord
    obtain ⟨m, _, hm⟩ := exists_left_of_forall₂ hrecords rs hrs
    exact keyed_objectRecords hm record hrecord
  refine ⟨hsafe, SortedMap.sorted_ofWrites _, keyed_ofWrites hkeyed, ?_⟩
  intro m hm oid hoid
  obtain ⟨rs, hzip, hrs⟩ := exists_right_of_forall₂ hrecords m hm
  have hlisted : ∀ record ∈ rs, ∃ p ∈ SortedMap.ofWrites (ownKeys records.flatten),
      p.2.currentObjectOid = record.currentObjectOid := fun record hrecord =>
    exists_mem_ofWrites hkeyed
      (mem_flatten.mpr ⟨rs, (of_mem_zip hzip).2, hrecord⟩)
  unfold motrObjects at hoid
  by_cases hfrag : m.numberOfFragments = 0
  · -- the object in one piece
    rw [if_pos hfrag] at hoid
    rw [mem_singleton.mp hoid]
    unfold objectRecords at hrs
    rw [if_pos hfrag] at hrs
    cases hrs
    exact ⟨hlisted _ (mem_singleton_self _), mem_flatMap.mpr ⟨m, hm, mem_cons_self⟩⟩
  · -- one of the parts
    rw [if_neg hfrag] at hoid
    obtain ⟨key, hkey, hoid⟩ := mem_filterMap.mp hoid
    obtain ⟨i, hi, rfl⟩ := mem_map.mp hkey
    obtain ⟨ext, hext, hfragments⟩ := hloaded m hm hfrag
    obtain ⟨frag, hat, hindex⟩ := hfragments i (mem_range.mp hi)
    rw [hindex] at hoid
    cases hoid
    have htotal := totalObjects_of_stored hown (hstored m hm) hfrag
    obtain ⟨record, hrecord, frag', hat', rfl⟩ :=
      exists_right_of_forall₂ (objectRecords_parts hfrag hext hrs) i (by rw [htotal]; exact hi)
    rw [hat] at hat'
    cases hat'
    have hmem := (of_mem_zip hrecord).2
    refine ⟨hlisted _ hmem, mem_flatMap.mpr ⟨m, hm, mem_cons_of_mem _ ?_⟩⟩
    refine mem_append_right _ (mem_flatMap.mpr ⟨(m, rs), hzip, ?_⟩)
    unfold objectExtendedOids
    rw [if_neg hfrag]
    exact mem_map.mpr ⟨_, hmem, rfl⟩

theorem remembers_fetchObjectsExtendedInfo (hown : OwnName w₀) {before after : List S3ObjectMetadata}
    (hsafe : Safe w₀ s) (hstored : ∀ m ∈ before ++ after, Stored w₀ m)
    (hloaded : ∀ m ∈ before, Loaded w₀ m) :
    Remembers w₀ (fetchObjectsExtendedInfo r s before after) := by
  have hsimple : ∀ {l : List S3ObjectMetadata}, (∀ m ∈ l, m.numberOfFragments = 0) →
      ∀ m ∈ before ++ l, Loaded w₀ m := by
    intro l hl m hm
    rcases mem_append.mp hm with hm | hm
    · exact hloaded m hm
    · exact fun hne => absurd (hl m hm) hne
  rcases fetchObjectsExtendedInfo_cases (r := r) s after before with
    ⟨simple, m, rest, _, hall, _, h⟩ | ⟨hall, h⟩ <;> rw [h]
  · exact ⟨hsafe, hsimple hall⟩
  · exact remembers_addObjectOid hown hsafe hstored (hsimple hall)

variable {left : Bytes → Bool}

/-- A delete of metadata makes nothing owed but what the batch has recorded. -/
theorem owed_afterMetadata (hsafe : Safe w₀ s) (hbatch : BatchRecorded w₀ s)
    (hstored : ∀ m ∈ s.objectsMetadata, Stored w₀ m) {oid : M0Uint128}
    (h : Owed w₀ (afterMetadata s left).world oid) :
    Recorded s.world oid ∧ (oid ∈ s.oidsToDelete ∨ oid ∈ pendingOids s) := by
  obtain ⟨k, m, hm, hgone, hoid⟩ := h
  rcases removeKeys_eq_none hgone with ⟨hmem, _⟩ | hgone
  · obtain ⟨m', hm', rfl⟩ := mem_map.mp hmem
    obtain ⟨m₀, hm₀, hbare⟩ := hstored m' hm'
    rw [hm] at hm₀
    cases hm₀
    rw [← motrObjects_congr w₀ hbare] at hoid
    obtain ⟨hrecorded, hpending⟩ := hbatch m' hm' oid hoid
    exact ⟨hrecorded, .inr hpending⟩
  · obtain ⟨hrecorded, hlisted⟩ := hsafe oid ⟨k, m, hm, hgone, hoid⟩
    exact ⟨hrecorded, .inl hlisted⟩

theorem safe_finishedState (h : ∀ oid, Owed w₀ s.world oid →
    Recorded s.world oid ∧ (oid ∈ s.oidsToDelete ∨ oid ∈ pendingOids s)) :
    Safe w₀ (finishedState s) := by
  intro oid howed
  obtain ⟨hrecorded, hlisted⟩ := h oid howed
  exact ⟨hrecorded, mem_append.mpr hlisted⟩

theorem remembers_metadataDeleted {result : OpResult} (hsafe : Safe w₀ s)
    (hbatch : BatchRecorded w₀ s) (hstored : ∀ m ∈ s.objectsMetadata, Stored w₀ m)
    (hok : result = .failed → ∀ m ∈ s.objectsMetadata, left m.objectName = true) :
    Remembers w₀ (metadataDeleted r s result left) := by
  cases result with
  | failedToLaunch => exact (tail_metadataDeleted_failedToLaunch s left).remembers hsafe
  | failed =>
    apply (tail_metadataDeleted_failed s left).remembers
    have hsame : removeKeys (s.objectsMetadata.map (·.objectName)) left s.world.objectList =
        s.world.objectList := by
      apply removeKeys_of_left
      intro k hk hgone
      obtain ⟨m, hm, rfl⟩ := mem_map.mp hk
      rw [hok rfl m hm] at hgone
      cases hgone
    unfold afterMetadata
    rw [hsame]
    exact hsafe
  | success =>
    have howed : ∀ oid, Owed w₀ (afterMetadata s left).world oid → Recorded s.world oid ∧
        (oid ∈ s.oidsToDelete ∨ oid ∈ pendingOids s) :=
      fun oid => owed_afterMetadata hsafe hbatch hstored
    rcases metadataDeleted_success_cases s left with ⟨_, h⟩ | h
    · exact h.remembers (safe_finishedState howed)
    · rw [h]
      exact howed

theorem remembers_objectsDeleted {failed missing : M0Uint128 → Bool} (hsafe : Safe w₀ s)
    (hok : ∀ oid ∈ s.oidsToDelete, failed oid = false) :
    Remembers w₀ (objectsDeleted s failed missing) := by
  have hdeleted : ∀ oid, Owed w₀ s.world oid →
      oid ∈ s.world.deleted ++ s.oidsToDelete.filter (!failed ·) := by
    intro oid howed
    have hmem := (hsafe oid howed).2
    refine mem_append_right _ (mem_filter.mpr ⟨hmem, ?_⟩)
    rw [hok oid hmem]
    rfl
  obtain ⟨l, heq⟩ := objectsDeleted_eq s failed missing
  rw [heq]
  unfold cleanupOidFromProbableDeadOidList
  split
  · exact fun oid howed => .inl (hdeleted oid howed)
  · exact hdeleted

theorem remembers_start (w : World) : Remembers w (start r w) := by
  apply (tail_fetchObjectsInfo _).remembers
  rintro oid ⟨k, m, hm, hgone, _⟩
  rw [hm] at hgone
  cases hgone

theorem remembers_getKeyvalSuccessful (hown : OwnName w₀) (hbase : Base w₀ s) (hsafe : Safe w₀ s)
    (unreadable : Bytes → Bool) : Remembers w₀ (getKeyvalSuccessful r s unreadable) := by
  rcases getKeyvalSuccessful_cases (r := r) s unreadable with ⟨_, heq⟩ | ⟨_, heq⟩ <;> rw [heq]
  · exact (tail_fetchRemaining _).remembers hsafe
  · rcases fetchObjectsInfoSuccessful_cases (r := r) s (readPairs s unreadable) with
      ⟨_, heq⟩ | ⟨_, heq⟩ <;> rw [heq]
    · exact (tail_fetchRemainingOrFail _).remembers hsafe
    · exact remembers_fetchObjectsExtendedInfo hown hsafe
        (fun m hm => stored_of_mem_objects hown hbase.objectList hm) nofun

/-- **Every step the action handles keeps it.** -/
theorem remembers_step (hown : OwnName w₀) {e : Event} (hbase : Base w₀ s) (h : Remembers w₀ s)
    (hok : RemembersWhen s e) (hstep : step r s e = some t) : Remembers w₀ t := by
  have hstored := hbase.stored
  unfold batch at hstored
  unfold Remembers at h
  unfold RemembersWhen at hok
  unfold step at hstep
  split at hstep <;> cases hstep
  · next hphase =>
      rw [hphase] at h
      exact remembers_getKeyvalSuccessful hown hbase h _
  · next hphase =>
      rw [hphase] at h
      exact (tail_fetchObjectsInfoFailed _ _).remembers h
  · next before m after ext hphase =>
      simp only [hphase] at h hok hstored
      obtain ⟨hsafe, hloaded⟩ := h
      obtain ⟨own, rfl, hload⟩ := hok
      apply remembers_fetchObjectsExtendedInfo hown hsafe
      · intro m' hm'
        rw [append_assoc] at hm'
        rcases mem_append.mp hm' with hm' | hm'
        · exact hstored m' (mem_append_left _ hm')
        · rcases mem_cons.mp hm' with rfl | hm'
          · exact hstored m (mem_append_right _ mem_cons_self)
          · exact hstored m' (mem_append_right _ (mem_cons_of_mem _ hm'))
      · intro m' hm'
        rcases mem_append.mp hm' with hm' | hm'
        · exact hloaded m' hm'
        · rw [mem_singleton.mp hm']
          intro _
          refine ⟨own, rfl, fun i hi => ?_⟩
          obtain ⟨frag, hfrag, hindex⟩ := hload i hi
          exact ⟨frag, hfrag, hbase.extendedIndex _ _ hindex⟩
  · next deleteList result stored hphase =>
      simp only [hphase] at h hok hstored
      obtain ⟨hsafe, hsorted, hkeyed, hlisted⟩ := h
      cases result with
      | failedToLaunch => exact (tail_sendResponse _).remembers hsafe
      | failed =>
        apply (tail_sendResponse _).remembers
        intro oid howed
        obtain ⟨hrecorded, hmem⟩ := hsafe oid howed
        exact ⟨recorded_putPairs hsorted hkeyed rfl hrecorded, hmem⟩
      | success =>
        refine ⟨fun oid howed => ?_, fun m hm oid hoid => ?_⟩
        · obtain ⟨hrecorded, hmem⟩ := hsafe oid howed
          exact ⟨recorded_putPairs hsorted hkeyed rfl hrecorded, hmem⟩
        · obtain ⟨⟨p, hp, rfl⟩, hpending⟩ := hlisted m hm oid hoid
          exact ⟨recorded_of_stored hsorted hkeyed rfl hp (hok p hp), hpending⟩
  · next result left hphase =>
      simp only [hphase] at h hok hstored
      apply remembers_metadataDeleted h.1 h.2 hstored
      rintro rfl
      exact hok
  · next hphase =>
      simp only [hphase] at h
      exact (tail_deleteExtendedMetadataSuccessful _).remembers (safe_finishedState h)
  · next hphase =>
      simp only [hphase] at h hok
      exact remembers_objectsDeleted h hok
  · next hphase =>
      simp only [hphase] at h
      exact fun oid howed => .inr (h oid howed).1.hasRecord
  · next hphase =>
      simp only [hphase] at h
      exact fun oid howed => .inl (h oid howed)

end Steps

/-- **No Motr object is forgotten.**  When a run in which Motr answers only as the action expects is
done, every Motr object of an object whose metadata it removed has been deleted or has a record. -/
theorem never_forgets {r : Request} {w₀ : World} {s : State} (hown : OwnName w₀)
    (h : Runs.Reachable (step r) RemembersWhen (start r w₀) s) (hdone : s.phase = .done) {k : Bytes}
    {m : S3ObjectMetadata} (hlisted : w₀.objectList k = some (.object m))
    (hgone : s.world.objectList k = none) :
    ∀ oid ∈ motrObjects w₀ m, oid ∈ s.world.deleted ∨ HasRecord s.world oid := by
  have hinv : Base w₀ s ∧ Remembers w₀ s := by
    refine Runs.Reachable.invariant (P := fun s => Base w₀ s ∧ Remembers w₀ s)
      ⟨base_start w₀, remembers_start w₀⟩ ?_ h
    rintro s e t ⟨hbase, hremembers⟩ hok hstep
    exact ⟨base_step hown hbase hstep, remembers_step hown hbase hremembers hok hstep⟩
  have hremembers := hinv.2
  unfold Remembers at hremembers
  rw [hdone] at hremembers
  intro oid hoid
  exact hremembers oid ⟨k, m, hlisted, hgone, hoid⟩

/-- A bucket with both objects. -/
def sampleListing : World where
  objectList k :=
    if k = ascii "film" then some (.object sampleFilm)
    else if k = ascii "movie" then some (.object (sampleObject "movie" 7 100))
    else none
  extendedIndex k := if k = partKey sampleFilm 1 then some sampleFilmPart else none
  probableDeleteIndex _ := none

/-- A request for some of its objects. -/
def sampleRequest (names : List String) (fetchCount : Nat) : Request where
  bucket := sampleBucket
  objectKeys := names.map ascii
  fetchCount := fetchCount
  delayedDelete := false

theorem sampleListing_cases {k : Bytes} {m : S3ObjectMetadata}
    (h : sampleListing.objectList k = some (.object m)) :
    (k = ascii "film" ∧ m = sampleFilm) ∨ (k = ascii "movie" ∧ m = sampleObject "movie" 7 100) := by
  unfold sampleListing at h
  dsimp only at h
  split at h
  · next hk =>
      cases h
      exact .inl ⟨hk, rfl⟩
  · split at h
    · next hk =>
        cases h
        exact .inr ⟨hk, rfl⟩
    · cases h

theorem ownName_sampleListing : OwnName sampleListing := by
  constructor
  · intro k m h
    rcases sampleListing_cases h with ⟨rfl, rfl⟩ | ⟨rfl, rfl⟩ <;> rfl
  · intro k m h hfrag
    rcases sampleListing_cases h with ⟨rfl, rfl⟩ | ⟨rfl, rfl⟩
    · exact Nat.one_ne_zero
    · exact absurd rfl hfrag

theorem loadsOwn_sampleFilm : LoadsOwn sampleListing sampleFilm sampleFilmExtended := by
  intro i hi
  obtain rfl := Nat.lt_one_iff.mp hi
  exact ⟨sampleFilmFragment, rfl, rfl⟩

/-- Each object is deleted with a batch of its own, and then their Motr objects are. -/
theorem never_forgets_two :
    ∃ s : State, s.phase = .done ∧ s.world.objectList (ascii "movie") = none ∧
      s.world.objectList (ascii "film") = none ∧
      ((sampleObject "movie" 7 100).oid ∈ s.world.deleted ∨
        HasRecord s.world (sampleObject "movie" 7 100).oid) ∧
      (sampleFilmPart ∈ s.world.deleted ∨ HasRecord s.world sampleFilmPart) := by
  have h₁ : Runs.Reachable (step (sampleRequest ["movie", "film"] 1)) RemembersWhen
      (start (sampleRequest ["movie", "film"] 1) sampleListing)
      (start (sampleRequest ["movie", "film"] 1) sampleListing) := .start
  have h₂ := h₁.step (.fetched fun _ => false) trivial rfl
  have h₃ := h₂.step (.probablePut .success fun _ => true) (fun _ _ => rfl) rfl
  have h₄ := h₃.step (.metadataDeleted .success fun _ => false) trivial rfl
  have h₅ := h₄.step (.fetched fun _ => false) trivial rfl
  have h₆ := h₅.step (.extendedLoaded (some sampleFilmExtended)) ⟨_, rfl, loadsOwn_sampleFilm⟩ rfl
  have h₇ := h₆.step (.probablePut .success fun _ => true) (fun _ _ => rfl) rfl
  have h₈ := h₇.step (.metadataDeleted .success fun _ => false) trivial rfl
  have h₉ := h₈.step (.extendedDeleted .success fun _ => false) trivial rfl
  have h₁₀ := h₉.step (.objectsDeleted (fun _ => false) fun _ => false) (fun _ _ => rfl) rfl
  have h₁₁ := h₁₀.step (.probableDeleted .success fun _ => false) trivial rfl
  exact ⟨_, rfl, rfl, rfl,
    never_forgets ownName_sampleListing h₁₁ rfl (k := ascii "movie") rfl rfl _
      (mem_singleton_self _),
    never_forgets ownName_sampleListing h₁₁ rfl (k := ascii "film") rfl rfl _
      (mem_singleton_self _)⟩

/-- The delete of the Motr object fails, and its record is removed all the same. -/
theorem not_never_forgets_failedDelete :
    ∃ s, Runs.Reachable (step (sampleRequest ["movie"] 30)) (fun _ _ => True)
        (start (sampleRequest ["movie"] 30) sampleListing) s ∧
      s.phase = .done ∧ s.world.objectList (ascii "movie") = none ∧
      (sampleObject "movie" 7 100).oid ∈ motrObjects sampleListing (sampleObject "movie" 7 100) ∧
      ¬ ((sampleObject "movie" 7 100).oid ∈ s.world.deleted ∨
        HasRecord s.world (sampleObject "movie" 7 100).oid) := by
  refine ⟨_, Runs.reachable_of_run
    [.fetched fun _ => false, .probablePut .success fun _ => true,
      .metadataDeleted .success fun _ => false, .objectsDeleted (fun _ => true) (fun _ => false),
      .probableDeleted .success fun _ => false] .start (by simp [Runs.AllOk]) rfl,
    rfl, rfl, mem_singleton_self _, ?_⟩
  rintro (h | ⟨key, record, hrecord, _⟩)
  · cases h
  · obtain ⟨hput, hleft⟩ := removeKeys_eq_some hrecord
    have hput : putPairs (SortedMap.ofWrites (ownKeys
        [S3DeleteObjectAction.addObjectOidToProbableDeadOidList sampleBucket
          (sampleObject "movie" 7 100)])) (fun _ => true) (fun _ => none) key = some record := hput
    rcases putPairs_eq_some (SortedMap.sorted_ofWrites _) hput with hkey | hkey
    · rw [mem_singleton.mp hkey] at hleft
      exact absurd (hleft (mem_singleton_self _)) nofun
    · cases hkey

end S3DeleteMultipleObjectsAction

end CortxS3
