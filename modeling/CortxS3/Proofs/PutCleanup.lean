/-
The record for the leak check, after the cleanup of a put.

When every operation of the cleanup succeeds the index changes as if the operations of all tasks
stood in one list (`index_start`).  Only three of them can touch the key of the record for the
leak check: its put, the removal of the first record of the new object that comes right after it,
and the removal of the records of the old object.  The two keys of the new object differ in the
character for the size alone.  An empty object has the same character in both, so the removal
takes the record that has just been put.
-/
import CortxS3.Server.PutCleanup
import CortxS3.Proofs.PartObjectRecords
import CortxS3.Proofs.DeleteMultipleObjectsRecords

namespace CortxS3.PutCleanup

open List S3PutChunkUploadObjectAction

open S3DeleteMultipleObjectsAction (putPairs removeKeys sizeBasedBucketing_injective)
open PartObjectRecords (OldObjects addPartObjects records_of_addPartObjects)

/-! ### Operations that succeed -/

/-- What an operation that succeeds does to the index. -/
def Op.apply (index : Bytes → Option S3ProbableDeleteRecord) :
    Op → Bytes → Option S3ProbableDeleteRecord
  | .putKeyval pairs => putPairs (SortedMap.ofWrites pairs) (fun _ => true) index
  | .deleteKeyval keys => removeKeys keys (fun _ => false) index
  | .deleteObject _ => index
  | .removeVersionMetadata => index

theorem index_perform (w : World) (op : Op) : (w.perform .ok op).index = op.apply w.index := by
  cases op <;> rfl

theorem index_runTask (task : Task) (w : World) :
    (runTask (fun _ => .ok) task w).index = task.foldl Op.apply w.index := by
  induction task generalizing w with
  | nil => rfl
  | cons op rest ih =>
    have hstep : runTask (fun _ => .ok) (op :: rest) w =
        runTask (fun _ => .ok) rest (w.perform .ok op) := rfl
    rw [hstep, ih, index_perform, foldl_cons]

/-- **The operations of all tasks act on the index as one list.** -/
theorem index_start (tasks : List Task) (w : World) :
    (start (fun _ => .ok) tasks w).index = tasks.flatten.foldl Op.apply w.index := by
  induction tasks generalizing w with
  | nil => rfl
  | cons task rest ih =>
    have hstep : start (fun _ => .ok) (task :: rest) w =
        start (fun _ => .ok) rest (runTask (fun _ => .ok) task w) := rfl
    rw [hstep, ih, index_runTask, flatten_cons, foldl_append]

theorem putPairs_singleton (p : Bytes × S3ProbableDeleteRecord)
    (index : Bytes → Option S3ProbableDeleteRecord) (k : Bytes) :
    putPairs (SortedMap.ofWrites [p]) (fun _ => true) index k =
      if k = p.1 then some p.2 else index k := by
  have hone : SortedMap.ofWrites [p] = [p] := rfl
  rw [putPairs, if_pos rfl, hone]
  by_cases hkey : k = p.1
  · have hget : SortedMap.get k [p] = some p.2 := by
      rw [SortedMap.get_eq_some_iff (pairwise_singleton _ _), hkey]
      exact mem_singleton_self _
    rw [hget, if_pos hkey]
    rfl
  · have hget : SortedMap.get k [p] = none := by
      refine SortedMap.get_eq_none fun q hq => ?_
      rw [mem_singleton.mp hq]
      exact Ne.symm hkey
    rw [hget, if_neg hkey]
    rfl

theorem removeKeys_apply (keys : List Bytes) (index : Bytes → Option S3ProbableDeleteRecord)
    (k : Bytes) :
    removeKeys keys (fun _ => false) index k = if k ∈ keys then none else index k := by
  simp [removeKeys]

theorem removeKeys_nil (index : Bytes → Option S3ProbableDeleteRecord) :
    removeKeys [] (fun _ => false) index = index := by
  funext k
  rw [removeKeys_apply, if_neg not_mem_nil]

/-! ### The cleanup of an action -/

/-- **The record for the leak check is kept when its key is not that of the first record and not
one that is removed with the old object.** -/
theorem leakCheckKept_indexAfter (removed : List Bytes) {c : Cleanup} {noted : Puts}
    {index : Bytes → Option S3ProbableDeleteRecord} {leakCheck new : Bytes × S3ProbableDeleteRecord}
    (hleak : c.addOidForParallelLeakCheck = [.putKeyval [leakCheck]])
    (hnew : c.removeNewOidProbableRecord = [.deleteKeyval [new.1]])
    (hold : ∀ index, c.deleteOldObject.foldl Op.apply index =
      removeKeys removed (fun _ => false) index) :
    LeakCheckKept leakCheck new (indexAfter noted c index) ↔
      leakCheck.1 ≠ new.1 ∧ (c.oldObjectOid ≠ {} → leakCheck.1 ∉ removed) := by
  obtain ⟨before, hbefore⟩ : ∃ before, indexAfter noted c index =
      (if c.oldObjectOid ≠ {} then [c.deleteOldObject] else []).flatten.foldl Op.apply
        (removeKeys [new.1] (fun _ => false)
          (putPairs (SortedMap.ofWrites [leakCheck]) (fun _ => true) before)) := by
    refine ⟨(if c.oldObjectOid ≠ {} then [c.markOldOidForDeletion] else []).flatten.foldl Op.apply
      (putPairs (SortedMap.ofWrites noted) (fun _ => true) index), ?_⟩
    simp only [indexAfter, index_start, Cleanup.tasks, hleak, hnew, flatten_append,
      foldl_append, flatten_cons, flatten_nil, append_nil, foldl_cons,
      foldl_nil, Op.apply, cons_append, nil_append]
  have hget : ∀ k, indexAfter noted c index k =
      if (c.oldObjectOid ≠ {} ∧ k ∈ removed) ∨ k = new.1 then none
      else if k = leakCheck.1 then some leakCheck.2 else before k := by
    intro k
    rw [hbefore]
    by_cases hoid : c.oldObjectOid ≠ {}
    · rw [if_pos hoid, flatten_cons, flatten_nil, append_nil, hold,
        removeKeys_apply, removeKeys_apply, putPairs_singleton]
      simp only [hoid, ne_eq, not_false_eq_true, true_and, mem_singleton, ite_or]
    · rw [if_neg hoid, flatten_nil, foldl_nil, removeKeys_apply, putPairs_singleton]
      simp only [hoid, false_and, false_or, mem_singleton]
  unfold LeakCheckKept
  rw [hget, hget]
  constructor
  · rintro ⟨hkept, -⟩
    rw [if_pos rfl] at hkept
    split at hkept
    · cases hkept
    · next hnot => exact ⟨fun heq => hnot (.inr heq), fun hoid hmem => hnot (.inl ⟨hoid, hmem⟩)⟩
  · rintro ⟨hne, hnotin⟩
    constructor
    · rw [if_neg, if_pos rfl]
      rintro (⟨hoid, hmem⟩ | heq)
      · exact hnotin hoid hmem
      · exact hne heq
    · rw [if_pos (.inr rfl)]
      exact fun h => nomatch h

theorem leakCheckKey_eq_iff (oid : M0Uint128) (size : Nat) :
    leakCheckKey oid = sizeBasedBucketingOfObjects (S3M0Uint128Helper.toString oid) size ↔
      size = 0 := by
  unfold leakCheckKey sizeBasedBucketingOfObjects
  rw [List.cons.injEq, eq_comm]
  constructor
  · rintro ⟨hchar, -⟩
    by_contra hne
    rw [if_neg hne, if_pos rfl] at hchar
    split_ifs at hchar <;> revert hchar <;> decide
  · intro hzero
    exact ⟨by rw [hzero], rfl⟩

/-! ### Objects -/

variable {c : PutContext} {record : S3ProbableDeleteRecord}

theorem currentObjectOid_of_addPartObjects {m : S3ObjectMetadata}
    {records : List S3ProbableDeleteRecord}
    (h : CortxS3.addPartObjectToProbableDeadOidList c.bucket m = some records)
    (hrecord : record ∈ records) {oid : M0Uint128} (hkey : record.recordKey = leakCheckKey oid) :
    record.currentObjectOid = oid := by
  unfold CortxS3.addPartObjectToProbableDeadOidList at h
  dsimp only at h
  split at h
  · rw [PartObjectRecords.partRecords_eq, Option.map_map] at h
    obtain ⟨frags, -, rfl⟩ := Option.map_eq_some_iff.mp h
    rw [Function.comp_apply, mem_append, mem_singleton, mem_map] at hrecord
    rcases hrecord with ⟨f, -, rfl⟩ | rfl
    · exact sizeBasedBucketing_injective hkey
    · exact sizeBasedBucketing_injective hkey
  · obtain rfl := Option.some.inj h
    cases hrecord

variable {n : Noted}

/-- **A record of the old object with the key of an empty object is of that object.** -/
theorem currentObjectOid_of_notes (h : Notes c n) (hrecord : record ∈ n.probableDelRecList)
    (hkey : record.recordKey = leakCheckKey c.newObjectOid) :
    record.currentObjectOid = c.newObjectOid := by
  unfold Notes at h
  split at h
  · rw [h] at hrecord
    cases hrecord
  · next m hm =>
      split at h
      · rw [h] at hrecord
        cases hrecord
      · split at h
        · obtain ⟨t, ht, rfl⟩ := h
          obtain ⟨added, hadded, hlist⟩ := records_of_addPartObjects ht
          rw [hlist, nil_append] at hrecord
          exact currentObjectOid_of_addPartObjects hadded hrecord hkey
        · -- the key of an object in one piece has the new identifier behind the old one
          rw [h, mem_singleton] at hrecord
          rw [hrecord] at hkey
          have hlen := congrArg List.length hkey
          simp only [oldSimpleRecord, simpleDeleteRecord, leakCheckKey, sizeBasedBucketingOfObjects,
            length_append, length_cons, show (ascii "-").length = 1 from rfl] at hlen
          omega

/-- The new object is among those that are deleted with the old one, and is noted there as empty. -/
def ReplacesItself (c : PutContext) (n : Noted) (delayedDelete : Bool) : Prop :=
  c.oldObjectOid ≠ {} ∧ delayedDelete = false ∧ n.oldObjects ≠ [] ∧
    ∃ record ∈ n.probableDelRecList, record.currentObjectOid = c.newObjectOid ∧
      record.recordKey = leakCheckKey record.currentObjectOid

theorem foldl_deleteObject (calls : List DeleteCall)
    (index : Bytes → Option S3ProbableDeleteRecord) :
    (calls.map Op.deleteObject).foldl Op.apply index = index := by
  induction calls with
  | nil => rfl
  | cons call rest ih => rw [map_cons, foldl_cons, Op.apply, ih]

/-- The keys that are removed with the old object. -/
def removedKeys (n : Noted) (delayedDelete : Bool) : List Bytes :=
  if delayedDelete ∨ n.oldObjects = [] then [] else n.probableDelRecList.map (·.recordKey)

theorem foldl_deleteOldObject (n : Noted) (delayedDelete : Bool)
    (index : Bytes → Option S3ProbableDeleteRecord) :
    (deleteOldObject n delayedDelete).foldl Op.apply index =
      removeKeys (removedKeys n delayedDelete) (fun _ => false) index := by
  have hnone := removeKeys_nil index
  unfold deleteOldObject removedKeys
  cases delayedDelete with
  | true => exact hnone.symm
  | false =>
    by_cases hold : n.oldObjects = []
    · simp only [hold, Bool.false_eq_true, if_false, if_true, or_true, foldl_nil, hnone]
    · simp only [hold, Bool.false_eq_true, if_false, or_false, foldl_append,
        foldl_deleteObject]
      unfold removeOldRecords
      split
      · next hnil => rw [hnil, map_nil, hnone]; rfl
      · rfl

/-- An object, with the record that its class puts before the upload. -/
theorem leakCheckKept_object {delayedDelete : Bool} (h : Notes c n)
    (newRecord : S3ProbableDeleteRecord) (noted : Puts)
    (index : Bytes → Option S3ProbableDeleteRecord) :
    LeakCheckKept (leakCheckKey c.newObjectOid, leakCheckRecord c)
        (CortxS3.S3PutObjectAction.newOidStr c, newRecord)
        (indexAfter noted (objectCleanup (createdContext c) (CortxS3.S3PutObjectAction.newOidStr c)
          newRecord n delayedDelete) index) ↔
      c.contentLength ≠ 0 ∧ ¬ ReplacesItself c n delayedDelete := by
  rw [leakCheckKept_indexAfter (removedKeys n delayedDelete) rfl rfl
    (foldl_deleteOldObject n delayedDelete)]
  refine and_congr (not_congr (leakCheckKey_eq_iff c.newObjectOid c.contentLength)) ?_
  have hold : (objectCleanup (createdContext c) (CortxS3.S3PutObjectAction.newOidStr c) newRecord n
      delayedDelete).oldObjectOid = c.oldObjectOid := rfl
  rw [hold]
  constructor
  · rintro hnot ⟨hoid, hdelayed, hne, record, hrecord, hcurrent, hkey⟩
    refine hnot hoid ?_
    rw [removedKeys, if_neg (by simp [hdelayed, hne])]
    rw [hcurrent] at hkey
    rw [← hkey]
    exact mem_map_of_mem hrecord
  · intro hnot hoid hmem
    unfold removedKeys at hmem
    split at hmem
    · cases hmem
    · next hdel =>
        obtain ⟨record, hrecord, hkey⟩ := mem_map.mp hmem
        have hcurrent := currentObjectOid_of_notes h hrecord hkey
        simp only [not_or, Bool.not_eq_true] at hdel
        refine hnot ⟨hoid, hdel.1, hdel.2, record, hrecord, hcurrent, ?_⟩
        rw [hcurrent]
        exact hkey

/-! ### Parts -/

/-- The keys that are removed with the old part. -/
def removedPartKeys (c : PartContext) (delayedDelete : Bool) : List Bytes :=
  if delayedDelete then []
  else
    match c.oldPart with
    | none => []
    | some (oid, _, _, size) =>
      [sizeBasedBucketingOfObjects (S3M0Uint128Helper.toString oid) size ++ ascii "-" ++
        CortxS3.S3PutMultiObjectAction.newOidStr c]

theorem leakCheckKey_notMem (c : PartContext) (delayedDelete : Bool) :
    leakCheckKey c.newObjectOid ∉ removedPartKeys c delayedDelete := by
  intro hmem
  unfold removedPartKeys at hmem
  split at hmem
  · cases hmem
  · split at hmem
    · cases hmem
    · have hlen := congrArg List.length (mem_singleton.mp hmem)
      simp only [leakCheckKey, CortxS3.S3PutMultiObjectAction.newOidStr,
        sizeBasedBucketingOfObjects, length_append, length_cons,
        show (ascii "-").length = 1 from rfl] at hlen
      omega

theorem foldl_deleteOldPart (c : PartContext) (uploadPvid : M0Fid) (delayedDelete : Bool)
    (index : Bytes → Option S3ProbableDeleteRecord) :
    (S3PutMultiObjectAction.deleteOldObject c uploadPvid delayedDelete).foldl Op.apply index =
      removeKeys (removedPartKeys c delayedDelete) (fun _ => false) index := by
  have hnone := removeKeys_nil index
  unfold S3PutMultiObjectAction.deleteOldObject removedPartKeys
    S3PutMultiObjectAction.removeOldOidProbableRecord
  cases delayedDelete with
  | true => exact hnone.symm
  | false =>
    cases c.oldPart with
    | none => exact hnone.symm
    | some old => rfl

theorem leakCheckKept_part (c : PartContext) (uploadPvid : M0Fid) (delayedDelete : Bool)
    (index : Bytes → Option S3ProbableDeleteRecord) :
    LeakCheckKept (leakCheckKey c.newObjectOid, partLeakCheckRecord c)
        (CortxS3.S3PutMultiObjectAction.newOidStr c, CortxS3.S3PutMultiObjectAction.newRecord c)
        (indexAfter (CortxS3.S3PutMultiObjectAction.addObjectOidToProbableDeadOidList c)
          (S3PutMultiObjectAction.cleanup c uploadPvid delayedDelete) index) ↔
      c.contentLength ≠ 0 := by
  rw [leakCheckKept_indexAfter (removedPartKeys c delayedDelete) rfl rfl
    (foldl_deleteOldPart c uploadPvid delayedDelete)]
  have hkey := not_congr (leakCheckKey_eq_iff c.newObjectOid c.contentLength)
  constructor
  · intro h
    exact hkey.mp h.1
  · intro h
    exact ⟨hkey.mpr h, fun _ => leakCheckKey_notMem c delayedDelete⟩

/-! ### The result -/

/-- **The record for the leak check survives the cleanup exactly when the new object is not
empty**, and not one of those that are deleted with the old object. -/
theorem leakCheckKept_iff (delayedDelete : Bool) (index : Bytes → Option S3ProbableDeleteRecord) :
    (∀ (c : PutContext) (n : Noted), Notes c n →
      (LeakCheckKept (leakCheckKey c.newObjectOid, leakCheckRecord c)
          (CortxS3.S3PutObjectAction.newOidStr c,
            CortxS3.S3PutObjectAction.newRecord (createdContext c))
          (indexAfter (S3PutObjectAction.probableOidList (createdContext c) n)
            (S3PutObjectAction.cleanup (createdContext c) n delayedDelete) index) ↔
        c.contentLength ≠ 0 ∧ ¬ ReplacesItself c n delayedDelete)) ∧
    (∀ (c : PutContext) (n : Noted), Notes c n →
      (LeakCheckKept (leakCheckKey c.newObjectOid, leakCheckRecord c)
          (CortxS3.S3PutObjectAction.newOidStr c,
            S3PutChunkUploadObjectAction.newRecord (createdContext c))
          (indexAfter (S3PutChunkUploadObjectAction.probableOidList (createdContext c) n)
            (S3PutChunkUploadObjectAction.cleanup (createdContext c) n delayedDelete) index) ↔
        c.contentLength ≠ 0 ∧ ¬ ReplacesItself c n delayedDelete)) ∧
    ∀ (c : PartContext) (uploadPvid : M0Fid),
      LeakCheckKept (leakCheckKey c.newObjectOid, partLeakCheckRecord c)
          (CortxS3.S3PutMultiObjectAction.newOidStr c, CortxS3.S3PutMultiObjectAction.newRecord c)
          (indexAfter (CortxS3.S3PutMultiObjectAction.addObjectOidToProbableDeadOidList c)
            (S3PutMultiObjectAction.cleanup c uploadPvid delayedDelete) index) ↔
        c.contentLength ≠ 0 := by
  refine ⟨fun c n h => ?_, fun c n h => ?_, fun c uploadPvid => ?_⟩
  · exact leakCheckKept_object h _ _ index
  · exact leakCheckKept_object h _ _ index
  · exact leakCheckKept_part c uploadPvid delayedDelete index

/-- What is noted of the object that `sampleOverwrite` replaces. -/
def sampleNoted : Noted where
  probableDelRecList := [oldSimpleRecord sampleOverwrite (sampleObject "movie" 7 100)]
  oldObjects := [⟨(sampleObject "movie" 7 100).oid, 9, S3M0Uint128Helper.toM0Fid []⟩]

theorem notReplacesItself_overwrite : ¬ ReplacesItself sampleOverwrite sampleNoted false := by
  rintro ⟨-, -, -, record, hrecord, hoid, -⟩
  rw [mem_singleton.mp hrecord] at hoid
  exact absurd hoid (by decide)

theorem leakCheckKept_iff_overwrite :
    LeakCheckKept (leakCheckKey sampleOverwrite.newObjectOid, leakCheckRecord sampleOverwrite)
      (CortxS3.S3PutObjectAction.newOidStr sampleOverwrite,
        CortxS3.S3PutObjectAction.newRecord (createdContext sampleOverwrite))
      (indexAfter (S3PutObjectAction.probableOidList (createdContext sampleOverwrite) sampleNoted)
        (S3PutObjectAction.cleanup (createdContext sampleOverwrite) sampleNoted false)
        fun _ => none) :=
  ((leakCheckKept_iff false fun _ => none).1 sampleOverwrite sampleNoted
    (show sampleNoted = _ from rfl)).mpr ⟨by decide, notReplacesItself_overwrite⟩

/-- A first object of so many bytes. -/
def samplePut (size : Nat) : PutContext where
  bucket := sampleBucket
  objectMetadata := none
  newObjectMetadata := sampleObject "film" 7 size
  newObjectOid := (sampleObject "film" 7 size).oid
  layoutId := 9
  contentLength := size

/-- An empty object leaves no record at all. -/
theorem not_leakCheckKept_empty :
    ¬ LeakCheckKept (leakCheckKey (samplePut 0).newObjectOid, leakCheckRecord (samplePut 0))
        (CortxS3.S3PutObjectAction.newOidStr (samplePut 0),
          CortxS3.S3PutObjectAction.newRecord (createdContext (samplePut 0)))
        (indexAfter (S3PutObjectAction.probableOidList (createdContext (samplePut 0)) {})
          (S3PutObjectAction.cleanup (createdContext (samplePut 0)) {} false) fun _ => none) := by
  intro h
  have hkept := h.1
  revert hkept
  decide

end CortxS3.PutCleanup
