/-
What is left to the background delete is reclaimed exactly when it is in one piece.

The record of an object in one piece leads to the version list.  An entry there names the object, and
without one it is the object of the record that is deleted; then the record is removed.

The records of an object in parts lead nowhere.  Those of `S3DeleteObjectAction` name the entries of the
extended index, which the action has removed itself, so they are dropped and the parts stay.  Those of
`S3DeleteMultipleObjectsAction` name neither a version nor a part, so they stay, too.
-/
import CortxS3.Proofs.ObjectRecoveryValidator
import CortxS3.Proofs.DeleteMultipleObjectsRecords

namespace CortxS3

open List S3DeleteObjectAction S3DeleteMultipleObjectsAction

namespace DelayedDelete

open ObjectRecoveryValidator S3M0Uint128Helper
open S3DeleteMultipleObjectsAction (partKey partKeys objectRecords)

/-! ### What is deleted and what it leaves -/

/-- The Motr objects that hold the data of an object. -/
def motrObjects (m : S3ObjectMetadata) : List M0Uint128 :=
  if m.numberOfFragments = 0 then [m.oid]
  else (List.range m.numberOfFragments).filterMap fun i =>
    (S3DeleteObjectAction.fragmentAt m (i + 1)).map (·.motrOID)

/-- An object in parts with its extended metadata: one fragment for each part, under the version of
the object. -/
structure InParts (m : S3ObjectMetadata) (ext : S3ObjectExtendedMetadata) : Prop where
  extended : m.extended = some ext
  parts : m.numberOfParts = m.numberOfFragments
  keys : ext.getExtendedEntriesKeyList = partKeys m
  fragment : ∀ i < m.numberOfFragments, ∃ frag,
    S3DeleteObjectAction.fragmentAt m (i + 1) = some frag ∧ frag.versionID = m.objVersionKey

/-- The metadata of an object, and its entry in the version list. -/
structure WellFormed (bucket : BucketIndexes) (s : Store) (m : S3ObjectMetadata) : Prop where
  oid : m.oid ≠ {}
  versionKey : m.versionKeyInIndex ≠ []
  objVersionKey : m.objVersionKey ≠ []
  version : s.kv (toString bucket.objectsVersionListIndexOid) m.versionKeyInIndex =
    some (toString m.oid)
  inParts : m.numberOfFragments ≠ 0 → ∃ ext, InParts m ext

/-- The state of the indexes before a deletion. -/
structure Deletion.Consistent (d : Deletion) (probableDeleteIndexId : Bytes) (s : Store) : Prop where
  objects : ∀ m ∈ d.objects, WellFormed d.bucket s m
  extendedIndex : d.bucket.extendedMetadataIndexOid ≠ {}
  listIndex : probableDeleteIndexId ≠ toString d.bucket.objectListIndexOid
  versionIndex : probableDeleteIndexId ≠ toString d.bucket.objectsVersionListIndexOid
  extIndex : probableDeleteIndexId ≠ toString d.bucket.extendedMetadataIndexOid
  /-- A part is no object in one piece. -/
  separate : ∀ m ∈ d.objects, m.numberOfFragments ≠ 0 → ∀ oid ∈ motrObjects m, ∀ m' ∈ d.objects,
    m'.numberOfFragments = 0 → oid ≠ m'.oid
  nothingDeleted : s.deleted = []

/-- In whatever order the records are processed, all Motr objects are deleted and no record is left. -/
def Deletion.Reclaimed (d : Deletion) (probableDeleteIndexId : Bytes) (instanceId : M0Uint128)
    (records : List S3ProbableDeleteRecord) (s : Store) : Prop :=
  ∀ order, order.Perm records →
    (∀ m ∈ d.objects, ∀ oid ∈ motrObjects m, toString oid ∈
      (process probableDeleteIndexId instanceId (d.leaves probableDeleteIndexId records s)
        order).deleted) ∧
    ∀ r ∈ records, (process probableDeleteIndexId instanceId
      (d.leaves probableDeleteIndexId records s) order).kv probableDeleteIndexId r.recordKey = none

/-! ### The indexes after a deletion -/

section Leaves

variable {probableIndex : Bytes}

theorem fades_removeAll (index : Bytes) : ∀ (keys : List Bytes) (s : Store),
    Fades s (removeAll index keys s) := by
  intro keys
  induction keys with
  | nil =>
    intro s
    exact .refl s
  | cons k keys ih =>
    intro s
    exact (fades_remove s index k).trans (ih _)

theorem removeAll_gone (index : Bytes) : ∀ (keys : List Bytes) (s : Store), ∀ k ∈ keys,
    (removeAll index keys s).kv index k = none := by
  intro keys
  induction keys with
  | nil => exact fun _ => nofun
  | cons k keys ih =>
    intro s k' hk'
    rcases mem_cons.mp hk' with rfl | hk'
    · exact (fades_removeAll index keys _).gone (remove_self s index k')
    · exact ih _ k' hk'

theorem fades_removeObject (bucket : BucketIndexes) (withVersion : Bool) (s : Store)
    (m : S3ObjectMetadata) : Fades s (removeObject bucket withVersion s m) := by
  unfold removeObject
  dsimp only
  refine Fades.trans ?_ (fades_removeAll _ _ _)
  split
  · exact (fades_remove s _ _).trans (fades_remove _ _ _)
  · exact fades_remove s _ _

theorem fades_foldl_removeObject (bucket : BucketIndexes) :
    ∀ (ms : List S3ObjectMetadata) (s : Store), Fades s (ms.foldl (removeObject bucket false) s) := by
  intro ms
  induction ms with
  | nil =>
    intro s
    exact .refl s
  | cons m ms ih =>
    intro s
    exact (fades_removeObject bucket false s m).trans (ih _)

theorem foldl_removeObject_unlisted (bucket : BucketIndexes) :
    ∀ (ms : List S3ObjectMetadata) (s : Store), ∀ m ∈ ms,
      (ms.foldl (removeObject bucket false) s).kv (toString bucket.objectListIndexOid) m.objectName =
        none := by
  intro ms
  induction ms with
  | nil => exact fun _ => nofun
  | cons m ms ih =>
    intro s m' hm'
    rcases mem_cons.mp hm' with rfl | hm'
    · apply (fades_foldl_removeObject bucket ms _).gone
      unfold removeObject
      exact (fades_removeAll _ _ _).gone (remove_self s _ _)
    · exact ih _ m' hm'

theorem putRecords_kv {i : Bytes} (hi : i ≠ probableIndex) :
    ∀ (records : List S3ProbableDeleteRecord) (s : Store) (k : Bytes),
      (putRecords probableIndex records s).kv i k = s.kv i k := by
  intro records
  induction records with
  | nil =>
    intro s k
    rfl
  | cons r records ih =>
    intro s k
    rw [show putRecords probableIndex (r :: records) s =
      putRecords probableIndex records _ from rfl, ih]
    exact if_neg fun h => hi h.1

theorem putRecords_deleted : ∀ (records : List S3ProbableDeleteRecord) (s : Store),
    (putRecords probableIndex records s).deleted = s.deleted := by
  intro records
  induction records with
  | nil =>
    intro s
    rfl
  | cons r records ih =>
    intro s
    exact ih _

theorem removeAll_deleted (index : Bytes) : ∀ (keys : List Bytes) (s : Store),
    (removeAll index keys s).deleted = s.deleted := by
  intro keys
  induction keys with
  | nil =>
    intro s
    rfl
  | cons k keys ih =>
    intro s
    exact ih _

theorem removeObject_deleted (bucket : BucketIndexes) (withVersion : Bool) (s : Store)
    (m : S3ObjectMetadata) : (removeObject bucket withVersion s m).deleted = s.deleted := by
  unfold removeObject
  dsimp only
  rw [removeAll_deleted]
  split <;> rfl

theorem leaves_deleted (d : Deletion) (records : List S3ProbableDeleteRecord) (s : Store) :
    (d.leaves probableIndex records s).deleted = s.deleted := by
  unfold Deletion.leaves
  rw [putRecords_deleted]
  cases d with
  | deleteObject bucket m => exact removeObject_deleted bucket true s m
  | deleteMultipleObjects bucket ms =>
    show (ms.foldl (removeObject bucket false) s).deleted = s.deleted
    induction ms generalizing s with
    | nil => rfl
    | cons m ms ih =>
      rw [foldl_cons, ih, removeObject_deleted]

theorem leaves_version {d : Deletion} {s : Store} (h : d.Consistent probableIndex s)
    (records : List S3ProbableDeleteRecord) {m : S3ObjectMetadata} (hm : m ∈ d.objects) :
    (d.leaves probableIndex records s).kv (toString d.bucket.objectsVersionListIndexOid)
      m.versionKeyInIndex = none ∨
    (d.leaves probableIndex records s).kv (toString d.bucket.objectsVersionListIndexOid)
      m.versionKeyInIndex = some (toString m.oid) := by
  unfold Deletion.leaves
  rw [putRecords_kv (Ne.symm h.versionIndex), ← (h.objects m hm).version]
  cases d with
  | deleteObject bucket m' => exact (fades_removeObject bucket true s m').kv _ _
  | deleteMultipleObjects bucket ms => exact (fades_foldl_removeObject bucket ms s).kv _ _

end Leaves

/-! ### Processing the records -/

section Process

variable {probableIndex : Bytes} {instanceId : M0Uint128}

theorem fades_process : ∀ (records : List S3ProbableDeleteRecord) (s : Store),
    Fades s (process probableIndex instanceId s records) := by
  intro records
  induction records with
  | nil =>
    intro s
    exact .refl s
  | cons r records ih =>
    intro s
    exact (fades_processResults _ _ _ _ s).trans (ih _)

variable (instanceId) in
theorem process_turn : ∀ (records : List S3ProbableDeleteRecord) (s : Store), ∀ r ∈ records,
    ∃ s', Fades s s' ∧ Fades (processResults Api.succeeds probableIndex r.recordKey
      (r.toJson instanceId) s') (process probableIndex instanceId s records) := by
  intro records
  induction records with
  | nil => exact fun _ => nofun
  | cons r records ih =>
    intro s r' hr'
    rcases mem_cons.mp hr' with rfl | hr'
    · exact ⟨s, .refl s, fades_process records _⟩
    · obtain ⟨s', hs, hs'⟩ := ih _ r' hr'
      exact ⟨s', (fades_processResults _ _ _ _ s).trans hs, hs'⟩

theorem process_invariant {P : Store → Prop} : ∀ (records : List S3ProbableDeleteRecord) {s : Store},
    P s → (∀ r ∈ records, ∀ s, P s → P (processResults Api.succeeds probableIndex r.recordKey
      (r.toJson instanceId) s)) → P (process probableIndex instanceId s records) := by
  intro records
  induction records with
  | nil =>
    intro s hs _
    exact hs
  | cons r records ih =>
    intro s hs hkeep
    exact ih (hkeep r mem_cons_self s hs) fun r' hr' =>
      hkeep r' (mem_cons_of_mem _ hr')

end Process

/-! ### The records of objects in one piece -/

section Records

variable {probableIndex : Bytes} {instanceId : M0Uint128} {bucket : BucketIndexes}
  {m : S3ObjectMetadata}

/-- The validator for a record whose key has a size prefix. -/
def validatorOf (probableIndex : Bytes) (instanceId : M0Uint128) (r : S3ProbableDeleteRecord) :
    Validator where
  api := Api.succeeds
  probableDeleteIndexId := probableIndex
  key := r.recordKey
  leakInfo := r.toJson instanceId
  leakId := toString r.currentObjectOid

theorem processResults_prefixed {r : S3ProbableDeleteRecord} {size : Nat}
    (h : r.recordKey = sizeBasedBucketingOfObjects (toString r.currentObjectOid) size) (s : Store) :
    processResults Api.succeeds probableIndex r.recordKey (r.toJson instanceId) s =
      processObjectLeak (validatorOf probableIndex instanceId r) s := by
  unfold processResults
  rw [show objectLeakId r.recordKey (r.toJson instanceId) = some (toString r.currentObjectOid) by
    rw [h]; exact objectLeakId_prefixed _ _]
  rfl

/-- The store after an object is deleted through the version list. -/
def reclaimedByVersion (probableIndex : Bytes) (bucket : BucketIndexes) (m : S3ObjectMetadata)
    (s : Store) : Store :=
  ({ s with deleted := s.deleted ++ [(s.kv (toString bucket.objectsVersionListIndexOid)
      m.versionKeyInIndex).getD (toString m.oid)] }.remove
    (toString bucket.objectsVersionListIndexOid) m.versionKeyInIndex).remove probableIndex
    (S3DeleteObjectAction.addObjectOidToProbableDeadOidList bucket m).recordKey

theorem processResults_forced (hkey : m.versionKeyInIndex ≠ []) (s : Store) :
    processResults Api.succeeds probableIndex
      (addObjectOidToProbableDeadOidList bucket m).setForceDelete.recordKey
      ((addObjectOidToProbableDeadOidList bucket m).setForceDelete.toJson
        instanceId) s = reclaimedByVersion probableIndex bucket m s := by
  have hnot : ¬ ((validatorOf probableIndex instanceId
      (addObjectOidToProbableDeadOidList bucket m).setForceDelete).oidPrefix =
        ascii "J" ∧ 0 < 0) := fun hc => Nat.lt_irrefl 0 hc.2
  rw [processResults_prefixed rfl, processObjectLeak_forced rfl, processForced_record hnot rfl,
    processProbable_version rfl (deletePath_noParent rfl) hkey]
  rfl

variable {s : Store}

theorem processResults_unforced (hkey : m.versionKeyInIndex ≠ [])
    (hcurrent : s.kv (toString bucket.objectListIndexOid) m.objectName = none) :
    processResults Api.succeeds probableIndex
      (addObjectOidToProbableDeadOidList bucket m).recordKey
      ((addObjectOidToProbableDeadOidList bucket m).toJson instanceId) s =
      reclaimedByVersion probableIndex bucket m s := by
  rw [processResults_prefixed rfl, processObjectLeak_unforced rfl,
    processUnforced_gone rfl rfl hcurrent,
    processProbable_version rfl (deletePath_noParent rfl) hkey]
  rfl

variable (probableIndex) in
theorem reclaimedByVersion_spec
    (h : s.kv (toString bucket.objectsVersionListIndexOid) m.versionKeyInIndex = none ∨
      s.kv (toString bucket.objectsVersionListIndexOid) m.versionKeyInIndex =
        some (toString m.oid)) :
    (reclaimedByVersion probableIndex bucket m s).deleted = s.deleted ++ [toString m.oid] ∧
      (reclaimedByVersion probableIndex bucket m s).kv probableIndex
        (addObjectOidToProbableDeadOidList bucket m).recordKey = none := by
  refine ⟨?_, remove_self _ _ _⟩
  show s.deleted ++ [(s.kv _ _).getD (toString m.oid)] = s.deleted ++ [toString m.oid]
  rcases h with h | h <;> rw [h] <;> rfl

/-! ### The records of parts -/

theorem extendedKey_eq (info : ProbableDeleteJson) (m : S3ObjectMetadata)
    (hname : info.objectKeyInIndex = m.objectName) (part : Nat) :
    extendedKey info m.objVersionKey part 1 = partKey m part := by
  unfold extendedKey partKey S3ObjectExtendedMetadata.entryKey
    S3ObjectExtendedMetadata.prefixOfUniqueObject
  rw [hname, if_pos rfl]
  simp only [append_assoc]
  rfl

theorem extendedKey_ne_nil (info : ProbableDeleteJson) (version : Bytes) (part frag : Nat) :
    extendedKey info version part frag ≠ [] := by
  unfold extendedKey
  intro h
  have := congrArg List.length h
  simp [ascii] at this

theorem toString_ne_null {oid : M0Uint128} (h : oid ≠ {}) : toString oid ≠ nullObjOid := by
  rw [nullObjOid_eq]
  intro heq
  apply h
  rw [← toM0Uint128_toString oid, heq, toM0Uint128_toString]

/-- A part whose entry is gone is not deleted. -/
theorem processResults_part_deleted (hoid : m.oid ≠ {})
    (hext : bucket.extendedMetadataIndexOid ≠ {}) (hversion : m.objVersionKey ≠ [])
    {frag : S3PartFragContext} (hfrag : frag.versionID = m.objVersionKey) {part : Nat}
    (hpart : part ≠ 0)
    (hgone : s.kv (toString bucket.extendedMetadataIndexOid) (partKey m part) = none) :
    (processResults Api.succeeds probableIndex
      (partDeleteRecord bucket m part frag).setForceDelete.recordKey
      ((partDeleteRecord bucket m part frag).setForceDelete.toJson instanceId) s).deleted =
      s.deleted := by
  have hinfo : partNo ((partDeleteRecord bucket m part frag).setForceDelete.toJson instanceId) =
      part := by
    show (if part ≠ 0 then some part else none).getD 0 = part
    rw [if_pos hpart]
    rfl
  have hparent : parentOid ((partDeleteRecord bucket m part frag).setForceDelete.toJson instanceId) ≠
      nullObjOid := toString_ne_null hoid
  rw [processResults_prefixed rfl, processObjectLeak_forced rfl]
  by_cases hJ : (validatorOf probableIndex instanceId
      (partDeleteRecord bucket m part frag).setForceDelete).oidPrefix = ascii "J"
  · -- an empty part is taken for the whole object
    rw [processForced_parent rfl ⟨hJ, Nat.lt_of_lt_of_eq (Nat.pos_of_ne_zero hpart) hinfo.symm⟩]
    unfold delObjectsInExtendedlist
    rw [if_neg fun hc => hparent hc.1]
    rfl
  · have hkey : extendedKey ((partDeleteRecord bucket m part frag).setForceDelete.toJson instanceId)
        frag.versionID part 1 = partKey m part := by
      rw [hfrag]
      exact extendedKey_eq _ m rfl part
    have hpath : deletePath ((partDeleteRecord bucket m part frag).setForceDelete.toJson
        instanceId) = (true, toString bucket.extendedMetadataIndexOid, partKey m part) := by
      rw [deletePath_part _ frag.versionID hparent (by rw [hinfo]; exact hpart) rfl
        (toString_ne_null hext) rfl (by rw [hfrag]; exact hversion), hinfo, ← hkey]
      rfl
    have hne : partKey m part ≠ [] := by
      rw [← hkey]
      exact extendedKey_ne_nil _ _ _ _
    rw [processForced_record (fun hc => hJ hc.1) rfl,
      processProbable_extended_none rfl hpath hne hgone]
    rfl

theorem delParts_deleted {v : Validator} (hv : v.api = Api.succeeds) (index version : Bytes) :
    ∀ (parts : List Nat) (status : Bool) (s : Store),
      (∀ part ∈ parts, s.kv index (extendedKey v.leakInfo version part 1) = none) →
      (delParts v index version parts status s).2.deleted = s.deleted := by
  intro parts
  induction parts with
  | nil =>
    intro status s _
    rfl
  | cons part parts ih =>
    intro status s h
    rw [delParts, delObjFromExtendedIndex_of_none hv (h part mem_cons_self)]
    dsimp only
    rw [ih]
    · rfl
    · intro part' hpart'
      exact (fades_remove s _ _).gone (h part' (mem_cons_of_mem _ hpart'))

/-- The record of an object in parts itself deletes no part whose entry is gone. -/
theorem processResults_parent_deleted (hfrag : m.numberOfFragments ≠ 0)
    (hgone : ∀ key ∈ partKeys m, s.kv (toString bucket.extendedMetadataIndexOid) key = none) :
    (processResults Api.succeeds probableIndex
      (parentDeleteRecord bucket m m.numberOfFragments).setForceDelete.recordKey
      ((parentDeleteRecord bucket m m.numberOfFragments).setForceDelete.toJson instanceId)
      s).deleted = s.deleted := by
  have hinfo : partNo ((parentDeleteRecord bucket m m.numberOfFragments).setForceDelete.toJson
      instanceId) = m.numberOfFragments := by
    show (if m.numberOfFragments ≠ 0 then some m.numberOfFragments else none).getD 0 = _
    rw [if_pos hfrag]
    rfl
  have hparent : parentOid ((parentDeleteRecord bucket m
      m.numberOfFragments).setForceDelete.toJson instanceId) = nullObjOid := nullObjOid_eq.symm
  rw [processResults_prefixed rfl, processObjectLeak_forced rfl,
    processForced_parent rfl ⟨rfl, Nat.lt_of_lt_of_eq (Nat.pos_of_ne_zero hfrag) hinfo.symm⟩]
  unfold delObjectsInExtendedlist
  rw [if_pos ⟨hparent, fun hc => hfrag (hinfo.symm.trans hc)⟩]
  show (delParts _ _ m.objVersionKey _ _ _).2.deleted = _
  rw [delParts_deleted rfl]
  · rfl
  · intro part hpart
    obtain ⟨i, hi, rfl⟩ := mem_map.mp hpart
    rw [show partNo (validatorOf probableIndex instanceId (parentDeleteRecord bucket m
      m.numberOfFragments).setForceDelete).leakInfo = m.numberOfFragments from hinfo] at hi
    apply (fades_remove s _ _).gone
    rw [extendedKey_eq _ m rfl]
    exact hgone _ (mem_map.mpr ⟨i, hi, rfl⟩)

theorem processResults_partRecord_deleted (frag : S3PartFragContext) (s : Store) :
    (processResults Api.succeeds probableIndex
      (partRecord bucket m frag).recordKey
      ((partRecord bucket m frag).toJson instanceId) s).deleted =
      s.deleted := by
  have hnot : ¬ ((validatorOf probableIndex instanceId
      (partRecord bucket m frag)).oidPrefix = ascii "J" ∧ 0 < 0) :=
    fun hc => Nat.lt_irrefl 0 hc.2
  have hnothing : ∀ b, (processProbableDeleteRecord (validatorOf probableIndex instanceId
      (partRecord bucket m frag)) b s).2.deleted = s.deleted := by
    intro b
    cases b with
    | true => rw [processProbable_noKey (deletePath_noParent rfl)]
    | false =>
      rw [processProbable_false rfl]
      rfl
  rw [processResults_prefixed rfl, processObjectLeak_unforced rfl]
  cases hcurrent : s.kv (toString bucket.objectsVersionListIndexOid) m.objectName with
  | none =>
    rw [processUnforced_gone rfl rfl hcurrent]
    exact hnothing true
  | some oid =>
    rw [processUnforced_listed rfl hnot hcurrent]
    exact hnothing _

end Records

/-! ### Objects in one piece are reclaimed -/

section Reclaimed

variable {probableIndex : Bytes} {instanceId : M0Uint128} {s : Store}

/-- The record that a deletion leaves for an object in one piece. -/
def Deletion.recordOf (d : Deletion) (m : S3ObjectMetadata) : S3ProbableDeleteRecord :=
  match d with
  | .deleteObject bucket _ =>
    (S3DeleteObjectAction.addObjectOidToProbableDeadOidList bucket m).setForceDelete
  | .deleteMultipleObjects bucket _ =>
    S3DeleteObjectAction.addObjectOidToProbableDeadOidList bucket m

variable {bucket : BucketIndexes}

variable {ms : List S3ObjectMetadata}

theorem flatten_objectRecords_simple {rss : List (List S3ProbableDeleteRecord)}
    (h : List.Forall₂ (fun m rs => objectRecords bucket m = some rs) ms rss)
    (hsimple : ∀ m ∈ ms, m.numberOfFragments = 0) :
    rss.flatten = ms.map (addObjectOidToProbableDeadOidList bucket) := by
  induction h with
  | nil => rfl
  | cons hm _ ih =>
    unfold objectRecords at hm
    rw [if_pos (hsimple _ mem_cons_self)] at hm
    cases hm
    rw [flatten_cons, ih fun m' hm' => hsimple m' (mem_cons_of_mem _ hm')]
    rfl

variable {d : Deletion} {records : List S3ProbableDeleteRecord}

theorem records_simple (h : d.records = some records)
    (hsimple : ∀ m ∈ d.objects, m.numberOfFragments = 0) : records = d.objects.map d.recordOf := by
  unfold Deletion.records at h
  cases d with
  | deleteObject bucket m =>
    obtain ⟨rs, hrs, rfl⟩ := Option.map_eq_some_iff.mp h
    unfold populateProbableDeadOidList at hrs
    rw [if_pos (hsimple m mem_cons_self)] at hrs
    cases hrs
    rfl
  | deleteMultipleObjects bucket ms =>
    obtain ⟨rss, hrss, rfl⟩ := Option.map_eq_some_iff.mp h
    exact flatten_objectRecords_simple (forall₂_of_mapM hrss) hsimple

variable {m : S3ObjectMetadata}

variable (instanceId) in
theorem processResults_recordOf (hd : d.Consistent probableIndex s) (hm : m ∈ d.objects)
    {s' : Store} (hs' : Fades (d.leaves probableIndex records s) s') :
    (processResults Api.succeeds probableIndex (d.recordOf m).recordKey
      ((d.recordOf m).toJson instanceId) s').deleted = s'.deleted ++ [toString m.oid] ∧
    (processResults Api.succeeds probableIndex (d.recordOf m).recordKey
      ((d.recordOf m).toJson instanceId) s').kv probableIndex (d.recordOf m).recordKey = none := by
  have hversion : s'.kv (toString d.bucket.objectsVersionListIndexOid) m.versionKeyInIndex = none ∨
      s'.kv (toString d.bucket.objectsVersionListIndexOid) m.versionKeyInIndex =
        some (toString m.oid) := by
    rcases hs'.kv (toString d.bucket.objectsVersionListIndexOid) m.versionKeyInIndex with
      hnone | heq
    · exact .inl hnone
    · rw [heq]
      exact leaves_version hd records hm
  have hkey := (hd.objects m hm).versionKey
  have hspec := reclaimedByVersion_spec probableIndex hversion
  cases d with
  | deleteObject bucket m' =>
    rw [show (Deletion.deleteObject bucket m').recordOf m =
      (addObjectOidToProbableDeadOidList bucket m).setForceDelete from rfl,
      processResults_forced hkey]
    exact hspec
  | deleteMultipleObjects bucket ms =>
    have hunlisted : s'.kv (toString bucket.objectListIndexOid) m.objectName = none := by
      apply hs'.gone
      exact (putRecords_kv (Ne.symm hd.listIndex) _ _ _).trans
        (foldl_removeObject_unlisted bucket ms s m hm)
    rw [show (Deletion.deleteMultipleObjects bucket ms).recordOf m =
      addObjectOidToProbableDeadOidList bucket m from rfl,
      processResults_unforced hkey hunlisted]
    exact hspec

theorem reclaimed_of_simple (hd : d.Consistent probableIndex s)
    (hrecords : d.records = some records) (hsimple : ∀ m ∈ d.objects, m.numberOfFragments = 0) :
    d.Reclaimed probableIndex instanceId records s := by
  have heq := records_simple hrecords hsimple
  intro order horder
  have hturn : ∀ m ∈ d.objects, toString m.oid ∈ (process probableIndex instanceId
      (d.leaves probableIndex records s) order).deleted ∧ (process probableIndex instanceId
        (d.leaves probableIndex records s) order).kv probableIndex (d.recordOf m).recordKey =
          none := by
    intro m hm
    have hmem : d.recordOf m ∈ order := by
      apply horder.symm.subset
      rw [heq]
      exact mem_map.mpr ⟨m, hm, rfl⟩
    obtain ⟨s', hs', hend⟩ := process_turn instanceId order
      (d.leaves probableIndex records s) _ hmem
    obtain ⟨hdeleted, hremoved⟩ := processResults_recordOf instanceId hd hm hs'
    refine ⟨hend.deleted _ ?_, hend.gone hremoved⟩
    rw [hdeleted]
    exact mem_append_right _ mem_cons_self
  constructor
  · intro m hm oid hoid
    unfold motrObjects at hoid
    rw [if_pos (hsimple m hm)] at hoid
    rw [mem_singleton.mp hoid]
    exact (hturn m hm).1
  · intro r hr
    rw [heq] at hr
    obtain ⟨m, hm, rfl⟩ := mem_map.mp hr
    exact (hturn m hm).2

/-! ### Objects in parts are not -/

variable {ext : S3ObjectExtendedMetadata}

theorem exists_motrObject (h : InParts m ext) (hfrag : m.numberOfFragments ≠ 0) :
    ∃ oid, oid ∈ motrObjects m := by
  obtain ⟨frag, hat, _⟩ := h.fragment 0 (Nat.pos_of_ne_zero hfrag)
  refine ⟨frag.motrOID, ?_⟩
  unfold motrObjects
  rw [if_neg hfrag]
  refine mem_filterMap.mpr ⟨0, mem_range.mpr (Nat.pos_of_ne_zero hfrag), ?_⟩
  rw [hat]
  rfl

theorem leaves_extended (hd : (Deletion.deleteObject bucket m).Consistent probableIndex s)
    (h : InParts m ext) (hfrag : m.numberOfFragments ≠ 0) (records : List S3ProbableDeleteRecord) :
    ∀ key ∈ partKeys m, ((Deletion.deleteObject bucket m).leaves probableIndex records s).kv
      (toString bucket.extendedMetadataIndexOid) key = none := by
  intro key hkey
  have hkeys : extendedKeys m = partKeys m := by
    have hextended : m.isObjectExtended = true := by
      unfold S3ObjectMetadata.isObjectExtended
      rw [h.parts, decide_eq_true hfrag, decide_eq_true (Nat.le_refl _)]
      rfl
    unfold extendedKeys
    rw [if_pos hextended, h.extended, Option.map_some, Option.getD_some, h.keys]
  refine (putRecords_kv (Ne.symm hd.extIndex) _ _ _).trans ?_
  unfold removeObject
  dsimp only
  apply removeAll_gone
  rw [hkeys]
  exact hkey

theorem deleteObject_deletes_nothing
    (hd : (Deletion.deleteObject bucket m).Consistent probableIndex s)
    (hrecords : (Deletion.deleteObject bucket m).records = some records)
    (hfrag : m.numberOfFragments ≠ 0) :
    (process probableIndex instanceId
      ((Deletion.deleteObject bucket m).leaves probableIndex records s) records).deleted = [] := by
  have hwf := hd.objects m mem_cons_self
  obtain ⟨ext, hparts⟩ := hwf.inParts hfrag
  obtain ⟨rs, hrs, rfl⟩ := Option.map_eq_some_iff.mp hrecords
  unfold populateProbableDeadOidList
    addOidsToProbableDeadOidList at hrs
  rw [if_neg hfrag, if_neg (by rw [hparts.parts]; exact hfrag)] at hrs
  obtain ⟨parts, hmap, rfl⟩ := Option.map_eq_some_iff.mp hrs
  refine (process_invariant (P := fun s => s.deleted = [] ∧ ∀ key ∈ partKeys m,
    s.kv (toString bucket.extendedMetadataIndexOid) key = none) _ ?_ ?_).1
  · exact ⟨(leaves_deleted _ _ s).trans hd.nothingDeleted, leaves_extended hd hparts hfrag _⟩
  · intro r hr s' hs'
    refine ⟨?_, fun key hkey => (fades_processResults _ _ _ _ s').gone (hs'.2 key hkey)⟩
    rw [← hs'.1]
    rw [map_append] at hr
    rcases mem_append.mp hr with hr | hr
    · obtain ⟨part, hpart, rfl⟩ := mem_map.mp hr
      obtain ⟨i, hi, hrecord⟩ := exists_left_of_forall₂
        (forall₂_of_mapM hmap) part hpart
      obtain ⟨frag, hat, rfl⟩ := Option.map_eq_some_iff.mp hrecord
      obtain ⟨frag', hat', hversion⟩ := hparts.fragment i (mem_range.mp hi)
      rw [hat] at hat'
      cases hat'
      exact processResults_part_deleted hwf.oid hd.extendedIndex hwf.objVersionKey hversion
        (Nat.succ_ne_zero i) (hs'.2 _ (mem_map.mpr ⟨i, hi, rfl⟩))
    · rw [mem_singleton.mp hr]
      exact processResults_parent_deleted hfrag hs'.2

theorem deleteMultipleObjects_deletes
    (hd : (Deletion.deleteMultipleObjects bucket ms).Consistent probableIndex s)
    (hrecords : (Deletion.deleteMultipleObjects bucket ms).records = some records) :
    ∀ oid ∈ (process probableIndex instanceId
      ((Deletion.deleteMultipleObjects bucket ms).leaves probableIndex records s) records).deleted,
      ∃ m ∈ ms, m.numberOfFragments = 0 ∧ oid = toString m.oid := by
  obtain ⟨rss, hrss, rfl⟩ := Option.map_eq_some_iff.mp hrecords
  refine (process_invariant (P := fun s' => Fades
      ((Deletion.deleteMultipleObjects bucket ms).leaves probableIndex rss.flatten s) s' ∧
    ∀ oid ∈ s'.deleted, ∃ m ∈ ms, m.numberOfFragments = 0 ∧ oid = toString m.oid) _ ?_ ?_).2
  · refine ⟨.refl _, ?_⟩
    rw [leaves_deleted, hd.nothingDeleted]
    exact nofun
  · intro r hr s' hs'
    refine ⟨hs'.1.trans (fades_processResults _ _ _ _ s'), ?_⟩
    obtain ⟨rs, hmem, hr⟩ := mem_flatten.mp hr
    obtain ⟨m, hm, hrs⟩ := exists_left_of_forall₂
      (forall₂_of_mapM hrss) rs hmem
    by_cases hfrag : m.numberOfFragments = 0
    · -- the object in one piece is what is deleted
      unfold objectRecords at hrs
      rw [if_pos hfrag] at hrs
      cases hrs
      rw [mem_singleton.mp hr]
      have hdeleted := (processResults_recordOf instanceId hd hm hs'.1).1
      intro oid hoid
      rcases mem_append.mp (hdeleted ▸ hoid) with hoid | hoid
      · exact hs'.2 oid hoid
      · exact ⟨m, hm, hfrag, mem_singleton.mp hoid⟩
    · have hunchanged : ∀ {x : Store}, x.deleted = s'.deleted → ∀ oid ∈ x.deleted,
          ∃ m ∈ ms, m.numberOfFragments = 0 ∧ oid = toString m.oid := by
        intro x hx
        rw [hx]
        exact hs'.2
      cases hext : m.extended with
      | none =>
        unfold objectRecords at hrs
        rw [if_neg hfrag, if_pos hext] at hrs
        cases hrs
        cases hr
      | some ext =>
        obtain ⟨i, _, frag, _, rfl⟩ := exists_left_of_forall₂
          (objectRecords_parts hfrag hext hrs) r hr
        exact hunchanged (processResults_partRecord_deleted frag s')

/-- **What a deletion leaves is reclaimed exactly when no object is in parts.** -/
theorem reclaimed_iff {d : Deletion} {records : List S3ProbableDeleteRecord}
    (hd : d.Consistent probableIndex s) (hrecords : d.records = some records) :
    d.Reclaimed probableIndex instanceId records s ↔ ∀ m ∈ d.objects, m.numberOfFragments = 0 := by
  refine ⟨fun h m hm => ?_, reclaimed_of_simple hd hrecords⟩
  by_contra hfrag
  obtain ⟨ext, hparts⟩ := (hd.objects m hm).inParts hfrag
  obtain ⟨oid, hoid⟩ := exists_motrObject hparts hfrag
  have hdeleted := (h records (List.Perm.refl _)).1 m hm oid hoid
  cases d with
  | deleteObject bucket m' =>
    cases mem_singleton.mp hm
    rw [deleteObject_deletes_nothing hd hrecords hfrag] at hdeleted
    cases hdeleted
  | deleteMultipleObjects bucket ms =>
    obtain ⟨m', hm', hsimple, heq⟩ := deleteMultipleObjects_deletes hd hrecords _ hdeleted
    exact hd.separate m hm hfrag oid hoid m' hm' hsimple
      (S3DeleteMultipleObjectsAction.toString_injective heq)

end Reclaimed

/-! ### An object in one piece and one in parts -/

/-- A bucket with an entry in its version list. -/
def sampleStore (m : S3ObjectMetadata) : Store where
  kv i k :=
    if i = toString sampleBucket.objectsVersionListIndexOid ∧ k = m.versionKeyInIndex then
      some (toString m.oid)
    else none

/-- The index of the records. -/
def sampleProbableIndex : Bytes := ascii "probable"

theorem reclaimed_iff_movie :
    ∃ records, (Deletion.deleteObject sampleBucket (sampleObject "movie" 7 100)).records =
        some records ∧ records.length = 1 ∧
      (Deletion.deleteObject sampleBucket (sampleObject "movie" 7 100)).Reclaimed
        sampleProbableIndex {} records (sampleStore (sampleObject "movie" 7 100)) := by
  refine ⟨_, rfl, rfl, (reclaimed_iff ?_ rfl).mpr ?_⟩
  · refine ⟨?_, by decide, by decide, by decide, by decide, ?_, rfl⟩
    · intro m hm
      cases mem_singleton.mp hm
      exact ⟨by decide, by decide, by decide, rfl, fun hne => absurd rfl hne⟩
    · intro m hm hne
      cases mem_singleton.mp hm
      exact absurd rfl hne
  · intro m hm
    cases mem_singleton.mp hm
    rfl

/-- A bucket with its entries. -/
def sampleFilmStore : Store where
  kv i k :=
    if i = toString sampleBucket.extendedMetadataIndexOid ∧ k = partKey sampleLoadedFilm 1 then
      some (toString sampleFilmPart)
    else (sampleStore sampleLoadedFilm).kv i k

/-- The delete of an object in parts: its part is not deleted. -/
theorem not_reclaimed_film :
    ∃ records, (Deletion.deleteObject sampleBucket sampleLoadedFilm).records = some records ∧
      ¬ (Deletion.deleteObject sampleBucket sampleLoadedFilm).Reclaimed sampleProbableIndex {} records
        sampleFilmStore := by
  refine ⟨_, rfl, fun h => ?_⟩
  have hdeleted := (h _ (List.Perm.refl _)).1 sampleLoadedFilm mem_cons_self
    sampleFilmPart mem_cons_self
  exact absurd hdeleted (by decide)

end DelayedDelete

end CortxS3
