/-
The keys of probable-delete records, taken apart by the background delete.

The reader strips one character and, for a record without an old identifier, keeps the first two
fields between dashes.  Base64 has no dash, so an identifier is two fields, and a key with a size
prefix gives back the identifier it was made of (`objectLeakId_prefixed`), also when that of the new
object follows (`objectLeakId_pair`).

A key without the prefix loses its first character (`objectLeakId_bare`).  One writer leaves it out:
the copy of an object in one piece.
-/
import CortxS3.BackgroundDelete.ObjectRecoveryValidator
import CortxS3.Proofs.ObjectExtendedMetadata

namespace CortxS3

open Option (map_eq_some_iff some.inj)
open List S3M0Uint128Helper ObjectRecoveryValidator
open S3ObjectExtendedMetadata (pieces_append pieces_of_notMem)

/-! ### Identifiers between dashes -/

theorem dash_notMem_base64Encode (b : Bytes) : (45 : UInt8) ∉ base64Encode b := by
  intro h
  exact (base64Encode_plain b 45 h).2 rfl

theorem toString_eq (id : M0Uint128) :
    toString id = base64Encode id.uHi.1 ++ 45 :: base64Encode id.uLo.1 := by
  unfold S3M0Uint128Helper.toString
  rw [append_assoc]
  rfl

theorem pieces_toString (id : M0Uint128) :
    pieces 45 (toString id) = [base64Encode id.uHi.1, base64Encode id.uLo.1] := by
  rw [toString_eq, pieces_append _ (dash_notMem_base64Encode _),
    pieces_of_notMem (dash_notMem_base64Encode _)]

theorem pieces_pair (a b : M0Uint128) :
    pieces 45 (toString a ++ ascii "-" ++ toString b) =
      [base64Encode a.uHi.1, base64Encode a.uLo.1, base64Encode b.uHi.1, base64Encode b.uLo.1] := by
  rw [toString_eq a, show (base64Encode a.uHi.1 ++ 45 :: base64Encode a.uLo.1) ++ ascii "-" ++
    toString b = base64Encode a.uHi.1 ++ 45 :: (base64Encode a.uLo.1 ++ 45 :: toString b) by
      rw [append_assoc, append_assoc]
      rfl]
  rw [pieces_append _ (dash_notMem_base64Encode _), pieces_append _ (dash_notMem_base64Encode _),
    pieces_toString]

theorem nullObjOid_eq : nullObjOid = toString {} := by decide

theorem uHi_ne_nil (id : M0Uint128) : id.uHi.1 ≠ [] := by
  intro h
  have := id.uHi.2
  rw [h] at this
  cases this

/-! ### Taking a key apart -/

section Decode

variable {info : ProbableDeleteJson}

theorem objectLeakId_prefixed (oid : M0Uint128) (size : Nat) :
    objectLeakId (sizeBasedBucketingOfObjects (toString oid) size) info = some (toString oid) := by
  unfold objectLeakId sizeBasedBucketingOfObjects
  rw [drop_one, tail_cons]
  by_cases hold : info.oldOid = nullObjOid
  · rw [if_pos hold, pieces_toString]
    rfl
  · rw [if_neg hold]

theorem objectLeakId_pair (hold : info.oldOid = nullObjOid) (old new : M0Uint128) (size : Nat) :
    objectLeakId (sizeBasedBucketingOfObjects (toString old) size ++ ascii "-" ++ toString new)
      info = some (toString old) := by
  unfold objectLeakId sizeBasedBucketingOfObjects
  rw [if_pos hold, cons_append, cons_append, drop_one, tail_cons, pieces_pair]
  rfl

/-- A key without a size prefix loses a character of the identifier. -/
theorem objectLeakId_bare (oid : M0Uint128) :
    objectLeakId (toString oid) info = some ((toString oid).drop 1) := by
  obtain ⟨c, hi, hhi⟩ := exists_cons_of_ne_nil (base64Encode_ne_nil (uHi_ne_nil oid))
  have hdrop : (toString oid).drop 1 = hi ++ 45 :: base64Encode oid.uLo.1 := by
    rw [toString_eq, hhi]
    rfl
  have hnot : (45 : UInt8) ∉ hi := by
    intro h
    apply dash_notMem_base64Encode oid.uHi.1
    rw [hhi]
    exact mem_cons_of_mem _ h
  unfold objectLeakId
  by_cases hold : info.oldOid = nullObjOid
  · rw [if_pos hold, hdrop, pieces_append _ hnot, pieces_of_notMem (dash_notMem_base64Encode _)]
    show some (hi ++ ascii "-" ++ base64Encode oid.uLo.1) = _
    rw [append_assoc]
    rfl
  · rw [if_neg hold]

theorem drop_toString_ne (oid : M0Uint128) : (toString oid).drop 1 ≠ toString oid := by
  intro h
  have hlen := congrArg List.length h
  have hne : toString oid ≠ [] := by
    rw [toString_eq]
    exact append_ne_nil_of_right_ne_nil _ (cons_ne_nil _ _)
  have hpos := length_pos_iff.mpr hne
  rw [length_drop] at hlen
  omega

end Decode

/-! ### The records of the actions -/

/-- A record is decoded to the object it is about. -/
def Decodes (instanceId : M0Uint128) (p : Bytes × S3ProbableDeleteRecord) : Prop :=
  objectLeakId p.1 (p.2.toJson instanceId) = some (toString p.2.currentObjectOid)

/-- A run of one of the actions that write records. -/
inductive RecordWriter where
  | putObject (c : PutContext)
  | copyObject (c : CopyContext)
  | putPart (c : PartContext)
  | deleteObject (bucket : BucketIndexes) (m : S3ObjectMetadata)

/-- Everything a run may put, or nothing when it does not come to an end. -/
def RecordWriter.puts : RecordWriter → Option Puts
  | .putObject c => S3PutObjectAction.puts c
  | .copyObject c => S3PutObjectActionBase.puts c
  | .putPart c => some (S3PutMultiObjectAction.puts c)
  | .deleteObject bucket m => S3DeleteObjectAction.puts bucket m

/-- The copy of an object in one piece. -/
def RecordWriter.CopiesSimple : RecordWriter → Prop
  | .copyObject c => c.sourceExtended = false
  | _ => False

section Writers

variable {instanceId : M0Uint128}

variable {key : Bytes} {r : S3ProbableDeleteRecord}

variable {size : Nat}

theorem decodes_of_prefixed
    (h : key = sizeBasedBucketingOfObjects (toString r.currentObjectOid) size) :
    Decodes instanceId (key, r) := by
  unfold Decodes
  rw [h]
  exact objectLeakId_prefixed _ _

theorem decodes_of_pair {new : M0Uint128}
    (hold : r.oldObjectOid = {})
    (h : key = sizeBasedBucketingOfObjects (toString r.currentObjectOid) size ++ ascii "-" ++
      toString new) : Decodes instanceId (key, r) := by
  unfold Decodes
  rw [h]
  apply objectLeakId_pair
  show toString r.oldObjectOid = nullObjOid
  rw [hold, nullObjOid_eq]

theorem decodes_setForceDelete (h : Decodes instanceId (key, r)) :
    Decodes instanceId (key, r.setForceDelete) := h

variable {records : List S3ProbableDeleteRecord}

theorem decodes_ownKeys_setForceDelete (h : ∀ p ∈ ownKeys records, Decodes instanceId p) :
    ∀ p ∈ ownKeys (records.map (·.setForceDelete)), Decodes instanceId p := by
  intro p hp
  unfold ownKeys at hp
  rw [map_map] at hp
  obtain ⟨r, hr, rfl⟩ := mem_map.mp hp
  exact decodes_setForceDelete (h (r.recordKey, r) (mem_map.mpr ⟨r, hr, rfl⟩))

theorem decodes_ownKeys_append {l l' : List S3ProbableDeleteRecord}
    (h : ∀ p ∈ ownKeys l, Decodes instanceId p) (h' : ∀ p ∈ ownKeys l', Decodes instanceId p) :
    ∀ p ∈ ownKeys (l ++ l'), Decodes instanceId p := by
  unfold ownKeys at *
  rw [map_append]
  exact forall_mem_append.mpr ⟨h, h'⟩

theorem decodes_partDeleteRecord (bucket : BucketIndexes) (m : S3ObjectMetadata) (n : Nat)
    (frag : S3PartFragContext) :
    Decodes instanceId ((partDeleteRecord bucket m n frag).recordKey,
      partDeleteRecord bucket m n frag) :=
  decodes_of_prefixed rfl

theorem decodes_parentDeleteRecord (bucket : BucketIndexes) (m : S3ObjectMetadata) (n : Nat) :
    ∀ p ∈ ownKeys [parentDeleteRecord bucket m n], Decodes instanceId p := by
  intro p hp
  rw [mem_singleton.mp hp]
  exact decodes_of_prefixed rfl

theorem decodes_partRecords (bucket : BucketIndexes) (m : S3ObjectMetadata) :
    ∀ (ext : List (Int × List S3PartFragContext)) {records : List S3ProbableDeleteRecord},
      partRecords bucket m ext = some records → ∀ p ∈ ownKeys records, Decodes instanceId p := by
  intro ext
  induction ext with
  | nil =>
    intro records h p hp
    cases h
    cases hp
  | cons e ext ih =>
    intro records h p hp
    obtain ⟨n, frags⟩ := e
    cases frags with
    | nil => cases h
    | cons frag frags =>
      unfold partRecords at h
      by_cases hzero : frag.motrOID = {}
      · rw [if_pos hzero] at h
        cases h
      · rw [if_neg hzero] at h
        obtain ⟨rest, hrest, rfl⟩ := map_eq_some_iff.mp h
        rcases mem_cons.mp hp with rfl | hp
        · exact decodes_partDeleteRecord bucket m _ frag
        · exact ih hrest p hp

variable {bucket : BucketIndexes} {m : S3ObjectMetadata}

theorem decodes_addPartObject (h : addPartObjectToProbableDeadOidList bucket m = some records) :
    ∀ p ∈ ownKeys records, Decodes instanceId p := by
  unfold addPartObjectToProbableDeadOidList at h
  dsimp only at h
  split at h
  · obtain ⟨parts, hparts, rfl⟩ := map_eq_some_iff.mp h
    exact decodes_ownKeys_append (decodes_partRecords bucket m _ hparts)
      (decodes_parentDeleteRecord bucket m _)
  · cases h
    intro p hp
    cases hp

theorem decodes_replaced (bucket : BucketIndexes) (m : S3ObjectMetadata) (new : M0Uint128) :
    ∀ p ∈ ownKeys [simpleDeleteRecord bucket
      (sizeBasedBucketingOfObjects (toString m.oid) m.contentLength ++ ascii "-" ++ toString new) {}
      m m.oid m.layoutId], Decodes instanceId p := by
  intro p hp
  rw [mem_singleton.mp hp]
  exact decodes_of_pair rfl rfl

variable {ps : Puts}

theorem decodes_putObject {c : PutContext} (h : S3PutObjectAction.puts c = some ps) :
    ∀ p ∈ ps, Decodes instanceId p := by
  unfold S3PutObjectAction.puts at h
  obtain ⟨old, hold, rfl⟩ := map_eq_some_iff.mp h
  have holdRecords : ∀ p ∈ ownKeys old, Decodes instanceId p := by
    unfold S3PutObjectAction.oldRecords at hold
    split at hold
    · cases hold
      intro p hp
      cases hp
    · split at hold
      · cases hold
        intro p hp
        cases hp
      · split at hold
        · exact decodes_addPartObject hold
        · cases hold
          exact decodes_replaced _ _ _
  have hnew : Decodes instanceId (S3PutObjectAction.newOidStr c, S3PutObjectAction.newRecord c) :=
    decodes_of_prefixed rfl
  intro p hp
  simp only [mem_append, mem_singleton] at hp
  rcases hp with (((hp | rfl) | hp) | rfl) | hp
  · exact holdRecords p hp
  · exact hnew
  · rw [mem_singleton.mp hp]
    exact decodes_of_prefixed rfl
  · exact decodes_setForceDelete hnew
  · exact decodes_ownKeys_setForceDelete holdRecords p hp

/-- A copy is decoded unless it is that of an object in one piece. -/
theorem decodes_copyObject_iff {c : CopyContext} (h : S3PutObjectActionBase.puts c = some ps) :
    (∀ p ∈ ps, Decodes instanceId p) ↔ ¬ c.sourceExtended = false := by
  unfold S3PutObjectActionBase.puts at h
  obtain ⟨old, hold, rfl⟩ := map_eq_some_iff.mp h
  have holdRecords : ∀ p ∈ ownKeys old, Decodes instanceId p := by
    unfold S3PutObjectActionBase.oldRecords at hold
    split at hold
    · cases hold
      intro p hp
      cases hp
    · split at hold
      · cases hold
        intro p hp
        cases hp
      · split at hold
        · exact decodes_addPartObject hold
        · cases hold
          exact decodes_replaced _ _ _
  constructor
  · intro hall hsimple
    -- the record of the new object has no prefix
    have hmem : ((S3PutObjectActionBase.newRecord c.toPutContext).recordKey,
        S3PutObjectActionBase.newRecord c.toPutContext) ∈
        ownKeys (S3PutObjectActionBase.newRecords c) := by
      unfold S3PutObjectActionBase.newRecords
      rw [hsimple]
      exact mem_singleton_self _
    have hdecodes := hall _ (mem_append_left _ (mem_append_left _
      (mem_append_left _ hmem)))
    unfold Decodes at hdecodes
    rw [show (S3PutObjectActionBase.newRecord c.toPutContext).recordKey =
      toString c.newObjectOid from rfl, objectLeakId_bare] at hdecodes
    exact drop_toString_ne c.newObjectOid (some.inj hdecodes)
  · intro hext
    have hnew : ∀ p ∈ ownKeys (S3PutObjectActionBase.newRecords c), Decodes instanceId p := by
      unfold S3PutObjectActionBase.newRecords ownKeys
      rw [if_pos (Bool.not_eq_false _ ▸ hext), map_map]
      intro p hp
      obtain ⟨frag, _, rfl⟩ := mem_map.mp hp
      exact decodes_of_prefixed rfl
    intro p hp
    simp only [mem_append] at hp
    rcases hp with ((hp | hp) | hp) | hp
    · exact hnew p hp
    · exact holdRecords p hp
    · exact decodes_ownKeys_setForceDelete hnew p hp
    · exact decodes_ownKeys_setForceDelete holdRecords p hp

theorem decodes_putPart (c : PartContext) :
    ∀ p ∈ S3PutMultiObjectAction.puts c, Decodes instanceId p := by
  have hold : ∀ p ∈ S3PutMultiObjectAction.oldRecord c (toString c.newObjectOid),
      Decodes instanceId p := by
    unfold S3PutMultiObjectAction.oldRecord
    intro p hp
    split at hp
    · cases hp
    · split at hp
      · cases hp
      · rw [mem_singleton.mp hp]
        exact decodes_of_pair rfl rfl
  have hnew : Decodes instanceId
      (S3PutMultiObjectAction.newOidStr c, S3PutMultiObjectAction.newRecord c) :=
    decodes_of_prefixed rfl
  intro p hp
  unfold S3PutMultiObjectAction.puts S3PutMultiObjectAction.addObjectOidToProbableDeadOidList at hp
  simp only [mem_append, mem_singleton] at hp
  rcases hp with (((hp | rfl) | hp) | rfl) | hp
  · exact hold p hp
  · exact hnew
  · -- without its prefix the new identifier is what it was
    unfold S3PutMultiObjectAction.markOldOidForDeletion at hp
    obtain ⟨q, hq, rfl⟩ := mem_map.mp hp
    exact decodes_setForceDelete (hold q hq)
  · exact decodes_setForceDelete hnew
  · rw [mem_singleton.mp hp]
    exact decodes_of_prefixed rfl

theorem decodes_mapM_fragments :
    ∀ (is : List Nat) {records : List S3ProbableDeleteRecord},
      (is.mapM fun i => (S3DeleteObjectAction.fragmentAt m (i + 1)).map
        (partDeleteRecord bucket m (i + 1))) = some records →
      ∀ p ∈ ownKeys records, Decodes instanceId p := by
  intro is
  induction is with
  | nil =>
    intro records h p hp
    rw [mapM_nil] at h
    cases h
    cases hp
  | cons i is ih =>
    intro records h p hp
    rw [mapM_cons] at h
    obtain ⟨r, hr, h⟩ := Option.bind_eq_some_iff.mp h
    obtain ⟨rest, hrest, h⟩ := Option.bind_eq_some_iff.mp h
    cases h
    obtain ⟨frag, _, rfl⟩ := map_eq_some_iff.mp hr
    rcases mem_cons.mp hp with rfl | hp
    · exact decodes_partDeleteRecord bucket m _ frag
    · exact ih hrest p hp

theorem decodes_deleteObject (h : S3DeleteObjectAction.puts bucket m = some ps) :
    ∀ p ∈ ps, Decodes instanceId p := by
  unfold S3DeleteObjectAction.puts at h
  obtain ⟨records, hrecords, rfl⟩ := map_eq_some_iff.mp h
  have hall : ∀ p ∈ ownKeys records, Decodes instanceId p := by
    unfold S3DeleteObjectAction.populateProbableDeadOidList at hrecords
    split at hrecords
    · cases hrecords
      intro p hp
      rw [mem_singleton.mp hp]
      exact decodes_of_prefixed rfl
    · unfold S3DeleteObjectAction.addOidsToProbableDeadOidList at hrecords
      split at hrecords
      · cases hrecords
        intro p hp
        cases hp
      · obtain ⟨parts, hparts, rfl⟩ := map_eq_some_iff.mp hrecords
        exact decodes_ownKeys_append (decodes_mapM_fragments _ hparts)
          (decodes_parentDeleteRecord bucket m _)
  exact forall_mem_append.mpr ⟨hall, decodes_ownKeys_setForceDelete hall⟩

/-- **Every key that a run stores a record under is decoded to the object of the record, unless the
run copies an object in one piece.** -/
theorem decodes_iff {w : RecordWriter} {ps : Puts} (h : w.puts = some ps) :
    (∀ p ∈ ps, Decodes instanceId p) ↔ ¬ w.CopiesSimple := by
  cases w with
  | putObject c => exact ⟨fun _ => id, fun _ => decodes_putObject h⟩
  | copyObject c => exact decodes_copyObject_iff h
  | putPart c =>
    cases h
    exact ⟨fun _ => id, fun _ => decodes_putPart c⟩
  | deleteObject bucket m => exact ⟨fun _ => id, fun _ => decodes_deleteObject h⟩

end Writers

/-- An object of a bucket, under a name and with an identifier that ends in a byte. -/
def sampleObject (name : String) (b : UInt8) (size : Nat) : S3ObjectMetadata :=
  { objectName := ascii name
    oid := { uHi := ⟨[1, 0, 0, 0, 0, 0, 0, 0], rfl⟩, uLo := ⟨[0, 0, 0, 0, 0, 0, 0, b], rfl⟩ }
    layoutId := 9
    pvidStr := []
    contentLength := size
    versionKeyInIndex := ascii name ++ ascii "/v1"
    objVersionKey := ascii "v1" }

/-- An object in one part. -/
def sampleFilm : S3ObjectMetadata :=
  { sampleObject "film" 9 0 with numberOfParts := 1, numberOfFragments := 1 }

/-- The Motr object of the part. -/
def sampleFilmPart : M0Uint128 := (sampleObject "film" 10 0).oid

def sampleFilmFragment : S3PartFragContext where
  motrOID := sampleFilmPart
  versionID := ascii "v1"
  itemSize := 4096
  layoutId := 9
  partNumber := 1
  isMultipart := true

/-- What is loaded of its extended metadata. -/
def sampleFilmExtended : S3ObjectExtendedMetadata where
  objectName := ascii "film"
  versionId := ascii "v1"
  fragments := 1
  parts := 1
  extObjects := [(1, [sampleFilmFragment])]

/-- The object with it. -/
def sampleLoadedFilm : S3ObjectMetadata := { sampleFilm with extended := some sampleFilmExtended }

/-- An identifier that ends in a byte. -/
def sampleOid (b : UInt8) : M0Uint128 := { uLo := ⟨[0, 0, 0, 0, 0, 0, 0, b], rfl⟩ }

def sampleBucket : BucketIndexes := ⟨sampleOid 1, sampleOid 2, sampleOid 3⟩

/-- A put of 4096 bytes over an object of 100. -/
def sampleOverwrite : PutContext where
  bucket := sampleBucket
  objectMetadata := some (sampleObject "movie" 7 100)
  newObjectMetadata := sampleObject "movie" 8 4096
  newObjectOid := (sampleObject "movie" 8 4096).oid
  layoutId := 9
  contentLength := 4096

theorem decodes_iff_overwrite :
    ∃ ps, (RecordWriter.putObject sampleOverwrite).puts = some ps ∧ ps.length = 5 ∧
      ∀ p ∈ ps, Decodes {} p :=
  ⟨_, rfl, rfl, (decodes_iff (show (RecordWriter.putObject sampleOverwrite).puts = _ from rfl)).mpr
    (show ¬ False from id)⟩

/-- A copy of an object in one piece: the record of the new object has no size prefix. -/
theorem not_decodes_copy :
    ¬ Decodes {} ((S3PutObjectActionBase.newRecord sampleOverwrite).recordKey,
      S3PutObjectActionBase.newRecord sampleOverwrite) := by
  unfold Decodes
  rw [show (S3PutObjectActionBase.newRecord sampleOverwrite).recordKey =
    S3M0Uint128Helper.toString sampleOverwrite.newObjectOid from rfl, objectLeakId_bare]
  intro h
  exact drop_toString_ne sampleOverwrite.newObjectOid (some.inj h)

end CortxS3
