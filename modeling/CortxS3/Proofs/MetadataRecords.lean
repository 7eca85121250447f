/-
Which entries the decoders of metadata survive.

A text that is no JSON is reported.  Of one that is, every member which the decoder knows has to
have the shape that it takes for granted.  By the rules for programs that may fail each decoder
turns into the list of its accesses, and the list into a condition on the tree.
-/
import CortxS3.Lib.Settles
import CortxS3.Server.MetadataRecords
import CortxS3.Proofs.M0Uint128Helper
import CortxS3.Proofs.ObjectVersioningHelper

namespace CortxS3.MetadataRecords

open List StateExcept S3M0Uint128Helper

/-! ### Access to members -/

namespace Json.Value

/-- The value is an object, or null. -/
def HasMembers : Value → Prop
  | .null => True
  | .object _ => True
  | _ => False

/-- The member under a key, which is null where there is none. -/
def memberAt (value : Value) (key : Bytes) : Value :=
  match value with
  | .object members => (SortedMap.get key members).getD .null
  | _ => .null

/-- The names of the members. -/
def names : Value → List Bytes
  | .object members => members.map Prod.fst
  | _ => []

/-- There is a member under the key. -/
def Has (value : Value) (key : Bytes) : Prop :=
  ∃ members, value = .object members ∧ (SortedMap.get key members).isSome = true

variable {value : Value}

theorem member_eq_ok {v : Value} {key : Bytes} :
    value.member key = .ok v ↔ value.HasMembers ∧ v = value.memberAt key := by
  cases value with
  | null | object => simp [member, HasMembers, memberAt, eq_comm]
  | boolean | number | string | array => simp [member, HasMembers]

theorem getMemberNames_eq_ok {l : List Bytes} :
    value.getMemberNames = .ok l ↔ value.HasMembers ∧ l = value.names := by
  cases value with
  | null | object => simp [getMemberNames, HasMembers, names, eq_comm]
  | boolean | number | string | array => simp [getMemberNames, HasMembers]

theorem isMember_eq_ok {key : Bytes} {b : Bool} :
    value.isMember key = .ok b ↔ value.HasMembers ∧ (b = true ↔ value.Has key) := by
  cases value with
  | null | object members => cases b <;> simp [isMember, HasMembers, Has]
  | boolean | number | string | array => simp [isMember, HasMembers]

end Json.Value

section Accesses

variable {cpp : JsonCpp} {root : Json.Value} {key : Bytes}

theorem readAt_eq_ok {α : Type} {convert : Json.Value → Except Fatal α} {a : α} :
    readAt convert root key = .ok a ↔ root.HasMembers ∧ convert (root.memberAt key) = .ok a := by
  rw [readAt, bind_eq_ok]
  simp only [Json.Value.member_eq_ok, and_assoc, exists_and_left, exists_eq_left]

theorem memberNamesAt_eq_ok {l : List Bytes} :
    memberNamesAt root key = .ok l ↔
      root.HasMembers ∧ (root.memberAt key).HasMembers ∧ l = (root.memberAt key).names := by
  rw [memberNamesAt, bind_eq_ok]
  simp only [Json.Value.member_eq_ok, Json.Value.getMemberNames_eq_ok, and_assoc, exists_and_left,
    exists_eq_left]

theorem attributeAt_eq_ok {it t : Bytes} :
    attributeAt cpp root key it = .ok t ↔
      root.HasMembers ∧ (root.memberAt key).HasMembers ∧
        cpp.asString ((root.memberAt key).memberAt it) = .ok t := by
  rw [attributeAt, bind_eq_ok]
  simp only [bind_eq_ok, Json.Value.member_eq_ok, and_assoc, exists_and_left, exists_eq_left]

end Accesses

/-! ### What the members have to be -/

section Members

variable (cpp : JsonCpp) (root : Json.Value) (key : Bytes)

/-- The member has the conversion. -/
def HasAs {α : Type} (convert : Json.Value → Except Fatal α) : Prop :=
  ∃ a, convert (root.memberAt key) = .ok a

abbrev HasString : Prop := HasAs root key cpp.asString

abbrev HasInt : Prop := HasAs root key cpp.asInt

abbrev HasUInt : Prop := HasAs root key cpp.asUInt

/-- The member is the text of an index layout, of 40 bytes at most. -/
def HasLayout : Prop :=
  ∃ t, cpp.asString (root.memberAt key) = .ok t ∧ (base64Decode t).length ≤ 40

/-- The member is an object whose own members have `asString`, or null. -/
structure HasAttributes : Prop where
  members : (root.memberAt key).HasMembers
  values : ∀ it ∈ (root.memberAt key).names,
    ∃ t, cpp.asString ((root.memberAt key).memberAt it) = .ok t

end Members

/-! ### Conversions -/

theorem converted_eq_ok {α : Type} {c : Conversion α} {a : α} :
    converted c = .ok a ↔ (∀ copied ∈ c.copies, copied.count ≤ copied.room) ∧ c.value = a := by
  unfold converted
  by_cases h : (c.copies.all fun copied => decide (copied.count ≤ copied.room)) = true
  · rw [if_pos h]
    simp only [all_eq_true, decide_eq_true_eq] at h
    exact ⟨fun hok => ⟨h, Except.ok.inj hok⟩, fun hok => congrArg Except.ok hok.2⟩
  · rw [if_neg h]
    simp only [all_eq_true, decide_eq_true_eq] at h
    exact ⟨fun hok => absurd hok (by simp), fun hok => absurd hok.1 h⟩

theorem converted_id (text : Bytes) :
    converted (m0Uint128OfString text) = .ok (m0Uint128OfString text).value := by
  refine converted_eq_ok.mpr ⟨?_, rfl⟩
  unfold m0Uint128OfString
  split
  · simp
  · exact m0Uint128OfDecoded_inBounds _ _

theorem converted_layout (text : Bytes) :
    (∃ lo, converted (toIdxLayout text) = .ok lo) ↔ (base64Decode text).length ≤ 40 := by
  simp [converted_eq_ok, toIdxLayout]

theorem asserted_keyid (versionid : Bytes) :
    ∃ key, asserted (S3ObjectVersioingHelper.generateKeyidFromVersionid versionid) = .ok key := by
  rw [S3ObjectVersioingHelper.generateKeyidFromVersionid, base64DecodeAsserted_eq]
  exact ⟨_, rfl⟩

theorem asserted_base64 (text : Bytes) : ∃ t, asserted (base64DecodeAsserted text) = .ok t := by
  rw [base64DecodeAsserted_eq]
  exact ⟨_, rfl⟩

/-! ### The accesses of a decoder -/

section Decoders

variable {cpp : JsonCpp} {root : Json.Value} {key : Bytes} {σ α : Type} {I : σ → Prop}
  {post : α → Prop} {R : Prop}

theorem settles_read {β : Type} {convert : Json.Value → Except Fatal β} (hroot : root.HasMembers)
    {f : β → σ → σ} {k : β → Decoding σ α} (hstore : ∀ b s, I s → I (f b s))
    (hk : ∀ b, Settles I (k b) post R) :
    Settles I (do
      let b ← (liftM (readAt convert root key) : Decoding σ β)
      modify (f b)
      k b) post (HasAs root key convert ∧ R) := by
  refine (settles_store hstore fun b _ => hk b).congr ?_
  simp only [readAt_eq_ok, hroot, true_and, HasAs]

theorem settles_always {β : Type} {x : Except Fatal β} (hx : ∃ b, x = .ok b) {f : β → σ → σ}
    {k : β → Decoding σ α} (hstore : ∀ b s, I s → I (f b s))
    (hk : ∀ b, Settles I (k b) post R) :
    Settles I (do
      let b ← (liftM x : Decoding σ β)
      modify (f b)
      k b) post R :=
  (settles_store hstore fun b _ => hk b).congr (and_iff_right hx)

/-- A text, and what is always made of it. -/
theorem settles_derived {β : Type} (hroot : root.HasMembers) {g : Bytes → Except Fatal β}
    (hg : ∀ t, ∃ b, g t = .ok b) {f : β → σ → σ} {k : β → Decoding σ α}
    (hstore : ∀ b s, I s → I (f b s)) (hk : ∀ b, Settles I (k b) post R) :
    Settles I (do
      let t ← (liftM (stringAt cpp root key) : Decoding σ Bytes)
      let b ← (liftM (g t) : Decoding σ β)
      modify (f b)
      k b) post (HasString cpp root key ∧ R) := by
  refine (settles_lift_bind fun t _ => settles_always (hg t) hstore hk).congr ?_
  simp only [readAt_eq_ok, hroot, true_and, HasAs, exists_and_right]

theorem settles_layout (hroot : root.HasMembers) {f : S3MotrIdxLayout → σ → σ}
    {k : S3MotrIdxLayout → Decoding σ α} (hstore : ∀ lo s, I s → I (f lo s))
    (hk : ∀ lo, Settles I (k lo) post R) :
    Settles I (do
      let text ← (liftM (stringAt cpp root key) : Decoding σ Bytes)
      let lo ← (liftM (converted (toIdxLayout text)) : Decoding σ S3MotrIdxLayout)
      modify (f lo)
      k lo) post (HasLayout cpp root key ∧ R) := by
  refine (settles_lift_bind fun text _ => settles_store hstore fun lo _ => hk lo).congr ?_
  simp only [readAt_eq_ok, hroot, true_and, converted_layout, HasLayout, exists_and_right,
    ← and_assoc]

theorem settles_members (hroot : root.HasMembers) {k : List Bytes → Decoding σ α}
    (hk : (root.memberAt key).HasMembers → Settles I (k (root.memberAt key).names) post R) :
    Settles I (do
      let members ← (liftM (memberNamesAt root key) : Decoding σ (List Bytes))
      k members) post ((root.memberAt key).HasMembers ∧ R) := by
  refine (settles_lift_bind (R := fun _ => R) fun l hl => ?_).congr ?_
  · obtain ⟨-, hmembers, rfl⟩ := memberNamesAt_eq_ok.mp hl
    exact hk hmembers
  · simp only [memberNamesAt_eq_ok, hroot, true_and, and_assoc, exists_and_left, exists_eq_left]

variable {f : Bytes → Bytes → σ → σ}

theorem settles_values (hroot : root.HasMembers) (hmembers : (root.memberAt key).HasMembers)
    (hstore : ∀ it t s, I s → I (f it t s)) :
    Settles I (forM (root.memberAt key).names fun it => do
      let t ← (liftM (attributeAt cpp root key it) : Decoding σ Bytes)
      modify (f it t)) (fun _ => True)
      (∀ it ∈ (root.memberAt key).names,
        ∃ t, cpp.asString ((root.memberAt key).memberAt it) = .ok t) := by
  refine settles_forM _ fun it => ?_
  refine (settles_store_last (hstore it)).congr ?_
  simp only [attributeAt_eq_ok, hroot, hmembers, true_and]

theorem hasAttributes_iff :
    HasAttributes cpp root key ↔ (root.memberAt key).HasMembers ∧
      ∀ it ∈ (root.memberAt key).names,
        ∃ t, cpp.asString ((root.memberAt key).memberAt it) = .ok t :=
  ⟨fun h => ⟨h.members, h.values⟩, fun h => ⟨h.1, h.2⟩⟩

variable {k : Decoding σ α}

theorem settles_attributes (hroot : root.HasMembers) (hstore : ∀ it t s, I s → I (f it t s))
    (hk : Settles I k post R) :
    Settles I (do
      let members ← (liftM (memberNamesAt root key) : Decoding σ (List Bytes))
      forM members fun it => do
        let t ← (liftM (attributeAt cpp root key it) : Decoding σ Bytes)
        modify (f it t)
      k) post (HasAttributes cpp root key ∧ R) := by
  rw [hasAttributes_iff, and_assoc]
  refine settles_members hroot fun hmembers => ?_
  exact settles_bind (settles_values hroot hmembers hstore) fun _ _ => hk

/-- The same where the attributes there were are dropped first. -/
theorem settles_newAttributes (hroot : root.HasMembers) {clear : σ → σ}
    (hclear : ∀ s, I s → I (clear s)) (hstore : ∀ it t s, I s → I (f it t s))
    (hk : Settles I k post R) :
    Settles I (do
      let members ← (liftM (memberNamesAt root key) : Decoding σ (List Bytes))
      modify clear
      forM members fun it => do
        let t ← (liftM (attributeAt cpp root key it) : Decoding σ Bytes)
        modify (f it t)
      k) post (HasAttributes cpp root key ∧ R) := by
  rw [hasAttributes_iff, and_assoc]
  refine settles_members hroot fun hmembers => ?_
  refine (settles_bind (settles_modify hclear) fun _ _ => ?_).congr (and_iff_right trivial)
  exact settles_bind (settles_values hroot hmembers hstore) fun _ _ => hk

theorem settles_modify_bind {f : σ → σ} (hstore : ∀ s, I s → I (f s)) (hk : Settles I k post R) :
    Settles I (do
      modify f
      k) post R :=
  (settles_bind (settles_modify hstore) fun _ _ => hk).congr (and_iff_right trivial)

end Decoders

/-! ### The shapes of entries -/

section Shapes

variable (cpp : JsonCpp)

/-- The shape of an object that its decoder takes for granted. -/
structure ObjectShape (isMultipart : Bool) (root : Json.Value) : Prop where
  members : root.HasMembers
  strings : ∀ key ∈ [ascii "Bucket-Name", ascii "Object-Name", ascii "Object-URI",
    ascii "Upload-ID", ascii "motr_oid", ascii "ACL"], HasString cpp root key
  partLayout : HasLayout cpp root (ascii "motr_part_layout")
  layoutId : HasInt cpp root (ascii "layout_id")
  fragments : root.Has (ascii "FNo") → HasString cpp root (ascii "PVID") ∧
    HasUInt cpp root (ascii "FNo") ∧ HasUInt cpp root (ascii "PRTS")
  oldObject : isMultipart = true → HasString cpp root (ascii "motr_old_oid") ∧
    HasInt cpp root (ascii "old_layout_id") ∧
    HasString cpp root (ascii "motr_old_object_version_id")
  attributes : ∀ key ∈ [ascii "System-Defined", ascii "User-Defined", ascii "User-Defined-Tags"],
    HasAttributes cpp root key

/-- The shape of a part. -/
structure PartShape (root : Json.Value) : Prop where
  members : root.HasMembers
  strings : ∀ key ∈ [ascii "Bucket-Name", ascii "Object-Name", ascii "Upload-ID",
    ascii "Part-Num", ascii "motr_oid", ascii "PVID"], HasString cpp root key
  layoutId : HasInt cpp root (ascii "layout_id")
  attributes : ∀ key ∈ [ascii "System-Defined", ascii "User-Defined"], HasAttributes cpp root key

/-- The shape of a bucket. -/
structure BucketShape (root : Json.Value) : Prop where
  members : root.HasMembers
  strings : ∀ key ∈ [ascii "Bucket-Name", ascii "ACL", ascii "Policy"], HasString cpp root key
  layouts : ∀ key ∈ [ascii "motr_object_list_index_layout", ascii "motr_multipart_index_layout",
    ascii "extended_metadata_index_layout", ascii "motr_objects_version_list_index_layout"],
    HasLayout cpp root key
  attributes : ∀ key ∈ [ascii "System-Defined", ascii "User-Defined", ascii "User-Defined-Tags"],
    HasAttributes cpp root key

/-- The shape of an entry of the global bucket index. -/
structure BucketIndexShape (root : Json.Value) : Prop where
  members : root.HasMembers
  strings : ∀ key ∈ [ascii "account_name", ascii "account_id", ascii "location_constraint"],
    HasString cpp root key

end Shapes

/-! ### The decoders -/

section

variable {cpp : JsonCpp} {root : Json.Value}

theorem bucketIndex_settles (hroot : root.HasMembers) :
    Settles (fun _ => True) (S3GlobalBucketIndexMetadata.fromValue cpp root) (fun code => code = 0)
      (HasString cpp root (ascii "account_name") ∧ HasString cpp root (ascii "account_id") ∧
        HasString cpp root (ascii "location_constraint") ∧ True) := by
  refine settles_read hroot (fun _ _ h => h) fun accountName => ?_
  refine settles_read hroot (fun _ _ h => h) fun accountId => ?_
  refine settles_read hroot (fun _ _ h => h) fun locationConstraint => ?_
  exact settles_pure rfl

theorem part_settles (hroot : root.HasMembers) :
    Settles (fun _ => True) (S3PartMetadata.fromValue cpp root) (fun code => code = 0)
      (HasString cpp root (ascii "Bucket-Name") ∧ HasString cpp root (ascii "Object-Name") ∧
        HasString cpp root (ascii "Upload-ID") ∧ HasString cpp root (ascii "Part-Num") ∧
        HasString cpp root (ascii "motr_oid") ∧ HasInt cpp root (ascii "layout_id") ∧
        HasString cpp root (ascii "PVID") ∧ HasAttributes cpp root (ascii "System-Defined") ∧
        HasAttributes cpp root (ascii "User-Defined") ∧ True) := by
  refine settles_read hroot (fun _ _ h => h) fun bucketName => ?_
  refine settles_read hroot (fun _ _ h => h) fun objectName => ?_
  refine settles_read hroot (fun _ _ h => h) fun uploadId => ?_
  refine settles_read hroot (fun _ _ h => h) fun partNumber => ?_
  refine settles_read hroot (fun _ _ h => h) fun motrOidStr => ?_
  refine settles_always ⟨_, converted_id motrOidStr⟩ (fun _ _ h => h) fun oid => ?_
  refine settles_read hroot (fun _ _ h => h) fun layoutId => ?_
  refine settles_read hroot (fun _ _ h => h) fun pvidStr => ?_
  refine settles_attributes hroot (fun _ _ _ h => h) ?_
  refine settles_attributes hroot (fun _ _ _ h => h) ?_
  exact settles_pure rfl

theorem bucketOwner_settles :
    Settles (fun _ => True) S3BucketMetadata.readOwner (fun _ => True) True := by
  refine settles_modify_bind (fun _ h => h) ?_
  refine settles_modify_bind (fun _ h => h) ?_
  refine settles_modify_bind (fun _ h => h) ?_
  refine settles_modify_bind (fun _ h => h) ?_
  exact settles_modify fun _ h => h

theorem bucket_settles (hroot : root.HasMembers) :
    Settles (fun _ => True) (S3BucketMetadata.fromValue cpp root) (fun code => code = 0)
      (HasString cpp root (ascii "Bucket-Name") ∧ HasAttributes cpp root (ascii "System-Defined") ∧
        HasAttributes cpp root (ascii "User-Defined") ∧ True ∧
        HasLayout cpp root (ascii "motr_object_list_index_layout") ∧
        HasLayout cpp root (ascii "motr_multipart_index_layout") ∧
        HasLayout cpp root (ascii "extended_metadata_index_layout") ∧
        HasLayout cpp root (ascii "motr_objects_version_list_index_layout") ∧
        HasString cpp root (ascii "ACL") ∧ HasString cpp root (ascii "Policy") ∧
        HasAttributes cpp root (ascii "User-Defined-Tags") ∧ True) := by
  refine settles_read hroot (fun _ _ h => h) fun bucketName => ?_
  refine settles_newAttributes hroot (fun _ h => h) (fun _ _ _ h => h) ?_
  refine settles_newAttributes hroot (fun _ h => h) (fun _ _ _ h => h) ?_
  refine settles_bind bucketOwner_settles fun _ _ => ?_
  refine settles_layout hroot (fun _ _ h => h) fun objectListIndexLayout => ?_
  refine settles_layout hroot (fun _ _ h => h) fun multipartIndexLayout => ?_
  refine settles_layout hroot (fun _ _ h => h) fun extendedMetadataIndexLayout => ?_
  refine settles_layout hroot (fun _ _ h => h) fun objectsVersionListIndexLayout => ?_
  refine settles_read hroot (fun _ _ h => h) fun encodedAcl => ?_
  refine settles_derived hroot asserted_base64 (fun _ _ h => h) fun bucketPolicy => ?_
  refine settles_newAttributes hroot (fun _ h => h) (fun _ _ _ h => h) ?_
  exact settles_pure rfl

/-! An object knows from its constructor whether it belongs to an upload in parts. -/

variable {c : Bool}

theorem objectFragments_settles (hroot : root.HasMembers) :
    Settles (fun m => m.isMultipart = c) (S3ObjectMetadata.readFragments cpp root) (fun _ => True)
      (root.Has (ascii "FNo") → HasString cpp root (ascii "PVID") ∧
        HasUInt cpp root (ascii "FNo") ∧ HasUInt cpp root (ascii "PRTS")) := by
  refine (settles_lift_bind fun fragmented _ =>
    settles_if (P := HasString cpp root (ascii "PVID") ∧ HasUInt cpp root (ascii "FNo") ∧
      HasUInt cpp root (ascii "PRTS")) (fun _ => ?_) fun _ => settles_pure trivial).congr ?_
  · refine settles_read hroot (fun _ _ h => h) fun pvidStr => ?_
    refine settles_read hroot (fun _ _ h => h) fun objFragments => ?_
    refine (settles_store_last ?_).congr ?_
    · exact fun _ _ h => h
    · simp only [readAt_eq_ok, hroot, true_and, HasAs]
  · simp only [Json.Value.isMember_eq_ok, hroot, true_and]
    constructor
    · rintro ⟨b, hb, hthen⟩ hhas
      exact hthen (hb.mpr hhas)
    · intro hthen
      by_cases hhas : root.Has (ascii "FNo")
      · exact ⟨true, iff_of_true rfl hhas, fun _ => hthen hhas⟩
      · exact ⟨false, iff_of_false (by simp) hhas, fun h => absurd h (by simp)⟩

theorem oldObject_settles (hroot : root.HasMembers) :
    Settles (fun m => m.isMultipart = c) (S3ObjectMetadata.readOldObject cpp root) (fun _ => True)
      (c = true → HasString cpp root (ascii "motr_old_oid") ∧
        HasInt cpp root (ascii "old_layout_id") ∧
        HasString cpp root (ascii "motr_old_object_version_id")) := by
  refine settles_get_bind fun m hm => ?_
  rw [hm]
  refine settles_if (fun _ => ?_) fun _ => settles_pure trivial
  refine settles_read hroot (fun _ _ h => h) fun motrOldOidStr => ?_
  refine settles_always ⟨_, converted_id motrOldOidStr⟩ (fun _ _ h => h) fun oldOid => ?_
  refine settles_read hroot (fun _ _ h => h) fun oldLayoutId => ?_
  refine (settles_store_last ?_).congr ?_
  · exact fun _ _ h => h
  · simp only [readAt_eq_ok, hroot, true_and, HasAs]

theorem objectOwner_settles :
    Settles (fun m => m.isMultipart = c) S3ObjectMetadata.readOwner (fun _ => True) True := by
  refine settles_modify_bind (fun _ h => h) ?_
  refine settles_modify_bind (fun _ h => h) ?_
  refine settles_modify_bind (fun _ h => h) ?_
  refine settles_modify_bind (fun _ h => h) ?_
  refine settles_modify_bind (fun _ h => h) ?_
  exact settles_modify fun _ h => h

theorem object_settles (hroot : root.HasMembers) :
    Settles (fun m => m.isMultipart = c) (S3ObjectMetadata.fromValue cpp root)
      (fun code => code = 0)
      (HasString cpp root (ascii "Bucket-Name") ∧ HasString cpp root (ascii "Object-Name") ∧
        HasString cpp root (ascii "Object-URI") ∧ HasString cpp root (ascii "Upload-ID") ∧
        ∃ layout, stringAt cpp root (ascii "motr_part_layout") = .ok layout ∧
        HasString cpp root (ascii "motr_oid") ∧ HasInt cpp root (ascii "layout_id") ∧
        (root.Has (ascii "FNo") → HasString cpp root (ascii "PVID") ∧
          HasUInt cpp root (ascii "FNo") ∧ HasUInt cpp root (ascii "PRTS")) ∧
        (c = true → HasString cpp root (ascii "motr_old_oid") ∧
          HasInt cpp root (ascii "old_layout_id") ∧
          HasString cpp root (ascii "motr_old_object_version_id")) ∧
        (∃ lo, converted (toIdxLayout layout) = .ok lo) ∧
        HasAttributes cpp root (ascii "System-Defined") ∧ True ∧
        HasAttributes cpp root (ascii "User-Defined") ∧
        HasAttributes cpp root (ascii "User-Defined-Tags") ∧
        HasString cpp root (ascii "ACL") ∧ True) := by
  refine settles_read hroot (fun _ _ h => h) fun bucketName => ?_
  refine settles_read hroot (fun _ _ h => h) fun objectName => ?_
  refine settles_read hroot (fun _ _ h => h) fun objectKeyUri => ?_
  refine settles_read hroot (fun _ _ h => h) fun uploadId => ?_
  refine settles_lift_bind fun layout _ => ?_
  refine settles_modify_bind (fun _ h => h) ?_
  refine settles_read hroot (fun _ _ h => h) fun motrOidStr => ?_
  refine settles_read hroot (fun _ _ h => h) fun layoutId => ?_
  refine settles_bind (objectFragments_settles hroot) fun _ _ => ?_
  refine settles_modify_bind (fun _ h => h) ?_
  refine settles_always ⟨_, converted_id motrOidStr⟩ (fun _ _ h => h) fun oid => ?_
  refine settles_bind (oldObject_settles hroot) fun _ _ => ?_
  refine settles_store (fun _ _ h => h) fun partIndexLayout _ => ?_
  refine settles_attributes hroot (fun _ _ _ h => h) ?_
  refine settles_bind objectOwner_settles fun _ _ => ?_
  refine settles_get_bind fun m _ => ?_
  refine settles_always (asserted_keyid m.objectVersionId) (fun _ _ h => h) fun key => ?_
  refine settles_attributes hroot (fun _ _ _ h => h) ?_
  refine settles_attributes hroot (fun _ _ _ h => h) ?_
  refine settles_read hroot (fun _ _ h => h) fun encodedAcl => ?_
  exact settles_pure rfl

/-- The first access already raises, where the value has no members. -/
theorem settles_refused {σ α : Type} {I : σ → Prop} {post : α → Prop} {key : Bytes}
    (hroot : ¬ root.HasMembers) (k : Bytes → Decoding σ α) :
    Settles I (do
      let t ← (liftM (stringAt cpp root key) : Decoding σ Bytes)
      k t) post False :=
  settles_fail fun _ ht => hroot (readAt_eq_ok.mp ht).1

end

/-! ### Decoders and shapes -/

section

variable (cpp : JsonCpp) (root : Json.Value)

theorem object_settles_shape (isMultipart : Bool) :
    Settles (fun m => m.isMultipart = isMultipart) (S3ObjectMetadata.fromValue cpp root)
      (fun code => code = 0) (ObjectShape cpp isMultipart root) := by
  by_cases hroot : root.HasMembers
  · refine (object_settles hroot).congr ?_
    simp only [converted_layout, readAt_eq_ok, hroot, true_and]
    constructor
    · rintro ⟨hbucket, hobject, huri, hupload, layout, hlayout, hoid, hint, hfragments, hold, hlen,
        hsystem, huser, htags, hacl, -⟩
      refine ⟨hroot, ?_, ⟨layout, hlayout, hlen⟩, hint, hfragments, hold, ?_⟩
      · simp [hbucket, hobject, huri, hupload, hoid, hacl]
      · simp [hsystem, huser, htags]
    · rintro ⟨-, hstrings, ⟨layout, hlayout, hlen⟩, hint, hfragments, hold, hattributes⟩
      simp only [forall_mem_cons] at hstrings hattributes
      obtain ⟨hbucket, hobject, huri, hupload, hoid, hacl, -⟩ := hstrings
      obtain ⟨hsystem, huser, htags, -⟩ := hattributes
      exact ⟨hbucket, hobject, huri, hupload, layout, hlayout, hoid, hint, hfragments, hold, hlen,
        hsystem, huser, htags, hacl, trivial⟩
  · exact (settles_refused hroot _).congr ⟨False.elim, fun h => hroot h.members⟩

theorem part_settles_shape :
    Settles (fun _ => True) (S3PartMetadata.fromValue cpp root) (fun code => code = 0)
      (PartShape cpp root) := by
  by_cases hroot : root.HasMembers
  · refine (part_settles hroot).congr ?_
    constructor
    · rintro ⟨hbucket, hobject, hupload, hnumber, hoid, hint, hpvid, hsystem, huser, -⟩
      refine ⟨hroot, ?_, hint, ?_⟩
      · simp [hbucket, hobject, hupload, hnumber, hoid, hpvid]
      · simp [hsystem, huser]
    · rintro ⟨-, hstrings, hint, hattributes⟩
      simp only [forall_mem_cons] at hstrings hattributes
      obtain ⟨hbucket, hobject, hupload, hnumber, hoid, hpvid, -⟩ := hstrings
      obtain ⟨hsystem, huser, -⟩ := hattributes
      exact ⟨hbucket, hobject, hupload, hnumber, hoid, hint, hpvid, hsystem, huser, trivial⟩
  · exact (settles_refused hroot _).congr ⟨False.elim, fun h => hroot h.members⟩

theorem bucket_settles_shape :
    Settles (fun _ => True) (S3BucketMetadata.fromValue cpp root) (fun code => code = 0)
      (BucketShape cpp root) := by
  by_cases hroot : root.HasMembers
  · refine (bucket_settles hroot).congr ?_
    constructor
    · rintro ⟨hbucket, hsystem, huser, -, hlist, hmultipart, hextended, hversions, hacl, hpolicy,
        htags, -⟩
      refine ⟨hroot, ?_, ?_, ?_⟩
      · simp [hbucket, hacl, hpolicy]
      · simp [hlist, hmultipart, hextended, hversions]
      · simp [hsystem, huser, htags]
    · rintro ⟨-, hstrings, hlayouts, hattributes⟩
      simp only [forall_mem_cons] at hstrings hlayouts hattributes
      obtain ⟨hbucket, hacl, hpolicy, -⟩ := hstrings
      obtain ⟨hlist, hmultipart, hextended, hversions, -⟩ := hlayouts
      obtain ⟨hsystem, huser, htags, -⟩ := hattributes
      exact ⟨hbucket, hsystem, huser, trivial, hlist, hmultipart, hextended, hversions, hacl,
        hpolicy, htags, trivial⟩
  · exact (settles_refused hroot _).congr ⟨False.elim, fun h => hroot h.members⟩

theorem bucketIndex_settles_shape :
    Settles (fun _ => True) (S3GlobalBucketIndexMetadata.fromValue cpp root) (fun code => code = 0)
      (BucketIndexShape cpp root) := by
  by_cases hroot : root.HasMembers
  · refine (bucketIndex_settles hroot).congr ?_
    constructor
    · rintro ⟨hname, hid, hlocation, -⟩
      exact ⟨hroot, by simp [hname, hid, hlocation]⟩
    · rintro ⟨-, hstrings⟩
      simp only [forall_mem_cons] at hstrings
      obtain ⟨hname, hid, hlocation, -⟩ := hstrings
      exact ⟨hname, hid, hlocation, trivial⟩
  · exact (settles_refused hroot _).congr ⟨False.elim, fun h => hroot h.members⟩

end

/-! ### Every text -/

/-- An entry is read: the text is no JSON, or JSON of the shape. -/
def Parses (cpp : JsonCpp) (content : Bytes) (Shape : Json.Value → Prop) : Prop :=
  ∃ parsed, cpp.parse (cStr content) = .ok parsed ∧ ∀ root ∈ parsed, Shape root

/-- The decoder comes to its end, returns 0 or −1, and with −1 has changed nothing. -/
def Reports {σ : Type} (fromJson : Decoding σ Int) (m : σ) : Prop :=
  ∃ code m', fromJson.run m = .ok (code, m') ∧ (code = 0 ∨ code = -1) ∧ (code = -1 → m' = m)

theorem reports_iff {cpp : JsonCpp} {content : Bytes} {σ : Type} {I : σ → Prop} {m : σ} (hI : I m)
    {fromValue : Json.Value → Decoding σ Int} {Shape : Json.Value → Prop}
    (hshape : ∀ root, Settles I (fromValue root) (fun code => code = 0) (Shape root)) :
    Reports (do
      match ← (liftM (cpp.parse (cStr content)) : Decoding σ (Option Json.Value)) with
      | none => return -1
      | some root => fromValue root) m ↔ Parses cpp content Shape := by
  unfold Reports Parses
  cases hparse : cpp.parse (cStr content) with
  | error e =>
    constructor
    · rintro ⟨code, m', hrun, -⟩
      cases hrun
    · rintro ⟨parsed, h, -⟩
      cases h
  | ok parsed =>
    cases parsed with
    | none =>
      constructor
      · exact fun _ => ⟨none, rfl, by simp⟩
      · exact fun _ => ⟨-1, m, rfl, .inr rfl, fun _ => rfl⟩
    | some root =>
      constructor
      · rintro ⟨code, m', hrun, -⟩
        have hroot : Shape root := ((hshape root).ends hI).mp ⟨_, hrun⟩
        exact ⟨some root, rfl, by simpa using hroot⟩
      · rintro ⟨parsed, h, hroot⟩
        obtain rfl := Except.ok.inj h
        obtain ⟨⟨code, m'⟩, hrun⟩ := ((hshape root).ends hI).mpr (hroot root rfl)
        have hcode : code = 0 := ((hshape root).keeps hI hrun).1
        exact ⟨code, m', hrun, .inl hcode, fun h => absurd (hcode.symm.trans h) (by decide)⟩

/-- **Which entries are reported and not fatal**: those that are no JSON, and those whose JSON has
the shape that the decoder takes for granted. -/
theorem fromJson_reports_iff (cpp : JsonCpp) (content : Bytes) (object : S3ObjectMetadata)
    (part : S3PartMetadata) (bucket : S3BucketMetadata) (entry : S3GlobalBucketIndexMetadata) :
    (Reports (S3ObjectMetadata.fromJson cpp content) object ↔
      Parses cpp content (ObjectShape cpp object.isMultipart)) ∧
    (Reports (S3PartMetadata.fromJson cpp content) part ↔ Parses cpp content (PartShape cpp)) ∧
    (Reports (S3BucketMetadata.fromJson cpp content) bucket ↔
      Parses cpp content (BucketShape cpp)) ∧
    (Reports (S3GlobalBucketIndexMetadata.fromJson cpp content) entry ↔
      Parses cpp content (BucketIndexShape cpp)) := by
  refine ⟨?_, ?_, ?_, ?_⟩
  · exact reports_iff (I := fun m => m.isMultipart = object.isMultipart) rfl fun root =>
      object_settles_shape cpp root object.isMultipart
  · exact reports_iff (I := fun _ => True) trivial fun root => part_settles_shape cpp root
  · exact reports_iff (I := fun _ => True) trivial fun root => bucket_settles_shape cpp root
  · exact reports_iff (I := fun _ => True) trivial fun root => bucketIndex_settles_shape cpp root

/-- JsonCpp as it reads `[]`. -/
def emptyArray : JsonCpp where
  parse text := .ok (if text = ascii "[]" then some (.array []) else none)
  asString
    | .null => .ok []
    | .boolean b => .ok (if b then ascii "true" else ascii "false")
    | .number text => .ok text
    | .string s => .ok s
    | _ => .error .exception
  asInt
    | .null => .ok 0
    | _ => .error .exception
  asUInt
    | .null => .ok 0
    | _ => .error .exception

/-- An array, which no decoder survives. -/
theorem not_reports_emptyArray :
    ¬ Reports (S3ObjectMetadata.fromJson emptyArray (ascii "[]")) { isMultipart := false } ∧
      ¬ Reports (S3PartMetadata.fromJson emptyArray (ascii "[]")) {} ∧
      ¬ Reports (S3BucketMetadata.fromJson emptyArray (ascii "[]")) {} ∧
      ¬ Reports (S3GlobalBucketIndexMetadata.fromJson emptyArray (ascii "[]")) {} := by
  refine ⟨?_, ?_, ?_, ?_⟩ <;>
    · rintro ⟨code, m', hrun, -⟩
      cases hrun

end CortxS3.MetadataRecords
